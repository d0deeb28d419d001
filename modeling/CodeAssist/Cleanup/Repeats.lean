import CodeAssist.Settings
import CodeAssist.Text.Alphanumeric
import CodeAssist.Text.Blank
import CodeAssist.Text.CommonLines
import CodeAssist.Text.Lines

/-!
# Removing repeated lines

A model tends to repeat lines of the code that it was shown. `removeRepeats` looks for lines of
the reply, from the first line break on, that also stand before that break, where blanks at the
ends of lines do not matter. They come in groups of lines that follow each other in both texts. A
group is dropped when it is a single comment, when it is a large block of little variety, or when
it is the line before the break once more. The rest of the current line is always kept.
-/

namespace CodeAssist.Cleanup

open CodeAssist

/-! ### What a group of lines looks like -/

/-- How a comment may begin, in any language. -/
def commentOpeners : List (List Char) :=
  [['/', '*'], ['/', '/'], ['#']]

/-- The characters that make up the brackets and operators of code. -/
def codeMarks : List Char :=
  ['(', ')', '[', ']', ';', '.', ',', '$', '%', '&', '^', '*', '@', '#', '!', '\x7b', '\x7d', '/']

/-- Whether some lines are one line with a comment. -/
def isLoneComment : List (List Char) → Bool
  | [line] => commentOpeners.any fun marker => marker.isPrefixOf (Text.trimStart line)
  | _ => false

/-- Whether some lines are a large block with few special and few different characters. -/
def isMonotonous (settings : RepeatSettings) (lines : List (List Char)) : Bool :=
  let chars := lines.flatMap Text.trim
  let total := chars.length.toFloat
  let special := (chars.countP codeMarks.contains).toFloat
  let different := chars.eraseDups.length.toFloat
  settings.minBlockSize ≤ lines.length && !chars.isEmpty &&
    special / total < settings.minSpecialChars.toFloat &&
    different / total < settings.minDiversityChars.toFloat

/-! ### The line before the break -/

/-- The position of the first line after the break that is not blank, where it repeats the last
such line before the break and looks like code. The lines are trimmed. -/
def echoedLine? (before after : List (List Char)) (minChars : Nat) : Option Nat := do
  let last ← before.reverse.find? fun line => !line.isEmpty
  let position ← after.findIdx? fun line => !line.isEmpty
  let first := after.getD position []
  -- A bare closing bracket has no letter or number, so it is no echo.
  if first = last && minChars ≤ first.countP (fun c => !Text.isBlank c) &&
      first.any Text.isAlphanumeric then
    some position
  else none

/-! ### Groups that are dropped -/

/-- Whether to drop a group of matched lines. The group reaches over all lines from its first to
its last one, and `lines` are these. -/
def isDropped (settings : RepeatSettings) (echoed : Option Nat) (group : List Nat)
    (lines : List (List Char)) : Bool :=
  isLoneComment lines || isMonotonous settings lines ||
    (group.length = 1 && echoed = group.head?)

/-- The first and the last line of each group that is dropped, among the lines after the break. -/
def droppedSpans (settings : RepeatSettings) (before after : List (List Char)) :
    List (Nat × Nat) :=
  let before := before.map Text.trim
  let trimmed := after.map Text.trim
  let echoed := if settings.dropEchoedLine then
      echoedLine? before trimmed settings.echoedLineMinChars
    else none
  (Text.commonLines before trimmed).filterMap fun group => do
    let first ← group.head?
    let last ← group.getLast?
    -- Lines between two members of a group count as part of it, matched or not.
    let lines := (after.take (last + 1)).drop first
    if isDropped settings echoed group lines then some (first, last) else none

/-! ### The reply -/

/-- The lines outside some spans. -/
def keepOutside (spans : List (Nat × Nat)) (lines : List (List Char)) : List (List Char) :=
  (lines.zipIdx.filter fun (_, i) =>
    !spans.any fun (first, last) => first ≤ i && i ≤ last).map Prod.fst

/-- A reply without the lines that repeat the context. -/
def removeRepeats (context completion : String) (settings : RepeatSettings) : String :=
  match Text.restOfLine? context.toList completion.toList with
  -- Only the current line is completed.
  | none => completion
  | some (rest, following) =>
    let before := Text.segments (context.toList ++ rest)
    let after := Text.segments following
    String.ofList (rest ++ (keepOutside (droppedSpans settings before after) after).flatten)

end CodeAssist.Cleanup
