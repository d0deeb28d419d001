import CodeAssist.Analysis.Blocks
import CodeAssist.Analysis.Comments
import CodeAssist.Analysis.Outcome
import CodeAssist.Analysis.Symbols

/-!
# Cutting a completion to the code around it

A completion that is nothing but comments is discarded, one that runs past the block around its
start is cut there, and one that breaks the code behind it loses characters at its end as long as
that lowers the number of errors. Where the text has no syntax tree, a completion stays as it is.
-/

namespace CodeAssist.Cleanup

open CodeAssist
open CodeAssist.Tree (Parser)
open CodeAssist.Analysis (defaultCeiling)

/-! ### Nothing but comments -/

/-- A completion, or nothing where it consists of comments. -/
def discardComments (parser : Parser) (completion : String) (language : Option Language) :
    String :=
  if completion = "" then ""
  else match (tryParse parser completion language).ready? with
    | some tree => if Analysis.isAllComments tree defaultCeiling then "" else completion
    | none => completion

/-! ### Running past the block -/

/-- A completion up to the end of the tightest block of at least `minRows` rows around its first
character that is not blank. -/
def trimToBlock (parser : Parser) (before completion : String) (language : Option Language)
    (minRows : Nat) : String :=
  let code := before ++ completion
  let start := Text.byteSize before.toList
  let cut? : Option (List Char) := do
    -- Nothing is parsed for a blank completion.
    let target ← Text.firstVisiblePoint? code.toList start
    let tree ← (tryParse parser code language).ready?
    let block := Analysis.tightestBlock tree target minRows defaultCeiling
    let stop ← Text.offsetAt? code.toList block.stop
    -- A block that ends before the completion cuts nothing off.
    Text.slice? start stop code.toList
  match cut? with
  | some kept => String.ofList kept
  | none => completion

/-! ### Breaking the code behind -/

/-- The number of innermost nodes with a syntax error, where the code can be parsed. -/
def errorCount? (parser : Parser) (code : String) (language : Option Language) : Option Nat :=
  ((tryParse parser code language).map fun tree =>
    (Analysis.innermostErrors tree defaultCeiling).length).ready?

/-- Takes away the last visible character, and the blanks behind it, again and again while each
time the error count goes down from its last value `best`. -/
def repair (count? : List Char → Option Nat) : (attempts best : Nat) → List Char → List Char
  | 0, _, text => text
  | attempts + 1, best, text =>
    if best = 0 then text
    else
      let trimmed := Text.trimEnd text
      if trimmed.isEmpty then text
      else
        match count? trimmed.dropLast with
        | some count =>
          -- The first step that does not help ends the repair.
          if count < best then repair count? attempts count trimmed.dropLast else text
        | none => text

/-- A completion without the characters at its end that break the code behind it. -/
def repairEnd (parser : Parser) (before completion after : String) (language : Option Language)
    (maxAttempts : Nat) : String :=
  let count? := fun candidate : List Char =>
    errorCount? parser (before ++ String.ofList candidate ++ after) language
  if (Text.trim after.toList).isEmpty || completion = "" then completion
  else match count? completion.toList with
    | none => completion
    | some best =>
      String.ofList (repair count? (min maxAttempts completion.toList.length) best
        completion.toList)

end CodeAssist.Cleanup
