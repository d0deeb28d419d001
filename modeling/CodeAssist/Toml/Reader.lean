import CodeAssist.Toml.Scalar
import CodeAssist.Toml.Table

/-!
# Reading TOML

A document is a list of lines, each with a header, with a key and its value, or with neither.
Arrays and inline tables may reach over several lines. Keys with too many parts and values that are
nested too deeply are refused (`maxDepth`). The recursion runs on a bound on the number of
characters.
-/

namespace CodeAssist.Toml

open CodeAssist.Json (Value)

/-! ### Blanks and comments -/

/-- The text behind a comment, if there is one; a comment ends with its line. -/
def skipComment? (cs : List Char) : Option (List Char) :=
  match cs with
  | '#' :: cs =>
    let rest := cs.dropWhile isPlain
    if rest.isEmpty || (lineBreak? rest).isSome then some rest else none
  | _ => some cs

/-- The text behind blanks, comments and line breaks. -/
def skipLines? : (fuel : Nat) → List Char → Option (List Char)
  | 0, _ => none
  | fuel + 1, cs => do
    let cs ← skipComment? (cs.dropWhile isSpace)
    match lineBreak? cs with
    | some rest => skipLines? fuel rest
    | none => some cs

/-- How many parts a key may have, and how deeply arrays and inline tables may be nested. -/
def maxDepth : Nat := 80

/-! ### Keys -/

/-- Whether a character may stand in an unquoted key. -/
def isBareKeyChar (c : Char) : Bool :=
  c.isAlphanum || c = '_' || c = '-'

/-- A key without dots. -/
def simpleKey? (cs : List Char) : Option (String × List Char) :=
  match cs with
  | '"' :: _ | '\'' :: _ => (quotedLine? cs).map fun (key, rest) => (String.ofList key, rest)
  | _ =>
    let key := cs.takeWhile isBareKeyChar
    if key.isEmpty then none else some (String.ofList key, cs.dropWhile isBareKeyChar)

/-- A key with at most the given number of parts: the path before its last part, that part, and the
text behind it. -/
def keyWithin? : (parts : Nat) → List Char → Option (List String × String × List Char)
  | 0, _ => none
  | parts + 1, cs => do
    let (key, rest) ← simpleKey? cs
    match rest.dropWhile isSpace with
    | '.' :: rest =>
      let (path, last, rest) ← keyWithin? parts (rest.dropWhile isSpace)
      return (key :: path, last, rest)
    | rest => return ([], key, rest)

/-- A key at the start of a text. -/
def key? (cs : List Char) : Option (List String × String × List Char) :=
  keyWithin? maxDepth cs

/-! ### Values -/

mutual
/-- The value at the start of a text, in which `room` more levels may be nested. -/
def valueWithin? (room : Nat) : (fuel : Nat) → List Char → Option (Value × List Char)
  | 0, _ => none
  | fuel + 1, cs =>
    match cs, room with
    | '[' :: _, 0 | '\x7b' :: _, 0 => none
    | '[' :: cs, room + 1 => (items? room fuel cs).map fun (items, rest) => (.array items, rest)
    | '\x7b' :: cs, room + 1 => (inline? room fuel [] cs).map fun (members, rest) =>
        (.object (finishMembers members), rest)
    | '"' :: _, _ | '\'' :: _, _ => (quoted? cs).map fun (text, rest) =>
        (.text (String.ofList text), rest)
    | _, _ => bare? cs

/-- The items of an array up to its end; a comma may stand behind the last one. -/
def items? (room : Nat) : (fuel : Nat) → List Char → Option (List Value × List Char)
  | 0, _ => none
  | fuel + 1, cs => do
    let cs ← skipLines? (cs.length + 1) cs
    match cs with
    | ']' :: rest => some ([], rest)
    | _ =>
      let (v, cs) ← valueWithin? room fuel cs
      let cs ← skipLines? (cs.length + 1) cs
      match cs with
      | ',' :: rest =>
        let (vs, rest) ← items? room fuel rest
        return (v :: vs, rest)
      | ']' :: rest => return ([v], rest)
      | _ => none

/-- The members of an inline table up to its end, after those that were read before. Lines may end
between any two of its marks. -/
def inline? (room : Nat) : (fuel : Nat) → Members → List Char → Option (Members × List Char)
  | 0, _, _ => none
  | fuel + 1, members, cs => do
    let cs ← skipLines? (cs.length + 1) cs
    match cs with
    | '\x7d' :: rest => some (members, rest)
    | _ =>
      let (path, key, cs) ← key? cs
      let cs ← skipLines? (cs.length + 1) cs
      let cs ← expect? '=' cs
      let cs ← skipLines? (cs.length + 1) cs
      let (v, cs) ← valueWithin? room fuel cs
      let members ← members.addDotted path key v
      let cs ← skipLines? (cs.length + 1) cs
      match cs with
      | ',' :: rest => inline? room fuel members rest
      | '\x7d' :: rest => return (members, rest)
      | _ => none
end

/-- The value at the start of a text. -/
def value? (cs : List Char) : Option (Value × List Char) :=
  valueWithin? maxDepth (cs.length + 1) cs

/-! ### Documents -/

/-- Where the keys of the lines to come belong. -/
inductive Place where
  | root
  /-- The table at the end of a header's path. -/
  | table (path : List String)

/-- Adds a value under a key of the current table. -/
def assign (place : Place) (path : List String) (key : String) (v : Value) (members : Members) :
    Option Members :=
  match place with
  | .root => members.addDotted path key v
  | .table header => members.atHeader (fun inner => inner.addDotted path key v) header

/-- The state of a document behind a line: where its keys belong, and what stands in it. -/
abbrev Progress := Place × Members

/-- A header behind its opening brackets. -/
def header? (double : Bool) (members : Members) (cs : List Char) :
    Option (Progress × List Char) := do
  let (path, key, cs) ← key? (cs.dropWhile isSpace)
  let cs ← expect? ']' (cs.dropWhile isSpace)
  let cs ← if double then expect? ']' cs else some cs
  let members ← if double then members.appendTable path key else members.openTable path key
  return ((.table (path ++ [key]), members), cs)

/-- A key and its value. -/
def assignment? (progress : Progress) (cs : List Char) : Option (Progress × List Char) := do
  let (path, key, cs) ← key? cs
  let cs ← expect? '=' (cs.dropWhile isSpace)
  let (v, cs) ← value? (cs.dropWhile isSpace)
  let members ← assign progress.1 path key v progress.2
  return ((progress.1, members), cs)

/-- What a line writes, without its break. -/
def expression? (progress : Progress) (cs : List Char) : Option (Progress × List Char) :=
  match cs with
  | [] | '#' :: _ | '\n' :: _ | '\r' :: _ => some (progress, cs)
  | '[' :: '[' :: cs => header? true progress.2 cs
  | '[' :: cs => header? false progress.2 cs
  | _ => assignment? progress cs

/-- The lines of a document. -/
def document? : (fuel : Nat) → Progress → List Char → Option Members
  | 0, _, _ => none
  | fuel + 1, progress, cs => do
    let (progress, cs) ← expression? progress (cs.dropWhile isSpace)
    match ← skipComment? (cs.dropWhile isSpace) with
    | [] => some progress.2
    -- Nothing but a comment may follow on a line.
    | cs => document? fuel progress (← lineBreak? cs)

/-- The value that a document writes. -/
def read? (text : String) : Option Value :=
  -- A mark of the byte order may open the document.
  let cs := match text.toList with
    | '\ufeff' :: cs => cs
    | cs => cs
  (document? (cs.length + 1) (.root, []) cs).map fun members => .object (finishMembers members)

end CodeAssist.Toml
