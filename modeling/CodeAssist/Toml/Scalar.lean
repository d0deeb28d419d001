import CodeAssist.Decimal.Reading
import CodeAssist.Json.Token

/-!
# TOML scalars

The values of TOML that hold no other values: constants, integers in four bases, floating-point
numbers, dates and times, and texts in four kinds of quotes. They are read as the values that JSON
has; a date or a time becomes an object under a name that no record has, so that it is neither a
number nor a text.
-/

namespace CodeAssist.Toml

open CodeAssist.Json (Value)

/-! ### Numbers -/

/-- The digits of a row in which single underscores may stand between two digits. -/
def digitRun? (isDigit : Char → Bool) : List Char → Option (List Char)
  | [] => none
  | [c] => if isDigit c then some [c] else none
  | c :: '_' :: cs => if isDigit c then (digitRun? isDigit cs).map (c :: ·) else none
  | c :: cs => if isDigit c then (digitRun? isDigit cs).map (c :: ·) else none

/-- The value of digits in a base of at most sixteen. -/
def valueIn (base : Nat) (digits : List Char) : Nat :=
  digits.foldl (fun n c => base * n + (Json.hexValue? c).getD 0) 0

/-- Whether a character is a digit in a base of at most sixteen. -/
def isDigitIn (base : Nat) (c : Char) : Bool :=
  (Json.hexValue? c).any fun value => value < base

/-- The integer with some magnitude, invalid beyond 128 bits. -/
def integer (negative : Bool) (magnitude : Nat) : Value :=
  if negative && 0 < magnitude then
    -- One bit of a negative number is its sign.
    if magnitude ≤ Nat.pow 2 127 then .number (.negative magnitude) else .invalid
  else if magnitude < Nat.pow 2 128 then .number (.natural magnitude) else .invalid

/-- The integer that digits write in a base of at most sixteen. -/
def based? (base : Nat) (digits : List Char) : Option Value :=
  (digitRun? (isDigitIn base) digits).map fun digits => integer false (valueIn base digits)

/-- The digits of a whole number, which starts with a zero only if that is all of it. -/
def wholeDigits? (cs : List Char) : Option (List Char) :=
  match digitRun? Char.isDigit cs with
  | some ('0' :: _ :: _) => none
  | digits => digits

/-- The power of ten behind the mark of an exponent. -/
def power? (cs : List Char) : Option Int :=
  let (negative, cs) := match cs with
    | '-' :: cs => (true, cs)
    | '+' :: cs => (false, cs)
    | _ => (false, cs)
  (digitRun? Char.isDigit cs).map fun digits =>
    let n : Int := Decimal.digitsValue digits
    if negative then -n else n

/-- A decimal number without its sign: whole digits, and a fraction or an exponent where it is no
integer. -/
def decimal? (negative : Bool) (cs : List Char) : Option Value := do
  let isMark := fun c => c = 'e' || c = 'E'
  let mantissa := cs.takeWhile fun c => !isMark c
  let mark := cs.dropWhile fun c => !isMark c
  let whole ← wholeDigits? (mantissa.takeWhile (· ≠ '.'))
  let fraction ← match mantissa.dropWhile (· ≠ '.') with
    | [] => pure none
    | _ :: rest => (digitRun? Char.isDigit rest).map some
  let power ← match mark with
    | [] => pure none
    | _ :: rest => (power? rest).map some
  -- Without a point and an exponent the number is an integer.
  if fraction.isNone && power.isNone then
    return integer negative (Decimal.digitsValue whole)
  let places := fraction.getD []
  let d := Decimal.nearest (Decimal.digitsValue (whole ++ places))
    (power.getD 0 - places.length)
  if d.isInf then return .invalid
  return .float (if negative then -d else d)

/-- A number. -/
def number? (cs : List Char) : Option Value :=
  match cs with
  | '0' :: 'x' :: digits => based? 16 digits
  | '0' :: 'o' :: digits => based? 8 digits
  | '0' :: 'b' :: digits => based? 2 digits
  | ['i', 'n', 'f'] | ['+', 'i', 'n', 'f'] => some (.float .infinity)
  | ['-', 'i', 'n', 'f'] => some (.float (-.infinity))
  | ['n', 'a', 'n'] | ['+', 'n', 'a', 'n'] => some (.float .notANumber)
  | ['-', 'n', 'a', 'n'] => some (.float (-.notANumber))
  | '+' :: rest => decimal? false rest
  | '-' :: rest => decimal? true rest
  | _ => decimal? false cs

/-! ### Dates and times -/

/-- The number that a given count of digits writes at the start of a text. -/
def digits? (count : Nat) (cs : List Char) : Option (Nat × List Char) :=
  let digits := cs.take count
  if digits.length = count && digits.all Char.isDigit then
    some (Decimal.digitsValue digits, cs.drop count)
  else none

/-- The text behind a given character. -/
def expect? (c : Char) : List Char → Option (List Char)
  | [] => none
  | d :: cs => if c = d then some cs else none

/-- Number of days of a month. -/
def daysIn (year month : Nat) : Nat :=
  if month = 2 then if (year % 4 = 0 && year % 100 ≠ 0) || year % 400 = 0 then 29 else 28
  else if [4, 6, 9, 11].contains month then 30 else 31

/-- The text behind a date. -/
def date? (cs : List Char) : Option (List Char) := do
  let (year, cs) ← digits? 4 cs
  let (month, cs) ← digits? 2 (← expect? '-' cs)
  let (day, cs) ← digits? 2 (← expect? '-' cs)
  if 1 ≤ month && month ≤ 12 && 1 ≤ day && day ≤ daysIn year month then some cs else none

/-- The text behind the fraction of a second, if there is one. -/
def secondFraction? (cs : List Char) : Option (List Char) :=
  match cs with
  | '.' :: rest => if (rest.takeWhile Char.isDigit).isEmpty then none
      else some (rest.dropWhile Char.isDigit)
  | _ => some cs

/-- The text behind a time of day; its seconds may be left out. -/
def time? (cs : List Char) : Option (List Char) := do
  let (hour, cs) ← digits? 2 cs
  let (minute, cs) ← digits? 2 (← expect? ':' cs)
  if 23 < hour || 59 < minute then none
  match cs with
  | ':' :: cs =>
    let (second, cs) ← digits? 2 cs
    if 60 < second then none
    secondFraction? cs
  | _ => some cs

/-- The text behind an offset from universal time, if there is one. -/
def offset? (cs : List Char) : Option (List Char) :=
  match cs with
  | 'Z' :: cs | 'z' :: cs => some cs
  | '+' :: cs | '-' :: cs => do
    let (hour, cs) ← digits? 2 cs
    let (minute, cs) ← digits? 2 (← expect? ':' cs)
    if hour ≤ 23 && minute ≤ 59 then some cs else none
  | _ => some cs

/-- The text behind a date, a time, or both. -/
def moment? (cs : List Char) : Option (List Char) :=
  match date? cs with
  | some ('T' :: rest) | some ('t' :: rest) => (time? rest).bind offset?
  -- A blank may stand for the mark of a time, but only where a time follows.
  | some (' ' :: rest) => ((time? rest).bind offset?).or (some (' ' :: rest))
  | some rest => some rest
  | none => time? cs

/-- The value of a date or a time. -/
def momentValue (text : List Char) : Value :=
  .object [("date-time", .text (String.ofList text))]

/-! ### Unquoted values -/

/-- Whether a character may stand in an unquoted value. -/
def isBareValueChar (c : Char) : Bool :=
  c.isAlphanum || c = '_' || c = '+' || c = '-' || c = '.' || c = ':'

/-- An unquoted value at the start of a text. -/
def bare? (cs : List Char) : Option (Value × List Char) :=
  let run := cs.takeWhile isBareValueChar
  let rest := cs.dropWhile isBareValueChar
  match run with
  | ['t', 'r', 'u', 'e'] => some (.bool true, rest)
  | ['f', 'a', 'l', 's', 'e'] => some (.bool false, rest)
  | _ =>
    match number? run with
    | some v => some (v, rest)
    | none => (moment? cs).map fun rest => (momentValue run, rest)

/-! ### Quoted texts -/

/-- Whether a character may stand for itself in a text or a comment. -/
def isPlain (c : Char) : Bool :=
  c = '\t' || (0x20 ≤ c.toNat && c.toNat ≠ 0x7f)

/-- The character with some number, which must be one. -/
def charOf? (n : Nat) : Option Char :=
  if h : n.isValidChar then some (Char.ofNatAux n h) else none

/-- The character that an escape of a given number of hexadecimal digits stands for. -/
def hexChar? (count : Nat) (cs : List Char) : Option (Char × List Char) :=
  let digits := cs.take count
  if digits.length = count && digits.all (isDigitIn 16) then
    (charOf? (valueIn 16 digits)).map (·, cs.drop count)
  else none

/-- The character that an escape behind a backslash stands for. -/
def escape? : List Char → Option (Char × List Char)
  | 'b' :: cs => some ('\x08', cs)
  | 't' :: cs => some ('\t', cs)
  | 'n' :: cs => some ('\n', cs)
  | 'f' :: cs => some ('\x0c', cs)
  | 'r' :: cs => some ('\r', cs)
  | 'e' :: cs => some ('\x1b', cs)
  | '"' :: cs => some ('"', cs)
  | '\\' :: cs => some ('\\', cs)
  | 'x' :: cs => hexChar? 2 cs
  | 'u' :: cs => hexChar? 4 cs
  | 'U' :: cs => hexChar? 8 cs
  | _ => none

/-- A line break at the start of a text. -/
def lineBreak? : List Char → Option (List Char)
  | '\n' :: cs => some cs
  | '\r' :: '\n' :: cs => some cs
  | _ => none

/-- Whether a character is a blank within a line. -/
def isSpace (c : Char) : Bool := c = ' ' || c = '\t'

/-- A text without the blanks and line breaks at its start. -/
def skipBlankLines : (fuel : Nat) → List Char → List Char
  | 0, cs => cs
  | fuel + 1, cs =>
    let cs := cs.dropWhile isSpace
    match lineBreak? cs with
    | some rest => skipBlankLines fuel rest
    | none => cs

/-- What stands behind a backslash at the end of a line, with the blanks before the next visible
character dropped. -/
def continuation? (cs : List Char) : Option (List Char) :=
  (lineBreak? (cs.dropWhile isSpace)).map fun rest => skipBlankLines rest.length rest

/-- A text on one line up to its closing quote; escapes count where `escapes` is set. -/
def line? (quote : Char) (escapes : Bool) : (fuel : Nat) → List Char →
    Option (List Char × List Char)
  | 0, _ => none
  | _, [] => none
  | fuel + 1, c :: cs =>
    if c = quote then some ([], cs)
    else if c = '\\' && escapes then do
      let (e, cs) ← escape? cs
      let (text, cs) ← line? quote escapes fuel cs
      return (e :: text, cs)
    else if isPlain c then do
      let (text, cs) ← line? quote escapes fuel cs
      return (c :: text, cs)
    else none

/-- A text on several lines up to its three closing quotes, before which up to two more may
stand. Line breaks stay as they are written. -/
def lines? (quote : Char) (escapes : Bool) : (fuel : Nat) → List Char →
    Option (List Char × List Char)
  | 0, _ => none
  | _, [] => none
  | fuel + 1, c :: cs =>
    let quotes := (c :: cs).takeWhile (· = quote)
    if 3 ≤ quotes.length then
      -- The last three quotes close the text, and those before them belong to it.
      let inside := min (quotes.length - 3) 2
      some (List.replicate inside quote, (c :: cs).drop (inside + 3))
    else if c = '\\' && escapes then
      -- A backslash at the end of a line swallows the break.
      match continuation? cs with
      | some rest => lines? quote escapes fuel rest
      | none => do
        let (e, cs) ← escape? cs
        let (text, cs) ← lines? quote escapes fuel cs
        return (e :: text, cs)
    else if isPlain c || (lineBreak? (c :: cs)).isSome then do
      let (text, cs) ← lines? quote escapes fuel cs
      return (c :: text, cs)
    else none

/-- A text on one line at the start of some characters. -/
def quotedLine? : List Char → Option (List Char × List Char)
  | '"' :: cs => line? '"' true (cs.length + 1) cs
  | '\'' :: cs => line? '\'' false (cs.length + 1) cs
  | _ => none

/-- A quoted text at the start of some characters. A line break right behind three opening quotes
does not count. -/
def quoted? : List Char → Option (List Char × List Char)
  | '"' :: '"' :: '"' :: cs =>
    let cs := (lineBreak? cs).getD cs
    lines? '"' true (cs.length + 1) cs
  | '\'' :: '\'' :: '\'' :: cs =>
    let cs := (lineBreak? cs).getD cs
    lines? '\'' false (cs.length + 1) cs
  | cs => quotedLine? cs

end CodeAssist.Toml
