import CodeAssist.Json.Token

/-!
# Reading JSON

Values from tokens, by recursive descent. The recursion runs on a bound that every token pays for
twice, once where an item is expected and once where it is read.
-/

namespace CodeAssist.Json

/-- The object with some members, invalid where one of the names is. -/
def objectOf (members : List (Option String × Value)) : Value :=
  match members.mapM fun (name, v) => name.map (·, v) with
  | some members => .object members
  | none => .invalid

/-! ### Recursive descent -/

mutual
/-- The value at the start of some tokens. -/
def value? : (fuel : Nat) → List Token → Option (Value × List Token)
  | 0, _ => none
  | _ + 1, .scalar v :: rest => some (v, rest)
  | _ + 1, .text (some s) :: rest => some (.text s, rest)
  | _ + 1, .text none :: rest => some (.invalid, rest)
  | _ + 1, .openArray :: .closeArray :: rest => some (.array [], rest)
  | fuel + 1, .openArray :: rest =>
    (items? fuel rest).map fun (items, rest) => (.array items, rest)
  | _ + 1, .openObject :: .closeObject :: rest => some (.object [], rest)
  | fuel + 1, .openObject :: rest =>
    (members? fuel rest).map fun (members, rest) => (objectOf members, rest)
  | _ + 1, _ => none

/-- The items of an array up to its end. -/
def items? : (fuel : Nat) → List Token → Option (List Value × List Token)
  | 0, _ => none
  | fuel + 1, tokens =>
    match value? fuel tokens with
    | some (v, .closeArray :: rest) => some ([v], rest)
    | some (v, .comma :: rest) => (items? fuel rest).map fun (items, rest) => (v :: items, rest)
    | _ => none

/-- The members of an object up to its end. -/
def members? : (fuel : Nat) → List Token → Option (List (Option String × Value) × List Token)
  | 0, _ => none
  | fuel + 1, .text name :: .colon :: tokens =>
    match value? fuel tokens with
    | some (v, .closeObject :: rest) => some ([(name, v)], rest)
    | some (v, .comma :: rest) =>
      (members? fuel rest).map fun (members, rest) => ((name, v) :: members, rest)
    | _ => none
  | _ + 1, _ => none
end

/-! ### Whole texts -/

/-- The value that a text writes, where it writes exactly one. -/
def read? (text : String) : Option Value := do
  let tokens ← tokens? text.toList
  -- No tokens may stand behind the value.
  match value? (2 * tokens.length + 1) tokens with
  | some (v, []) => some v
  | _ => none

end CodeAssist.Json
