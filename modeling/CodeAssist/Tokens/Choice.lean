import CodeAssist.Error
import CodeAssist.Settings
import CodeAssist.Tokens.Strategy

/-!
# Choosing a token strategy

The strategy that settings ask for. The encoders themselves are given; settings only name one.
-/

namespace CodeAssist.Tokens

/-! ### Encoders by name -/

/-- A known encoder. -/
inductive Encoding where
  | cl100kBase
  | o200kBase
deriving DecidableEq, Repr

namespace Encoding

/-- The name of an encoder in a settings file. -/
def name : Encoding → String
  | cl100kBase => "cl100k_base"
  | o200kBase => "o200k_base"

/-- The encoder with a given name; blanks around it and the case of ASCII letters do not
matter. -/
def ofName? (name : String) : Option Encoding :=
  [cl100kBase, o200kBase].find? fun encoding => encoding.name = Language.foldName name

end Encoding

/-! ### The strategy of a request -/

/-- The strategy that settings ask for. -/
def Strategy.ofSettings (encoders : Encoding → Encoder) (settings : TokenSettings) :
    Except Error Strategy :=
  match settings.strategy with
  | .characters => .ok (.ofCharacters settings.charsPerToken)
  | .encoder =>
    match Encoding.ofName? settings.encoding with
    | some encoding => .ok (.encoded (encoders encoding))
    | none => .error (.config (.unsupportedEncoding settings.encoding))

end CodeAssist.Tokens
