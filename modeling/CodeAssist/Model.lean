import CodeAssist.Json.Value

/-!
# Models

A model answers a prompt with a reply or an error. It is a function of what it is sent; retries and
connections are its own concern.
-/

namespace CodeAssist

/-- A reply of a model. -/
structure Reply where
  text : String
  /-- How sure the model is of the reply. -/
  score : Decimal.Double
  /-- What the model reports about the reply's safety, of any shape. -/
  safetyAttributes : Option Json.Value := none

/-- Why a model gives no reply. -/
inductive ModelError where
  | connection (message : String)
  | status (code : Nat) (message : String)
  | invalidResponse (message : String)
deriving DecidableEq, Repr

/-- The wording of a model's error. -/
def ModelError.message : ModelError → String
  | connection message => "connection error: " ++ message
  | status code message => "model returned status " ++ toString code ++ ": " ++ message
  | invalidResponse message => "invalid model response: " ++ message

/-- A model, as a function of the code before and behind the cursor. -/
abbrev Model := (before after : String) → Except ModelError Reply

/-- A model with the same outcome for every prompt. -/
def Model.canned (outcome : Except ModelError Reply) : Model :=
  fun _ _ => outcome

end CodeAssist
