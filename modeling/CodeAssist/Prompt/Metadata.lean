import CodeAssist.Dictionary
import CodeAssist.Tokens.Strategy

/-!
# Sizes of a prompt's components

For each component of a prompt, how large it was and how large it is as sent.
-/

namespace CodeAssist.Prompt

open CodeAssist.Tokens (Measured Strategy)

/-! ### Sizes -/

/-- The size of a text, in characters and in tokens. -/
structure Size where
  length : Nat
  tokens : Nat
deriving DecidableEq, Repr, Inhabited

/-- The size of a measured text. -/
def Size.of (content : Measured) : Size :=
  ⟨content.text.toList.length, content.tokens⟩

/-- The size of a text by a strategy. -/
def Size.measure (strategy : Strategy) (text : String) : Size :=
  ⟨text.toList.length, strategy.estimate text⟩

/-! ### Components -/

/-- How large a component was at first and how large it is as sent. -/
structure Component where
  name : String
  full : Size
  sent : Size
deriving DecidableEq, Repr, Inhabited

/-- The components of a prompt, by their names. -/
structure Metadata where
  components : Dictionary Component
deriving Inhabited

namespace Metadata

/-- No components. -/
def empty : Metadata := ⟨.empty⟩

/-- Records a component under its name. -/
def record (metadata : Metadata) (component : Component) : Metadata :=
  ⟨metadata.components.insert component.name component⟩

/-- Number of tokens sent, over all components. -/
def sentTokens (metadata : Metadata) : Nat :=
  Tokens.total (metadata.components.values.map fun component => component.sent.tokens)

end Metadata

end CodeAssist.Prompt
