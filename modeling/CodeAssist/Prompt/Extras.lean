import CodeAssist.Prompt.Metadata
import CodeAssist.Text.Replace

/-!
# Choosing extras

Imports and signatures are put before the code as long as their budget lasts. Those that the prompt
holds already are passed over. An item that exceeds the budget also keeps out the items after it,
because what it measures stays in the running total.
-/

namespace CodeAssist.Prompt

open CodeAssist.Tokens (Measured)

/-! ### The choice -/

/-- The state of a choice. -/
structure Selection where
  /-- The items chosen, in order. -/
  accepted : List Measured
  /-- The tokens of all items that were not passed over. -/
  total : Nat
deriving Repr

/-- Decides on one item. -/
def Selection.offer (budget : Nat) (present : List String) (selection : Selection)
    (item : Measured) : Selection :=
  if present.any fun text => Text.occursIn item.text.toList text.toList then selection
  else
    -- The total grows even where the item is not taken, so nothing behind it fits either.
    let total := selection.total + item.tokens
    ⟨if total ≤ budget then selection.accepted ++ [item] else selection.accepted, total⟩

/-- The items that are chosen, given the texts in which they may be present already. -/
def chooseExtras (items : List Measured) (budget : Nat) (present : List String) :
    List Measured :=
  (items.foldl (Selection.offer budget present) ⟨[], 0⟩).accepted

/-! ### Items together -/

/-- The joint size of some items. -/
def Size.sum (items : List Measured) : Size :=
  ⟨Tokens.total (items.map fun item => item.text.toList.length),
    Tokens.total (items.map Measured.tokens)⟩

/-- The texts of some items, each with a line break behind it. -/
def block (items : List Measured) : String :=
  String.join (items.map fun item => item.text ++ "\n")

end CodeAssist.Prompt
