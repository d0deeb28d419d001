import CodeAssist.Prompt.Extras
import Mathlib.Data.List.Infix

/-!
# What is chosen of the extras

A choice goes over the items once. What it has accepted so far (`Selection.Fits`) is taken from the
items it has seen, in their order, and measures no more than the budget. The latter needs the
running total to count the accepted items at least: an item is accepted only where that total still
is within the budget, and with it all that was accepted before.

Main statements: `chooseExtras_sublist` and `total_chooseExtras_le`.
-/

namespace CodeAssist.Prompt

open CodeAssist.Tokens (Measured)

/-! ### One item -/

/-- **What an offer comes to.** The item is passed over, or counted without being accepted, or
accepted within the budget. -/
theorem Selection.offer_cases (budget : Nat) (present : List String) (selection : Selection)
    (item : Measured) :
    selection.offer budget present item = selection ∨
      selection.offer budget present item =
        ⟨selection.accepted, selection.total + item.tokens⟩ ∨
      selection.total + item.tokens ≤ budget ∧
        selection.offer budget present item =
          ⟨selection.accepted ++ [item], selection.total + item.tokens⟩ := by
  unfold offer
  split
  · exact .inl rfl
  · by_cases hfits : selection.total + item.tokens ≤ budget
    · exact .inr (.inr ⟨hfits, by simp [hfits]⟩)
    · exact .inr (.inl (by simp [hfits]))

/-! ### The choice -/

/-- What a choice has accepted of the items that it has seen. -/
structure Selection.Fits (budget : Nat) (seen : List Measured) (selection : Selection) :
    Prop where
  sublist : selection.accepted.Sublist seen
  accepted_le_total : Tokens.total (selection.accepted.map Measured.tokens) ≤ selection.total
  accepted_le_budget : Tokens.total (selection.accepted.map Measured.tokens) ≤ budget

/-- An offer keeps to the budget and to the order. -/
theorem Selection.Fits.offer {budget : Nat} {seen : List Measured} {selection : Selection}
    (h : selection.Fits budget seen) (present : List String) (item : Measured) :
    (selection.offer budget present item).Fits budget (seen ++ [item]) := by
  have hseen : selection.accepted.Sublist (seen ++ [item]) :=
    h.sublist.trans (List.sublist_append_left seen [item])
  have htotal := h.accepted_le_total
  -- the item is passed over, counted only, or counted and accepted
  obtain hpassed | hcounted | ⟨hfits, haccepted⟩ := selection.offer_cases budget present item
  · rw [hpassed]
    exact ⟨hseen, htotal, h.accepted_le_budget⟩
  · rw [hcounted]
    exact ⟨hseen, Nat.le_trans htotal (Nat.le_add_right _ _), h.accepted_le_budget⟩
  · rw [haccepted]
    have hsum : Tokens.total ((selection.accepted ++ [item]).map Measured.tokens) =
        Tokens.total (selection.accepted.map Measured.tokens) + item.tokens := by
      simp [Tokens.total_append]
    refine ⟨h.sublist.append (List.Sublist.refl [item]), ?_, ?_⟩ <;> rw [hsum]
    · exact Nat.add_le_add_right htotal item.tokens
    · exact Nat.le_trans (Nat.add_le_add_right htotal item.tokens) hfits

/-- A run of offers keeps to the budget and to the order. -/
theorem Selection.Fits.foldl_offer {budget : Nat} {seen : List Measured} {selection : Selection}
    (h : selection.Fits budget seen) (present : List String) (items : List Measured) :
    (items.foldl (Selection.offer budget present) selection).Fits budget (seen ++ items) := by
  induction items generalizing seen selection with
  | nil => simpa using h
  | cons item items ih => simpa using ih (h.offer present item)

/-- The choice keeps to the budget and to the order. -/
theorem fits_foldl_offer (items : List Measured) (budget : Nat) (present : List String) :
    (items.foldl (Selection.offer budget present) ⟨[], 0⟩).Fits budget items := by
  have hstart : (⟨[], 0⟩ : Selection).Fits budget [] :=
    ⟨List.Sublist.refl [], Nat.le_refl 0, Nat.zero_le budget⟩
  exact hstart.foldl_offer present items

/-- **Items are chosen in their order.** -/
theorem chooseExtras_sublist (items : List Measured) (budget : Nat) (present : List String) :
    (chooseExtras items budget present).Sublist items :=
  (fits_foldl_offer items budget present).sublist

/-- **Chosen items keep to the budget** together. -/
theorem total_chooseExtras_le (items : List Measured) (budget : Nat) (present : List String) :
    Tokens.total ((chooseExtras items budget present).map Measured.tokens) ≤ budget :=
  (fits_foldl_offer items budget present).accepted_le_budget

/-! ### Blocks -/

@[simp] theorem block_nil : block [] = "" := rfl

/-- A block is its first item on rows of its own, and the block of the others. -/
theorem block_cons (item : Measured) (items : List Measured) :
    block (item :: items) = item.text ++ "\n" ++ block items := by
  simp [block, String.join_cons]

end CodeAssist.Prompt
