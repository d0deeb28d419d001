import CodeAssist.Proofs.Prompt.Extras
import CodeAssist.Proofs.Prompt.Sizes
import Mathlib.Order.Bounds.Basic

/-!
# Which extras are chosen

What is chosen is a first part of the items that are not in the prompt already, and the longest one
that keeps to the budget (`chooseExtras_longest`). The choice itself takes one item after the other.
It can be made together with the sizes that are recorded (`Account`), by a single total that is both
held against the budget and recorded as the size of what is sent, and that grows even where an item
is not taken.

The total is right as a record because an item is only accepted where all items before it were: the
items that count are either all accepted, or the next one behind the accepted ones exceeds the
budget, and then the total does from there on (`Account.Follows`).
-/

namespace CodeAssist.Prompt

open CodeAssist.Tokens (Measured)
open CodeAssist.Tree (Parser)

/-! ### Items that count -/

/-- The items whose text occurs in none of some texts. -/
def absentFrom (present : List String) (items : List Measured) : List Measured :=
  items.filter fun item => ∀ text ∈ present, ¬ item.text.toList <:+: text.toList

theorem any_occursIn_iff {present : List String} {item : Measured} :
    (present.any fun text => Text.occursIn item.text.toList text.toList) = true ↔
      ¬ ∀ text ∈ present, ¬ item.text.toList <:+: text.toList := by
  simp [Text.occursIn_iff]

/-- One more item counts where it is not present. -/
theorem absentFrom_append_singleton (present : List String) (seen : List Measured)
    (item : Measured) :
    absentFrom present (seen ++ [item]) =
      if present.any fun text => Text.occursIn item.text.toList text.toList
      then absentFrom present seen else absentFrom present seen ++ [item] := by
  rw [absentFrom, List.filter_append, ← absentFrom, List.filter_singleton]
  by_cases h : ∀ text ∈ present, ¬ item.text.toList <:+: text.toList
  · rw [if_neg (by rwa [any_occursIn_iff, not_not]), decide_eq_true h]
    rfl
  · rw [if_pos (any_occursIn_iff.2 h), decide_eq_false h]
    exact List.append_nil _

/-! ### Sizes of items -/

/-- The size of one more item is added to that of the others. -/
theorem Size.sum_append_singleton (items : List Measured) (item : Measured) :
    Size.sum (items ++ [item]) = ⟨(Size.sum items).length + item.text.toList.length,
      (Size.sum items).tokens + item.tokens⟩ := by
  simp [Size.sum, Tokens.total_append]

/-- A first part of some items measures no more than all of them. -/
theorem Size.tokens_sum_le_of_prefix {first items : List Measured} (h : first <+: items) :
    (Size.sum first).tokens ≤ (Size.sum items).tokens := by
  obtain ⟨rest, rfl⟩ := h
  simp [Size.sum, Tokens.total_append]

/-! ### The account of a choice -/

/-- The state of a choice that also counts sizes. -/
structure Account where
  /-- The items chosen, in order. -/
  accepted : List Measured
  /-- The tokens of all items that were not passed over. -/
  total : Nat
  /-- The size of all items. -/
  full : Size
  /-- The recorded size of the chosen ones. -/
  sent : Size
deriving Repr

namespace Account

/-- Nothing was chosen or seen. -/
def empty : Account := ⟨[], 0, ⟨0, 0⟩, ⟨0, 0⟩⟩

/-- Decides on one item. -/
def offer (budget : Nat) (present : List String) (account : Account) (item : Measured) : Account :=
  let full : Size :=
    ⟨account.full.length + item.text.toList.length, account.full.tokens + item.tokens⟩
  if present.any fun text => Text.occursIn item.text.toList text.toList then { account with full }
  else
    let total := account.total + item.tokens
    if total ≤ budget then
      -- the total becomes the recorded size, although it is not the size of the accepted items
      ⟨account.accepted ++ [item], total, full,
        ⟨account.sent.length + item.text.toList.length, total⟩⟩
    else { account with total, full }

/-- The account of some items. -/
def ofItems (items : List Measured) (budget : Nat) (present : List String) : Account :=
  items.foldl (offer budget present) empty

/-- What an account is without the sizes. -/
def selection (account : Account) : Selection :=
  ⟨account.accepted, account.total⟩

theorem selection_offer (budget : Nat) (present : List String) (account : Account)
    (item : Measured) :
    (account.offer budget present item).selection =
      account.selection.offer budget present item := by
  simp only [offer, Selection.offer, selection]
  split
  · rfl
  · split
    · next hfits => simp [hfits]
    · next hexceeds => simp [hexceeds]

theorem selection_foldl_offer (budget : Nat) (present : List String) (items : List Measured)
    (account : Account) :
    (items.foldl (offer budget present) account).selection =
      items.foldl (Selection.offer budget present) account.selection := by
  induction items generalizing account with
  | nil => rfl
  | cons item items ih => rw [List.foldl_cons, List.foldl_cons, ih, selection_offer]

/-- An account chooses as the choice without sizes does. -/
theorem accepted_ofItems (items : List Measured) (budget : Nat) (present : List String) :
    (ofItems items budget present).accepted = chooseExtras items budget present :=
  congrArg Selection.accepted (selection_foldl_offer budget present items empty)

/-- What an account says of the items that it has seen. -/
structure Follows (budget : Nat) (present : List String) (seen : List Measured)
    (account : Account) : Prop where
  full_eq : account.full = Size.sum seen
  sent_eq : account.sent = Size.sum account.accepted
  total_eq : account.total = (Size.sum (absentFrom present seen)).tokens
  /-- All items that count are accepted, or the next one exceeds the budget. -/
  accepted_eq_or : account.accepted = absentFrom present seen ∨
    ∃ next, account.accepted ++ [next] <+: absentFrom present seen ∧
      budget < (Size.sum (account.accepted ++ [next])).tokens

variable {budget : Nat} {present : List String} {seen : List Measured} {account : Account}

/-- Where the total still keeps to the budget, all items that count are accepted. -/
theorem Follows.accepted_eq (h : account.Follows budget present seen)
    (hfits : account.total ≤ budget) : account.accepted = absentFrom present seen := by
  refine h.accepted_eq_or.resolve_right ?_
  rintro ⟨next, hnext, hexceeds⟩
  have hle := Size.tokens_sum_le_of_prefix hnext
  rw [← h.total_eq] at hle
  omega

/-- **One item.** The account still follows the items when it has seen one more. -/
theorem Follows.offer (h : account.Follows budget present seen) (item : Measured) :
    (account.offer budget present item).Follows budget present (seen ++ [item]) := by
  have hfull : (⟨account.full.length + item.text.toList.length,
      account.full.tokens + item.tokens⟩ : Size) = Size.sum (seen ++ [item]) := by
    rw [Size.sum_append_singleton, h.full_eq]
  have hseen := absentFrom_append_singleton present seen item
  simp only [Account.offer]
  -- an item that is present counts for the whole size alone
  split
  case isTrue hpresent =>
    rw [if_pos hpresent] at hseen
    exact ⟨hfull, h.sent_eq, hseen ▸ h.total_eq, hseen ▸ h.accepted_eq_or⟩
  case isFalse habsent =>
    rw [if_neg habsent] at hseen
    have htotal : account.total + item.tokens =
        (Size.sum (absentFrom present (seen ++ [item]))).tokens := by
      rw [hseen, Size.sum_append_singleton, h.total_eq]
    split
    case isTrue hfits =>
      have hall := h.accepted_eq (by omega)
      refine ⟨hfull, ?_, htotal, .inl (by rw [hseen, hall])⟩
      -- what was accepted before is all that was counted, so the total is its size
      rw [Size.sum_append_singleton, ← h.sent_eq, Size.mk.injEq, h.total_eq, h.sent_eq, hall]
      exact ⟨rfl, rfl⟩
    case isFalse hexceeds =>
      refine ⟨hfull, h.sent_eq, htotal, .inr ?_⟩
      -- what was accepted stays, and the item that did not fit stays the next one
      obtain hall | ⟨next, hnext, hover⟩ := h.accepted_eq_or
      · refine ⟨item, by rw [hseen, hall], ?_⟩
        rw [hall, ← hseen, ← htotal]
        exact Nat.lt_of_not_le hexceeds
      · exact ⟨next, hseen ▸ hnext.trans (List.prefix_append _ _), hover⟩

/-- A run of offers follows all items that it is given. -/
theorem Follows.foldl_offer (h : account.Follows budget present seen) (items : List Measured) :
    (items.foldl (Account.offer budget present) account).Follows budget present
      (seen ++ items) := by
  induction items generalizing seen account with
  | nil => simpa using h
  | cons item items ih => simpa using ih (h.offer item)

theorem follows_ofItems (items : List Measured) (budget : Nat) (present : List String) :
    (ofItems items budget present).Follows budget present items :=
  have hempty : empty.Follows budget present [] := ⟨rfl, rfl, rfl, .inl rfl⟩
  hempty.foldl_offer items

/-- The size of all items is recorded. -/
theorem full_ofItems (items : List Measured) (budget : Nat) (present : List String) :
    (ofItems items budget present).full = Size.sum items :=
  (follows_ofItems items budget present).full_eq

/-- The size of the chosen items is recorded. -/
theorem sent_ofItems (items : List Measured) (budget : Nat) (present : List String) :
    (ofItems items budget present).sent = Size.sum (chooseExtras items budget present) := by
  rw [← accepted_ofItems]
  exact (follows_ofItems items budget present).sent_eq

/-- What is accepted is the longest first part of the items that count within the budget. -/
theorem Follows.isGreatest (h : account.Follows budget present seen)
    (hbudget : (Size.sum account.accepted).tokens ≤ budget) :
    account.accepted <+: absentFrom present seen ∧
      IsGreatest {k | k ≤ (absentFrom present seen).length ∧
        (Size.sum ((absentFrom present seen).take k)).tokens ≤ budget} account.accepted.length := by
  have hinitial : account.accepted <+: absentFrom present seen := by
    -- nothing was left out, or the next one is known
    obtain hall | ⟨next, hnext, -⟩ := h.accepted_eq_or
    · rw [hall]
    · exact (List.prefix_append _ _).trans hnext
  refine ⟨hinitial, ⟨hinitial.length_le, ?_⟩, fun k ⟨hk, hfits⟩ => ?_⟩
  · rwa [← List.prefix_iff_eq_take.1 hinitial]
  · obtain hall | ⟨next, hnext, hexceeds⟩ := h.accepted_eq_or
    · rwa [hall]
    · -- a longer part has the next item, with which it exceeds the budget
      by_contra hlonger
      have hpart : account.accepted ++ [next] <+: (absentFrom present seen).take k := by
        refine List.prefix_take_iff.2 ⟨hnext, ?_⟩
        rw [List.length_append, List.length_singleton]
        omega
      have hle := Size.tokens_sum_le_of_prefix hpart
      omega

end Account

/-! ### The records of a prompt -/

namespace Draft

variable (draft : Draft) (parser : Parser)

/-- The account of the signatures of a draft. -/
def signaturesAccount : Account :=
  .ofItems draft.signatures draft.signaturesBudget
    [(draft.body parser).text, draft.suffixText parser]

/-- The account of the imports of a draft. -/
def importsAccount : Account :=
  .ofItems draft.imports draft.importsBudget [draft.signedBody parser, draft.suffixText parser]

/-- **The records of the extras** of a prompt are those of the two accounts, and their blocks stand
before the code. -/
theorem extras_by_accounts (content : String) :
    (draft.metadata parser content).components.get? "function_signatures" =
        some ⟨"function_signatures", (draft.signaturesAccount parser).full,
          (draft.signaturesAccount parser).sent⟩ ∧
      (draft.metadata parser content).components.get? "imports" =
        some ⟨"imports", (draft.importsAccount parser).full, (draft.importsAccount parser).sent⟩ ∧
      draft.content parser = block (draft.importsAccount parser).accepted ++
        (block (draft.signaturesAccount parser).accepted ++ (draft.body parser).text) := by
  -- the accounts are those of the two calls, taken with what stands behind each of them
  unfold Dictionary.get?
  rw [entries_metadata, signaturesAccount, importsAccount, Account.full_ofItems,
    Account.sent_ofItems, Account.accepted_ofItems, Account.full_ofItems, Account.sent_ofItems,
    Account.accepted_ofItems]
  exact ⟨rfl, rfl, rfl⟩

end Draft

/-! ### The choice -/

theorem toList_block (items : List Measured) :
    (block items).toList = items.flatMap fun item => item.text.toList ++ ['\n'] := by
  induction items with
  | nil => rfl
  | cons item items ih =>
    rw [block_cons, String.toList_append, String.toList_append, ih, List.flatMap_cons]
    rfl

/-- **The longest part within the budget.** Of the items that are in none of some texts the longest
first part is chosen that keeps to the budget. Its block consists of the texts in their order, each
with a line break behind it. A loop that counts with a single total chooses the same, and it records
the sizes of exactly the chosen items and of all items, which are those in the records of a
prompt. -/
theorem chooseExtras_longest (items : List Measured) (budget : Nat) (present : List String) :
    let absent := items.filter fun item => ∀ text ∈ present, ¬ item.text.toList <:+: text.toList
    let chosen := chooseExtras items budget present
    let account := Account.ofItems items budget present
    chosen <+: absent ∧
      IsGreatest {k | k ≤ absent.length ∧ (Size.sum (absent.take k)).tokens ≤ budget}
        chosen.length ∧
      (block chosen).toList = (chosen.flatMap fun item => item.text.toList ++ ['\n']) ∧
      account.accepted = chosen ∧ account.sent = Size.sum chosen ∧
      account.full = Size.sum items ∧
      ∀ (draft : Draft) (parser : Parser) (content : String),
        (draft.metadata parser content).components.get? "function_signatures" =
            some ⟨"function_signatures", Size.sum draft.signatures,
              Size.sum (draft.chosenSignatures parser)⟩ ∧
          (draft.metadata parser content).components.get? "imports" =
            some ⟨"imports", Size.sum draft.imports, Size.sum (draft.chosenImports parser)⟩ := by
  intro absent chosen account
  have hfollows : account.Follows budget present items := Account.follows_ofItems ..
  have hchosen : account.accepted = chosen := Account.accepted_ofItems ..
  have hbudget : (Size.sum account.accepted).tokens ≤ budget := by
    rw [hchosen]
    exact total_chooseExtras_le ..
  obtain ⟨hinitial, hgreatest⟩ := hfollows.isGreatest hbudget
  rw [hchosen] at hinitial hgreatest
  refine ⟨hinitial, hgreatest, toList_block chosen, hchosen, Account.sent_ofItems ..,
    Account.full_ofItems .., fun draft parser content => ?_⟩
  -- the draft's own accounts are made from its own lists
  obtain ⟨hsignatures, himports, -⟩ := draft.extras_by_accounts parser content
  rw [Draft.signaturesAccount, Account.full_ofItems, Account.sent_ofItems] at hsignatures
  rw [Draft.importsAccount, Account.full_ofItems, Account.sent_ofItems] at himports
  exact ⟨hsignatures, himports⟩

/-- Of four imports one is present and the third exceeds the budget, so the last one is out although
it would fit. -/
example :
    let items : List Measured :=
      [⟨"import a", 3⟩, ⟨"import b", 2⟩, ⟨"import c", 4⟩, ⟨"import d", 1⟩]
    let account := Account.ofItems items 6 ["import b\n"]
    account.accepted = [⟨"import a", 3⟩] ∧ account.total = 8 ∧ account.sent = ⟨8, 3⟩ ∧
      account.full = ⟨32, 10⟩ := by
  decide +kernel

end CodeAssist.Prompt
