import CodeAssist.Analysis.Symbols
import CodeAssist.Proofs.Analysis.Nesting
import CodeAssist.Proofs.Tree.DepthFirst
import Mathlib.Data.List.Forall2

/-!
# What the collecting analyses find

Imports, signatures and counts are collected on a walk that shows a visitor the nodes of some kinds.
Under a ceiling that covers the tree the walk is complete, so what is collected is a list made of
all these nodes in pre-order, and each analysis is known by what it does with one node.

Only the collection of imports prunes: nothing below an import is looked at. What it finds are the
outermost imports (`outermost`), those that no import lies above. They lie one behind the other, so
pre-order is the order of the text (`Nested.pairwise_outermost`). All other analyses go through all
nodes, and so find functions in functions and calls in calls.

Main statement: `symbols_by_nodes`.
-/

namespace CodeAssist.Tree

/-! ### Complete walks -/

namespace Visitor

variable {σ : Type} {v : Visitor σ}

/-- **A complete walk without pruning** shows all nodes that the visitor wants to see. -/
theorem depthFirst_eq_foldl_nodes {f : σ → Node → σ}
    (hvisit : ∀ depth n s, v.visit depth n s = f s n) (hskips : v.skips = fun _ _ => false)
    (hstops : ∀ s, v.stops s = false) {root : Node} {ceiling : Nat} (hall : root.size ≤ ceiling)
    (s : σ) : (v.depthFirst root ceiling s).2 = (root.nodes.filter v.wants).foldl f s := by
  refine depthFirst_eq_foldl_filter (fun depth n s => ?_) hstops (Node.every_iff.2 ?_) hall s
  · rw [enter, hvisit]
  · intro n _ depth hskipped
    rw [hskips] at hskipped
    cases hskipped

end Visitor

namespace Node

/-! ### Outermost nodes -/

/-- The nodes of some kinds, in pre-order, that no node of these kinds lies above. -/
def outermost (kinds : List String) (root : Node) : List Node :=
  (root.places.filter fun place => kinds.contains place.node.kind &&
    place.above.all fun n => !kinds.contains n.kind).map Place.node

/-- Where skipping does not depend on the depth, any node above counts. -/
theorem anySkipped_eq_any (p : Node → Bool) (above : List Node) :
    anySkipped (fun _ n => p n) above = above.any p := by
  induction above with
  | nil => rfl
  | cons n above ih => rw [anySkipped, ih, List.any_cons]

/-- A walk that skips what lies below the nodes of some kinds meets the outermost ones. -/
theorem filter_itinerary {σ : Type} {v : Visitor σ} {kinds : List String}
    (hkinds : v.kinds = some kinds) (hskips : v.skips = fun _ n => kinds.contains n.kind)
    (root : Node) :
    ((v.itinerary root).map Prod.snd).filter v.wants = root.outermost kinds := by
  -- the visitor wants the kinds that it does not look below
  have hwants : v.wants = fun n => kinds.contains n.kind := by
    funext n
    rw [Visitor.wants, hkinds]
  rw [Visitor.itinerary, List.map_map, hwants, hskips, outermost]
  change ((List.filter _ _).map Place.node).filter _ = _
  rw [List.filter_map, List.filter_filter]
  congr 2
  funext place
  -- a place is on the itinerary where nothing above it is of the kinds
  rw [anySkipped_eq_any, List.not_any_eq_all_not]
  rfl

/-- **Below or behind**, told by the places: of two places in pre-order the node of the first one
lies above the second one or ends before it. -/
theorem Nested.pairwise_placesUnder {n : Node} (h : n.Nested) (above : List Node) :
    (n.placesUnder above).Pairwise fun a b => a.node ∈ b.above ∨ a.node.stop ≤ b.node.start := by
  induction h generalizing above with
  | @intro n here hchildren ih =>
    rw [placesUnder_eq, List.pairwise_cons]
    constructor
    · intro place hplace
      obtain ⟨child, -, hplace⟩ := List.mem_flatMap.1 hplace
      -- the node's own place comes first, and all the others are below it
      exact .inl ((suffix_above hplace).subset List.mem_cons_self)
    -- places under one child are compared by the induction, those under two by the children's order
    · have hmem : ∀ {m : Node} {place : Place}, place ∈ m.placesUnder (n :: above) →
          place.node ∈ m.nodes := fun hplace =>
        map_node_placesUnder (n :: above) _ ▸ List.mem_map_of_mem hplace
      have hapart := Nested.pairwise_children (.intro here hchildren)
      exact List.pairwise_flatMap.2 ⟨fun child hchild => ih child hchild _,
        hapart.imp fun hcd a ha b hb => .inr (hcd _ (hmem ha) _ (hmem hb))⟩

/-- **Outermost nodes** lie one behind the other. -/
theorem Nested.pairwise_outermost {root : Node} (h : root.Nested) (kinds : List String) :
    (root.outermost kinds).Pairwise fun a b => a.stop ≤ b.start := by
  refine List.pairwise_map.2 (((h.pairwise_placesUnder []).filter _).imp_of_mem ?_)
  intro a b ha hb hab
  refine hab.resolve_left fun habove => ?_
  obtain ⟨-, ha⟩ := List.mem_filter.1 ha
  obtain ⟨-, hb⟩ := List.mem_filter.1 hb
  have hkind := (Bool.and_eq_true_iff.1 ha).1
  have hnone := List.all_eq_true.1 (Bool.and_eq_true_iff.1 hb).2 a.node habove
  rw [hkind] at hnone
  cases hnone

end Node

end CodeAssist.Tree

namespace CodeAssist.Analysis

open CodeAssist.Tree

variable {tree : SyntaxTree} {ceiling : Nat}

/-! ### Imports -/

/-- A call with two children, the name of one of the two functions that require a file, and an
argument list. -/
def IsRequireCall (tree : SyntaxTree) (n : Node) : Prop :=
  n.kind = "call" ∧ ∃ name arguments, n.children = [name, arguments] ∧ name.kind = "identifier" ∧
    (tree.textOf name = "require" ∨ tree.textOf name = "require_relative") ∧
    arguments.kind = "argument_list"

theorem isRequire_iff {n : Node} :
    isRequire tree n = true ↔ ∃ name arguments, n.children = [name, arguments] ∧
      name.kind = "identifier" ∧
      (tree.textOf name = "require" ∨ tree.textOf name = "require_relative") ∧
      arguments.kind = "argument_list" := by
  unfold isRequire
  split
  · next name arguments hchildren => simp [hchildren, and_assoc]
  · next hother =>
    simp only [Bool.false_eq_true, false_iff, not_exists]
    exact fun name arguments h => hother name arguments h.1

theorem isRequireCall_iff {n : Node} :
    IsRequireCall tree n ↔ n.kind = "call" ∧ isRequire tree n = true :=
  and_congr_right' isRequire_iff.symm

instance (tree : SyntaxTree) : DecidablePred (IsRequireCall tree) := fun _ =>
  decidable_of_iff _ isRequireCall_iff.symm

/-- The text of a node without the blanks at its end. -/
def trimmedText (tree : SyntaxTree) (n : Node) : String :=
  String.ofList (Text.trimEnd (tree.textOf n).toList)

/-- Collecting the texts of some nodes gives the list of these texts. -/
theorem foldl_collect (f : Node → String) (ns : List Node) :
    ns.foldl (fun found n => found ++ [f n]) [] = ns.map f := by
  induction ns using List.reverseRecOn with
  | nil => rfl
  | append_singleton ns n ih => rw [List.foldl_append, ih, List.map_append]; rfl

/-- Outside of Ruby the outermost import nodes are found. -/
theorem imports_eq_outermost (hlanguage : tree.language ≠ .ruby) (hall : tree.root.size ≤ ceiling) :
    imports tree ceiling =
      (tree.root.outermost (kindTable tree.language).imports).map (trimmedText tree) := by
  unfold imports
  split
  · next hruby => exact absurd hruby hlanguage
  · rw [Visitor.depthFirst_of_size_le (fun _ => rfl) hall,
      Visitor.shown_eq_foldl (f := fun found n => found ++ [trimmedText tree n]) fun _ _ _ => rfl,
      Node.filter_itinerary rfl rfl, foldl_collect]

/-- In Ruby all calls are found that require a file. -/
theorem imports_eq_calls (hlanguage : tree.language = .ruby) (hall : tree.root.size ≤ ceiling) :
    imports tree ceiling =
      (tree.root.nodes.filter fun n => IsRequireCall tree n).map tree.textOf := by
  unfold imports
  split
  · rw [Visitor.depthFirst_eq_foldl_nodes (f := fun found n =>
        if isRequire tree n then found ++ [tree.textOf n] else found)
      (fun _ _ _ => rfl) rfl (fun _ => rfl) hall, ← List.foldl_filter, foldl_collect,
      List.filter_filter]
    congr 2
    funext n
    have hwants : (requireVisitor tree).wants n = true ↔ n.kind = "call" := by
      simp [Visitor.wants, requireVisitor]
    -- both sides ask for the kind and for the name of the method, in the two orders
    rw [Bool.eq_iff_iff, Bool.and_eq_true, decide_eq_true_iff, hwants, isRequireCall_iff, and_comm]
  · next hother => exact absurd hlanguage hother

/-! ### Signatures -/

/-- Whether a child of a function is its body. -/
def IsBody : BodyPlace → Node → Prop
  | .kinds kinds, child => child.kind ∈ kinds
  | .marked, child => child.isBody = true

/-- Where the header of a function ends: at the start of its first child that is a body, or at its
own end where no child is one. -/
inductive HeaderEnds (n : Node) (place : BodyPlace) : Nat → Prop where
  | atBody {before after : List Node} {body : Node}
      (children : n.children = before ++ body :: after)
      (none : ∀ child ∈ before, ¬ IsBody place child) (isBody : IsBody place body) :
      HeaderEnds n place body.start
  | atEnd (none : ∀ child ∈ n.children, ¬ IsBody place child) : HeaderEnds n place n.stop

/-- The header of a function: its text up to the body that functions of its kind have, without the
blanks at the end. -/
def IsHeader (tree : SyntaxTree) (n : Node) (text : String) : Prop :=
  ∃ form ∈ (kindTable tree.language).functions, form.kind = n.kind ∧
    ∃ stop, HeaderEnds n form.body stop ∧
      text = String.ofList (Text.trimEnd (tree.textBetween n.start stop))

theorem headerEnds_find? {n : Node} {place : BodyPlace} {p : Node → Bool}
    (hp : ∀ child, p child = true ↔ IsBody place child) :
    HeaderEnds n place (((n.children.find? p).map Node.start).getD n.stop) := by
  cases hfind : n.children.find? p with
  | none =>
    exact .atEnd fun child hchild hbody =>
      List.find?_eq_none.1 hfind child hchild ((hp child).2 hbody)
  | some body =>
    obtain ⟨hbody, before, after, hchildren, hbefore⟩ := List.find?_eq_some_iff_append.1 hfind
    -- a body among the children before would have been found
    refine .atBody hchildren (fun child hchild hisBody => ?_) ((hp body).1 hbody)
    have hnot := hbefore child hchild
    rw [(hp child).2 hisBody] at hnot
    cases hnot

/-- Headers end where they should. -/
theorem headerEnds_body? (n : Node) (place : BodyPlace) :
    HeaderEnds n place (((body? n place).map Node.start).getD n.stop) := by
  cases place with
  | kinds kinds => exact headerEnds_find? fun child => List.contains_iff_mem
  | marked => exact headerEnds_find? fun child => Iff.rfl

/-- The functions of a text, nested ones included, in pre-order. -/
def functionNodes (tree : SyntaxTree) : List Node :=
  tree.root.nodes.filter fun n => n.kind ∈ (kindTable tree.language).functionKinds

/-- What a function adds to the signatures. -/
theorem exists_isHeader {n : Node} (h : n.kind ∈ (kindTable tree.language).functionKinds)
    (found : List String) :
    ∃ text, IsHeader tree n text ∧
      (signatureVisitor tree).visit 0 n found = if text = "" then found else found ++ [text] := by
  -- the visitor wants the kinds of the forms, so one of them describes the node
  obtain ⟨form, hform⟩ : ∃ form, (kindTable tree.language).formOf? n.kind = some form := by
    obtain ⟨form, hmem, hkind⟩ := List.mem_map.1 h
    exact Option.isSome_iff_exists.1 (List.find?_isSome.2 ⟨form, hmem, decide_eq_true hkind⟩)
  have hmem := List.mem_of_find?_eq_some hform
  have hfound := List.find?_some hform
  have hkind : form.kind = n.kind := of_decide_eq_true hfound
  refine ⟨header tree n form, ⟨form, hmem, hkind, _, headerEnds_body? n form.body, rfl⟩, ?_⟩
  simp only [signatureVisitor, hform]

/-- Functions one after the other add their headers, but for the empty ones. -/
theorem exists_headers_of_functions {ns : List Node}
    (h : ∀ n ∈ ns, n.kind ∈ (kindTable tree.language).functionKinds) :
    ∃ headers, List.Forall₂ (IsHeader tree) ns headers ∧
      ns.foldl (fun found n => (signatureVisitor tree).visit 0 n found) [] =
        headers.filter fun text => text ≠ "" := by
  -- the visits append, so the induction takes the last node away
  induction ns using List.reverseRecOn with
  | nil => exact ⟨[], .nil, rfl⟩
  | append_singleton ns n ih =>
    obtain ⟨headers, hheaders, hfound⟩ := ih fun m hm => h m (List.mem_append_left _ hm)
    obtain ⟨text, htext, hvisit⟩ := exists_isHeader
      (h n (List.mem_append_right _ List.mem_cons_self)) (headers.filter fun text => text ≠ "")
    refine ⟨headers ++ [text], List.rel_append hheaders (.cons htext .nil), ?_⟩
    rw [List.foldl_append, hfound, List.foldl_cons, List.foldl_nil, hvisit, List.filter_append]
    by_cases hempty : text = ""
    · simp [hempty]
    · simp [hempty]

/-- The signatures are the headers of the functions, but for the empty ones. -/
theorem exists_headers (hall : tree.root.size ≤ ceiling) :
    ∃ headers, List.Forall₂ (IsHeader tree) (functionNodes tree) headers ∧
      signatures tree ceiling = headers.filter fun text => text ≠ "" := by
  have hwants : (signatureVisitor tree).wants = fun n =>
      decide (n.kind ∈ (kindTable tree.language).functionKinds) := by
    funext n
    exact List.elem_eq_mem n.kind _
  have hwalk : signatures tree ceiling =
      (functionNodes tree).foldl (fun found n => (signatureVisitor tree).visit 0 n found) [] := by
    rw [signatures, Visitor.depthFirst_eq_foldl_nodes (fun _ _ _ => rfl) rfl (fun _ => rfl) hall,
      hwants]
    rfl
  -- the walk and the list now speak of the same nodes
  rw [hwalk]
  exact exists_headers_of_functions fun n hn => of_decide_eq_true (List.mem_filter.1 hn).2

/-! ### Counts -/

/-- Names with their numbers: a dictionary that has each name under which something was counted, and
no other. -/
def Tallies (counts : Dictionary Nat) (number : String → Nat) : Prop :=
  ∀ name, counts.get? name = if number name = 0 then none else some (number name)

/-- Counting names gives their numbers. -/
theorem tallies_foldl (names : List String) :
    Tallies (names.foldl countOne .empty) fun name => names.count name := by
  -- every name is counted in at the end of what was counted
  induction names using List.reverseRecOn with
  | nil => exact fun _ => rfl
  | append_singleton names last ih =>
    intro name
    have hold : (names.foldl countOne .empty).get? name =
        if names.count name = 0 then none else some (names.count name) := ih name
    rw [List.foldl_append, List.foldl_cons, List.foldl_nil, countOne]
    simp only [List.count_append]
    by_cases hname : name = last
    · subst hname
      -- the last name itself, new or seen before
      rw [Dictionary.get?_insert_self, List.count_singleton_self, if_neg (Nat.succ_ne_zero _), hold]
      split
      · next hzero =>
        rw [hzero]
        rfl
      · rfl
    -- another name, whose entry the insertion leaves alone
    · have hzero : [last].count name = 0 := List.count_eq_zero.2 (by simpa using hname)
      rw [Dictionary.get?_insert_of_ne _ hname, hzero, Nat.add_zero, hold]

/-- A visitor that counts each node that it is shown under some name, or not at all, gives the
numbers of nodes under each name. -/
theorem tallies_depthFirst {v : Visitor (Dictionary Nat)} {f : Node → Option String}
    (hvisit : ∀ depth n counts, v.visit depth n counts =
      match f n with
      | some name => countOne counts name
      | none => counts)
    (hskips : v.skips = fun _ _ => false) (hstops : ∀ counts, v.stops counts = false) {root : Node}
    (hall : root.size ≤ ceiling) :
    Tallies (v.depthFirst root ceiling .empty).2 fun name =>
      root.nodes.countP fun n => v.wants n ∧ f n = some name := by
  -- the walk counts in one name after the other
  have hwalk : (v.depthFirst root ceiling .empty).2 =
      ((root.nodes.filter v.wants).filterMap f).foldl countOne .empty := by
    rw [Visitor.depthFirst_eq_foldl_nodes hvisit hskips hstops hall, List.foldl_filterMap]
    congr 1
    funext counts n
    cases f n <;> rfl
  intro name
  -- a name is met as often as there are nodes that give it
  have hcount : ((root.nodes.filter v.wants).filterMap f).count name =
      root.nodes.countP fun n => v.wants n ∧ f n = some name := by
    rw [List.count_filterMap, List.countP_filter]
    refine List.countP_congr fun n _ => ?_
    simp [and_comm]
  beta_reduce
  rw [hwalk, ← hcount]
  exact tallies_foldl _ name

/-- What is counted in Ruby: calls that require a file, comments, methods, and classes and modules
that are more than a keyword. -/
def IsRubySymbol (tree : SyntaxTree) (name : String) (n : Node) : Prop :=
  name = "require" ∧ IsRequireCall tree n ∨
    name = n.kind ∧ (n.kind = "comment" ∨ n.kind = "method" ∨
      (n.kind = "class" ∨ n.kind = "module") ∧ n.children ≠ [])

instance (tree : SyntaxTree) (name : String) : DecidablePred (IsRubySymbol tree name) := fun _ =>
  inferInstanceAs (Decidable (_ ∨ _))

theorem rubySymbol?_eq_some_iff {name : String} {n : Node} :
    (rubyCountVisitor tree).wants n = true ∧ rubySymbol? tree n = some name ↔
      IsRubySymbol tree name n := by
  have hwants : (rubyCountVisitor tree).wants n = true ↔ n.kind = "comment" ∨ n.kind = "call" ∨
      n.kind = "module" ∨ n.kind = "class" ∨ n.kind = "method" := by
    simp [Visitor.wants, rubyCountVisitor]
  rw [hwants, rubySymbol?, IsRubySymbol, isRequireCall_iff]
  by_cases hcall : n.kind = "call"
  · -- a call counts under no other name
    rw [if_pos hcall, hcall]
    cases isRequire tree n with
    | false => simp
    | true => simpa using eq_comm
  · rw [if_neg hcall]
    split
    · next hkeyword =>
      rw [Bool.and_eq_true, Bool.or_eq_true, decide_eq_true_iff, decide_eq_true_iff,
        List.isEmpty_iff] at hkeyword
      obtain ⟨hkind | hkind, hleaf⟩ := hkeyword <;> simp [hkind, hleaf]
    · next hother =>
      rw [Bool.and_eq_true, Bool.or_eq_true, decide_eq_true_iff, decide_eq_true_iff,
        List.isEmpty_iff, not_and_or] at hother
      -- any other node is counted under its own kind
      rw [Option.some.injEq, eq_comm]
      grind

/-- In Ruby each symbol is counted under its name. -/
theorem tallies_symbolCounts_ruby (hlanguage : tree.language = .ruby)
    (hall : tree.root.size ≤ ceiling) :
    Tallies (symbolCounts tree ceiling) fun name =>
      tree.root.nodes.countP fun n => IsRubySymbol tree name n := by
  unfold symbolCounts
  split
  · simp only [← rubySymbol?_eq_some_iff]
    exact tallies_depthFirst (fun _ _ _ => rfl) rfl (fun _ => rfl) hall
  · next hother => exact absurd hlanguage hother

/-- Outside of Ruby the nodes of the counted kinds are counted under their kinds. -/
theorem tallies_symbolCounts (hlanguage : tree.language ≠ .ruby)
    (hall : tree.root.size ≤ ceiling) :
    Tallies (symbolCounts tree ceiling) fun name =>
      tree.root.nodes.countP fun n =>
        n.kind ∈ (kindTable tree.language).symbolKinds ∧ n.kind = name := by
  unfold symbolCounts
  split
  · next hruby => exact absurd hruby hlanguage
  · have hwants : ∀ n, (countVisitor (kindTable tree.language).symbolKinds).wants n = true ↔
        n.kind ∈ (kindTable tree.language).symbolKinds := fun n => List.contains_iff_mem
    simp only [← hwants, ← Option.some.injEq (α := String)]
    exact tallies_depthFirst (fun _ _ _ => rfl) rfl (fun _ => rfl) hall

/-! ### All analyses -/

/-- **What the collecting analyses find** in a nested tree that the ceiling covers. Outside of Ruby
the imports are the texts of the outermost import nodes, in the order of the text, and the nodes of
each counted kind are counted. In Ruby the imports are the texts of the calls that require a file,
and those are counted under one name. The signatures are the headers of all functions, but for the
empty ones. -/
theorem symbols_by_nodes (h : tree.root.Nested) (hall : tree.root.size ≤ ceiling) :
    (tree.language ≠ .ruby →
        imports tree ceiling =
            (tree.root.outermost (kindTable tree.language).imports).map (trimmedText tree) ∧
          ((tree.root.outermost (kindTable tree.language).imports).Pairwise
            fun a b => a.stop ≤ b.start) ∧
          Tallies (symbolCounts tree ceiling) fun name => tree.root.nodes.countP fun n =>
            n.kind ∈ (kindTable tree.language).symbolKinds ∧ n.kind = name) ∧
      (tree.language = .ruby →
        imports tree ceiling =
            (tree.root.nodes.filter fun n => IsRequireCall tree n).map tree.textOf ∧
          Tallies (symbolCounts tree ceiling) fun name =>
            tree.root.nodes.countP fun n => IsRubySymbol tree name n) ∧
      ∃ headers, List.Forall₂ (IsHeader tree) (functionNodes tree) headers ∧
        signatures tree ceiling = headers.filter fun text => text ≠ "" :=
  ⟨fun hlanguage => ⟨imports_eq_outermost hlanguage hall, h.pairwise_outermost _,
      tallies_symbolCounts hlanguage hall⟩,
    fun hlanguage => ⟨imports_eq_calls hlanguage hall, tallies_symbolCounts_ruby hlanguage hall⟩,
    exists_headers hall⟩

/-- A function with an import and a second function in its body. -/
def nestedFunctions : SyntaxTree where
  source := "def f():\n    import os\n    def g(): pass"
  language := .python
  root := .mk ⟨"module", true, false, false, 0, 40⟩
    [.mk ⟨"function_definition", true, false, false, 0, 40⟩
      [.mk ⟨"block", true, false, true, 13, 40⟩
        [.mk ⟨"import_statement", true, false, false, 13, 22⟩ [],
          .mk ⟨"function_definition", true, false, false, 27, 40⟩
            [.mk ⟨"block", true, false, true, 36, 40⟩ []]]]]

/-- A file that requires another one. -/
def requiringFile : SyntaxTree where
  source := "require \"a\""
  language := .ruby
  root := .mk ⟨"program", true, false, false, 0, 11⟩
    [.mk ⟨"call", true, false, false, 0, 11⟩
      [.mk ⟨"identifier", true, false, false, 0, 7⟩ [],
        .mk ⟨"argument_list", true, false, false, 8, 11⟩ []]]

/-- Both functions and the import are found in the first file, and the call in the second one. -/
theorem symbols_by_nodes_nestedFunctions :
    (nestedFunctions.root.Nested ∧ nestedFunctions.root.size ≤ 6 ∧
        nestedFunctions.language ≠ .ruby ∧
        imports nestedFunctions 6 = ["import os"] ∧
        (symbolCounts nestedFunctions 6).get? "function_definition" = some 2 ∧
        signatures nestedFunctions 6 = ["def f():", "def g():"] ∧
        ∃ headers, List.Forall₂ (IsHeader nestedFunctions) (functionNodes nestedFunctions) headers ∧
          signatures nestedFunctions 6 = headers.filter fun text => text ≠ "") ∧
      requiringFile.root.Nested ∧ requiringFile.root.size ≤ 4 ∧ requiringFile.language = .ruby ∧
        imports requiringFile 4 = ["require \"a\""] ∧
        (symbolCounts requiringFile 4).get? "require" = some 1 := by
  have hnested : nestedFunctions.root.Nested := by decide +kernel
  have hsize : nestedFunctions.root.size ≤ 6 := by decide +kernel
  have hlanguage : nestedFunctions.language ≠ .ruby := by decide
  obtain ⟨hother, -, hheaders⟩ := symbols_by_nodes hnested hsize
  obtain ⟨himports, -, hcounts⟩ := hother hlanguage
  have hnestedFile : requiringFile.root.Nested := by decide +kernel
  have hsizeFile : requiringFile.root.size ≤ 4 := by decide +kernel
  obtain ⟨hcalls, hnumbers⟩ := (symbols_by_nodes hnestedFile hsizeFile).2.1 rfl
  refine ⟨⟨hnested, hsize, hlanguage, ?_, ?_, by decide +kernel, hheaders⟩, hnestedFile, hsizeFile,
    rfl, ?_, ?_⟩
  · rw [himports]
    decide +kernel
  · rw [hcounts "function_definition"]
    decide +kernel
  · rw [hcalls]
    decide +kernel
  · rw [hnumbers "require"]
    decide +kernel

end CodeAssist.Analysis
