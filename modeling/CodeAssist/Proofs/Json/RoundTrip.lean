import CodeAssist.Proofs.Json.Tokens

/-!
# Values that are read back

A value that is written, on one line or on many, and read again is the value that its literals stand
for (`read?_render`). Arrays and objects come back with all their items and members in order, texts
and truth values as they are, and numbers as far as the notation keeps them; what is invalid comes
back as `null`.

The proof has two halves, one for each stage of the reader, and both follow the value: the text of a
value has the tokens of the value (`hasTokens_renderAt`), where blanks and line breaks have gone,
and from the tokens of a value the reader makes the value (`parses_tokens`), where the bound on
its recursion is twice their number.
-/

namespace CodeAssist.Json

/-! ### What comes back -/

namespace Value

mutual
/-- What is read where a value was written. -/
def reread : Value → Value
  | null | invalid => null
  | bool b => bool b
  | number n => n.reread
  | text s => text s
  | array items => array (rereadItems items)
  | object members => object (rereadMembers members)

/-- What is read where items were written. -/
def rereadItems : List Value → List Value
  | [] => []
  | v :: vs => v.reread :: rereadItems vs

/-- What is read where members were written. -/
def rereadMembers : List (String × Value) → List (String × Value)
  | [] => []
  | (name, v) :: members => (name, v.reread) :: rereadMembers members
end

mutual
/-- The tokens of a value. -/
def tokens : Value → List Token
  | null | invalid => [.scalar null]
  | bool b => [.scalar (bool b)]
  | number n => [.scalar n.reread]
  | text s => [.text (some s)]
  | array [] => [.openArray, .closeArray]
  | array (v :: vs) => .openArray :: (v.tokens ++ itemTokens vs)
  | object [] => [.openObject, .closeObject]
  | object ((name, v) :: members) =>
    .openObject :: .text (some name) :: .colon :: (v.tokens ++ memberTokens members)

/-- The tokens of the later items of an array up to its end. -/
def itemTokens : List Value → List Token
  | [] => [.closeArray]
  | v :: vs => .comma :: (v.tokens ++ itemTokens vs)

/-- The tokens of the later members of an object up to its end. -/
def memberTokens : List (String × Value) → List Token
  | [] => [.closeObject]
  | (name, v) :: members =>
    .comma :: .text (some name) :: .colon :: (v.tokens ++ memberTokens members)
end

end Value

open Value (itemTokens memberTokens rereadItems rereadMembers)

/-! ### Marks and blanks -/

/-- A character that cannot go on a numeral ends it. -/
theorem endsNumeral_cons {c : Char} (rest : List Char)
    (hc : c.isDigit = false ∧ c ≠ '.' ∧ c ≠ 'e' ∧ c ≠ 'E') : EndsNumeral (c :: rest) where
  digits _ h := Option.some.inj h ▸ hc.1
  point h := hc.2.1 (Option.some.inj h)
  power := ⟨fun h => hc.2.2.1 (Option.some.inj h), fun h => hc.2.2.2 (Option.some.inj h)⟩

theorem endsNumeral_blanks {blanks : List Char} (h : ∀ c ∈ blanks, isSpace c = true) :
    EndsNumeral blanks := by
  cases blanks with
  | nil => exact endsNumeral_nil
  | cons c rest =>
    -- A blank is no digit and none of the marks that would continue a numeral.
    have hspace := h c List.mem_cons_self
    refine endsNumeral_cons rest ⟨?_, ?_, ?_, ?_⟩
    · by_contra hdigit
      rw [isSpace_of_isDigit (Bool.not_eq_false _ ▸ hdigit)] at hspace
      cases hspace
    all_goals
      rintro rfl
      cases hspace

theorem isSpace_of_mem_lineBreak {spread : Bool} {depth : Nat} {c : Char}
    (h : c ∈ lineBreak spread depth) : isSpace c = true := by
  unfold lineBreak at h
  split at h
  · rcases List.mem_cons.1 h with rfl | h
    · rfl
    · rw [List.eq_of_mem_replicate h]
      rfl
  · cases h

theorem EndsNumeral.lineBreak {rest : List Char} (h : EndsNumeral rest) (spread : Bool)
    (depth : Nat) : EndsNumeral (lineBreak spread depth ++ rest) := by
  unfold Json.lineBreak
  split
  · exact endsNumeral_cons _ (by decide)
  · exact h

theorem EndsNumeral.renderItems {rest : List Char} (h : EndsNumeral rest) (spread : Bool)
    (depth : Nat) (vs : List Value) : EndsNumeral (renderItems spread depth vs ++ rest) := by
  cases vs with
  | nil => exact h
  | cons v vs => exact endsNumeral_cons _ (by decide)

theorem EndsNumeral.renderMembers {rest : List Char} (h : EndsNumeral rest) (spread : Bool)
    (depth : Nat) (members : List (String × Value)) :
    EndsNumeral (renderMembers spread depth members ++ rest) := by
  cases members with
  | nil => exact h
  | cons member members => exact endsNumeral_cons _ (by decide)

/-! ### The tokens of a text that was written -/

namespace HasTokens

variable {rest : List Char} {tokens : List Token} (h : HasTokens rest tokens)
include h

theorem lineBreak (spread : Bool) (depth : Nat) :
    HasTokens (Json.lineBreak spread depth ++ rest) tokens :=
  h.blanks _ fun _ => isSpace_of_mem_lineBreak

theorem mark (c : Char) {mark : Token} (hspace : isSpace c = false)
    (hmark : token? ([c] ++ rest) = some (mark, rest)) : HasTokens (c :: rest) (mark :: tokens) :=
  h.token hspace hmark

/-- A number before a text that can follow one is one token more. -/
theorem number (hrest : EndsNumeral rest) (n : Number) :
    HasTokens (n.render ++ rest) (.scalar n.reread :: tokens) := by
  rcases n.render_cases with hnull | ⟨numeral, hnumeral, htext⟩
  · have hreread : n.reread = .null := by rw [Number.reread, hnull]; rfl
    rw [hnull, hreread]
    exact h.token (by decide) rfl
  · rw [← htext, Number.reread_of_text hnumeral htext]
    exact h.numeral hrest hnumeral

/-- The name of a member, and the colon behind it, are two tokens more. -/
theorem name (spread : Bool) (s : String) :
    HasTokens (Json.quote s ++ (if spread then [':', ' '] else [':']) ++ rest)
      (.text (some s) :: .colon :: tokens) := by
  rw [List.append_assoc]
  refine quote ?_ s
  cases spread with
  | true => exact mark (h.blanks _ (isSpace_of_mem_singleton rfl)) ':' rfl rfl
  | false => exact h.mark ':' rfl rfl

end HasTokens

mutual
/-- **The text of a value has the tokens of the value.** -/
theorem hasTokens_renderAt (spread : Bool) (depth : Nat) (v : Value) {rest : List Char}
    {tokens : List Token} (hrest : EndsNumeral rest) (h : HasTokens rest tokens) :
    HasTokens (renderAt spread depth v ++ rest) (v.tokens ++ tokens) := by
  -- The text is taken up from its end: the tokens behind a value come first.
  match v with
  | .null => exact h.token (by decide) rfl
  | .invalid => exact h.token (by decide) rfl
  | .bool true => exact h.token (by decide) rfl
  | .bool false => exact h.token (by decide) rfl
  | .number n => exact h.number hrest n
  | .text s => exact h.quote s
  | .array [] => exact (h.mark ']' rfl rfl).mark '[' rfl rfl
  | .array (v :: vs) =>
    have hitems := hasTokens_renderItems spread (depth + 1) depth vs h
    have hends := ((endsNumeral_cons (c := ']') rest (by decide)).lineBreak spread
      depth).renderItems spread (depth + 1) vs
    have hfirst := hasTokens_renderAt spread (depth + 1) v hends hitems
    have := (hfirst.lineBreak spread (depth + 1)).mark '[' rfl rfl
    simpa [renderAt, Value.tokens] using this
  | .object [] => exact (h.mark '\x7d' rfl rfl).mark '\x7b' rfl rfl
  | .object ((name, v) :: members) =>
    have hmembers := hasTokens_renderMembers spread (depth + 1) depth members h
    have hends := ((endsNumeral_cons (c := '\x7d') rest (by decide)).lineBreak spread
      depth).renderMembers spread (depth + 1) members
    have hfirst := (hasTokens_renderAt spread (depth + 1) v hends hmembers).name spread name
    have := (hfirst.lineBreak spread (depth + 1)).mark '\x7b' rfl rfl
    simpa [renderAt, Value.tokens] using this

/-- The texts of later items, and of the end of the array, have their tokens. -/
theorem hasTokens_renderItems (spread : Bool) (depth outer : Nat) (vs : List Value)
    {rest : List Char} {tokens : List Token} (h : HasTokens rest tokens) :
    HasTokens (renderItems spread depth vs ++ (lineBreak spread outer ++ ']' :: rest))
      (itemTokens vs ++ tokens) := by
  match vs with
  | [] => exact HasTokens.lineBreak (h.mark ']' rfl rfl) spread outer
  | v :: vs =>
    have hitems := hasTokens_renderItems spread depth outer vs h
    have hends := ((endsNumeral_cons (c := ']') rest (by decide)).lineBreak spread
      outer).renderItems spread depth vs
    have hfirst := hasTokens_renderAt spread depth v hends hitems
    have := (hfirst.lineBreak spread depth).mark ',' rfl rfl
    simpa [renderItems, itemTokens] using this

/-- The texts of later members, and of the end of the object, have their tokens. -/
theorem hasTokens_renderMembers (spread : Bool) (depth outer : Nat)
    (members : List (String × Value)) {rest : List Char} {tokens : List Token}
    (h : HasTokens rest tokens) :
    HasTokens (renderMembers spread depth members ++ (lineBreak spread outer ++ '\x7d' :: rest))
      (memberTokens members ++ tokens) := by
  match members with
  | [] => exact HasTokens.lineBreak (h.mark '\x7d' rfl rfl) spread outer
  | (name, v) :: members =>
    have hmembers := hasTokens_renderMembers spread depth outer members h
    have hends := ((endsNumeral_cons (c := '\x7d') rest (by decide)).lineBreak spread
      outer).renderMembers spread depth members
    have hfirst := (hasTokens_renderAt spread depth v hends hmembers).name spread name
    have := (hfirst.lineBreak spread depth).mark ',' rfl rfl
    simpa [renderMembers, memberTokens] using this
end

/-! ### Values from their tokens -/

/-- Some tokens are those of a value: with a bound that pays for each of them twice, the value is
read from them and no more is. -/
def Parses (tokens : List Token) (v : Value) : Prop :=
  ∀ fuel rest, 2 * tokens.length ≤ fuel → value? fuel (tokens ++ rest) = some (v, rest)

/-- Some tokens are those of the items of an array and of its end. -/
def ParsesItems (tokens : List Token) (vs : List Value) : Prop :=
  ∀ fuel rest, 2 * tokens.length ≤ fuel → items? fuel (tokens ++ rest) = some (vs, rest)

/-- Some tokens are those of the members of an object and of its end. -/
def ParsesMembers (tokens : List Token) (members : List (String × Value)) : Prop :=
  ∀ fuel rest, 2 * tokens.length ≤ fuel →
    members? fuel (tokens ++ rest) =
      some (members.map fun member => (some member.1, member.2), rest)

/-- What is read without looking into it needs a bound of one. -/
theorem parses_of_succ {tokens : List Token} {v : Value} (hne : tokens ≠ [])
    (h : ∀ fuel rest, value? (fuel + 1) (tokens ++ rest) = some (v, rest)) : Parses tokens v := by
  intro fuel rest hfuel
  have hpos := List.length_pos_iff.2 hne
  obtain ⟨fuel, rfl⟩ : ∃ n, fuel = n + 1 := ⟨fuel - 1, by omega⟩
  exact h fuel rest

theorem parses_scalar (v : Value) : Parses [.scalar v] v :=
  parses_of_succ (List.cons_ne_nil _ _) fun _ _ => rfl

/-- The last item of an array stands before its end. -/
theorem Parses.lastItem {tokens : List Token} {v : Value} (h : Parses tokens v) :
    ParsesItems (tokens ++ [.closeArray]) [v] := by
  intro fuel rest hfuel
  simp only [List.length_append, List.length_singleton] at hfuel
  obtain ⟨fuel, rfl⟩ : ∃ n, fuel = n + 1 := ⟨fuel - 1, by omega⟩
  have hitem := h fuel (.closeArray :: rest) (by omega)
  simp [items?, hitem]

/-- Another item of an array stands before a comma. -/
theorem Parses.item {tokens others : List Token} {v : Value} {vs : List Value}
    (h : Parses tokens v) (hothers : ParsesItems others vs) :
    ParsesItems (tokens ++ .comma :: others) (v :: vs) := by
  intro fuel rest hfuel
  simp only [List.length_append, List.length_cons] at hfuel
  obtain ⟨fuel, rfl⟩ : ∃ n, fuel = n + 1 := ⟨fuel - 1, by omega⟩
  have hitem := h fuel (.comma :: (others ++ rest)) (by omega)
  have hrest := hothers fuel rest (by omega)
  simp [items?, hitem, hrest]

/-- An array with items is read from an opening mark and their tokens. -/
theorem ParsesItems.array {tokens : List Token} {vs : List Value} (h : ParsesItems tokens vs) :
    Parses (.openArray :: tokens) (.array vs) := by
  intro fuel rest hfuel
  simp only [List.length_cons] at hfuel
  -- The list's own token takes one step of the fuel, and so does its first item.
  obtain ⟨fuel, rfl⟩ : ∃ n, fuel = n + 2 := ⟨fuel - 2, by omega⟩
  have hitems := h (fuel + 1) rest (by omega)
  rw [List.cons_append, value?, hitems]
  · rfl
  · -- The first of the tokens is no closing mark, as no item starts with one.
    intro others hclose
    rw [hclose] at hitems
    cases fuel <;> cases hitems

/-- The last member of an object stands before its end. -/
theorem Parses.lastMember {tokens : List Token} {v : Value} (h : Parses tokens v) (name : String) :
    ParsesMembers (.text (some name) :: .colon :: (tokens ++ [.closeObject])) [(name, v)] := by
  intro fuel rest hfuel
  simp only [List.length_append, List.length_cons, List.length_nil] at hfuel
  obtain ⟨fuel, rfl⟩ : ∃ n, fuel = n + 1 := ⟨fuel - 1, by omega⟩
  have hmember := h fuel (.closeObject :: rest) (by omega)
  simp [members?, hmember]

/-- Another member of an object stands before a comma. -/
theorem Parses.member {tokens others : List Token} {v : Value} {members : List (String × Value)}
    (h : Parses tokens v) (name : String) (hothers : ParsesMembers others members) :
    ParsesMembers (.text (some name) :: .colon :: (tokens ++ .comma :: others))
      ((name, v) :: members) := by
  intro fuel rest hfuel
  simp only [List.length_append, List.length_cons] at hfuel
  obtain ⟨fuel, rfl⟩ : ∃ n, fuel = n + 1 := ⟨fuel - 1, by omega⟩
  have hmember := h fuel (.comma :: (others ++ rest)) (by omega)
  have hrest := hothers fuel rest (by omega)
  simp [members?, hmember, hrest]

theorem objectOf_map_some (members : List (String × Value)) :
    objectOf (members.map fun member => (some member.1, member.2)) = .object members := by
  have hnames : (members.map fun member => (some member.1, member.2)).mapM
      (fun member => member.1.map (·, member.2)) = some members := by
    induction members with
    | nil => rfl
    | cons member members ih => simp [ih]
  unfold objectOf
  split
  · next found hfound => rw [Option.some.inj (hnames.symm.trans hfound)]
  · next hnone => cases hnames.symm.trans hnone

/-- An object with members is read from an opening mark and their tokens. -/
theorem ParsesMembers.object {tokens : List Token} {members : List (String × Value)}
    (h : ParsesMembers tokens members) : Parses (.openObject :: tokens) (.object members) := by
  intro fuel rest hfuel
  simp only [List.length_cons] at hfuel
  -- The object's own token takes one step of the fuel, and so does its first member.
  obtain ⟨fuel, rfl⟩ : ∃ n, fuel = n + 2 := ⟨fuel - 2, by omega⟩
  have hmembers := h (fuel + 1) rest (by omega)
  rw [List.cons_append, value?, hmembers]
  · simp [objectOf_map_some]
  · -- The first of the tokens is no closing mark, as no member starts with one.
    intro others hclose
    rw [hclose] at hmembers
    cases hmembers

mutual
/-- **From the tokens of a value the value is read**, as far as its literals are kept. -/
theorem parses_tokens (v : Value) : Parses v.tokens v.reread := by
  -- Every value is read with the fuel of its own tokens, so the values inside have enough.
  match v with
  | .null => exact parses_scalar _
  | .invalid => exact parses_scalar _
  | .bool b => exact parses_scalar _
  | .number n => exact parses_scalar _
  | .text s => exact parses_of_succ (List.cons_ne_nil _ _) fun _ _ => rfl
  | .array [] => exact parses_of_succ (List.cons_ne_nil _ _) fun _ _ => rfl
  | .array (v :: vs) => exact (parses_itemTokens vs (parses_tokens v)).array
  | .object [] => exact parses_of_succ (List.cons_ne_nil _ _) fun _ _ => rfl
  | .object ((name, v) :: members) =>
    exact (parses_memberTokens members (parses_tokens v) name).object

/-- Behind an item, the later ones are read up to the end of the array. -/
theorem parses_itemTokens (vs : List Value) {tokens : List Token} {v : Value}
    (h : Parses tokens v) : ParsesItems (tokens ++ itemTokens vs) (v :: rereadItems vs) := by
  match vs with
  | [] => exact h.lastItem
  | v :: vs => exact h.item (parses_itemTokens vs (parses_tokens v))

/-- Behind a member, the later ones are read up to the end of the object. -/
theorem parses_memberTokens (members : List (String × Value)) {tokens : List Token} {v : Value}
    (h : Parses tokens v) (name : String) :
    ParsesMembers (.text (some name) :: .colon :: (tokens ++ memberTokens members))
      ((name, v) :: rereadMembers members) := by
  match members with
  | [] => exact h.lastMember name
  | (next, v) :: members =>
    exact h.member name (parses_memberTokens members (parses_tokens v) next)
end

/-! ### Whole texts -/

/-- **A value that is written is read back**, on one line or on many, and with blanks behind it. -/
theorem read?_render (spread : Bool) (v : Value) (blanks : List Char)
    (hblanks : ∀ c ∈ blanks, isSpace c = true) :
    read? (String.ofList (renderAt spread 0 v ++ blanks)) = some v.reread := by
  have htokens := hasTokens_renderAt spread 0 v (endsNumeral_blanks hblanks)
    (hasTokens_blanks hblanks)
  rw [List.append_nil] at htokens
  have hvalue := parses_tokens v (2 * v.tokens.length + 1) [] (by omega)
  rw [List.append_nil] at hvalue
  simp [read?, String.toList_ofList, htokens.tokens?_eq, hvalue]

theorem read?_renderAt (spread : Bool) (v : Value) :
    read? (String.ofList (renderAt spread 0 v)) = some v.reread := by
  have hread := read?_render spread v [] (by simp)
  rwa [List.append_nil] at hread

end CodeAssist.Json
