import GraphSchema.Proofs.Traversal
import GraphSchema.Proofs.Value.Literal

/-!
# What literals stand for

A literal stands for one value, if lists and tuples count as one kind of sequence and the maps in it
have names for keys.

## Main definitions

* `Value.sequenced` — the value with lists in place of tuples.
* `Value.Plain` — the values whose literals can be read back: without floating-point numbers and
  objects, and with names for keys.

## Main statements

* `Value.literalChars_sequenced` — lists and tuples are written alike.
* `Value.Plain.sequenced_eq` — plain values with one literal are the same up to tuples.
* `Value.literal_eq_iff` — when two plain values have one literal.
-/

namespace GraphSchema

namespace Value

/-! ## Sequences -/

mutual

/-- The value with a list in place of every tuple in it. -/
def sequenced : Value → Value
  | list items => list (allSequenced items)
  | tuple items => list (allSequenced items)
  | map entries => map (entriesSequenced entries)
  | v => v

/-- The values of a sequence, with lists in place of tuples. -/
def allSequenced : List Value → List Value
  | [] => []
  | v :: vs => sequenced v :: allSequenced vs

/-- The entries of a map, with lists in place of the tuples in its values. -/
def entriesSequenced : List (Value × Value) → List (Value × Value)
  | [] => []
  | (k, v) :: es => (k, sequenced v) :: entriesSequenced es

end

theorem allSequenced_eq_map (vs : List Value) : allSequenced vs = vs.map sequenced := by
  induction vs with
  | nil => rfl
  | cons v vs ih => rw [allSequenced, ih, List.map_cons]

theorem entriesSequenced_eq_map (es : List (Value × Value)) :
    entriesSequenced es = es.map fun e => (e.1, e.2.sequenced) := by
  induction es with
  | nil => rfl
  | cons e es ih => rw [entriesSequenced, ih]; rfl

mutual

/-- Lists and tuples are written alike. -/
theorem literalChars_sequenced (v : Value) : v.sequenced.literalChars = v.literalChars := by
  cases v with
  | list items => simp only [sequenced, literalChars, literals_sequenced items]
  | tuple items => simp only [sequenced, literalChars, literals_sequenced items]
  | map entries => simp only [sequenced, literalChars, literalEntries_sequenced entries]
  | null | bool | int | float | str | object => rfl

theorem literals_sequenced (vs : List Value) : literals (allSequenced vs) = literals vs := by
  cases vs with
  | nil => rfl
  | cons v vs =>
    rw [allSequenced, literals, literals, literalChars_sequenced v, literals_sequenced vs]

theorem literalEntries_sequenced (es : List (Value × Value)) :
    literalEntries (entriesSequenced es) = literalEntries es := by
  cases es with
  | nil => rfl
  | cons e es =>
    rw [entriesSequenced, literalEntries, literalEntries, literalChars_sequenced e.2,
      literalEntries_sequenced es]

end

/-! ## Plain values -/

/-- What is written without quotes: nothing, truth values and integers. -/
inductive Unquoted : Value → Prop
  | null : Unquoted null
  | bool (b : Bool) : Unquoted (bool b)
  | int (i : Int) : Unquoted (int i)

/-- Values whose literals can be read back. -/
inductive Plain : Value → Prop
  | unquoted {v : Value} : Unquoted v → Plain v
  | str (s : String) : Plain (str s)
  | list {items : List Value} : (∀ v ∈ items, Plain v) → Plain (list items)
  | tuple {items : List Value} : (∀ v ∈ items, Plain v) → Plain (tuple items)
  | map {entries : List (Value × Value)} :
      (∀ e ∈ entries, ∃ name : String, e.1 = .str name ∧ Name.isName name.toList = true) →
      (∀ e ∈ entries, Plain e.2) → Plain (map entries)

variable {u v : Value} {us vs : List Value} {es fs : List (Value × Value)}

theorem allKeysNamed_iff : allKeysNamed vs = true ↔ ∀ v ∈ vs, v.keysNamed = true := by
  induction vs with
  | nil => simp [allKeysNamed]
  | cons v vs ih => rw [allKeysNamed, Bool.and_eq_true, ih, List.forall_mem_cons]

theorem entriesKeysNamed_iff : entriesKeysNamed es = true ↔
    ∀ e ∈ es, Name.isName (display e.1).toList = true ∧ e.2.keysNamed = true := by
  induction es with
  | nil => simp [entriesKeysNamed]
  | cons e es ih =>
    rw [entriesKeysNamed, Bool.and_eq_true, Bool.and_eq_true, ih, List.forall_mem_cons]

/-- The keys of a plain map are displayed as the names that they are. -/
theorem isName_display {k : Value}
    (h : ∃ name : String, k = .str name ∧ Name.isName name.toList = true) :
    Name.isName (display k).toList = true := by
  obtain ⟨name, rfl, hname⟩ := h
  exact hname

theorem Plain.keysNamed (h : v.Plain) : v.keysNamed = true := by
  induction h with
  | unquoted h => cases h <;> rfl
  | str s => rfl
  | list _ ih | tuple _ ih => exact allKeysNamed_iff.2 ih
  | map hkeys _ ih =>
    exact entriesKeysNamed_iff.2 fun e he => ⟨isName_display (hkeys e he), ih e he⟩

theorem plain_map_iff : (map es).Plain ↔
    (∀ e ∈ es, ∃ name : String, e.1 = .str name ∧ Name.isName name.toList = true) ∧
      ∀ e ∈ es, e.2.Plain := by
  refine ⟨fun h => ?_, fun h => .map h.1 h.2⟩
  cases h with
  | map hkeys hes => exact ⟨hkeys, hes⟩
  | unquoted h => cases h

theorem Plain.isLiteral (h : v.Plain) : IsLiteral v.literalChars :=
  isLiteral_literalChars v h.keysNamed

/-! ## Numbers -/

theorem isDigit_of_mem_natRepr {n : Nat} {c : Char} (hc : c ∈ n.repr.toList) :
    c.isDigit = true := by
  rw [Nat.toList_repr] at hc
  exact Nat.isDigit_of_mem_toDigits (by decide) (by decide) hc

theorem natRepr_inj {m n : Nat} (h : m.repr = n.repr) : m = n := by
  have hdigits : Nat.toDigits 10 m = Nat.toDigits 10 n := by
    rw [← Nat.toList_repr, h, Nat.toList_repr]
  rw [← Nat.ofDigitChars_toDigits (by decide : 1 < 10) (Nat.le_refl 10) (n := m), hdigits,
    Nat.ofDigitChars_toDigits (by decide) (Nat.le_refl 10)]

/-- Only negative integers start with a sign. -/
theorem natRepr_ne_signed {n : Nat} {s : String} : n.repr ≠ "-" ++ s := by
  intro h
  have hmem : '-' ∈ n.repr.toList := by
    rw [h, String.toList_append]
    exact List.mem_append_left _ List.mem_cons_self
  exact absurd (isDigit_of_mem_natRepr hmem) (by decide)

theorem intRepr_inj {i j : Int} (h : i.repr = j.repr) : i = j := by
  rw [Int.repr_eq_if, Int.repr_eq_if] at h
  split at h
  · split at h
    · have := natRepr_inj h
      omega
    · exact absurd h natRepr_ne_signed
  · split at h
    · exact absurd h.symm natRepr_ne_signed
    · have := natRepr_inj ((String.append_right_inj _).1 h)
      omega

/-- No integer is written with a letter. -/
theorem intRepr_ne {i : Int} {s : String} {c : Char} (hc : c ∈ s.toList)
    (hdigit : c.isDigit = false) (hsign : c ≠ '-') : i.repr ≠ s := by
  rintro rfl
  have hcases : c.isDigit = true ∨ c = '-' := by
    rw [Int.repr_eq_if] at hc
    split at hc
    · exact .inl (isDigit_of_mem_natRepr hc)
    · rw [String.toList_append, List.mem_append] at hc
      exact hc.symm.imp isDigit_of_mem_natRepr List.mem_singleton.1
  simp [hdigit, hsign] at hcases

/-! ## Without quotes -/

theorem Unquoted.bare (h : v.Unquoted) :
    v.literalChars ≠ [] ∧ ∀ c ∈ v.literalChars, isBare c = true := by
  cases h with
  | null => exact ⟨by decide, List.all_eq_true.1 rfl⟩
  | bool b => cases b <;> exact ⟨by decide, List.all_eq_true.1 rfl⟩
  | int i => exact ⟨by simpa [literalChars] using intRepr_ne_empty i, allBare_intRepr i⟩

/-- What is written without quotes is not mistaken for what starts with a quote or a bracket. -/
theorem Unquoted.literalChars_ne {c : Char} {y : List Char} (h : v.Unquoted)
    (hc : isBare c = false) : v.literalChars ≠ c :: y := by
  rw [← List.append_nil v.literalChars]
  exact ne_of_bare h.bare.1 h.bare.2 hc

/-- No integer is written as nothing or a truth value is. -/
theorem literalChars_int_ne {i : Int} (hv : v = null ∨ ∃ b, v = bool b) :
    (int i).literalChars ≠ v.literalChars := by
  intro h
  have hrepr {s : String} (he : v.literalChars = s.toList) : i.repr = s :=
    String.toList_inj.1 (h.trans he)
  rcases hv with rfl | ⟨_ | _, rfl⟩
  · exact intRepr_ne (c := 'n') (by decide) (by decide) (by decide) (hrepr (s := "null") rfl)
  · exact intRepr_ne (c := 'f') (by decide) (by decide) (by decide) (hrepr (s := "false") rfl)
  · exact intRepr_ne (c := 't') (by decide) (by decide) (by decide) (hrepr (s := "true") rfl)

/-- Of what is written without quotes no two are written alike. -/
theorem Unquoted.eq_of_literalChars (hu : u.Unquoted) (hv : v.Unquoted)
    (h : u.literalChars = v.literalChars) : u = v := by
  cases hu with
  | int i =>
    cases hv with
    | int j => rw [intRepr_inj (String.toList_inj.1 h)]
    | null => exact absurd h (literalChars_int_ne (.inl rfl))
    | bool b => exact absurd h (literalChars_int_ne (.inr ⟨b, rfl⟩))
  | null =>
    cases hv with
    | int j => exact absurd h.symm (literalChars_int_ne (.inl rfl))
    | null => rfl
    | bool b => cases b <;> cases h
  | bool b =>
    cases hv with
    | int j => exact absurd h.symm (literalChars_int_ne (.inr ⟨b, rfl⟩))
    | null => cases b <;> cases h
    | bool b' => cases b <;> cases b' <;> first | rfl | cases h

/-! ## Sequences and maps -/

/-- A sequence is read item by item. -/
theorem forall₂_of_literals {R : Value → Value → Prop} (hus : ∀ u ∈ us, u.Plain)
    (hvs : ∀ v ∈ vs, v.Plain)
    (hread : ∀ u ∈ us, ∀ v ∈ vs, u.literalChars = v.literalChars → R u v)
    (h : joinComma (literals us) ++ [']'] = joinComma (literals vs) ++ [']']) :
    List.Forall₂ R us vs := by
  rw [literals_eq_map, literals_eq_map, joinComma_eq_intercalate, joinComma_eq_intercalate] at h
  refine (Text.intercalate_append_inj (Text.Stops isBare) (fun u hu v hv x y hx hy h => ?_)
    (fun z => ⟨Text.stops_cons.2 (by decide), by simp, by simp⟩)
    (fun u hu z => (hus u hu).isLiteral.append_ne (by simp))
    (fun v hv z => (hvs v hv).isLiteral.append_ne (by simp))
    (Text.stops_cons.2 (by decide)) (Text.stops_cons.2 (by decide)) h).1
  obtain ⟨hsame, hxy⟩ := (hus u hu).isLiteral.append_inj (hvs v hv).isLiteral hx hy h
  exact ⟨hread u hu v hv hsame, hxy⟩

/-- A map is read entry by entry. -/
theorem forall₂_of_literalEntries {R : Value → Value → Prop} (hes : (map es).Plain)
    (hfs : (map fs).Plain)
    (hread : ∀ e ∈ es, ∀ f ∈ fs, e.2.literalChars = f.2.literalChars → R e.2 f.2)
    (h : joinComma (literalEntries es) ++ ['\x7d'] = joinComma (literalEntries fs) ++ ['\x7d']) :
    List.Forall₂ (fun e f => e.1 = f.1 ∧ R e.2 f.2) es fs := by
  obtain ⟨hkeys, hes⟩ := plain_map_iff.1 hes
  obtain ⟨hkeys', hfs⟩ := plain_map_iff.1 hfs
  rw [literalEntries_eq_map, literalEntries_eq_map, joinComma_eq_intercalate,
    joinComma_eq_intercalate, List.map_map, List.map_map] at h
  refine (Text.intercalate_append_inj (Text.Stops isBare) (fun e he f hf x y hx hy h => ?_)
    (fun z => ⟨Text.stops_cons.2 (by decide), by simp, by simp⟩)
    (fun e he z => entry_append_ne (isName_display (hkeys e he)) (by decide))
    (fun f hf z => entry_append_ne (isName_display (hkeys' f hf)) (by decide))
    (Text.stops_cons.2 (by decide)) (Text.stops_cons.2 (by decide)) h).1
  obtain ⟨hsame, hxy⟩ := entry_append_inj (isName_display (hkeys e he))
    (isName_display (hkeys' f hf))
    (fun h => (hes e he).isLiteral.append_inj (hfs f hf).isLiteral hx hy h) h
  obtain ⟨hkey, hvalue⟩ := Prod.mk.inj hsame
  obtain ⟨k, hk, -⟩ := hkeys e he
  obtain ⟨k', hk', -⟩ := hkeys' f hf
  refine ⟨⟨?_, hread e he f hf hvalue⟩, hxy⟩
  rw [hk, hk', display, display, String.toList_inj] at hkey
  rw [hk, hk', hkey]

/-! ## Values -/

/-- Plain values that are written alike are the same up to tuples. -/
theorem Plain.sequenced_eq (hu : u.Plain) (hv : v.Plain) (h : u.literalChars = v.literalChars) :
    u.sequenced = v.sequenced := by
  -- on the first value; the second starts with the same character
  induction hu generalizing v with
  | unquoted hu =>
    cases hv with
    | unquoted hv => rw [hu.eq_of_literalChars hv h]
    | str | list | tuple | map => exact absurd h (hu.literalChars_ne (by decide))
  | str s =>
    cases hv with
    | unquoted hv => exact absurd h.symm (hv.literalChars_ne (by decide))
    | str t =>
      have hread : Text.jsonQuoted s.toList ++ [] = Text.jsonQuoted t.toList ++ [] := by
        rw [List.append_nil, List.append_nil]
        exact h
      rw [String.toList_inj.1 (Text.jsonQuoted_append_inj hread).1]
    | list | tuple | map => simp [literalChars, Text.jsonQuoted] at h
  | list hus ih | tuple hus ih =>
    cases hv with
    | unquoted hv => exact absurd h.symm (hv.literalChars_ne (by decide))
    | str | map => simp [literalChars, Text.jsonQuoted] at h
    | list hvs | tuple hvs =>
      have hitems := forall₂_of_literals hus hvs (fun u hu v hv => ih u hu (hvs v hv))
        (by simpa [literalChars] using h)
      simp only [sequenced, allSequenced_eq_map]
      exact congrArg Value.list (map_eq_of_forall₂ hitems fun _ _ he => he.symm).symm
  | map hkeys hes ih =>
    cases hv with
    | unquoted hv => exact absurd h.symm (hv.literalChars_ne (by decide))
    | str | list | tuple => simp [literalChars, Text.jsonQuoted] at h
    | map hkeys' hfs =>
      have hentries := forall₂_of_literalEntries (R := fun u v => u.sequenced = v.sequenced)
        (.map hkeys hes) (.map hkeys' hfs) (fun e he f hf => ih e he (hfs f hf))
        (by simpa [literalChars] using h)
      simp only [sequenced, entriesSequenced_eq_map]
      refine congrArg Value.map (map_eq_of_forall₂ hentries fun _ _ he => ?_).symm
      exact Prod.ext he.1.symm he.2.symm

/-- Two plain values have one literal exactly if they are the same up to tuples. -/
theorem literal_eq_iff (hu : u.Plain) (hv : v.Plain) :
    u.literal = v.literal ↔ u.sequenced = v.sequenced := by
  constructor
  · intro h
    exact hu.sequenced_eq hv (String.ofList_injective h)
  · intro h
    rw [literal, literal, ← literalChars_sequenced u, h, literalChars_sequenced v]

/-! ## A list and a tuple -/

namespace Nested

/-- Items of a sequence, among them a map. The text in it has all delimiters. -/
def items : List Value :=
  [int (-1), bool true, map [(str "_tags", tuple [str "\", \x7d]\\", null])]]

theorem plain : ∀ v ∈ items, v.Plain := by
  have htuple : (tuple [str "\", \x7d]\\", null]).Plain := by
    refine .tuple (List.forall_mem_cons.2 ⟨.str _, List.forall_mem_singleton.2 ?_⟩)
    exact .unquoted .null
  refine List.forall_mem_cons.2 ⟨.unquoted (.int _), List.forall_mem_cons.2 ⟨.unquoted (.bool _),
    List.forall_mem_singleton.2 (.map ?_ ?_)⟩⟩
  · exact List.forall_mem_singleton.2 ⟨"_tags", rfl, by decide⟩
  · exact List.forall_mem_singleton.2 htuple

end Nested

/-- A list and a tuple of the same items have one literal, and a list without the last of them has
another. -/
theorem nested_literal_eq :
    (list Nested.items).Plain ∧ (tuple Nested.items).Plain ∧ (list Nested.items.dropLast).Plain ∧
      (list Nested.items).literal = (tuple Nested.items).literal ∧
      (list Nested.items).literal ≠ (list Nested.items.dropLast).literal := by
  have hlist : (list Nested.items).Plain := .list Nested.plain
  have htuple : (tuple Nested.items).Plain := .tuple Nested.plain
  have hshort : (list Nested.items.dropLast).Plain :=
    .list fun v hv => Nested.plain v (List.dropLast_subset _ hv)
  refine ⟨hlist, htuple, hshort, (literal_eq_iff hlist htuple).2 rfl, fun h => ?_⟩
  simpa [sequenced, allSequenced_eq_map, Nested.items] using (literal_eq_iff hlist hshort).1 h

end Value

end GraphSchema
