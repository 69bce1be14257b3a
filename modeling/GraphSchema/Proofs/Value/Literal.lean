import GraphSchema.Proofs.Name
import GraphSchema.Proofs.Text.Escape
import GraphSchema.Value.Literal

/-!
# Literals

The literals of values as a grammar, in which no literal starts with another. So a literal in a text
ends where it has to, although what it stands for is not known from it: a list and a tuple of the
same items have one literal.

## Main definitions

* `Value.keysNamed` — whether the keys of all maps in a value are names.
* `Value.IsLiteral` — the grammar of literals.

## Main statements

* `Value.IsLiteral.append_inj` — a literal is read off a text.
* `Value.isLiteral_literalChars` — the literals of values belong to the grammar.
-/

namespace GraphSchema

/-! ## Names -/

namespace Name

variable {v w x y : List Char}

theorem exists_cons_of_isName (h : isName v = true) :
    ∃ c w, v = c :: w ∧ isContinue c = true := by
  cases v with
  | nil => cases h
  | cons c v => exact ⟨c, v, rfl, isContinue_of_isName h c List.mem_cons_self⟩

/-- A name is read off a text that does not continue it. -/
theorem append_inj_of_isName (hv : isName v = true) (hw : isName w = true)
    (hx : Text.Stops isContinue x) (hy : Text.Stops isContinue y) (h : v ++ x = w ++ y) :
    v = w ∧ x = y :=
  Text.append_inj_of_stops (isContinue_of_isName hv) (isContinue_of_isName hw) hx hy h

end Name

namespace Value

open Text (Stops)

/-! ## The grammar -/

/-- The characters of numbers, and of the names that stand for values. -/
def isBare (c : Char) : Bool := Name.isContinue c || c == '+' || c == '-' || c == '.'

/-- The grammar of literals: what is written without quotes, texts, lists, and maps. -/
inductive IsLiteral : List Char → Prop
  | bare {w : List Char} : w ≠ [] → (∀ c ∈ w, isBare c = true) → IsLiteral w
  | quoted (s : List Char) : IsLiteral (Text.jsonQuoted s)
  | list {ws : List (List Char)} : (∀ w ∈ ws, IsLiteral w) →
      IsLiteral ('[' :: joinComma ws ++ [']'])
  | map {es : List (List Char × List Char)} : (∀ e ∈ es, Name.isName e.1 = true) →
      (∀ e ∈ es, IsLiteral e.2) →
      IsLiteral ('\x7b' :: joinComma (es.map fun e => e.1 ++ ':' :: ' ' :: e.2) ++ ['\x7d'])

variable {v w x y z : List Char} {c : Char}

theorem joinComma_eq_intercalate (ws : List (List Char)) :
    joinComma ws = List.intercalate [',', ' '] ws := by
  induction ws with
  | nil => rfl
  | cons w ws ih =>
    cases ws with
    | nil => simp [joinComma]
    | cons w' ws =>
      rw [joinComma, ih, List.intercalate_cons_cons]
      · simp
      · simp

/-- What is written without quotes starts with one of its own characters. -/
theorem ne_of_bare (hne : w ≠ []) (hbare : ∀ c ∈ w, isBare c = true) (hc : isBare c = false) :
    w ++ x ≠ c :: y := by
  cases w with
  | nil => exact absurd rfl hne
  | cons d w =>
    intro h
    have hd := hbare d List.mem_cons_self
    rw [(List.cons.inj h).1, hc] at hd
    cases hd

/-- No literal starts with a closing bracket. -/
theorem IsLiteral.append_ne (hw : IsLiteral w) (hc : c ∈ [']', '\x7d']) : w ++ x ≠ c :: y := by
  have hcases : c = ']' ∨ c = '\x7d' := by simpa using hc
  cases hw with
  | bare hne hbare => exact ne_of_bare hne hbare (by rcases hcases with rfl | rfl <;> decide)
  | quoted | list | map => rcases hcases with rfl | rfl <;> simp [Text.jsonQuoted]

/-- An entry of a map is read off a text. -/
theorem entry_append_inj {e e' : List Char × List Char} (hk : Name.isName e.1 = true)
    (hk' : Name.isName e'.1 = true)
    (hread : e.2 ++ x = e'.2 ++ y → e.2 = e'.2 ∧ x = y)
    (h : (e.1 ++ ':' :: ' ' :: e.2) ++ x = (e'.1 ++ ':' :: ' ' :: e'.2) ++ y) :
    e = e' ∧ x = y := by
  simp only [List.append_assoc, List.cons_append] at h
  obtain ⟨hkey, h⟩ := Name.append_inj_of_isName hk hk' (Text.stops_cons.2 (by decide))
    (Text.stops_cons.2 (by decide)) h
  simp only [List.cons.injEq, true_and] at h
  obtain ⟨hvalue, hxy⟩ := hread h
  exact ⟨Prod.ext hkey hvalue, hxy⟩

/-- No entry starts with a closing bracket. -/
theorem entry_append_ne {e : List Char × List Char} (hk : Name.isName e.1 = true)
    (hc : Name.isContinue c = false) : (e.1 ++ ':' :: ' ' :: e.2) ++ x ≠ c :: y := by
  obtain ⟨d, w, hkey, hd⟩ := Name.exists_cons_of_isName hk
  rw [hkey]
  rintro h
  rw [(List.cons.inj h).1, hc] at hd
  cases hd

/-- Of two literals in front of texts that do not continue them neither can be mistaken for the
other. -/
theorem IsLiteral.append_inj (hv : IsLiteral v) (hw : IsLiteral w) (hx : Stops isBare x)
    (hy : Stops isBare y) (h : v ++ x = w ++ y) : v = w ∧ x = y := by
  have hcomma (z : List Char) : Stops isBare ([',', ' '] ++ z) := Text.stops_cons.2 (by decide)
  -- on the derivation of the first; the second starts with the same character
  induction hv generalizing w x y with
  | bare hne hbare =>
    cases hw with
    | bare _ hbare' => exact Text.append_inj_of_stops hbare hbare' hx hy h
    | quoted | list | map => exact absurd h (ne_of_bare hne hbare (by decide))
  | quoted s =>
    cases hw with
    | bare hne hbare => exact absurd h.symm (ne_of_bare hne hbare (by decide))
    | quoted t =>
      obtain ⟨rfl, hxy⟩ := Text.jsonQuoted_append_inj h
      exact ⟨rfl, hxy⟩
    | list | map => simp [Text.jsonQuoted] at h
  | @list ws hws ih =>
    cases hw with
    | bare hne hbare => exact absurd h.symm (ne_of_bare hne hbare (by decide))
    | quoted | map => simp [Text.jsonQuoted] at h
    | @list ws' hws' =>
      simp only [List.cons_append, List.append_assoc, List.cons.injEq, true_and,
        joinComma_eq_intercalate] at h
      rw [← List.map_id' ws, ← List.map_id' ws'] at h
      obtain ⟨hsame, hxy⟩ := Text.intercalate_append_inj (R := Eq) (Stops isBare)
        (fun a ha b hb x y hx hy h => ih a ha (hws' b hb) hx hy h)
        (fun z => ⟨hcomma z, by simp, by simp⟩)
        (fun a ha z => (hws a ha).append_ne (by simp))
        (fun b hb z => (hws' b hb).append_ne (by simp))
        (Text.stops_cons.2 (by decide)) (Text.stops_cons.2 (by decide)) h
      rw [List.forall₂_eq_eq_eq] at hsame
      exact ⟨by rw [hsame], by simpa using hxy⟩
  | @map es hkeys hes ih =>
    cases hw with
    | bare hne hbare => exact absurd h.symm (ne_of_bare hne hbare (by decide))
    | quoted | list => simp [Text.jsonQuoted] at h
    | @map es' hkeys' hes' =>
      simp only [List.cons_append, List.append_assoc, List.cons.injEq, true_and,
        joinComma_eq_intercalate] at h
      obtain ⟨hsame, hxy⟩ := Text.intercalate_append_inj (R := Eq) (Stops isBare)
        (fun e he e' he' x y hx hy => entry_append_inj (hkeys e he) (hkeys' e' he')
          (ih e he (hes' e' he') hx hy))
        (fun z => ⟨hcomma z, by simp, by simp⟩)
        (fun e he z => entry_append_ne (hkeys e he) (by decide))
        (fun e he z => entry_append_ne (hkeys' e he) (by decide))
        (Text.stops_cons.2 (by decide)) (Text.stops_cons.2 (by decide)) h
      rw [List.forall₂_eq_eq_eq] at hsame
      exact ⟨by rw [hsame], by simpa using hxy⟩

/-! ## Numbers -/

/-- Whether a text has only characters that are written without quotes. -/
def AllBare (s : String) : Prop := ∀ c ∈ s.toList, isBare c = true

instance (s : String) : Decidable (AllBare s) :=
  decidable_of_iff (s.toList.all isBare = true) List.all_eq_true

variable {s t : String}

theorem AllBare.append (hs : AllBare s) (ht : AllBare t) : AllBare (s ++ t) := by
  intro c hc
  rw [String.toList_append, List.mem_append] at hc
  exact hc.elim (hs c) (ht c)

theorem allBare_ofList (h : ∀ c ∈ w, isBare c = true) : AllBare (String.ofList w) := by
  simpa [AllBare] using h

theorem isBare_of_isDigit (h : c.isDigit = true) : isBare c = true := by
  simp only [Char.isDigit, Bool.and_eq_true, decide_eq_true_eq, ge_iff_le] at h
  have hdigit : Name.isDigit c = true := by
    simp only [Name.isDigit, Bool.and_eq_true, decide_eq_true_eq, Char.le_def]
    exact h
  simp [isBare, Name.isContinue, hdigit]

theorem allBare_natRepr (n : Nat) : AllBare n.repr := by
  intro c hc
  rw [Nat.toList_repr] at hc
  exact isBare_of_isDigit (Nat.isDigit_of_mem_toDigits (by decide) (by decide) hc)

theorem allBare_intRepr (i : Int) : AllBare i.repr := by
  rw [Int.repr_eq_if]
  split
  · exact allBare_natRepr _
  · exact AllBare.append (by decide) (allBare_natRepr _)

theorem intRepr_ne_empty (i : Int) : i.repr ≠ "" := by
  rw [Int.repr_eq_if]
  split <;> simp

theorem allBare_zeros (n : Int) : AllBare (Decimal.Scaled.text.zeros n) := by
  refine allBare_ofList fun c hc => ?_
  rw [List.eq_of_mem_replicate hc]
  decide

theorem allBare_exponentText (e : Int) : AllBare (Decimal.exponentText e) := by
  unfold Decimal.exponentText
  dsimp only
  refine AllBare.append ?_ ?_
  · split <;> decide
  · split
    · exact AllBare.append (by decide) (allBare_natRepr _)
    · exact allBare_natRepr _

theorem allBare_scaledText (x : Decimal.Scaled) : AllBare x.text := by
  have hdigits := allBare_natRepr x.digits
  have htake (n : Nat) : AllBare (String.ofList ((toString x.digits).toList.take n)) :=
    allBare_ofList fun c hc => hdigits c (List.mem_of_mem_take hc)
  have hdrop (n : Nat) : AllBare (String.ofList ((toString x.digits).toList.drop n)) :=
    allBare_ofList fun c hc => hdigits c (List.mem_of_mem_drop hc)
  unfold Decimal.Scaled.text
  dsimp only
  split
  · split
    · exact (AllBare.append (by decide) (allBare_zeros _)).append hdigits
    · split
      · exact ((htake _).append (by decide)).append (hdrop _)
      · exact (hdigits.append (allBare_zeros _)).append (by decide)
  · refine ((htake _).append ?_).append (allBare_exponentText _)
    split
    · decide
    · exact AllBare.append (by decide) (hdrop _)

theorem allBare_floatLiteral (x : Float) : AllBare (floatLiteral x) := by
  unfold floatLiteral Decimal.floatText
  dsimp only
  have hsign : AllBare (if Decimal.isNegative x = true then "-" else "") := by
    split <;> decide
  split
  · decide
  · split
    · split <;> decide
    · split
      · exact hsign.append (by decide)
      · exact hsign.append (allBare_scaledText _)

theorem floatLiteral_ne_empty (x : Float) : floatLiteral x ≠ "" := by
  have hscaled (x : Decimal.Scaled) : x.text ≠ "" := by
    unfold Decimal.Scaled.text Decimal.exponentText
    dsimp only
    split
    · split
      · simp
      · split <;> simp
    · split <;> simp
  unfold floatLiteral Decimal.floatText
  dsimp only
  split
  · simp
  · split
    · split <;> simp
    · split
      · simp
      · simp [hscaled]

/-! ## Literals of values -/

mutual

/-- Whether the keys of all maps in a value are names. -/
def keysNamed : Value → Bool
  | list items => allKeysNamed items
  | tuple items => allKeysNamed items
  | map entries => entriesKeysNamed entries
  | _ => true

/-- Whether the keys of all maps in the values of a sequence are names. -/
def allKeysNamed : List Value → Bool
  | [] => true
  | v :: vs => keysNamed v && allKeysNamed vs

/-- Whether the keys of a map and of all maps in its values are names. -/
def entriesKeysNamed : List (Value × Value) → Bool
  | [] => true
  | (k, v) :: es => Name.isName (display k).toList && keysNamed v && entriesKeysNamed es

end

theorem literals_eq_map (vs : List Value) : literals vs = vs.map literalChars := by
  induction vs with
  | nil => rfl
  | cons v vs ih => rw [literals, ih, List.map_cons]

theorem literalEntries_eq_map (es : List (Value × Value)) :
    literalEntries es = (es.map fun e => ((display e.1).toList, literalChars e.2)).map
      fun e => e.1 ++ ':' :: ' ' :: e.2 := by
  induction es with
  | nil => rfl
  | cons e es ih => rw [literalEntries, ih]; rfl

mutual

/-- The literal of a value whose maps have names for keys belongs to the grammar. -/
theorem isLiteral_literalChars (v : Value) (h : v.keysNamed = true) :
    IsLiteral v.literalChars := by
  have hbare {s : String} (hne : s ≠ "") (hs : AllBare s) : IsLiteral s.toList :=
    .bare (by simpa using hne) hs
  cases v with
  | null => exact hbare (by decide) (by decide)
  | bool b => cases b <;> exact hbare (by decide) (by decide)
  | int i => exact hbare (intRepr_ne_empty i) (allBare_intRepr i)
  | float x => exact hbare (floatLiteral_ne_empty x) (allBare_floatLiteral x)
  | str s => exact .quoted _
  | list items =>
    rw [literalChars, literals_eq_map]
    exact .list (List.forall_mem_map.2 (isLiteral_of_mem items h))
  | tuple items =>
    rw [literalChars, literals_eq_map]
    exact .list (List.forall_mem_map.2 (isLiteral_of_mem items h))
  | map entries =>
    rw [literalChars, literalEntries_eq_map]
    exact .map (List.forall_mem_map.2 fun e he => (isLiteral_of_mem_entries entries h e he).1)
      (List.forall_mem_map.2 fun e he => (isLiteral_of_mem_entries entries h e he).2)
  | object lineage attributes methods => exact .quoted _

theorem isLiteral_of_mem (vs : List Value) (h : allKeysNamed vs = true) :
    ∀ v ∈ vs, IsLiteral v.literalChars := by
  cases vs with
  | nil => simp
  | cons v vs =>
    obtain ⟨hv, hvs⟩ := Bool.and_eq_true_iff.1 h
    exact List.forall_mem_cons.2 ⟨isLiteral_literalChars v hv, isLiteral_of_mem vs hvs⟩

theorem isLiteral_of_mem_entries (es : List (Value × Value)) (h : entriesKeysNamed es = true) :
    ∀ e ∈ es, Name.isName (display e.1).toList = true ∧ IsLiteral e.2.literalChars := by
  cases es with
  | nil => simp
  | cons e es =>
    obtain ⟨k, v⟩ := e
    obtain ⟨hkv, hes⟩ := Bool.and_eq_true_iff.1 h
    obtain ⟨hk, hv⟩ := Bool.and_eq_true_iff.1 hkv
    exact List.forall_mem_cons.2 ⟨⟨hk, isLiteral_literalChars v hv⟩,
      isLiteral_of_mem_entries es hes⟩

end

/-- The literal of a value is read off a text that does not continue it. -/
theorem literalChars_append_inj {u v : Value} {x y : List Char} (hu : u.keysNamed = true)
    (hv : v.keysNamed = true) (hx : Stops isBare x) (hy : Stops isBare y)
    (h : u.literalChars ++ x = v.literalChars ++ y) : u.literal = v.literal ∧ x = y := by
  obtain ⟨hsame, hxy⟩ := (isLiteral_literalChars u hu).append_inj (isLiteral_literalChars v hv)
    hx hy h
  exact ⟨congrArg String.ofList hsame, hxy⟩

end Value

end GraphSchema
