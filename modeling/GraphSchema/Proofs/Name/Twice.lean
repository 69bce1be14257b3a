import GraphSchema.Proofs.Name
import Mathlib.Data.List.Infix

/-!
# Names that are spelled twice

Of several underscores before a digit, joining words drops the last one only, and the one before it
comes to stand before the digit. So a second pass drops that one, and the spelling with capitals is
its own spelling with capitals exactly for names without such underscores, apart from those in
front. Before a letter this does not happen: a letter that has lost its underscore is a capital.

## Main definitions

* `Name.Single` — whether no digit stands behind two underscores.
* `Name.Steady` — whether one pass leaves nothing to a second.

## Main statements

* `Name.joinWords_joinWords_eq_iff` — when joined words are joined already.
* `camelCase_camelCase_eq_iff` — when a name is spelled with capitals once and for all.
-/

namespace GraphSchema

namespace Name

/-- Whether no digit stands behind two underscores. -/
def Single (w : List Char) : Prop := ∀ c, ['_', '_', c] <:+: w → isDigit c = false

/-- Whether one pass of joining leaves nothing to a second, as the underscores in front stay. -/
def Steady (cs : List Char) : Prop := Single (cs.dropWhile (· == '_'))

variable {c x : Char} {w : List Char}

theorem single_iff_forall_mem :
    Single w ↔ ∀ c ∈ w, ['_', '_', c] <:+: w → isDigit c = false :=
  ⟨fun h c _ hc => h c hc, fun h c hc => h c (hc.mem (by simp)) hc⟩

instance (w : List Char) : Decidable (Single w) :=
  @decidable_of_iff _ _ single_iff_forall_mem.symm (List.decidableBAll _ w)

instance (cs : List Char) : Decidable (Steady cs) :=
  inferInstanceAs (Decidable (Single (cs.dropWhile (· == '_'))))

theorem single_nil : Single [] := by
  intro c hc
  cases List.infix_nil.1 hc

theorem single_cons : Single (x :: w) ↔
    (x = '_' → ∀ c, ['_', c] <+: w → isDigit c = false) ∧ Single w := by
  simp only [Single, List.infix_cons_iff, List.cons_prefix_cons, or_imp, forall_and, and_imp]
  exact and_congr_left' ⟨fun h he c => h c he.symm, fun h c he => h he.symm c⟩

/-- Only after an underscore something can follow two of them. -/
theorem single_cons_of_ne (h : x ≠ '_') : Single (x :: w) ↔ Single w := by
  rw [single_cons, and_iff_right fun he => absurd he h]

/-! ## Joined words -/

theorem toUpper_ne_underscore (h : isWord c = true) : c.toUpper ≠ '_' := by
  rcases Bool.or_eq_true_iff.1 h with h | h
  · intro he
    have hupper := (raise_lower h).1
    rw [he] at hupper
    exact absurd hupper (by decide)
  · rw [(raise_digit h).1]
    exact ne_underscore_of_isWord (Bool.or_eq_true_iff.2 (.inr h))

/-- Of what an underscore has been dropped before, only digits could lose another. -/
theorem isWord_toUpper (h : isWord c = true) : isWord c.toUpper = isDigit c := by
  rcases Bool.or_eq_true_iff.1 h with h | h
  · have hdigit : isDigit c = false := by
      refine Bool.eq_false_iff.2 fun hd => ?_
      rw [(raise_digit hd).2.2.2] at h
      cases h
    obtain ⟨-, hlower, hraised, -⟩ := raise_lower h
    rw [isWord, hlower, hraised, hdigit]
    rfl
  · rw [(raise_digit h).1, isWord, h, Bool.or_true]

theorem joinWords_underscore : joinWords ('_' :: c :: w) =
    if isWord c then c.toUpper :: joinWords w else '_' :: joinWords (c :: w) := by
  rw [joinWords]
  rfl

/-- An underscore in front of a text stays if nothing that it is dropped before follows. -/
theorem joinWords_underscore_eq_iff : joinWords ('_' :: w) = '_' :: w ↔
    (∀ c ∈ w.head?, isWord c = false) ∧ joinWords w = w := by
  cases w with
  | nil => simp [joinWords]
  | cons c w =>
    rw [joinWords_underscore]
    by_cases hc : isWord c = true
    · simp [hc, toUpper_ne_underscore hc]
    · simp [hc]

/-- What joined words start with, if the text starts with an underscore. -/
theorem head?_joinWords_underscore :
    (∀ c ∈ (joinWords ('_' :: w)).head?, isWord c = false) ↔ ∀ c ∈ w.head?, isDigit c = false := by
  have hunderscore : isWord '_' = false := rfl
  cases w with
  | nil => simp [joinWords, hunderscore]
  | cons c w =>
    rw [joinWords_underscore]
    by_cases hc : isWord c = true
    · simp [hc, isWord_toUpper hc]
    · have hword : isWord c = false := by simpa using hc
      simp [hword, hunderscore, (Bool.or_eq_false_iff.1 hword).2]

/-- Joining words twice is joining them once exactly if no digit stands behind two underscores. -/
theorem joinWords_joinWords_eq_iff : joinWords (joinWords w) = joinWords w ↔ Single w := by
  fun_induction joinWords w with
  | case1 c cs hc ih =>
    have hne : c ≠ '_' := ne_underscore_of_isWord hc
    rw [joinWords_of_ne (toUpper_ne_underscore hc), single_cons, single_cons_of_ne hne, ← ih]
    simp [List.cons_prefix_cons, hne.symm]
  | case2 c cs hc ih =>
    rw [joinWords_underscore_eq_iff, ih, single_cons (x := '_')]
    refine and_congr_left' ?_
    by_cases hne : c = '_'
    · subst hne
      rw [head?_joinWords_underscore]
      cases cs <;> simp [List.cons_prefix_cons]
    · have hword : isWord c = false := Bool.eq_false_iff.2 hc
      simp [joinWords_of_ne hne, List.cons_prefix_cons, hword, Ne.symm hne]
  | case3 c cs hc ih =>
    by_cases hne : c = '_'
    · cases cs with
      | nil => simp [hne, joinWords, single_cons, single_nil]
      | cons d cs => exact absurd rfl (hc d cs hne)
    · rw [joinWords_of_ne hne, single_cons_of_ne hne, ← ih]
      simp
  | case4 => simp [joinWords, single_nil]

/-! ## Names -/

theorem camelChars_camelChars_eq_iff {cs : List Char} :
    camelChars (camelChars cs) = camelChars cs ↔ Steady cs := by
  obtain ⟨front, body, rfl, hdrop, hcamel, hfront, hhead⟩ := exists_front cs
  have hpassed : ∀ c ∈ front, (c == '_') = true := fun c hc => by simp [hfront c hc]
  have hjoined : camelChars (front ++ joinWords body) = front ++ joinWords (joinWords body) := by
    rw [camelChars, List.takeWhile_append_of_pos hpassed, List.dropWhile_append_of_pos hpassed]
    cases body with
    | nil => simp [joinWords]
    | cons c body => simp [joinWords_of_ne (hhead c rfl), hhead c rfl]
  rw [hcamel, hjoined, List.append_cancel_left_eq, joinWords_joinWords_eq_iff, Steady, hdrop]

end Name

/-- The spelling of a name with capitals is its own spelling exactly if no digit stands behind two
underscores that are not in front. -/
theorem camelCase_camelCase_eq_iff {name : String} :
    camelCase (camelCase name) = camelCase name ↔ Name.Steady name.toList := by
  rw [← Name.camelChars_camelChars_eq_iff, camelCase, camelCase, String.toList_ofList,
    ← String.toList_inj, String.toList_ofList, String.toList_ofList]

end GraphSchema
