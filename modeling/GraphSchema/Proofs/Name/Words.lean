import GraphSchema.Proofs.Name
import Mathlib.Data.List.Chain

/-!
# Names made of words

Names in the spelling with underscores: words of small letters and digits, with one underscore
between two of them and any number in front. Such a name comes back from the spelling with capitals
if each further word starts with a letter, and no two capitals meet without a small letter after the
second to tell them apart.

## Main definitions

* `Name.Word`, `Name.Compound` — words, and names made of them.
* `Name.Compound.Told` — whether the words of a name can be told in the spelling with capitals.

## Main statements

* `Name.visibleAfter_words` — the underscores between words, one by one.
* `Name.Compound.snakeCase_camelCase_iff` — a name made of words comes back exactly if they can be
  told.
-/

namespace GraphSchema

namespace Name

/-! ## Words -/

/-- Small letters and digits, at least one of them. -/
structure Word where
  head : Char
  tail : List Char
  small : ∀ c ∈ head :: tail, isWord c = true

/-- The characters of a word. -/
def Word.chars (w : Word) : List Char := w.head :: w.tail

/-- Words joined by underscores, with a number of underscores in front of the first. -/
structure Compound where
  front : Nat
  first : Word
  further : List Word

/-- Words, each behind an underscore. -/
def joined (ws : List Word) : List Char := ws.flatMap fun w => '_' :: w.chars

/-- The characters of a name made of words. -/
def Compound.chars (n : Compound) : List Char :=
  List.replicate n.front '_' ++ (n.first.chars ++ joined n.further)

/-- The name that is made of words. -/
def Compound.text (n : Compound) : String := String.ofList n.chars

/-- Whether the second of two words can be told from the first, if that starts with a capital: after
a single capital it has to go on with a small letter. -/
def Word.Apart (v w : Word) : Prop := v.chars.length = 1 → w.chars[1]?.any isLower = true

/-- Whether the words of a name can be told in the spelling with capitals: each word but the first
starts with a letter, and can be told from the one before if that is not the first. -/
structure Compound.Told (n : Compound) : Prop where
  letters : ∀ w ∈ n.further, isLower w.head = true
  apart : n.further.IsChain Word.Apart

instance : DecidableRel Word.Apart := fun v w =>
  inferInstanceAs (Decidable (v.chars.length = 1 → w.chars[1]?.any isLower = true))

theorem Compound.told_iff_forall {n : Compound} :
    n.Told ↔ (∀ w ∈ n.further, isLower w.head = true) ∧ n.further.IsChain Word.Apart :=
  ⟨fun h => ⟨h.letters, h.apart⟩, fun h => ⟨h.1, h.2⟩⟩

instance (n : Compound) : Decidable n.Told := decidable_of_iff _ Compound.told_iff_forall.symm

variable {before : List Char} {v w : Word} {ws : List Word} {c : Char} {n : Compound}

theorem Word.ne_underscore (hc : c ∈ w.chars) : c ≠ '_' :=
  ne_underscore_of_isWord (w.small c hc)

theorem isContinue_of_isWord (h : isWord c = true) : isContinue c = true := by
  rcases Bool.or_eq_true_iff.1 h with h | h
  · exact isContinue_of_isLower h
  · exact isContinue_of_isDigit h

theorem isUpper_of_isWord (h : isWord c = true) : isUpper c = false := by
  refine Text.forall_ascii (p := fun c => isWord c = true → isUpper c = false) ?_
    (toNat_of_isContinue (isContinue_of_isWord h)) h
  decide +kernel

theorem of_mem_joined (hc : c ∈ joined ws) : c = '_' ∨ isWord c = true := by
  obtain ⟨w, -, hc⟩ := List.mem_flatMap.1 hc
  rcases List.mem_cons.1 hc with rfl | hc
  · exact .inl rfl
  · exact .inr (w.small c hc)

theorem Compound.of_mem_chars (hc : c ∈ n.chars) : c = '_' ∨ isWord c = true := by
  rcases List.mem_append.1 hc with hc | hc
  · exact .inl (List.eq_of_mem_replicate hc)
  · rcases List.mem_append.1 hc with hc | hc
    · exact .inr (n.first.small c hc)
    · exact of_mem_joined hc

/-! ## Visible underscores -/

/-- The underscores after a word are those after its last character. -/
theorem visibleAfter_append {u x : List Char} (h : ∀ c ∈ u, c ≠ '_') :
    VisibleAfter before (u ++ x) ↔ VisibleAfter (before ++ u) x := by
  induction u generalizing before with
  | nil => simp
  | cons c u ih =>
    obtain ⟨hc, hu⟩ := List.forall_mem_cons.1 h
    rw [List.cons_append, visibleAfter_cons, and_iff_right fun he => absurd he hc, ih hu]
    simp

/-- A word is the last of a text, without underscore at the end. -/
theorem getLast?_append_chars : (before ++ v.chars).getLast? ≠ some '_' := by
  have hne : v.chars ≠ [] := List.cons_ne_nil _ _
  rw [List.getLast?_append_of_ne_nil before hne]
  exact fun h => v.ne_underscore (List.mem_of_getLast? h) rfl

/-- The character before the last one is an underscore only if the last word is a single character
behind an underscore. -/
theorem getLast?_dropLast_append_chars : (before ++ v.chars).dropLast.getLast? = some '_' ↔
    before.getLast? = some '_' ∧ v.chars.length = 1 := by
  obtain ⟨c, tail, hsmall⟩ := v
  cases tail with
  | nil => simp [Word.chars]
  | cons d tail =>
    have hlast : (c :: (d :: tail).dropLast).getLast? ≠ some '_' := by
      intro h
      have hmem : '_' ∈ c :: d :: tail :=
        List.cons_subset_cons c (List.dropLast_subset _) (List.mem_of_getLast? h)
      exact ne_underscore_of_isWord (hsmall _ hmem) rfl
    simp [Word.chars, hlast]

/-- What follows the first character of a word is a small letter only if the word goes on with
one. -/
theorem head?_tail_append_joined :
    (w.tail ++ joined ws).head?.any isLower = w.chars[1]?.any isLower := by
  obtain ⟨c, tail, -⟩ := w
  cases tail with
  | nil => cases ws <;> rfl
  | cons d tail => rfl

/-- Whether the underscore between two words can be told. -/
theorem isVisible_words :
    IsVisible (before ++ v.chars) w.head (w.tail ++ joined ws) ↔
      isLower w.head = true ∧ (before.getLast? = some '_' → v.Apart w) := by
  have happart : ((before ++ v.chars).dropLast.getLast? = some '_' →
      (w.tail ++ joined ws).head?.any isLower = true) ↔
        (before.getLast? = some '_' → v.Apart w) := by
    rw [getLast?_dropLast_append_chars, head?_tail_append_joined, and_imp, Word.Apart]
  exact ⟨fun h => ⟨h.letter, happart.1 h.apart⟩,
    fun h => ⟨h.1, getLast?_append_chars, happart.2 h.2⟩⟩

/-- The underscores in front of further words, one by one: the first of these words follows `v`. -/
theorem visibleAfter_cons_joined :
    VisibleAfter (before ++ v.chars) (joined (w :: ws)) ↔
      (isLower w.head = true ∧ (before.getLast? = some '_' → v.Apart w)) ∧
        VisibleAfter (before ++ v.chars ++ ['_'] ++ w.chars) (joined ws) := by
  have hjoined : joined (w :: ws) = '_' :: w.head :: (w.tail ++ joined ws) := rfl
  have hword : isWord w.head = true := w.small _ List.mem_cons_self
  rw [hjoined, visibleAfter_cons, ← visibleAfter_append fun c => Word.ne_underscore,
    ← isVisible_words]
  refine and_congr_left' ⟨fun h => h rfl _ _ rfl hword, ?_⟩
  rintro h - c x he -
  obtain ⟨rfl, rfl⟩ := List.cons.inj he
  exact h

/-- All underscores after a word that is not the first can be told exactly if the words after it
start with letters and all of them can be told from those before. -/
theorem visibleAfter_words (h : before.getLast? = some '_') :
    VisibleAfter (before ++ v.chars) (joined ws) ↔
      (∀ w ∈ ws, isLower w.head = true) ∧ (v :: ws).IsChain Word.Apart := by
  induction ws generalizing before v with
  | nil => simp [joined, visibleAfter_nil]
  | cons w ws ih =>
    rw [visibleAfter_cons_joined, ih (List.getLast?_concat ..), List.forall_mem_cons,
      List.isChain_cons_cons]
    have hapart : (before.getLast? = some '_' → v.Apart w) ↔ v.Apart w :=
      ⟨fun ha => ha h, fun ha _ => ha⟩
    rw [hapart]
    exact and_and_and_comm

/-! ## Names -/

/-- The first word need not be told from anything. -/
theorem Compound.visibleAfter_iff_told :
    VisibleAfter [] (n.first.chars ++ joined n.further) ↔ n.Told := by
  obtain ⟨front, v, further⟩ := n
  rw [Compound.told_iff_forall, visibleAfter_append fun c => Word.ne_underscore]
  cases further with
  | nil => simp [joined, visibleAfter_nil]
  | cons w ws =>
    rw [visibleAfter_cons_joined, visibleAfter_words (List.getLast?_concat ..),
      List.forall_mem_cons]
    simp [and_assoc]

/-- The underscores in front of a name are those before its first word. -/
theorem Compound.dropWhile_chars :
    n.chars.dropWhile (· == '_') = n.first.chars ++ joined n.further := by
  have hhead : n.first.head ≠ '_' := n.first.ne_underscore List.mem_cons_self
  rw [Compound.chars, List.dropWhile_append_of_pos (by simp), Word.chars, List.cons_append,
    List.dropWhile_cons_of_neg (by simpa using hhead)]

theorem Compound.recoverable_iff : Recoverable n.chars ↔ n.Told := by
  rw [← Compound.visibleAfter_iff_told, ← Compound.dropWhile_chars]
  refine ⟨Recoverable.visible, fun h => ⟨fun c hc => ?_, h⟩⟩
  rcases Compound.of_mem_chars hc with rfl | hc
  · rfl
  · exact isUpper_of_isWord hc

/-- A name made of words comes back from the spelling with capitals exactly if its words can be told
there. -/
theorem Compound.snakeCase_camelCase_iff (n : Compound) :
    snakeCase (camelCase n.text) = n.text ↔ n.Told := by
  have hcontinue : ∀ c ∈ n.chars, isContinue c = true := by
    intro c hc
    rcases Compound.of_mem_chars hc with rfl | hc
    · rfl
    · exact isContinue_of_isWord hc
  rw [← Compound.recoverable_iff, ← snakeChars_camelChars_eq_iff hcontinue, Compound.text,
    snakeCase, camelCase, String.toList_ofList, String.toList_ofList, String.ofList_inj]

/-- After a single letter the next word can be told if it goes on with a letter: `_a_b_cd`. -/
example : Compound.Told ⟨1, ⟨'a', [], List.all_eq_true.1 rfl⟩,
    [⟨'b', [], List.all_eq_true.1 rfl⟩, ⟨'c', ['d'], List.all_eq_true.1 rfl⟩]⟩ := by decide

/-- Otherwise it cannot: `a_b_c`, of which `aBC` is left. -/
example : ¬ Compound.Told ⟨0, ⟨'a', [], List.all_eq_true.1 rfl⟩,
    [⟨'b', [], List.all_eq_true.1 rfl⟩, ⟨'c', [], List.all_eq_true.1 rfl⟩]⟩ := by decide

end Name

end GraphSchema
