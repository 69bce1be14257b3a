import GraphSchema.Name

/-!
# The two spellings of a name

When a name comes back from the spelling with capitals. Joining drops each underscore before a small
letter or digit and raises what follows; separating puts an underscore back before each capital that
a word can start with. Nothing marks the place of an underscore before a digit, or after another
underscore, and a capital after a capital is only the start of a word before a small letter.

## Main definitions

* `Name.IsVisible` — whether an underscore can be told from the capital that stands for it.
* `Name.Recoverable` — whether all underscores of a name can be told.

## Main statements

* `Text.lowercase_of_ascii` — lower case of an ASCII text, character by character.
* `Name.separate_join_iff` — what separating makes of joined words.
* `snakeCase_camelCase_eq_iff` — a name comes back exactly if it is recoverable.
-/

namespace GraphSchema

/-! ## ASCII characters -/

/-- What can be checked for all ASCII characters holds for each of them. -/
theorem Text.forall_ascii {p : Char → Prop} (h : ∀ n < 128, p (Char.ofNat n)) {c : Char}
    (hc : c.toNat < 128) : p c := by
  have := h c.toNat hc
  rwa [Char.ofNat_toNat] at this

theorem Text.lowercase_of_ascii {cs : List Char} (h : ∀ c ∈ cs, c.toNat < 128) :
    Text.lowercase cs = cs.map Char.toLower := by
  suffices hafter : ∀ before, Text.lowercaseAfter before cs = cs.map Char.toLower from hafter []
  induction cs with
  | nil => exact fun _ => rfl
  | cons c cs ih =>
    intro before
    obtain ⟨hc, hcs⟩ := List.forall_mem_cons.1 h
    have hsigma : c ≠ 'Σ' := by
      rintro rfl
      exact absurd hc (by decide)
    rw [Text.lowercaseAfter, if_neg hsigma, Text.lowerChar, if_pos hc, ih hcs]
    rfl

namespace Name

variable {a c x : Char} {cs w before after : List Char}

theorem toNat_of_isContinue (h : isContinue c = true) : c.toNat < 128 := by
  simp only [isContinue, isStart, isUpper, isLower, isDigit, Bool.or_eq_true, Bool.and_eq_true,
    beq_iff_eq, decide_eq_true_eq, Char.le_def, UInt32.le_iff_toNat_le] at h
  rcases h with ((rfl | h) | h) | h
  · decide
  · exact Nat.lt_of_le_of_lt h.2 (by decide)
  · exact Nat.lt_of_le_of_lt h.2 (by decide)
  · exact Nat.lt_of_le_of_lt h.2 (by decide)

theorem isContinue_of_isLower (h : isLower c = true) : isContinue c = true := by
  simp [isContinue, isStart, h]

theorem isContinue_of_isDigit (h : isDigit c = true) : isContinue c = true := by
  simp [isContinue, h]

/-- What a small letter becomes. -/
theorem raise_lower (h : isLower c = true) :
    isUpper c.toUpper = true ∧ isLower c.toUpper = false ∧ isDigit c.toUpper = false ∧
      c.toUpper.toLower = c := by
  have hc := toNat_of_isContinue (isContinue_of_isLower h)
  refine Text.forall_ascii (p := fun c => isLower c = true → isUpper c.toUpper = true ∧
    isLower c.toUpper = false ∧ isDigit c.toUpper = false ∧ c.toUpper.toLower = c) ?_ hc h
  decide +kernel

/-- Digits stay as they are. -/
theorem raise_digit (h : isDigit c = true) :
    c.toUpper = c ∧ c.toLower = c ∧ isUpper c = false ∧ isLower c = false := by
  have hc := toNat_of_isContinue (isContinue_of_isDigit h)
  refine Text.forall_ascii (p := fun c => isDigit c = true → c.toUpper = c ∧ c.toLower = c ∧
    isUpper c = false ∧ isLower c = false) ?_ hc h
  decide +kernel

/-- Nothing is a capital in lower case, and only capitals change. -/
theorem lower_continue (h : isContinue c = true) :
    isUpper c.toLower = false ∧ (isUpper c = false → c.toLower = c) := by
  refine Text.forall_ascii (p := fun c => isUpper c.toLower = false ∧
    (isUpper c = false → c.toLower = c)) ?_ (toNat_of_isContinue h)
  decide +kernel

/-! ## The characters of both spellings -/

theorem isContinue_of_mem_joinWords (h : ∀ c ∈ cs, isContinue c = true) :
    ∀ c ∈ joinWords cs, isContinue c = true := by
  fun_induction joinWords cs with
  | case1 c cs hc ih =>
    simp only [List.forall_mem_cons] at h ⊢
    refine ⟨?_, ih h.2.2⟩
    rcases Bool.or_eq_true_iff.1 hc with hc | hc
    · simp [isContinue, isStart, (raise_lower hc).1]
    · rw [(raise_digit hc).1]
      exact h.2.1
  | case2 c cs hc ih => simp_all
  | case3 c cs hc ih => simp_all
  | case4 => simp

/-- Separating adds nothing but underscores. -/
theorem isContinue_of_mem_separateWords (h : ∀ c ∈ cs, isContinue c = true) :
    ∀ c ∈ separateWords cs, isContinue c = true := by
  fun_induction separateWords cs with
  | case1 a b cs hb ih => simp_all [isContinue, isStart]
  | case2 a b cs hb ih => simp_all
  | case3 cs => exact h

theorem snakeChars_of_continue (h : ∀ c ∈ cs, isContinue c = true) :
    snakeChars cs = (separateWords cs).map Char.toLower :=
  Text.lowercase_of_ascii fun c hc =>
    toNat_of_isContinue (isContinue_of_mem_separateWords h c hc)

/-- The first character is not separated from anything. -/
theorem exists_separateWords_cons (a : Char) (cs : List Char) :
    ∃ t, separateWords (a :: cs) = a :: t := by
  cases cs with
  | nil => exact ⟨_, rfl⟩
  | cons b cs =>
    rw [separateWords]
    split
    · exact ⟨_, rfl⟩
    · exact ⟨_, rfl⟩

/-- Nothing is separated before a character that is not a capital. -/
theorem separateWords_of_notUpper (h : isUpper c = false) :
    separateWords (a :: c :: cs) = a :: separateWords (c :: cs) := by
  rw [separateWords, if_neg]
  simp [isBoundary, h]

/-- Underscores in front are passed over. -/
theorem separateWords_append (h : ∀ c ∈ before, c = '_') :
    separateWords (before ++ cs) = before ++ separateWords cs := by
  induction before with
  | nil => rfl
  | cons b before ih =>
    obtain ⟨rfl, hbefore⟩ := List.forall_mem_cons.1 h
    rw [List.cons_append, List.cons_append, ← ih hbefore]
    cases before ++ cs with
    | nil => rfl
    | cons d ds =>
      rw [separateWords, if_neg]
      have hlower : isLower '_' = false := rfl
      have hdigit : isDigit '_' = false := rfl
      have hupper : isUpper '_' = false := rfl
      simp [isBoundary, hlower, hdigit, hupper]

/-- A small letter after joining was a small letter before. -/
theorem any_head_joinWords : (joinWords cs).head?.any isLower = cs.head?.any isLower := by
  fun_induction joinWords cs with
  | case1 c cs hc ih =>
    have hlower : isLower '_' = false := rfl
    rcases Bool.or_eq_true_iff.1 hc with hc | hc
    · simp [(raise_lower hc).2.1, hlower]
    · simp [(raise_digit hc).1, (raise_digit hc).2.2.2, hlower]
  | case2 | case3 | case4 => rfl

/-! ## Visible underscores -/

/-- A small letter or a digit: what an underscore is dropped before. -/
def isWord (c : Char) : Bool := isLower c || isDigit c

/-- Whether an underscore between what is before it and the character `c`, with what is after that,
can be told from the capital that stands for both. -/
structure IsVisible (before : List Char) (c : Char) (after : List Char) : Prop where
  letter : isLower c = true
  single : before.getLast? ≠ some '_'
  apart : before.dropLast.getLast? = some '_' → after.head?.any isLower = true

/-- Whether all underscores that joining drops from a text can be told, where the text follows
`before`. -/
def VisibleAfter (before w : List Char) : Prop :=
  ∀ u c v, w = u ++ '_' :: c :: v → isWord c = true → IsVisible (before ++ u) c v

/-- Whether all underscores that joining drops from a name can be told, and there are no capitals
that could be taken for them. -/
structure Recoverable (cs : List Char) : Prop where
  lower : ∀ c ∈ cs, isUpper c = false
  visible : VisibleAfter [] (cs.dropWhile (· == '_'))

theorem visibleAfter_nil : VisibleAfter before [] := by
  intro u c v h
  simp at h

theorem visibleAfter_cons : VisibleAfter before (x :: w) ↔
    (x = '_' → ∀ c v, w = c :: v → isWord c = true → IsVisible before c v) ∧
      VisibleAfter (before ++ [x]) w := by
  constructor
  · intro h
    refine ⟨?_, fun u c v hw hc => ?_⟩
    · rintro rfl c v rfl hc
      simpa using h [] c v rfl hc
    · simpa using h (x :: u) c v (by rw [hw]; rfl) hc
  · rintro ⟨hhead, hrest⟩ u c v hw hc
    cases u with
    | nil =>
      obtain ⟨hx, hw⟩ : x = '_' ∧ w = c :: v := by simpa using hw
      simpa using hhead hx c v hw hc
    | cons y u =>
      obtain ⟨hx, hw⟩ : x = y ∧ w = u ++ '_' :: c :: v := by simpa using hw
      simpa [hx] using hrest u c v hw hc

/-- The last character of joined words, by the text that they have been joined from. -/
inductive Ends : List Char → Char → Prop
  | plain (u : List Char) (x : Char) (hx : isWord x = true) (hu : u.getLast? ≠ some '_') :
    Ends (u ++ [x]) x
  | raised (u : List Char) (x : Char) (hx : isLower x = true) (hu : u.getLast? = some '_') :
    Ends (u ++ [x]) x.toUpper
  | underscore (u : List Char) : Ends (u ++ ['_']) '_'

theorem ne_underscore_of_isWord (h : isWord c = true) : c ≠ '_' := by
  rintro rfl
  exact absurd h (by decide)

/-- Between joined words an underscore is put back exactly if it is visible. -/
theorem isBoundary_iff (h : Ends before a) (hc : isWord c = true) :
    isBoundary a c.toUpper (joinWords after).head? = true ↔ IsVisible before c after := by
  rcases Bool.or_eq_true_iff.1 hc with hc | hc
  · obtain ⟨hcu, -, -, -⟩ := raise_lower hc
    have hiff (hs : before.getLast? ≠ some '_') : IsVisible before c after ↔
        (before.dropLast.getLast? = some '_' → after.head?.any isLower = true) :=
      ⟨IsVisible.apart, fun ha => ⟨hc, hs, ha⟩⟩
    cases h with
    | plain u _ hx hu =>
      rw [hiff (by simpa using ne_underscore_of_isWord hx)]
      have hx : (isLower a || isDigit a) = true := hx
      simp [isBoundary, hx, hcu, hu]
    | raised u x hx hu =>
      obtain ⟨hxu, hxl, hxd, -⟩ := raise_lower hx
      have hword : isWord x = true := by simp [isWord, hx]
      rw [hiff (by simpa using ne_underscore_of_isWord hword)]
      simp [isBoundary, hxu, hxl, hxd, hcu, hu, any_head_joinWords]
    | underscore u =>
      have hnot : ¬ IsVisible (u ++ ['_']) c after := fun h => h.single (by simp)
      have hlower : isLower '_' = false := rfl
      have hdigit : isDigit '_' = false := rfl
      have hupper : isUpper '_' = false := rfl
      simp [isBoundary, hlower, hdigit, hupper, hnot]
  · obtain ⟨hcu, -, hcn, hcl⟩ := raise_digit hc
    have hnot : ¬ IsVisible before c after := fun h => by simpa [hcl] using h.letter
    simp [isBoundary, hcu, hcn, hnot]

/-- Separating joined words gives back the text exactly if all its underscores are visible. Here `a`
is the last character of what has been joined before. -/
theorem separate_join_iff (ha : Ends before a)
    (hnext : before.getLast? = some '_' → ∀ c ∈ w.head?, isWord c = false)
    (hw : ∀ c ∈ w, isContinue c = true ∧ isUpper c = false) :
    (separateWords (a :: joinWords w)).map Char.toLower = a.toLower :: w ↔
      VisibleAfter before w := by
  -- by the underscores that joining drops; the capital in place of one ends what is before the next
  fun_induction joinWords w generalizing before a with
  | case1 c cs hc ih =>
    have hword : isWord c = true := hc
    have hne := ne_underscore_of_isWord hword
    have hcs := (List.forall_mem_cons.1 (List.forall_mem_cons.1 hw).2).2
    have hback : c.toUpper.toLower = c := by
      rcases Bool.or_eq_true_iff.1 hc with hc | hc
      · exact (raise_lower hc).2.2.2
      · rw [(raise_digit hc).1, (raise_digit hc).2.1]
    have hvisible : VisibleAfter before ('_' :: c :: cs) ↔
        IsVisible before c cs ∧ VisibleAfter (before ++ ['_'] ++ [c]) cs := by
      rw [visibleAfter_cons, visibleAfter_cons]
      simp [hne, hword]
    rw [hvisible, separateWords]
    by_cases hb : isBoundary a c.toUpper (joinWords cs).head? = true
    · have hv := (isBoundary_iff ha hword).1 hb
      have hrest := ih (.raised (before ++ ['_']) c hv.letter (by simp)) (by simp [hne]) hcs
      rw [if_pos hb, ← hrest, hback]
      simp [hv]
    · have hv : ¬ IsVisible before c cs := mt (isBoundary_iff ha hword).2 hb
      obtain ⟨t, ht⟩ := exists_separateWords_cons c.toUpper (joinWords cs)
      rw [if_neg hb, ht]
      simp [hv, hback, hne]
  | case2 c cs hc ih =>
    have hword : isWord c = false := by simpa [isWord] using hc
    have hcs := (List.forall_mem_cons.1 hw).2
    have hrest := ih (.underscore before) (by simp [hword]) hcs
    rw [separateWords_of_notUpper rfl, visibleAfter_cons, ← hrest]
    simp [hword]
  | case3 c cs hc ih =>
    obtain ⟨⟨hcontinue, hupper⟩, hcs⟩ := List.forall_mem_cons.1 hw
    have hback := (lower_continue hcontinue).2 hupper
    have hends : Ends (before ++ [c]) c := by
      by_cases hne : c = '_'
      · exact hne ▸ .underscore before
      · have hword : isWord c = true := by
          simpa [isContinue, isStart, hne, hupper, isWord] using hcontinue
        refine .plain before c hword fun hlast => ?_
        simp [hnext hlast c rfl] at hword
    have hlast : (before ++ [c]).getLast? = some '_' → ∀ d ∈ cs.head?, isWord d = false := by
      intro h d hd
      cases cs with
      | nil => cases hd
      | cons e cs => exact absurd rfl (hc e cs (by simpa using h))
    have hhead : c = '_' → ∀ d v, cs = d :: v → isWord d = true → IsVisible before d v :=
      fun h d v he _ => (hc d v h he).elim
    rw [separateWords_of_notUpper hupper, visibleAfter_cons, ← ih hends hlast hcs,
      and_iff_right hhead, List.map_cons, hback]
    simp
  | case4 => simp [separateWords, visibleAfter_nil]

/-! ## Names -/

theorem joinWords_of_ne (h : x ≠ '_') : joinWords (x :: w) = x :: joinWords w := by
  rw [joinWords]
  exact fun _ _ he => absurd he h

/-- What follows the underscores in front comes back exactly if all its underscores are visible. -/
theorem separate_join_body_iff (hhead : ∀ c ∈ w.head?, c ≠ '_')
    (hw : ∀ c ∈ w, isContinue c = true ∧ isUpper c = false) :
    (separateWords (joinWords w)).map Char.toLower = w ↔ VisibleAfter [] w := by
  cases w with
  | nil => simp [joinWords, separateWords, visibleAfter_nil]
  | cons x w =>
    have hne : x ≠ '_' := hhead x rfl
    obtain ⟨⟨hcontinue, hupper⟩, hw⟩ := List.forall_mem_cons.1 hw
    have hword : isWord x = true := by
      simpa [isContinue, isStart, hne, hupper, isWord] using hcontinue
    have hiff := separate_join_iff (.plain [] x hword (by simp)) (by simp [hne]) hw
    rw [(lower_continue hcontinue).2 hupper] at hiff
    rw [joinWords_of_ne hne, hiff, visibleAfter_cons, and_iff_right fun h => absurd h hne]

/-- A name is underscores and what follows them, which alone is joined. -/
theorem exists_front (cs : List Char) :
    ∃ front body, cs = front ++ body ∧ cs.dropWhile (· == '_') = body ∧
      camelChars cs = front ++ joinWords body ∧ (∀ c ∈ front, c = '_') ∧
      ∀ c ∈ body.head?, c ≠ '_' := by
  refine ⟨_, _, List.takeWhile_append_dropWhile.symm, rfl, rfl, fun c hc => ?_, fun c hc => ?_⟩
  · simpa using List.all_eq_true.1 List.all_takeWhile c hc
  · have := List.head?_dropWhile_not (· == '_') cs
    rw [Option.mem_def.1 hc] at this
    simpa using this

/-- A name comes back from the spelling with capitals exactly if all its underscores can be told. -/
theorem snakeChars_camelChars_eq_iff (h : ∀ c ∈ cs, isContinue c = true) :
    snakeChars (camelChars cs) = cs ↔ Recoverable cs := by
  obtain ⟨front, body, hcs, hdrop, hcamel, hfront, hhead⟩ := exists_front cs
  have hbody : ∀ c ∈ body, isContinue c = true := fun c hc =>
    h c (hcs ▸ List.mem_append_right _ hc)
  have hjoined : ∀ c ∈ front ++ joinWords body, isContinue c = true := by
    intro c hc
    rcases List.mem_append.1 hc with hc | hc
    · exact h c (hcs ▸ List.mem_append_left _ hc)
    · exact isContinue_of_mem_joinWords hbody c hc
  have hfrontLower : front.map Char.toLower = front := by
    refine (List.map_congr_left fun c hc => ?_).trans (List.map_id _)
    rw [hfront c hc]
    rfl
  have hiff : snakeChars (camelChars cs) = cs ↔
      (separateWords (joinWords body)).map Char.toLower = body := by
    rw [hcamel, snakeChars_of_continue hjoined, separateWords_append hfront, List.map_append,
      hfrontLower, hcs, List.append_cancel_left_eq]
  rw [hiff]
  constructor
  · intro heq
    have hlower : ∀ c ∈ body, isUpper c = false := by
      intro c hc
      rw [← heq] at hc
      obtain ⟨d, hd, rfl⟩ := List.mem_map.1 hc
      exact (lower_continue (isContinue_of_mem_separateWords
        (isContinue_of_mem_joinWords hbody) d hd)).1
    refine ⟨fun c hc => ?_, ?_⟩
    · rw [hcs, List.mem_append] at hc
      rcases hc with hc | hc
      · rw [hfront c hc]
        rfl
      · exact hlower c hc
    · rw [hdrop]
      exact (separate_join_body_iff hhead fun c hc => ⟨hbody c hc, hlower c hc⟩).1 heq
  · intro hr
    refine (separate_join_body_iff hhead fun c hc => ⟨hbody c hc, ?_⟩).2 (hdrop ▸ hr.visible)
    exact hr.lower c (hcs ▸ List.mem_append_right _ hc)

theorem isContinue_of_isName (h : isName cs = true) : ∀ c ∈ cs, isContinue c = true := by
  cases cs with
  | nil => simp
  | cons c cs =>
    simp only [isName, Bool.and_eq_true, List.all_eq_true] at h
    exact List.forall_mem_cons.2 ⟨by simp [isContinue, h.1], h.2⟩

/-- What a type is called by is a name, unless a line feed ends it. -/
theorem isName_iff_of_isTypeName (h : isTypeName cs = true) :
    isName cs = true ↔ cs.getLast? ≠ some '\n' := by
  constructor
  · intro hname hlast
    exact absurd (isContinue_of_isName hname _ (List.mem_of_getLast? hlast)) (by decide)
  · intro hlast
    simpa [isTypeName, hlast] using h

end Name

/-- A name comes back from the spelling with capitals exactly if all its underscores can be told. -/
theorem snakeCase_camelCase_eq_iff {name : String} (h : Name.isName name.toList = true) :
    snakeCase (camelCase name) = name ↔ Name.Recoverable name.toList := by
  rw [← Name.snakeChars_camelChars_eq_iff (Name.isContinue_of_isName h), snakeCase, camelCase,
    String.toList_ofList, ← String.toList_inj, String.toList_ofList]

end GraphSchema
