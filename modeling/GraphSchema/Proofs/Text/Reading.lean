import GraphSchema.Text.CharClass
import Mathlib.Data.List.Forall2
import Mathlib.Data.List.Infix

/-!
# Reading texts back

When the parts of a text can be told from the text: a part that ends where its class of characters
does, parts that follow one another, and parts with a separator between. All statements are about
two texts that are made up in the same way and are equal: their parts agree, and so does what
follows.

## Main definitions

* `Text.Stops` — whether a text does not go on with a class of characters.
* `Text.unlines` — lines, each with a line feed after it.

## Main statements

* `Text.append_inj_of_stops` — a part of one class of characters is read up to its end.
* `Text.flatMap_append_inj` — parts that follow one another are read one by one.
* `Text.intercalate_append_inj` — and so are parts with a separator between.
* `Text.newline_notMem_of_mem_lines`, `Text.infix_of_mem_lines` — the lines of a text.
-/

namespace GraphSchema.Text

/-! ## One part -/

/-- Whether a text does not start with a character of a class. -/
def Stops (p : Char → Bool) (x : List Char) : Prop := ∀ c ∈ x.head?, p c = false

section

variable {p q : Char → Bool} {v w x y : List Char} {c : Char}

@[simp] theorem stops_cons : Stops p (c :: x) ↔ p c = false := by simp [Stops]

theorem Stops.mono (h : Stops p x) (hpq : ∀ c, q c = true → p c = true) : Stops q x := by
  intro c hc
  have := h c hc
  cases hq : q c with
  | false => rfl
  | true => rw [hpq c hq] at this; exact this

theorem takeWhile_append_of_stops (hv : ∀ c ∈ v, p c = true) (hx : Stops p x) :
    (v ++ x).takeWhile p = v := by
  rw [List.takeWhile_append_of_pos hv]
  cases x with
  | nil => simp
  | cons c x => rw [List.takeWhile_cons, stops_cons.1 hx]; simp

/-- What consists of a class of characters ends where something else begins. -/
theorem append_inj_of_stops (hv : ∀ c ∈ v, p c = true) (hw : ∀ c ∈ w, p c = true)
    (hx : Stops p x) (hy : Stops p y) (h : v ++ x = w ++ y) : v = w ∧ x = y := by
  have hvw : v = w := by
    rw [← takeWhile_append_of_stops hv hx, h, takeWhile_append_of_stops hw hy]
  subst hvw
  exact ⟨rfl, List.append_cancel_left h⟩

end

/-! ## Many parts -/

section

variable {α β : Type} {f : α → List Char} {g : β → List Char} {R : α → β → Prop}
  {l : List α} {m : List β} {sep x y : List Char}

/-- Parts that follow one another are read one by one, if each of them can be read in front of the
next and none of them can be mistaken for the end. -/
theorem flatMap_append_inj_of_next (next : List Char → Prop)
    (hread : ∀ a ∈ l, ∀ b ∈ m, ∀ x y, next x → next y → f a ++ x = g b ++ y → R a b ∧ x = y)
    (hf : ∀ a ∈ l, ∀ z, next (f a ++ z) ∧ f a ++ z ≠ y)
    (hg : ∀ b ∈ m, ∀ z, next (g b ++ z) ∧ g b ++ z ≠ x) (hx : next x) (hy : next y)
    (h : l.flatMap f ++ x = m.flatMap g ++ y) : List.Forall₂ R l m ∧ x = y := by
  -- on the parts of the first text; those of the second are as many
  induction l generalizing m with
  | nil =>
    cases m with
    | nil => exact ⟨.nil, h⟩
    | cons b m =>
      rw [List.flatMap_cons, List.append_assoc] at h
      exact absurd h.symm (hg b List.mem_cons_self _).2
  | cons a l ih =>
    cases m with
    | nil =>
      rw [List.flatMap_cons, List.append_assoc] at h
      exact absurd h (hf a List.mem_cons_self _).2
    | cons b m =>
      obtain ⟨-, hf'⟩ := List.forall_mem_cons.1 hf
      obtain ⟨-, hg'⟩ := List.forall_mem_cons.1 hg
      have hnext : next (l.flatMap f ++ x) := by
        cases l with
        | nil => exact hx
        | cons a' l =>
          rw [List.flatMap_cons, List.append_assoc]
          exact (hf' a' List.mem_cons_self _).1
      have hnext' : next (m.flatMap g ++ y) := by
        cases m with
        | nil => exact hy
        | cons b' m =>
          rw [List.flatMap_cons, List.append_assoc]
          exact (hg' b' List.mem_cons_self _).1
      rw [List.flatMap_cons, List.flatMap_cons, List.append_assoc, List.append_assoc] at h
      obtain ⟨hab, h⟩ := hread a List.mem_cons_self b List.mem_cons_self _ _ hnext hnext' h
      obtain ⟨hlm, hxy⟩ := ih (fun a ha b hb => hread a (.tail _ ha) b (.tail _ hb)) hf' hg' h
      exact ⟨.cons hab hlm, hxy⟩

/-- Parts that can be read in front of anything are read one by one. -/
theorem flatMap_append_inj
    (hread : ∀ a ∈ l, ∀ b ∈ m, ∀ x y, f a ++ x = g b ++ y → R a b ∧ x = y)
    (hf : ∀ a ∈ l, ∀ z, f a ++ z ≠ y) (hg : ∀ b ∈ m, ∀ z, g b ++ z ≠ x)
    (h : l.flatMap f ++ x = m.flatMap g ++ y) : List.Forall₂ R l m ∧ x = y :=
  flatMap_append_inj_of_next (fun _ => True) (fun a ha b hb x y _ _ => hread a ha b hb x y)
    (fun a ha z => ⟨trivial, hf a ha z⟩) (fun b hb z => ⟨trivial, hg b hb z⟩) trivial trivial h

/-- A separated list is its first part and then the others, each behind a separator. -/
theorem intercalate_cons_map (a : α) (l : List α) :
    sep.intercalate ((a :: l).map f) = f a ++ l.flatMap fun b => sep ++ f b := by
  induction l generalizing a with
  | nil => simp
  | cons b l ih =>
    rw [List.map_cons, List.intercalate_cons_of_ne_nil (by simp), ih b, List.flatMap_cons]
    simp only [List.append_assoc]

/-- Parts with a separator between are read one by one, if each of them can be read in front of the
separator and of the end. -/
theorem intercalate_append_inj (next : List Char → Prop)
    (hread : ∀ a ∈ l, ∀ b ∈ m, ∀ x y, next x → next y → f a ++ x = g b ++ y → R a b ∧ x = y)
    (hsep : ∀ z, next (sep ++ z) ∧ sep ++ z ≠ x ∧ sep ++ z ≠ y)
    (hf : ∀ a ∈ l, ∀ z, f a ++ z ≠ y) (hg : ∀ b ∈ m, ∀ z, g b ++ z ≠ x)
    (hx : next x) (hy : next y)
    (h : sep.intercalate (l.map f) ++ x = sep.intercalate (m.map g) ++ y) :
    List.Forall₂ R l m ∧ x = y := by
  cases l with
  | nil =>
    cases m with
    | nil => exact ⟨.nil, h⟩
    | cons b m =>
      rw [intercalate_cons_map, List.append_assoc] at h
      exact absurd h.symm (hg b List.mem_cons_self _)
  | cons a l =>
    cases m with
    | nil =>
      rw [intercalate_cons_map, List.append_assoc] at h
      exact absurd h (hf a List.mem_cons_self _)
    | cons b m =>
      have hnext {γ : Type} {k : γ → List Char} (n : List γ) {z : List Char} (hz : next z) :
          next (n.flatMap (fun c => sep ++ k c) ++ z) := by
        cases n with
        | nil => exact hz
        | cons c n =>
          rw [List.flatMap_cons, List.append_assoc, List.append_assoc]
          exact (hsep _).1
      rw [intercalate_cons_map, intercalate_cons_map, List.append_assoc, List.append_assoc] at h
      obtain ⟨hab, h⟩ := hread a List.mem_cons_self b List.mem_cons_self _ _ (hnext l hx)
        (hnext m hy) h
      have hread' : ∀ a ∈ l, ∀ b ∈ m, ∀ x y, next x → next y →
          (sep ++ f a) ++ x = (sep ++ g b) ++ y → R a b ∧ x = y := by
        intro a ha b hb x y hx hy h
        rw [List.append_assoc, List.append_assoc] at h
        exact hread a (.tail _ ha) b (.tail _ hb) x y hx hy (List.append_cancel_left h)
      have hf' : ∀ a ∈ l, ∀ z, next ((sep ++ f a) ++ z) ∧ (sep ++ f a) ++ z ≠ y := by
        intro a _ z
        rw [List.append_assoc]
        exact ⟨(hsep _).1, (hsep _).2.2⟩
      have hg' : ∀ b ∈ m, ∀ z, next ((sep ++ g b) ++ z) ∧ (sep ++ g b) ++ z ≠ x := by
        intro b _ z
        rw [List.append_assoc]
        exact ⟨(hsep _).1, (hsep _).2.1⟩
      obtain ⟨hlm, hxy⟩ := flatMap_append_inj_of_next next hread' hf' hg' hx hy h
      exact ⟨.cons hab hlm, hxy⟩

end

/-! ## Lines -/

/-- The text of lines, each with a line feed after it. -/
def unlines (lines : List String) : List Char := lines.flatMap fun line => line.toList ++ ['\n']

@[simp] theorem unlines_nil : unlines [] = [] := rfl

@[simp] theorem unlines_cons (line : String) (lines : List String) :
    unlines (line :: lines) = line.toList ++ '\n' :: unlines lines := by
  simp [unlines]

@[simp] theorem unlines_append (lines lines' : List String) :
    unlines (lines ++ lines') = unlines lines ++ unlines lines' :=
  List.flatMap_append

theorem unlines_flatMap {α : Type} (l : List α) (f : α → List String) :
    unlines (l.flatMap f) = l.flatMap fun a => unlines (f a) :=
  List.flatMap_assoc

/-- Lines with line feeds between, and one at the end. -/
theorem toList_intercalate_newline {lines : List String} (h : lines ≠ []) :
    (String.intercalate "\n" lines).toList ++ ['\n'] = unlines lines := by
  induction lines with
  | nil => exact absurd rfl h
  | cons line lines ih =>
    cases lines with
    | nil => simp
    | cons next lines =>
      rw [String.intercalate_cons_cons, unlines_cons, ← ih (by simp)]
      simp

/-- A line that is complete, or one of those behind it. -/
theorem of_mem_cons_linesAfter {line x cs l : List Char} (hline : '\n' ∉ line)
    (hrest : l ∈ linesAfter [] cs → '\n' ∉ l ∧ l <:+: cs)
    (hl : l ∈ line.reverse :: linesAfter [] cs) : '\n' ∉ l ∧ l <:+: line.reverse ++ (x ++ cs) := by
  rcases List.mem_cons.1 hl with rfl | hl
  · exact ⟨by simpa using hline, (List.prefix_append _ _).isInfix⟩
  · obtain ⟨hnewline, hinfix⟩ := hrest hl
    exact ⟨hnewline,
      hinfix.trans ((List.suffix_append x cs).trans (List.suffix_append _ _)).isInfix⟩

theorem of_mem_linesAfter {line cs l : List Char} (hline : '\n' ∉ line)
    (h : l ∈ linesAfter line cs) : '\n' ∉ l ∧ l <:+: line.reverse ++ cs := by
  fun_induction linesAfter line cs with
  | case1 line hempty => cases h
  | case2 line hempty =>
    rw [List.mem_singleton] at h
    subst h
    exact ⟨by simpa using hline, by simp⟩
  | case3 line cs ih =>
    exact of_mem_cons_linesAfter (x := ['\r', '\n']) hline (fun hl => ih (by simp) hl) h
  | case4 line c cs hne hboundary ih =>
    exact of_mem_cons_linesAfter (x := [c]) hline (fun hl => ih (by simp) hl) h
  | case5 line c cs hne hboundary ih =>
    have hc : c ≠ '\n' := by
      rintro rfl
      exact hboundary (by decide)
    obtain ⟨hnewline, hinfix⟩ := ih (by simp [hc.symm, hline]) h
    exact ⟨hnewline, by simpa using hinfix⟩

/-- No line has a line feed in it. -/
theorem newline_notMem_of_mem_lines {cs l : List Char} (h : l ∈ lines cs) : '\n' ∉ l :=
  (of_mem_linesAfter (by simp) h).1

/-- A line is a part of the text. -/
theorem infix_of_mem_lines {cs l : List Char} (h : l ∈ lines cs) : l <:+: cs :=
  (of_mem_linesAfter (by simp) h).2

end GraphSchema.Text
