import GraphSchema.Proofs.Printer.Definitions

/-!
# Printed schemas

The text of a schema as its roots and its types, and how they are read off: two schemas of the same
text have the same roots and show the same types, one by one.

## Main statements

* `Printer.roots_append_inj` — the roots of a schema.
* `Schema.toList_print` — the text of a schema.
* `Schema.shownAs_of_print` — what two schemas of the same text have in common.
-/

namespace GraphSchema

open Text (Stops unlines)

variable {x y : List Char}

namespace Printer

/-! ## Roots -/

/-- The line of a further root operation, if there is one. -/
def roleChars (role : Role) (type? : Option String) : List Char :=
  type?.elim [] fun name =>
    ' ' :: ' ' :: (role.text.toList ++ ':' :: ' ' :: (name.toList ++ ['\n']))

theorem unlines_rootLines {r : Roots} {query : String} (hq : r.type? .query = some query) :
    unlines (rootLines r) = "schema \x7b\n  query: ".toList ++ (query.toList ++ '\n' ::
      (roleChars .mutation (r.type? .mutation) ++
        (roleChars .subscription (r.type? .subscription) ++ ['\x7d', '\n']))) := by
  have hquery : r.query = some query := (Option.filter_eq_some_iff.1 hq).1
  rw [rootLines, unlines_block, hquery]
  cases hm : r.type? .mutation <;> cases hs : r.type? .subscription <;>
    simp [hm, hs, roleChars, Role.text, Value.ofOption, Value.display]

/-- The line of a further root operation is read off, and seen to be there. -/
theorem role_append_inj {role : Role} {m n : Option String}
    (hm : ∀ name, m = some name → Name.isName name.toList = true)
    (hn : ∀ name, n = some name → Name.isName name.toList = true)
    (hx : ∀ z, ' ' :: ' ' :: (role.text.toList ++ z) ≠ x)
    (hy : ∀ z, ' ' :: ' ' :: (role.text.toList ++ z) ≠ y)
    (h : roleChars role m ++ x = roleChars role n ++ y) : m = n ∧ x = y := by
  have hsome (name : String) (x : List Char) : roleChars role (some name) ++ x =
      ' ' :: ' ' :: (role.text.toList ++ ':' :: ' ' :: (name.toList ++ '\n' :: x)) := by
    simp [roleChars]
  cases m with
  | none =>
    cases n with
    | none => exact ⟨rfl, h⟩
    | some n => rw [hsome] at h; exact absurd h.symm (hx _)
  | some m =>
    cases n with
    | none => rw [hsome] at h; exact absurd h (hy _)
    | some n =>
      rw [hsome, hsome] at h
      simp only [List.cons.injEq, true_and, List.append_cancel_left_eq] at h
      obtain ⟨hname, h⟩ := Name.append_inj_of_isName (hm m rfl) (hn n rfl)
        (Text.stops_cons.2 (by decide)) (Text.stops_cons.2 (by decide)) h
      exact ⟨congrArg some (String.toList_inj.1 hname), (List.cons.inj h).2⟩

/-- The roots are read off a text. -/
theorem roots_append_inj {r r' : Roots} {query query' : String} (hq : r.type? .query = some query)
    (hq' : r'.type? .query = some query')
    (hr : ∀ role name, r.type? role = some name → Name.isName name.toList = true)
    (hr' : ∀ role name, r'.type? role = some name → Name.isName name.toList = true)
    (h : unlines (rootLines r) ++ x = unlines (rootLines r') ++ y) :
    (∀ role, r.type? role = r'.type? role) ∧ x = y := by
  have hmutation (m : Option String) (x z : List Char) :
      ' ' :: ' ' :: (Role.mutation.text.toList ++ z) ≠
        roleChars .subscription m ++ '\x7d' :: '\n' :: x := by
    cases m <;> simp [roleChars, Role.text]
  rw [unlines_rootLines hq, unlines_rootLines hq'] at h
  simp only [List.append_assoc, List.cons_append, List.append_cancel_left_eq] at h
  obtain ⟨hquery, h⟩ := Name.append_inj_of_isName (hr _ _ hq) (hr' _ _ hq')
    (Text.stops_cons.2 (by decide)) (Text.stops_cons.2 (by decide)) h
  obtain ⟨hm, h⟩ := role_append_inj (hr .mutation) (hr' .mutation) (hmutation _ _) (hmutation _ _)
    (List.cons.inj h).2
  obtain ⟨hs, h⟩ := role_append_inj (hr .subscription) (hr' .subscription) (by simp) (by simp) h
  refine ⟨fun role => ?_, by simpa using h⟩
  cases role with
  | query => rw [hq, hq', String.toList_inj.1 hquery]
  | mutation => exact hm
  | subscription => exact hs

/-! ## Documents -/

/-- Blocks of lines with an empty line between, and a line feed at the end. -/
theorem toList_intercalate_blocks {b : List String} {bs : List (List String)}
    (h : ∀ c ∈ b :: bs, c ≠ []) :
    (String.intercalate "\n\n" ((b :: bs).map (String.intercalate "\n"))).toList ++ ['\n'] =
      unlines b ++ bs.flatMap fun c => '\n' :: unlines c := by
  induction bs generalizing b with
  | nil => simpa using Text.toList_intercalate_newline (h b List.mem_cons_self)
  | cons c bs ih =>
    obtain ⟨hb, hbs⟩ := List.forall_mem_cons.1 h
    rw [List.map_cons, List.map_cons, String.intercalate_cons_cons, ← List.map_cons,
      List.flatMap_cons, List.cons_append, ← ih hbs, ← Text.toList_intercalate_newline hb]
    simp

theorem definitionLines_ne_nil (d : Definition) (fields : List Field) :
    definitionLines d fields ≠ [] := by
  unfold definitionLines block
  cases d.body <;> simp

end Printer

/-! ## Schemas -/

namespace Schema

variable {s s' : Schema}

/-- The composed fields of a type, in order. -/
def fieldList (s : Schema) (d : Definition) : List Field := Table.values (s.fieldTable d.name)

theorem toList_print (s : Schema) :
    s.print.toList = unlines (Printer.rootLines s.roots) ++ s.printedTypes.flatMap fun d =>
      '\n' :: unlines (Printer.definitionLines d (s.fieldList d)) := by
  have hblocks : ∀ c ∈ Printer.rootLines s.roots :: s.printedTypes.map fun d =>
      Printer.definitionLines d (s.fieldList d), c ≠ [] := by
    refine List.forall_mem_cons.2 ⟨by simp [Printer.rootLines, Printer.block], ?_⟩
    exact List.forall_mem_map.2 fun d _ => Printer.definitionLines_ne_nil d _
  have hprint := Printer.toList_intercalate_blocks hblocks
  rw [List.flatMap_map] at hprint
  rw [← hprint, print]
  simp [fieldList]

/-- Schemas of the same text have the same roots and show the same types, in the same order. -/
theorem shownAs_of_print {query query' : String} (hq : s.roots.type? .query = some query)
    (hq' : s'.roots.type? .query = some query')
    (hroots : ∀ role name, s.roots.type? role = some name → Name.isName name.toList = true)
    (hroots' : ∀ role name, s'.roots.type? role = some name → Name.isName name.toList = true)
    (htypes : ∀ d ∈ s.printedTypes, d.Legible (s.fieldList d) ∧
      ∀ n, d.Refers (s.fieldList d) n → Name.isName n.toList = true)
    (htypes' : ∀ d ∈ s'.printedTypes, d.Legible (s'.fieldList d) ∧
      ∀ n, d.Refers (s'.fieldList d) n → Name.isName n.toList = true)
    (h : s.print = s'.print) :
    (∀ role, s.roots.type? role = s'.roots.type? role) ∧
      List.Forall₂ (fun d d' => d.ShownAs (s.fieldList d) (s'.fieldList d') d') s.printedTypes
        s'.printedTypes := by
  have h := congrArg String.toList h
  rw [toList_print, toList_print] at h
  obtain ⟨hsame, h⟩ := Printer.roots_append_inj hq hq' hroots hroots' h
  have hread : ∀ d ∈ s.printedTypes, ∀ d' ∈ s'.printedTypes, ∀ x y,
      ('\n' :: unlines (Printer.definitionLines d (s.fieldList d))) ++ x =
        ('\n' :: unlines (Printer.definitionLines d' (s'.fieldList d'))) ++ y →
      d.ShownAs (s.fieldList d) (s'.fieldList d') d' ∧ x = y := by
    intro d hd d' hd' x y h
    exact Printer.definition_append_inj (htypes d hd).1 (htypes' d' hd').1 (htypes d hd).2
      (htypes' d' hd').2 (List.cons.inj h).2
  rw [← List.append_nil (List.flatMap _ s.printedTypes),
    ← List.append_nil (List.flatMap _ s'.printedTypes)] at h
  exact ⟨hsame, (Text.flatMap_append_inj hread (by simp) (by simp) h).1⟩

end Schema

end GraphSchema
