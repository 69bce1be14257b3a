import Mathlib.Data.List.Forall2

/-!
# Traversals that may fail

## Main statements

* `exists_of_bind_eq_ok`, `exists_of_map_eq_ok` — the parts of a computation succeed if the whole
  does.
* `exists_mapM`, `exists_mapM_mem` — a traversal succeeds if every step does.
* `exists_mapM_forall₂` — two traversals succeed with results that belong together.
* `mapM_congr` — traversals with the same steps are the same.
* `forall₂_of_mapM` — a traversal that succeeds, step by step.
* `filter_eq_singleton` — one member bears a name among distinct names.
-/

namespace GraphSchema

theorem exists_of_bind_eq_ok {α β ε : Type} {x : Except ε α} {f : α → Except ε β} {b : β}
    (h : (x >>= f) = .ok b) : ∃ a, x = .ok a ∧ f a = .ok b := by
  cases x with
  | error e => cases h
  | ok a => exact ⟨a, rfl, h⟩

theorem exists_of_map_eq_ok {α β ε : Type} {x : Except ε α} {f : α → β} {b : β}
    (h : f <$> x = .ok b) : ∃ a, x = .ok a ∧ f a = b := by
  cases x with
  | error e => cases h
  | ok a => exact ⟨a, rfl, Except.ok.inj h⟩

variable {α β ε : Type} {f : α → Except ε β} {P : α → β → Prop} {l : List α} {bs : List β}

/-- A traversal of which every step can be done can be done. -/
theorem exists_mapM (h : ∀ a ∈ l, ∃ b, f a = .ok b ∧ P a b) :
    ∃ bs, l.mapM f = .ok bs ∧ List.Forall₂ P l bs := by
  induction l with
  | nil => exact ⟨[], rfl, .nil⟩
  | cons a l ih =>
    obtain ⟨b, hb, hP⟩ := h a List.mem_cons_self
    obtain ⟨bs, hbs, hPs⟩ := ih fun a ha => h a (List.mem_cons_of_mem _ ha)
    refine ⟨b :: bs, ?_, .cons hP hPs⟩
    rw [List.mapM_cons, hb, hbs]
    rfl

/-- Traversals of members that belong together give what belongs together. -/
theorem exists_mapM_forall₂ {α' β' : Type} {g : α' → Except ε β'} {R : α → α' → Prop}
    {Q : β → β' → Prop} {l' : List α'} (h : List.Forall₂ R l l')
    (hstep : ∀ a ∈ l, ∀ a', R a a' → ∃ b b', f a = .ok b ∧ g a' = .ok b' ∧ Q b b') :
    ∃ bs bs', l.mapM f = .ok bs ∧ l'.mapM g = .ok bs' ∧ List.Forall₂ Q bs bs' := by
  induction h with
  | nil => exact ⟨[], [], rfl, rfl, .nil⟩
  | cons hR _ ih =>
    obtain ⟨b, b', hb, hb', hQ⟩ := hstep _ List.mem_cons_self _ hR
    obtain ⟨bs, bs', hbs, hbs', hQs⟩ := ih fun a ha => hstep a (.tail _ ha)
    refine ⟨b :: bs, b' :: bs', ?_, ?_, .cons hQ hQs⟩
    · rw [List.mapM_cons, hb, hbs]
      rfl
    · rw [List.mapM_cons, hb', hbs']
      rfl

/-- Traversals whose steps are the same on every member are the same. -/
theorem mapM_congr {g : α → Except ε β} (h : ∀ a ∈ l, f a = g a) : l.mapM f = l.mapM g := by
  induction l with
  | nil => rfl
  | cons a l ih =>
    rw [List.mapM_cons, List.mapM_cons, h a List.mem_cons_self,
      ih fun a ha => h a (List.mem_cons_of_mem _ ha)]

/-- A traversal whose steps are those of a function is a mapping. -/
theorem mapM_eq_ok_map {g : α → β} (h : ∀ a ∈ l, f a = .ok (g a)) : l.mapM f = .ok (l.map g) :=
  (mapM_congr h).trans List.mapM_pure

/-- A traversal that succeeds succeeds in every step. -/
theorem forall₂_of_mapM (h : l.mapM f = .ok bs) : List.Forall₂ (fun a b => f a = .ok b) l bs := by
  induction l generalizing bs with
  | nil =>
    obtain rfl := Except.ok.inj h
    exact .nil
  | cons a l ih =>
    rw [List.mapM_cons] at h
    obtain ⟨b, hb, h⟩ := exists_of_bind_eq_ok h
    obtain ⟨bs, hbs, h⟩ := exists_of_bind_eq_ok h
    obtain rfl := Except.ok.inj h
    exact .cons hb (ih hbs)

theorem exists_mem_of_forall₂ (h : List.Forall₂ P l bs) {a : α} (ha : a ∈ l) :
    ∃ b ∈ bs, P a b := by
  induction h with
  | nil => cases ha
  | cons hP _ ih =>
    rcases List.mem_cons.1 ha with rfl | ha
    · exact ⟨_, List.mem_cons_self, hP⟩
    · obtain ⟨b, hb, hP⟩ := ih ha
      exact ⟨b, List.mem_cons_of_mem _ hb, hP⟩

theorem exists_of_mem_forall₂ (h : List.Forall₂ P l bs) {b : β} (hb : b ∈ bs) :
    ∃ a ∈ l, P a b := by
  induction h with
  | nil => cases hb
  | cons hP _ ih =>
    rcases List.mem_cons.1 hb with rfl | hb
    · exact ⟨_, List.mem_cons_self, hP⟩
    · obtain ⟨a, ha, hP⟩ := ih hb
      exact ⟨a, List.mem_cons_of_mem _ ha, hP⟩

/-- What is in relation as members of their lists is in relation. -/
theorem forall₂_of_mem {Q : α → β → Prop} (h : List.Forall₂ P l bs)
    (hstep : ∀ a ∈ l, ∀ b ∈ bs, P a b → Q a b) : List.Forall₂ Q l bs := by
  induction h with
  | nil => exact .nil
  | cons hP _ ih =>
    exact .cons (hstep _ List.mem_cons_self _ List.mem_cons_self hP)
      (ih fun a ha b hb => hstep a (.tail _ ha) b (.tail _ hb))

/-- A relation between the members of two lists, read the other way. -/
theorem forall₂_symm {Q : β → α → Prop} (h : List.Forall₂ P l bs) (hstep : ∀ a b, P a b → Q b a) :
    List.Forall₂ Q bs l :=
  (h.imp hstep).flip

/-- What every step gives holds of all that a traversal gives. -/
theorem exists_mapM_mem {Q : β → Prop} (h : ∀ a ∈ l, ∃ b, f a = .ok b ∧ Q b) :
    ∃ bs, l.mapM f = .ok bs ∧ ∀ b ∈ bs, Q b := by
  obtain ⟨bs, hbs, hQ⟩ := exists_mapM h
  refine ⟨bs, hbs, fun b hb => ?_⟩
  obtain ⟨_, _, hb⟩ := exists_of_mem_forall₂ hQ hb
  exact hb

theorem map_eq_of_forall₂ {γ : Type} {g : α → γ} {g' : β → γ} (h : List.Forall₂ P l bs)
    (hg : ∀ a b, P a b → g' b = g a) : bs.map g' = l.map g := by
  induction h with
  | nil => rfl
  | cons hP _ ih => rw [List.map_cons, List.map_cons, ih, hg _ _ hP]

/-- Among distinct names, one member bears the name of a member. -/
theorem filter_eq_singleton {name : β → String} (h : (bs.map name).Nodup) {b : β} (hb : b ∈ bs) :
    (bs.filter fun c => name c == name b) = [b] := by
  induction bs with
  | nil => cases hb
  | cons c bs ih =>
    obtain ⟨hc, h⟩ := List.nodup_cons.1 h
    rcases List.mem_cons.1 hb with rfl | hb
    · rw [List.filter_cons_of_pos (by simp), List.filter_eq_nil_iff.2]
      intro c hmem he
      exact hc (List.mem_map.2 ⟨c, hmem, by simpa using he⟩)
    · rw [List.filter_cons_of_neg, ih h hb]
      intro he
      exact hc (List.mem_map.2 ⟨b, hb, (by simpa using he : name c = name b).symm⟩)

end GraphSchema
