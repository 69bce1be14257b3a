import GraphSchema.Table
import Mathlib.Data.List.Induction
import Mathlib.Data.List.Nodup

/-!
# Reports

A list of errors reports the sites of a relation if it holds one error for every site that has one,
and nothing else. Reports are put together as the lists are: what is checked in turn is reported
site by site, each element of a list at its place, seen in the light of what stands before it.

## Main definitions

* `Reports` — a list that has every site of a relation once.

## Main statements

* `Reports.append`, `Reports.map` — the sites of two relations, and sites under another name.
* `Reports.of_prefix` — a list that grows by what each element adds to it.
* `Reports.flatMap`, `Reports.flatMap_of_nodup` — what the elements of a list make up, each told by
  its place or by its name.
-/

namespace GraphSchema

variable {σ τ ε α : Type}

/-- The list holds, in some order of the sites, one error for every site that has one by the
relation, and nothing else. -/
def Reports (es : List ε) (P : σ → ε → Prop) : Prop :=
  ∃ t : Table σ ε, Table.values t = es ∧ (Table.keys t).Nodup ∧ ∀ x e, (x, e) ∈ t ↔ P x e

namespace Reports

variable {es es' : List ε} {P Q : σ → ε → Prop}

theorem congr (h : Reports es P) (hPQ : ∀ x e, P x e ↔ Q x e) : Reports es Q := by
  obtain ⟨t, hvalues, hkeys, hmem⟩ := h
  exact ⟨t, hvalues, hkeys, fun x e => (hmem x e).trans (hPQ x e)⟩

theorem nil (h : ∀ x e, ¬ P x e) : Reports [] P :=
  ⟨[], rfl, List.nodup_nil, fun x e => by simpa using h x e⟩

theorem singleton {x : σ} {e : ε} (h : ∀ y e', P y e' ↔ y = x ∧ e' = e) : Reports [e] P :=
  ⟨[(x, e)], rfl, List.nodup_singleton x, fun y e' => by simp [h]⟩

/-- A site that has an error or none. -/
theorem toList {error? : Option ε} {P : ε → Prop} (h : ∀ e, error? = some e ↔ P e) :
    Reports error?.toList fun (_ : Unit) e => P e := by
  cases error? with
  | none => exact nil fun _ e he => by simpa using (h e).2 he
  | some e => exact singleton (x := ()) fun _ e' => by rw [← h]; simp [eq_comm]

/-- Two lists in a row report the sites of both, if these have none in common. -/
theorem append (h : Reports es P) (h' : Reports es' Q)
    (hdisjoint : ∀ x e e', P x e → ¬ Q x e') : Reports (es ++ es') fun x e => P x e ∨ Q x e := by
  obtain ⟨t, rfl, hkeys, hmem⟩ := h
  obtain ⟨t', rfl, hkeys', hmem'⟩ := h'
  refine ⟨t ++ t', by simp [Table.values], ?_, fun x e => by simp [hmem, hmem']⟩
  rw [Table.keys, List.map_append, List.nodup_append]
  refine ⟨hkeys, hkeys', ?_⟩
  rintro x hx _ hx' rfl
  obtain ⟨⟨_, e⟩, he, rfl⟩ := List.mem_map.1 hx
  obtain ⟨⟨_, e'⟩, he', heq⟩ := List.mem_map.1 hx'
  obtain rfl : _ = _ := heq
  exact hdisjoint _ e e' ((hmem _ _).1 he) ((hmem' _ _).1 he')

/-- The sites under other names, which are as distinct. -/
theorem map {f : σ → τ} (hf : Function.Injective f) (h : Reports es P) :
    Reports es fun y e => ∃ x, f x = y ∧ P x e := by
  obtain ⟨t, rfl, hkeys, hmem⟩ := h
  refine ⟨t.map fun entry => (f entry.1, entry.2), by simp [Table.values], ?_, fun y e => ?_⟩
  · have hmap : Table.keys (t.map fun entry => (f entry.1, entry.2)) = (Table.keys t).map f := by
      simp [Table.keys]
    exact hmap ▸ hkeys.map hf
  · simp only [List.mem_map, Prod.mk.injEq]
    constructor
    · rintro ⟨⟨x, _⟩, hx, rfl, rfl⟩
      exact ⟨x, rfl, (hmem _ _).1 hx⟩
    · rintro ⟨x, rfl, hx⟩
      exact ⟨(x, e), (hmem _ _).2 hx, rfl, rfl⟩

/-- Sites that are told by their place, under other names. -/
theorem place {P : Nat × Unit → ε → Prop} {f : Nat → τ} (hf : Function.Injective f)
    (h : Reports es P) : Reports es fun y e => ∃ k, f k = y ∧ P (k, ()) e := by
  have hinjective : Function.Injective fun x : Nat × Unit => f x.1 := fun _ _ heq =>
    Prod.ext (hf heq) rfl
  refine (h.map hinjective).congr fun y e => ⟨?_, ?_⟩
  · rintro ⟨x, hx, hP⟩
    exact ⟨x.1, hx, hP⟩
  · rintro ⟨k, hk, hP⟩
    exact ⟨(k, ()), hk, hP⟩

/-! ## Lists that grow -/

/-- What stands at a place of a list that has grown by one element stands there already, or is the
new element. -/
theorem getElem?_concat_iff {l : List α} {a b : α} {k : Nat} :
    (l ++ [a])[k]? = some b ↔ l[k]? = some b ∨ k = l.length ∧ a = b := by
  by_cases hk : k < l.length
  · have hne : k ≠ l.length := Nat.ne_of_lt hk
    simp [List.getElem?_append_left hk, hne]
  · rw [Nat.not_lt] at hk
    rw [List.getElem?_append_right hk, List.getElem?_singleton, List.getElem?_eq_none hk]
    have hzero : k - l.length = 0 ↔ k = l.length := by omega
    simp [hzero]

/-- A list that grows with another one, by what each element adds to it: the sites are those of the
elements, each at its place and seen in the light of what stands before it. -/
theorem of_prefix {E : List α → List ε} {g : List α → α → List ε}
    {P : List α → α → σ → ε → Prop} {l : List α} (hnil : E [] = [])
    (hconcat : ∀ pre a, pre ++ [a] <+: l → E (pre ++ [a]) = E pre ++ g pre a)
    (h : ∀ pre a, pre ++ [a] <+: l → Reports (g pre a) (P pre a)) :
    Reports (E l) fun (x : Nat × σ) e =>
      ∃ a, l[x.1]? = some a ∧ P (l.take x.1) a x.2 e := by
  induction l using List.reverseRecOn with
  | nil => exact hnil ▸ Reports.nil fun x e => by simp
  | append_singleton l a ih =>
    have hl : l <+: l ++ [a] := List.prefix_append l [a]
    have hreports := ih (fun pre b hpre => hconcat pre b (hpre.trans hl))
      fun pre b hpre => h pre b (hpre.trans hl)
    have hnew := (h l a (List.prefix_refl _)).map (f := Prod.mk l.length)
      fun _ _ h => (Prod.mk.inj h).2
    rw [hconcat l a (List.prefix_refl _)]
    refine (hreports.append hnew ?_).congr fun x e => ?_
    · rintro x e e' ⟨b, hb, -⟩ ⟨y, rfl, -⟩
      simp at hb
    · obtain ⟨k, y⟩ := x
      simp only [getElem?_concat_iff]
      constructor
      · rintro (⟨b, hb, hP⟩ | ⟨_, ⟨⟩, hP⟩)
        · obtain ⟨hk, -⟩ := List.getElem?_eq_some_iff.1 hb
          exact ⟨b, .inl hb, by rwa [List.take_append_of_le_length (Nat.le_of_lt hk)]⟩
        · exact ⟨a, .inr ⟨rfl, rfl⟩, by simpa using hP⟩
      · rintro ⟨b, hb | ⟨rfl, rfl⟩, hP⟩
        · obtain ⟨hk, -⟩ := List.getElem?_eq_some_iff.1 hb
          rw [List.take_append_of_le_length (Nat.le_of_lt hk)] at hP
          exact .inl ⟨b, hb, hP⟩
        · exact .inr ⟨y, rfl, by simpa using hP⟩

/-- What the elements of a list make up is reported element by element. -/
theorem flatMap {g : α → List ε} {P : α → σ → ε → Prop} {l : List α}
    (h : ∀ a ∈ l, Reports (g a) (P a)) :
    Reports (l.flatMap g) fun (x : Nat × σ) e => ∃ a, l[x.1]? = some a ∧ P a x.2 e :=
  of_prefix (P := fun _ => P) rfl (fun pre a _ => by simp)
    fun pre a hpre => h a (hpre.subset (by simp))

/-- What the elements of a list make up, if these are told by distinct names. -/
theorem flatMap_of_nodup {κ : Type} {name : α → κ} {g : α → List ε} {P : α → σ → ε → Prop}
    {l : List α} (hl : (l.map name).Nodup) (h : ∀ a ∈ l, Reports (g a) (P a)) :
    Reports (l.flatMap g) fun (x : κ × σ) e => ∃ a ∈ l, name a = x.1 ∧ P a x.2 e := by
  induction l with
  | nil => exact Reports.nil fun x e => by simp
  | cons a l ih =>
    obtain ⟨ha, hl⟩ := List.nodup_cons.1 hl
    have hfirst := (h a List.mem_cons_self).map (f := Prod.mk (name a))
      fun _ _ heq => (Prod.mk.inj heq).2
    have hrest := ih hl fun b hb => h b (List.mem_cons_of_mem a hb)
    rw [List.flatMap_cons]
    refine (hfirst.append hrest ?_).congr fun x e => ?_
    · rintro _ _ _ ⟨_, rfl, -⟩ ⟨b, hb, hname, -⟩
      exact ha (List.mem_map.2 ⟨b, hb, hname⟩)
    · obtain ⟨k, y⟩ := x
      simp

end Reports

end GraphSchema
