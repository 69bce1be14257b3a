import GraphSchema.Proofs.Declarations.Coherence
import GraphSchema.Reachability
import Mathlib.Order.Bounds.Basic

/-!
# Exact reachability

The types reachable from roots and orphans are the least set of names that has every defined
start and everything defined that a type of the set refers to.

## Main definitions

* `Definition.Refers`, `Declarations.Refers` — the ways in which a definition refers to a type.
* `Declarations.ReferenceClosed` — sets with every start and every reference.
* `Declarations.Frontier` — the invariant of the search: what is visited and what is queued.
* `Reachability.Exact` — what it means for the outcome to be exact.
* `Declarations.Confined` — declarations that agree on names which no reference leaves.

## Main statements

* `Declarations.Frontier.explore` — the search ends with an empty queue.
* `Declarations.isLeast_explore` — what has been visited then is the least closed set.
* `Declarations.Confined.reachable_eq` — what is reachable is said within such names.
* `Declarations.reachability_exact` — what is reachable, what is not, and which object types are
  left out although they implement something reachable, in whatever order all this is given.
-/

namespace GraphSchema

/-! ## References -/

/-- The ways in which a definition with composed fields refers to a type. The types that implement
an interface are not referred to by it. -/
inductive Definition.Refers (d : Definition) (fields : List Field) : String → Prop
  | fieldType {f : Field} : d.hasFields → f ∈ fields → d.Refers fields f.type.innermost
  | argumentType {f : Field} {a : Argument} : d.hasFields → f ∈ fields → a ∈ f.arguments →
      d.Refers fields a.type.innermost
  | implements {o : ObjectType} {name : String} : d.body = .object o → name ∈ o.interfaces →
      d.Refers fields name
  | orphan {i : InterfaceType} {name : String} : d.body = .interface i → name ∈ i.orphans →
      d.Refers fields name
  | member {u : UnionType} {name : String} : d.body = .union u → name ∈ u.members →
      d.Refers fields name
  | inputField {inputs : List Argument} {a : Argument} : d.body = .inputObject inputs →
      a ∈ inputs → d.Refers fields a.type.innermost

/-- A scalar refers to nothing. -/
theorem Definition.not_refers_of_scalar {d : Definition} {fields : List Field} {name : String}
    (h : d.body = .scalar) : ¬ d.Refers fields name := by
  intro hr
  cases hr with
  | fieldType hf | argumentType hf => simp [hasFields, kind, h, TypeBody.kind] at hf
  | implements hb | orphan hb | member hb | inputField hb => cases h.symm.trans hb

namespace Declarations

/-- Whether there is a definition of a name. -/
def Defines (ds : Declarations) (name : String) : Prop := ∃ d ∈ ds.definitions, d.name = name

/-- Whether a definition refers to a type. -/
def Refers (ds : Declarations) (d : Definition) (name : String) : Prop :=
  d.Refers (Table.values (ds.fields.effective d.name)) name

variable {ds : Declarations} {start visited queue : List String} {name : String} {d : Definition}

theorem defines_iff_find : ds.Defines name ↔ (ds.find name).isSome := by
  simp [Defines, find, findDefinition]

theorem mem_effectiveReferences {owner : String} :
    name ∈ ds.effectiveReferences owner ↔
      ∃ f ∈ Table.values (ds.fields.effective owner),
        name = f.type.innermost ∨ ∃ a ∈ f.arguments, name = a.type.innermost := by
  simp [effectiveReferences, fieldReferences, eq_comm]

theorem mem_references : name ∈ ds.references d ↔ ds.Refers d name := by
  have hfields (hf : d.hasFields) (hn : name ∈ ds.effectiveReferences d.name) :
      ds.Refers d name := by
    obtain ⟨f, hmem, rfl | ⟨a, ha, rfl⟩⟩ := mem_effectiveReferences.1 hn
    · exact .fieldType hf hmem
    · exact .argumentType hf hmem ha
  constructor
  · intro h
    unfold references at h
    cases hb : d.body with
    | object o =>
      simp only [hb, List.mem_append] at h
      rcases h with h | h
      · exact hfields (Definition.hasFields_of_object hb) h
      · exact .implements hb h
    | interface i =>
      simp only [hb, List.mem_append] at h
      rcases h with h | h
      · exact hfields (Definition.hasFields_of_interface hb) h
      · exact .orphan hb h
    | union u =>
      simp only [hb] at h
      exact .member hb h
    | inputObject inputs =>
      simp only [hb] at h
      obtain ⟨a, ha, rfl⟩ := List.mem_map.1 h
      exact .inputField hb ha
    | scalar | enum => simp [hb] at h
  · have heffective (hf : d.hasFields) (hn : name ∈ ds.effectiveReferences d.name) :
        name ∈ ds.references d := by
      unfold references
      cases hb : d.body <;> simp_all [Definition.hasFields, Definition.kind, TypeBody.kind]
    intro h
    cases h with
    | fieldType hf hmem => exact heffective hf (mem_effectiveReferences.2 ⟨_, hmem, .inl rfl⟩)
    | argumentType hf hmem ha =>
      exact heffective hf (mem_effectiveReferences.2 ⟨_, hmem, .inr ⟨_, ha, rfl⟩⟩)
    | implements hb hn | orphan hb hn => simp [references, hb, hn]
    | member hb hn => simp [references, hb, hn]
    | inputField hb ha =>
      simp only [references, hb]
      exact List.mem_map.2 ⟨_, ha, rfl⟩

/-- Sets that have every defined start and, with a type, every defined type that it refers to. -/
structure ReferenceClosed (ds : Declarations) (start : List String) (S : Set String) : Prop where
  start : ∀ name ∈ start, ds.Defines name → name ∈ S
  step : ∀ d ∈ ds.definitions, d.name ∈ S → ∀ name, ds.Refers d name → ds.Defines name → name ∈ S

/-! ## The search -/

/-- The invariant of the search. Everything visited is defined and in every closed set, and so is
what is queued, if it is defined; whatever should be visited is visited or queued. -/
structure Frontier (ds : Declarations) (start visited queue : List String) : Prop where
  distinct : visited.Nodup
  defined : ∀ name ∈ visited, ds.Defines name
  least : ∀ S, ds.ReferenceClosed start S → ∀ name, name ∈ visited ∨ name ∈ queue →
    ds.Defines name → name ∈ S
  start : ∀ name ∈ start, ds.Defines name → name ∈ visited ∨ name ∈ queue
  step : ∀ d ∈ ds.definitions, d.name ∈ visited → ∀ name, ds.Refers d name → ds.Defines name →
    name ∈ visited ∨ name ∈ queue

namespace Frontier

theorem initial : ds.Frontier start [] start where
  distinct := List.nodup_nil
  defined := by simp
  least S hS name hn := hS.start name (by simpa using hn)
  start name hn _ := .inr hn
  step := by simp

/-- A name that is visited already, or is not defined, leaves the queue. -/
theorem skip (h : ds.Frontier start visited (name :: queue))
    (hn : name ∈ visited ∨ ¬ ds.Defines name) : ds.Frontier start visited queue := by
  have hrest : ∀ n, ds.Defines n → n ∈ visited ∨ n ∈ name :: queue → n ∈ visited ∨ n ∈ queue := by
    rintro n hd (hv | hq)
    · exact .inl hv
    · rcases List.mem_cons.1 hq with rfl | hq
      · exact .inl (hn.resolve_right (· hd))
      · exact .inr hq
  exact {
    distinct := h.distinct
    defined := h.defined
    least := fun S hS n hmem => h.least S hS n (hmem.imp_right (List.mem_cons_of_mem _))
    start := fun n hs hd => hrest n hd (h.start n hs hd)
    step := fun d hmem hv n hr hd => hrest n hd (h.step d hmem hv n hr hd) }

/-- A new name is visited, and what its definition refers to is queued. -/
theorem visit (hdistinct : (ds.definitions.map (·.name)).Nodup)
    (h : ds.Frontier start visited (name :: queue)) (hn : name ∉ visited)
    (hd : ds.find name = some d) :
    ds.Frontier start (name :: visited) (queue ++ ds.references d) := by
  have hmem := mem_of_findDefinition hd
  obtain rfl := name_of_findDefinition hd
  -- what was visited or queued still is
  have hkeep : ∀ n, n ∈ visited ∨ n ∈ d.name :: queue →
      n ∈ d.name :: visited ∨ n ∈ queue ++ ds.references d := by
    rintro n (hv | hq)
    · exact .inl (List.mem_cons_of_mem _ hv)
    · rcases List.mem_cons.1 hq with rfl | hq
      · exact .inl List.mem_cons_self
      · exact .inr (List.mem_append_left _ hq)
  refine ⟨List.nodup_cons.2 ⟨hn, h.distinct⟩, ?_, ?_, ?_, ?_⟩
  · intro n hv
    rcases List.mem_cons.1 hv with rfl | hv
    · exact ⟨d, hmem, rfl⟩
    · exact h.defined n hv
  · intro S hS n hv hdef
    have hself : d.name ∈ S := h.least S hS d.name (.inr List.mem_cons_self) ⟨d, hmem, rfl⟩
    rcases hv with hv | hq
    · rcases List.mem_cons.1 hv with rfl | hv
      · exact hself
      · exact h.least S hS n (.inl hv) hdef
    · rcases List.mem_append.1 hq with hq | hr
      · exact h.least S hS n (.inr (List.mem_cons_of_mem _ hq)) hdef
      · exact hS.step d hmem hself n (mem_references.1 hr) hdef
  · exact fun n hs hdef => hkeep n (h.start n hs hdef)
  · intro e he hv n hr hdef
    rcases List.mem_cons.1 hv with heq | hv
    -- no other definition has the name that is visited now
    · have hed : e = d := Option.some.inj
        ((findDefinition_of_mem hdistinct he).symm.trans (heq ▸ hd))
      exact .inr (List.mem_append_right _ (mem_references.2 (hed ▸ hr)))
    · exact hkeep n (h.step e he hv n hr hdef)

/-- The search ends with an empty queue. -/
theorem explore (hdistinct : (ds.definitions.map (·.name)).Nodup)
    (h : ds.Frontier start visited queue) :
    ds.Frontier start (ds.explore visited queue) [] := by
  -- the four ways in which the search goes on, each of which keeps the invariant
  induction visited, queue using Declarations.explore.induct ds with
  | case1 visited =>
    rw [Declarations.explore]
    exact h
  | case2 visited name queue hv ih =>
    rw [Declarations.explore, dif_pos hv]
    exact ih (h.skip (.inl (List.contains_iff_mem.1 hv)))
  | case3 visited name queue hv hd ih =>
    rw [Declarations.explore, dif_neg hv]
    split
    · exact ih (h.skip (.inr (defines_iff_find.not.2 (by simp [hd]))))
    · next hd' => simp [hd] at hd'
  | case4 visited name queue hv d hd ih =>
    rw [Declarations.explore, dif_neg hv]
    split
    · next hd' => simp [hd] at hd'
    · next d' hd' =>
      obtain rfl : d = d' := Option.some.inj (hd.symm.trans hd')
      exact ih (h.visit hdistinct (fun hm => hv (List.contains_iff_mem.2 hm)) hd)

theorem isLeast (h : ds.Frontier start visited []) :
    IsLeast {S | ds.ReferenceClosed start S} {name | name ∈ visited} := by
  refine ⟨⟨fun n hs hd => ?_, fun d hmem hv n hr hd => ?_⟩, fun S hS n hv => ?_⟩
  · simpa using h.start n hs hd
  · simpa using h.step d hmem hv n hr hd
  · exact h.least S hS n (.inl hv) (h.defined n hv)

end Frontier

theorem isLeast_explore (hdistinct : (ds.definitions.map (·.name)).Nodup) (start : List String) :
    IsLeast {S | ds.ReferenceClosed start S} {name | name ∈ ds.explore [] start} :=
  (Frontier.initial.explore hdistinct).isLeast

/-! ## Sorted names -/

theorem pairwise_mergeSort (names : List String) : names.mergeSort.Pairwise (· ≤ ·) := by
  have htrans (a b c : String) (hab : decide (a ≤ b) = true) (hbc : decide (b ≤ c) = true) :
      decide (a ≤ c) = true :=
    decide_eq_true (String.le_trans (of_decide_eq_true hab) (of_decide_eq_true hbc))
  have htotal (a b : String) : (decide (a ≤ b) || decide (b ≤ a)) = true := by
    simpa using String.le_total a b
  exact (List.pairwise_mergeSort htrans htotal names).imp of_decide_eq_true

theorem pairwise_lt_mergeSort {names : List String} (h : names.Nodup) :
    names.mergeSort.Pairwise (· < ·) := by
  have hne : names.mergeSort.Pairwise (· ≠ ·) := (List.mergeSort_perm names _).nodup_iff.2 h
  refine ((pairwise_mergeSort names).and hne).imp fun {a b} hab => ?_
  exact String.not_le.1 fun hba => hab.2 (String.le_antisymm hab.1 hba)

/-- Increasing names are said by their set. -/
theorem increasing_ext {names names' : List String} (h : names.Pairwise (· < ·))
    (h' : names'.Pairwise (· < ·)) (hmem : ∀ name, name ∈ names ↔ name ∈ names') :
    names = names' := by
  have hperm : names.Perm names' :=
    (List.perm_ext_iff_of_nodup (h.imp String.ne_of_lt) (h'.imp String.ne_of_lt)).2 hmem
  exact hperm.eq_of_pairwise (fun a b _ _ hab hba => absurd hba (String.lt_asymm hab)) h h'

end Declarations

/-! ## The outcome -/

/-- Reachability is exact if what is reachable is the least closed set, the others are all other
definitions in order, and the excluded implementers are the object types among them that list
something reachable as an interface, with what they list. -/
structure Reachability.Exact (r : Reachability) (ds : Declarations) (start : List String) :
    Prop where
  reachable : IsLeast {S | ds.ReferenceClosed start S} {name | r.contains name = true}
  sorted : r.unreachable.Pairwise (· < ·)
  unreachable : ∀ name, name ∈ r.unreachable ↔ ds.Defines name ∧ r.contains name = false
  excluded : ∀ name interfaces, Table.get? r.excludedImplementers name = some interfaces ↔
    ∃ d ∈ ds.definitions, ∃ o, d.name = name ∧ d.body = .object o ∧ r.contains name = false ∧
      interfaces ≠ [] ∧ interfaces = o.interfaces.filter r.contains

namespace Declarations

section Outcome

variable {ds : Declarations} {name : String}
variable {roots orphans : List String}

theorem contains_reachability :
    (ds.reachability roots orphans).contains name = true ↔
      name ∈ ds.explore [] (roots ++ orphans) := by
  simp [reachability, Reachability.contains]

theorem contains_iff_mem_reachable {r : Reachability} :
    r.contains name = true ↔ name ∈ r.reachable :=
  List.contains_iff_mem

theorem isLeast_reachability (hdistinct : (ds.definitions.map (·.name)).Nodup) :
    IsLeast {S | ds.ReferenceClosed (roots ++ orphans) S}
      {name | (ds.reachability roots orphans).contains name = true} := by
  simpa only [contains_reachability] using isLeast_explore hdistinct (roots ++ orphans)

theorem defines_of_reachable (hdistinct : (ds.definitions.map (·.name)).Nodup)
    (h : (ds.reachability roots orphans).contains name = true) : ds.Defines name :=
  (Frontier.initial.explore hdistinct).defined name (contains_reachability.1 h)

theorem pairwise_reachable (hdistinct : (ds.definitions.map (·.name)).Nodup) :
    (ds.reachability roots orphans).reachable.Pairwise (· < ·) :=
  pairwise_lt_mergeSort (Frontier.initial.explore hdistinct).distinct

theorem mem_unreachable :
    name ∈ (ds.reachability roots orphans).unreachable ↔
      ds.Defines name ∧ (ds.reachability roots orphans).contains name = false := by
  rw [← Bool.not_eq_true, contains_reachability]
  simp only [reachability, List.mem_mergeSort, List.mem_map, unvisited, List.mem_filter, Defines]
  constructor
  · rintro ⟨d, ⟨hd, hv⟩, rfl⟩
    exact ⟨⟨d, hd, rfl⟩, by simpa using hv⟩
  · rintro ⟨⟨d, hd, rfl⟩, hv⟩
    exact ⟨d, ⟨hd, by simpa using hv⟩, rfl⟩

theorem pairwise_unreachable (hdistinct : (ds.definitions.map (·.name)).Nodup) :
    (ds.reachability roots orphans).unreachable.Pairwise (· < ·) :=
  pairwise_lt_mergeSort (hdistinct.sublist (List.filter_sublist.map _))

/-- The reachable names among the interfaces that a type lists, if there are any. -/
def reachableInterfaces? (ds : Declarations) (r : Reachability) (name : String) :
    Option (List String) :=
  ((ds.find name).map fun d => d.interfaces.filter r.contains).filter (!·.isEmpty)

theorem excludedImplementers_eq :
    (ds.reachability roots orphans).excludedImplementers =
      (ds.reachability roots orphans).unreachable.filterMap fun name =>
        (ds.reachableInterfaces? (ds.reachability roots orphans) name).map (name, ·) := by
  have hcontains : (ds.explore [] (roots ++ orphans)).contains =
      (ds.reachability roots orphans).contains := by
    funext name
    rw [Bool.eq_iff_iff, contains_reachability, List.contains_iff_mem]
  change List.filterMap _ _ = List.filterMap _ _
  congr 1
  funext name
  rw [reachableInterfaces?, ← hcontains]
  rcases (ds.find name).map _ with _ | _ | ⟨i, is⟩ <;> rfl

theorem reachableInterfaces?_eq_some_iff {r : Reachability} {interfaces : List String} :
    ds.reachableInterfaces? r name = some interfaces ↔
      ∃ d, ds.find name = some d ∧ interfaces ≠ [] ∧
        interfaces = d.interfaces.filter r.contains := by
  rw [reachableInterfaces?, Option.filter_eq_some_iff]
  constructor
  · rintro ⟨hm, hne⟩
    obtain ⟨d, hd, rfl⟩ := Option.map_eq_some_iff.1 hm
    exact ⟨d, hd, by simpa using hne, rfl⟩
  · rintro ⟨d, hd, hne, rfl⟩
    exact ⟨Option.map_eq_some_iff.2 ⟨d, hd, rfl⟩, by simpa using hne⟩

/-- The object types that are left out are those that are not reachable but list something
reachable as an interface; they stand with what they list. -/
theorem get?_excludedImplementers (hdistinct : (ds.definitions.map (·.name)).Nodup)
    {interfaces : List String} :
    Table.get? (ds.reachability roots orphans).excludedImplementers name = some interfaces ↔
      ∃ d ∈ ds.definitions, ∃ o, d.name = name ∧ d.body = .object o ∧
        (ds.reachability roots orphans).contains name = false ∧ interfaces ≠ [] ∧
        interfaces = o.interfaces.filter (ds.reachability roots orphans).contains := by
  have hnodup : ((ds.reachability roots orphans).unreachable.map id).Nodup := by
    rw [List.map_id]
    exact (pairwise_unreachable hdistinct).imp String.ne_of_lt
  have hkeys : (Table.keys (ds.reachability roots orphans).excludedImplementers).Nodup := by
    rw [excludedImplementers_eq]
    exact Table.nodup_keys_filterMap hnodup
  rw [Table.get?_eq_some_iff hkeys, excludedImplementers_eq, List.mem_filterMap]
  constructor
  · rintro ⟨n, hn, h⟩
    obtain ⟨is, his, heq⟩ := Option.map_eq_some_iff.1 h
    obtain ⟨rfl, rfl⟩ := Prod.mk.inj heq
    obtain ⟨d, hd, hne, hfilter⟩ := reachableInterfaces?_eq_some_iff.1 his
    have hbody : ∃ o, d.body = .object o ∧ d.interfaces = o.interfaces := by
      rw [hfilter] at hne
      unfold Definition.interfaces at hne ⊢
      cases hb : d.body <;> simp_all
    obtain ⟨o, ho, hio⟩ := hbody
    exact ⟨d, mem_of_findDefinition hd, o, name_of_findDefinition hd, ho, (mem_unreachable.1 hn).2,
      hne, hio ▸ hfilter⟩
  · rintro ⟨d, hd, o, rfl, ho, hn, hne, hfilter⟩
    refine ⟨d.name, mem_unreachable.2 ⟨⟨d, hd, rfl⟩, hn⟩, Option.map_eq_some_iff.2
      ⟨interfaces, reachableInterfaces?_eq_some_iff.2
        ⟨d, findDefinition_of_mem hdistinct hd, hne, ?_⟩, rfl⟩⟩
    rw [hfilter, Definition.interfaces, ho]

/-! ## What reachability depends on -/

theorem find_perm {ds' : Declarations} (hdistinct : (ds.definitions.map (·.name)).Nodup)
    (hd : ds'.definitions.Perm ds.definitions) (name : String) : ds'.find name = ds.find name := by
  have hdistinct' : (ds'.definitions.map (·.name)).Nodup :=
    (hd.map (·.name)).nodup_iff.2 hdistinct
  refine Option.ext fun d => ?_
  rw [find, find, findDefinition_eq_some_iff hdistinct, findDefinition_eq_some_iff hdistinct',
    hd.mem_iff]

/-- Declarations that say the same of certain names, which include everything to start from and
with a name everything that its definition refers to. -/
structure Confined (N : Set String) (ds ds' : Declarations) (start : List String) : Prop where
  distinct : (ds.definitions.map (·.name)).Nodup
  distinct' : (ds'.definitions.map (·.name)).Nodup
  find : ∀ name ∈ N, ds'.find name = ds.find name
  effective : ∀ name ∈ N, ds'.fields.effective name = ds.fields.effective name
  starts : ∀ name ∈ start, name ∈ N
  refers : ∀ d ∈ ds.definitions, d.name ∈ N → ∀ name, ds.Refers d name → name ∈ N

namespace Confined

variable {N S : Set String} {ds' : Declarations} {start' : List String}

theorem defines_iff (h : Confined N ds ds' start) (hn : name ∈ N) :
    ds'.Defines name ↔ ds.Defines name := by
  rw [defines_iff_find, defines_iff_find, h.find name hn]

theorem refers_iff (h : Confined N ds ds' start) (hn : d.name ∈ N) :
    ds'.Refers d name ↔ ds.Refers d name := by
  rw [Refers, Refers, h.effective d.name hn]

theorem mem_definitions_iff (h : Confined N ds ds' start) (hn : d.name ∈ N) :
    d ∈ ds'.definitions ↔ d ∈ ds.definitions := by
  have hd : ds.find d.name = some d ↔ d ∈ ds.definitions ∧ d.name = d.name :=
    findDefinition_eq_some_iff h.distinct
  have hd' : ds'.find d.name = some d ↔ d ∈ ds'.definitions ∧ d.name = d.name :=
    findDefinition_eq_some_iff h.distinct'
  rw [h.find d.name hn] at hd'
  simpa using hd'.symm.trans hd

/-- Among these names the closed sets are the same. -/
theorem referenceClosed_iff (h : Confined N ds ds' start)
    (hstart : ∀ name, name ∈ start' ↔ name ∈ start) (hS : ∀ name ∈ S, name ∈ N) :
    ds'.ReferenceClosed start' S ↔ ds.ReferenceClosed start S := by
  constructor
  · intro hclosed
    refine ⟨fun n hn hdef => hclosed.start n ((hstart n).2 hn) ?_, ?_⟩
    · exact (h.defines_iff (h.starts n hn)).2 hdef
    · intro d hd hmem n hr hdef
      have hdN := hS d.name hmem
      exact hclosed.step d ((h.mem_definitions_iff hdN).2 hd) hmem n
        ((h.refers_iff hdN).2 hr) ((h.defines_iff (h.refers d hd hdN n hr)).2 hdef)
  · intro hclosed
    refine ⟨fun n hn hdef => hclosed.start n ((hstart n).1 hn) ?_, ?_⟩
    · exact (h.defines_iff (h.starts n ((hstart n).1 hn))).1 hdef
    · intro d hd hmem n hr hdef
      have hdN := hS d.name hmem
      have hd := (h.mem_definitions_iff hdN).1 hd
      have hr := (h.refers_iff hdN).1 hr
      exact hclosed.step d hd hmem n hr ((h.defines_iff (h.refers d hd hdN n hr)).1 hdef)

/-- The search visits the same names. -/
theorem mem_explore_iff (h : Confined N ds ds' start)
    (hstart : ∀ name, name ∈ start' ↔ name ∈ start) :
    name ∈ ds'.explore [] start' ↔ name ∈ ds.explore [] start := by
  have hleast := isLeast_explore h.distinct start
  have hleast' := isLeast_explore h.distinct' start'
  -- the names themselves are closed, so that both least sets are among them
  have hN : ds.ReferenceClosed start N :=
    ⟨fun n hn _ => h.starts n hn, fun d hd hmem n hr _ => h.refers d hd hmem n hr⟩
  have hvisited : ∀ n ∈ ds.explore [] start, n ∈ N := fun n hn => hleast.2 hN hn
  have hclosed' := (h.referenceClosed_iff hstart hvisited).2 hleast.1
  have hsub : ∀ n ∈ ds'.explore [] start', n ∈ ds.explore [] start :=
    fun n hn => hleast'.2 hclosed' hn
  have hclosed := (h.referenceClosed_iff hstart
    fun n hn => hvisited n (hsub n hn)).1 hleast'.1
  exact ⟨hsub name, fun hn => hleast.2 hclosed hn⟩

/-- What is reachable is the same. -/
theorem reachable_eq {roots' orphans' : List String}
    (h : Confined N ds ds' (roots ++ orphans))
    (hstart : ∀ name, name ∈ roots' ++ orphans' ↔ name ∈ roots ++ orphans) :
    (ds'.reachability roots' orphans').reachable = (ds.reachability roots orphans).reachable := by
  refine increasing_ext (pairwise_reachable h.distinct') (pairwise_reachable h.distinct) fun n => ?_
  rw [← contains_iff_mem_reachable, ← contains_iff_mem_reachable, contains_reachability,
    contains_reachability, h.mem_explore_iff hstart]

end Confined

/-- Reachability is said by what every name stands for, the composed fields of every owner, and the
set of starts. -/
theorem reachability_eq_of_find {ds' : Declarations} {roots' orphans' : List String}
    (hdistinct : (ds.definitions.map (·.name)).Nodup)
    (hdistinct' : (ds'.definitions.map (·.name)).Nodup) (hfind : ds'.find = ds.find)
    (heffective : ∀ owner, ds'.fields.effective owner = ds.fields.effective owner)
    (hstart : ∀ name, name ∈ roots' ++ orphans' ↔ name ∈ roots ++ orphans) :
    ds'.reachability roots' orphans' = ds.reachability roots orphans := by
  have hconfined : Confined Set.univ ds ds' (roots ++ orphans) :=
    ⟨hdistinct, hdistinct', fun n _ => congrFun hfind n, fun n _ => heffective n,
      fun _ _ => Set.mem_univ _, fun _ _ _ _ _ => Set.mem_univ _⟩
  have hreachable := hconfined.reachable_eq hstart
  have hcontains : (ds'.reachability roots' orphans').contains =
      (ds.reachability roots orphans).contains := by
    funext n
    rw [Reachability.contains, hreachable, ← Reachability.contains]
  have hunreachable : (ds'.reachability roots' orphans').unreachable =
      (ds.reachability roots orphans).unreachable := by
    refine increasing_ext (pairwise_unreachable hdistinct') (pairwise_unreachable hdistinct)
      fun n => ?_
    rw [mem_unreachable, mem_unreachable, hcontains, defines_iff_find, defines_iff_find, hfind]
  have hexcluded : (ds'.reachability roots' orphans').excludedImplementers =
      (ds.reachability roots orphans).excludedImplementers := by
    rw [excludedImplementers_eq, excludedImplementers_eq, hunreachable]
    simp only [reachableInterfaces?, hcontains, hfind]
  calc ds'.reachability roots' orphans'
      = ⟨(ds'.reachability roots' orphans').reachable,
          (ds'.reachability roots' orphans').unreachable,
          (ds'.reachability roots' orphans').excludedImplementers⟩ := rfl
    _ = ds.reachability roots orphans := by rw [hreachable, hunreachable, hexcluded]

/-- What is reachable depends on nothing but the set of starts and the set of definitions. -/
theorem reachability_perm {ds' : Declarations} {roots' orphans' : List String}
    (hdistinct : (ds.definitions.map (·.name)).Nodup)
    (hd : ds'.definitions.Perm ds.definitions) (hf : ds'.fields = ds.fields)
    (hr : roots'.Perm roots) (ho : orphans'.Perm orphans) :
    ds'.reachability roots' orphans' = ds.reachability roots orphans :=
  reachability_eq_of_find hdistinct ((hd.map (·.name)).nodup_iff.2 hdistinct)
    (funext (find_perm hdistinct hd)) (fun owner => by rw [hf])
    fun _ => (hr.append ho).mem_iff

/-- Reachability is exact, for definitions with distinct names, and the order of roots, orphans and
definitions does not matter. -/
theorem reachability_exact (hdistinct : (ds.definitions.map (·.name)).Nodup)
    (roots orphans : List String) :
    (ds.reachability roots orphans).Exact ds (roots ++ orphans) ∧
    ∀ (ds' : Declarations) (roots' orphans' : List String),
      ds'.definitions.Perm ds.definitions → ds'.fields = ds.fields → roots'.Perm roots →
      orphans'.Perm orphans → ds'.reachability roots' orphans' = ds.reachability roots orphans :=
  ⟨{ reachable := isLeast_reachability hdistinct
     sorted := pairwise_unreachable hdistinct
     unreachable := fun _ => mem_unreachable
     excluded := fun _ _ => get?_excludedImplementers hdistinct },
    fun _ _ _ => reachability_perm hdistinct⟩

end Outcome

/-- Two types that refer to each other, and one that is left out. -/
def cycle : Declarations where
  definitions := [
    ⟨"Query", none, .object { interfaces := ["Node"] }⟩,
    ⟨"Node", none, .interface { orphans := ["Query", "Ghost"] }⟩,
    ⟨"Draft", none, .object { interfaces := ["Ghost", "Node"] }⟩]

/-- What is only left out for want of a reference stands with the interface that it lists, and
the definitions may come in any order. -/
theorem reachability_cycle :
    (cycle.definitions.map (·.name)).Nodup ∧
    Table.get? (cycle.reachability ["Query", "Query"] ["Ghost"]).excludedImplementers "Draft" =
      some ["Node"] ∧
    Declarations.reachability ⟨cycle.definitions.reverse, cycle.fields⟩ ["Query", "Query"]
      ["Ghost"] = cycle.reachability ["Query", "Query"] ["Ghost"] := by
  have hdistinct : (cycle.definitions.map (·.name)).Nodup := by decide
  obtain ⟨hexact, horder⟩ := reachability_exact hdistinct ["Query", "Query"] ["Ghost"]
  have hclosed : cycle.ReferenceClosed _ _ := hexact.reachable.1
  have hquery : (cycle.reachability ["Query", "Query"] ["Ghost"]).contains "Query" = true :=
    hclosed.start "Query" (by simp) ⟨_, List.mem_cons_self, rfl⟩
  have hnode : (cycle.reachability ["Query", "Query"] ["Ghost"]).contains "Node" = true :=
    hclosed.step _ List.mem_cons_self hquery "Node" (.implements rfl (by simp))
      ⟨_, List.mem_cons_of_mem _ List.mem_cons_self, rfl⟩
  have hcycle : cycle.ReferenceClosed (["Query", "Query"] ++ ["Ghost"]) {"Query", "Node"} := by
    refine ⟨?_, ?_⟩
    · simp [cycle, Defines]
    · intro d hd hS n hr
      rw [← mem_references] at hr
      revert n
      simp only [cycle, List.mem_cons, List.not_mem_nil, or_false] at hd
      rcases hd with rfl | rfl | rfl
      · simp [references, effectiveReferences, Defines, cycle, FieldStore.effective,
          FieldStore.declared, Table.get?, Table.values]
      · simp [references, effectiveReferences, Defines, cycle, FieldStore.effective,
          FieldStore.declared, Table.get?, Table.values]
      · simp at hS
  have hother (n : String) (hn : n ≠ "Query" ∧ n ≠ "Node") :
      (cycle.reachability ["Query", "Query"] ["Ghost"]).contains n = false :=
    Bool.eq_false_iff.2 fun h => by simpa [hn] using hexact.reachable.2 hcycle h
  have hdraft : cycle.definitions[2] ∈ cycle.definitions := List.getElem_mem _
  have hinterfaces : ["Node"] = ["Ghost", "Node"].filter
      (cycle.reachability ["Query", "Query"] ["Ghost"]).contains := by
    simp [hnode, hother "Ghost" (by decide)]
  refine ⟨hdistinct, (hexact.excluded _ _).2
      ⟨_, hdraft, _, rfl, rfl, hother _ (by decide), by simp, hinterfaces⟩,
    horder _ _ _ (List.reverse_perm _) rfl (List.Perm.refl _) (List.Perm.refl _)⟩

end Declarations

end GraphSchema
