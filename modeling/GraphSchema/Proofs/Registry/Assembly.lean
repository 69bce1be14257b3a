import GraphSchema.Proofs.Composition.Agreement
import GraphSchema.Proofs.Composition.Reference
import GraphSchema.Registry.Build

/-!
# Built schemas

What a schema has to do with the registry that it is built from: there are no violations, and the
tables of the schema are those that composition gives for every owner.

## Main definitions

* `Schema.BuiltFrom` — a schema as the outcome of a build.
* `Registry.Open`, `Registry.Closed` — registries before and after their schema is built.

## Main statements

* `Registry.composedStore_of_open` — an open store takes the final tables of all owners.
* `Registry.build_of_open` — how the build of an open registry ends.
-/

namespace GraphSchema

/-! ## Final tables -/

namespace Declarations

variable {ds : Declarations}

theorem Coherent.isTable_finalFields (h : ds.Coherent) (owner : String) :
    Field.IsTable (ds.finalFields owner) := by
  unfold finalFields body?
  cases hd : ds.find owner with
  | none => exact ⟨List.nodup_nil, by simp⟩
  | some d =>
    have hmem := mem_of_findDefinition hd
    obtain rfl := name_of_findDefinition hd
    cases hb : d.body with
    | object o => simpa [hb] using h.isTable_compose_fields hmem hb
    | interface i =>
      have hi := h.interface?_of_mem hmem hb
      simp only [Option.map_some, hb, h.interfaceFields hi]
      exact Field.isTable_table (h.distinct_interface hi)
    | scalar | enum | inputObject | union => simpa [hb] using ⟨List.nodup_nil, by simp⟩

end Declarations

namespace Registry

variable {r : Registry} {ν : Type}

/-- The tables of all owners, those of interfaces first. -/
def ownerTables (r : Registry) (ofInterface : Declarations.Implemented → ν)
    (ofObject : Composition → ν) : Table String ν :=
  (r.interfaces.map fun i => (i.name, ofInterface i)) ++
    r.declarations.compositions.map fun c => (c.typeName, ofObject c)

/-- What an owner has among the tables of all owners. -/
def ownerTable? (r : Registry) (ofInterface : Declarations.Implemented → ν)
    (ofObject : Composition → ν) (owner : String) : Option ν :=
  match r.declarations.body? owner with
  | some (.interface i) => some (ofInterface ⟨owner, i⟩)
  | some (.object o) => some (ofObject (r.declarations.compose owner o))
  | _ => none

section OwnerTables

variable {ofInterface : Declarations.Implemented → ν} {ofObject : Composition → ν}

/-- The part of the tables that the definition of an interface gives. -/
private def interfacePart (ofInterface : Declarations.Implemented → ν) (d : Definition) :
    Option ν :=
  match d.body with
  | .interface i => some (ofInterface ⟨d.name, i⟩)
  | _ => none

private def objectPart (r : Registry) (ofObject : Composition → ν) (d : Definition) : Option ν :=
  match d.body with
  | .object o => some (ofObject (r.declarations.compose d.name o))
  | _ => none

private theorem ownerTables_eq :
    r.ownerTables ofInterface ofObject =
      (r.declarations.definitions.filterMap fun d =>
        (interfacePart ofInterface d).map fun v => (d.name, v)) ++
      r.declarations.definitions.filterMap fun d =>
        (objectPart r ofObject d).map fun v => (d.name, v) := by
  simp only [ownerTables, interfaces, Declarations.compositions, List.map_filterMap]
  congr 2
  · funext d
    unfold interfacePart
    cases d.body <;> rfl
  · funext d
    unfold objectPart
    cases d.body <;> rfl

theorem get?_ownerTables (h : r.declarations.Coherent) {owner : String} :
    Table.get? (r.ownerTables ofInterface ofObject) owner =
      r.ownerTable? ofInterface ofObject owner := by
  rw [ownerTables_eq, Table.get?_append, Table.get?_filterMap h.distinct,
    Table.get?_filterMap h.distinct, ownerTable?, Declarations.body?]
  change ((r.declarations.find owner).bind _).or ((r.declarations.find owner).bind _) = _
  cases hd : r.declarations.find owner with
  | none => rfl
  | some d =>
    obtain rfl := name_of_findDefinition hd
    simp only [Option.bind_some, Option.map_some, interfacePart, objectPart]
    cases d.body <;> rfl

theorem nodup_keys_ownerTables (h : r.declarations.Coherent) :
    (Table.keys (r.ownerTables ofInterface ofObject)).Nodup := by
  rw [ownerTables_eq, Table.keys_append, List.nodup_append]
  refine ⟨Table.nodup_keys_filterMap h.distinct, Table.nodup_keys_filterMap h.distinct, ?_⟩
  rintro a ha b hb rfl
  rw [← Table.contains_iff_mem_keys, Table.contains, Table.get?_filterMap h.distinct] at ha hb
  cases hd : r.declarations.definitions.find? (fun d => d.name == a) with
  | none => simp [hd] at ha
  | some d =>
    simp only [hd, Option.bind_some, interfacePart, objectPart] at ha hb
    cases hbody : d.body <;> simp [hbody] at ha hb

end OwnerTables

/-! ## The composed store -/

/-- An open store takes composed tables: each owner then has its own, and the declared fields stay
as they are. -/
theorem foldlM_setEffective {tables : Table String (Table String Field)} {store : FieldStore}
    (hk : (Table.keys tables).Nodup) (ht : ∀ e ∈ tables, Field.IsTable e.2)
    (ho : store.frozen = false) :
    ∃ store', tables.foldlM (fun s e => s.setEffective e.1 (Table.values e.2)) store =
        Except.ok store' ∧
      store'.frozen = false ∧
      (∀ owner layer, layer ≠ .effective →
        store'.declared owner layer = store.declared owner layer) ∧
      ∀ owner, store'.effective owner =
        (Table.get? tables owner).getD (store.effective owner) := by
  induction tables generalizing store with
  | nil => exact ⟨store, rfl, ho, fun _ _ _ => rfl, fun _ => rfl⟩
  | cons e tables ih =>
    obtain ⟨he, hk⟩ := List.nodup_cons.1 hk
    obtain ⟨next, hnext, hopen, hset⟩ :=
      FieldStore.setEffective_of_open ho e.1 (Table.values e.2)
    obtain ⟨last, hlast, hopen', hdeclared, heffective⟩ :=
      ih hk (fun x hx => ht x (List.mem_cons_of_mem _ hx)) hopen
    refine ⟨last, ?_, hopen', fun owner layer hl => ?_, fun owner => ?_⟩
    · rw [List.foldlM_cons, hnext]
      exact hlast
    · rw [hdeclared owner layer hl, hset, if_neg]
      intro heq
      exact hl (Prod.mk.inj heq).2.symm
    · rw [heffective, Table.get?, FieldStore.effective, hset]
      by_cases h : e.1 = owner
      · subst h
        rw [Table.get?_eq_none_iff.2 he, if_pos rfl, if_pos rfl]
        exact (ht e List.mem_cons_self).ofList_values
      · rw [if_neg h, if_neg fun heq => h (Prod.mk.inj heq).1]
        rfl

/-- An open store takes the final tables of all owners. -/
theorem composedStore_of_open (hc : r.declarations.Coherent)
    (hopen : r.declarations.fields.frozen = false)
    (hempty : ∀ owner, r.declarations.fields.effective owner = []) :
    ∃ store, r.composedStore = .ok store ∧
      r.declarations.SameDeclared { r.declarations with fields := store } ∧
      ∀ owner, store.effective owner = r.declarations.finalFields owner := by
  have hlookup (owner : String) : (Table.get? r.effectiveTables owner).getD [] =
      r.declarations.finalFields owner := by
    change (Table.get? (r.ownerTables r.declarations.interfaceFields (·.fields)) owner).getD [] = _
    rw [get?_ownerTables hc, ownerTable?, Declarations.finalFields]
    cases r.declarations.body? owner with
    | none => rfl
    | some body => cases body <;> rfl
  have hdistinct : (Table.keys r.effectiveTables).Nodup := nodup_keys_ownerTables hc
  have htables : ∀ e ∈ r.effectiveTables, Field.IsTable e.2 := by
    intro e he
    have hfinal := hlookup e.1
    rw [(Table.get?_eq_some_iff hdistinct).2 he, Option.getD_some] at hfinal
    exact hfinal ▸ hc.isTable_finalFields e.1
  obtain ⟨store, hstore, -, hdeclared, heffective⟩ :=
    foldlM_setEffective hdistinct htables hopen
  refine ⟨store, hstore, ⟨rfl, hdeclared⟩, fun owner => ?_⟩
  rw [heffective, hempty, hlookup]

end Registry

/-! ## Schemas -/

/-- A schema as the outcome of a build: there are no violations, and its tables are the final
ones. Reachability has been decided over these tables. -/
structure Schema.BuiltFrom (s : Schema) (r : Registry) : Prop where
  coherent : r.declarations.Coherent
  violations : r.violations = []
  roots : r.roots = some s.roots
  settings : s.settings = r.settings
  definitions : s.definitions = r.declarations.definitions
  fieldTable : ∀ owner, s.fieldTable owner = r.declarations.finalFields owner
  behaviorTable : ∀ owner, s.behaviorTable owner = r.declarations.finalBehaviors owner
  reachability : ∃ store : FieldStore, (∀ owner, store.effective owner = s.fieldTable owner) ∧
    s.reachability = Declarations.reachability ⟨s.definitions, store⟩ s.roots.names s.roots.orphans

namespace Registry

variable {r : Registry} {roots : Roots} {store : FieldStore}

/-- Only object types and interfaces have fields in the end. -/
theorem finalFields_eq_nil {owner : String}
    (h : ∀ d ∈ r.declarations.definitions, d.name = owner → d.hasFields = false) :
    r.declarations.finalFields owner = [] := by
  unfold Declarations.finalFields Declarations.body?
  cases hd : r.declarations.find owner with
  | none => rfl
  | some d =>
    have hf := h d (mem_of_findDefinition hd) (name_of_findDefinition hd)
    cases hb : d.body <;> simp_all [Definition.hasFields, Definition.kind, TypeBody.kind]

theorem fieldTable_assemble
    (hstore : ∀ owner, store.effective owner = r.declarations.finalFields owner)
    (owner : String) :
    (r.assemble roots store).fieldTable owner = r.declarations.finalFields owner := by
  unfold Schema.fieldTable
  cases ht : Table.get? (r.assemble roots store).fields owner with
  | some t =>
    obtain ⟨d, -, he⟩ := List.mem_map.1 (Table.mem_of_get?_eq_some ht)
    obtain ⟨rfl, rfl⟩ := Prod.mk.inj he
    exact hstore d.name
  | none =>
    refine (finalFields_eq_nil fun d hd hn => Bool.eq_false_iff.2 fun hf => ?_).symm
    refine Table.get?_eq_none_iff.1 ht (List.mem_map.2 ⟨_, List.mem_map.2 ⟨d, ?_, rfl⟩, hn⟩)
    exact List.mem_filter.2 ⟨hd, hf⟩

theorem behaviorTable_assemble (hc : r.declarations.Coherent) (owner : String) :
    (r.assemble roots store).behaviorTable owner = r.declarations.finalBehaviors owner := by
  change (Table.get? (r.ownerTables r.declarations.interfaceBehaviors (·.behaviors))
    owner).getD [] = _
  rw [get?_ownerTables hc, ownerTable?, Declarations.finalBehaviors]
  cases r.declarations.body? owner with
  | none => rfl
  | some body => cases body <;> rfl

end Registry

/-- What a schema is built from is said by the declarations, and not by composed fields. -/
theorem Schema.BuiltFrom.of_sameDeclared {s : Schema} {r r' : Registry} (h : s.BuiltFrom r)
    (hs : r.declarations.SameDeclared r'.declarations) (hroots : r'.roots = r.roots)
    (hsettings : r'.settings = r.settings) (hproblems : r'.problems = r.problems) :
    s.BuiltFrom r' where
  coherent := hs.coherent h.coherent
  violations := by
    rw [← h.violations, Registry.violations, Registry.violations, Registry.referenceErrors,
      Registry.referenceErrors, hproblems, hroots, hs.agree.rootErrors, hs.agree.definitionErrors,
      hs.definitions, hs.compositions]
  roots := hroots.trans h.roots
  settings := h.settings.trans hsettings.symm
  definitions := h.definitions.trans hs.definitions.symm
  fieldTable owner := by rw [hs.agree.agreeOn.finalFields (Set.mem_univ owner), h.fieldTable]
  behaviorTable owner := by
    rw [hs.agree.agreeOn.finalBehaviors (Set.mem_univ owner), h.behaviorTable]
  reachability := h.reachability

namespace Registry

variable {r : Registry}

/-! ## Builds -/

/-- A registry without a schema: its store is open, and nothing has been composed yet. -/
structure Open (r : Registry) : Prop where
  schema : r.schema = none
  coherent : r.declarations.Coherent
  frozen : r.declarations.fields.frozen = false
  effective : ∀ owner, r.declarations.fields.effective owner = []

/-- A registry with a schema: its store is closed and holds the fields of the schema. -/
structure Closed (r : Registry) (s : Schema) : Prop where
  schema : r.schema = some s
  coherent : r.declarations.Coherent
  frozen : r.declarations.fields.frozen = true
  effective : ∀ owner, r.declarations.fields.effective owner = s.fieldTable owner
  built : s.BuiltFrom r

/-- How the build of an open registry ends: without violations a schema is built and the registry
is closed over it, and otherwise the registry stays as it is. -/
theorem build_of_open (h : r.Open) :
    (∃ s, r.build.outcome = .ok s ∧ s.BuiltFrom r ∧ r.build.registry.Closed s) ∨
    (r.violations ≠ [] ∧ r.build.registry = r ∧
      r.build.outcome = .error (.violations r.violations)) := by
  obtain ⟨store, hstore, hsame, heffective⟩ :=
    composedStore_of_open h.coherent h.frozen h.effective
  unfold build
  rw [h.schema]
  cases hv : r.violations with
  | cons e es => exact .inr ⟨List.cons_ne_nil e es, rfl, rfl⟩
  | nil =>
    cases hr : r.roots with
    | none => simp [violations, referenceErrors, hr, Declarations.rootErrors] at hv
    | some roots =>
      have hbuilt : (r.assemble roots store).BuiltFrom r := {
        coherent := h.coherent
        violations := hv
        roots := hr
        settings := rfl
        definitions := rfl
        fieldTable := fieldTable_assemble heffective
        behaviorTable := behaviorTable_assemble h.coherent
        reachability :=
          ⟨store, fun owner => (heffective owner).trans (fieldTable_assemble heffective owner).symm,
            rfl⟩ }
      have hfinish : r.declarations.SameDeclared
          (r.finish (r.assemble roots store) store).declarations :=
        ⟨rfl, hsame.declared⟩
      refine .inl ⟨r.assemble roots store, by simp only [hstore], hbuilt, ?_⟩
      simp only [hstore]
      exact {
        schema := rfl
        coherent := hfinish.coherent h.coherent
        frozen := rfl
        effective := fun owner =>
          (heffective owner).trans (fieldTable_assemble heffective owner).symm
        built := hbuilt.of_sameDeclared hfinish rfl rfl rfl }

theorem build_of_closed {s : Schema} (h : r.Closed s) :
    r.build.outcome = .ok s ∧ r.build.registry = r := by
  unfold build
  rw [h.schema]
  exact ⟨rfl, rfl⟩

end Registry

end GraphSchema
