import GraphSchema.Proofs.Composition.Contract
import GraphSchema.Proofs.Schema.Tables

/-!
# References of a built schema

The build has checked every reference, over the fields that definitions declare. The composed
fields that a schema shows are among these, so whatever a type of the schema refers to is defined
and reachable.

## Main definitions

* `Declarations.Admits` — whether a name may stand in a position.
* `Definition.fields` — the fields that a definition declares.
* `Declarations.FieldAdmitted` — whether all types of a field may stand where they do.

## Main statements

* `Schema.BuiltFrom.exists_fulfilling` — composed fields satisfy the fields of interfaces.
* `Schema.BuiltFrom.exists_declaring` — composed fields are declared by some definition.
* `Schema.BuiltFrom.exists_of_refers` — every reference of a definition is defined.
* `Schema.BuiltFrom.reachable_of_refers` — and reachable if the definition is.
-/

namespace GraphSchema

/-- The fields that a definition declares. -/
def Definition.fields (d : Definition) : List Field :=
  match d.body with
  | .interface i => i.fields
  | .object o => o.fields
  | _ => []

namespace Declarations

/-- Whether a name is that of a type which may stand in a position. -/
def Admits (ds : Declarations) (position : Position) (name : String) : Prop :=
  ∃ d, ds.find name = some d ∧ position.admits d.kind = true

/-- Whether the type of a field and those of its arguments may stand where they do. -/
structure FieldAdmitted (ds : Declarations) (f : Field) : Prop where
  type : ds.Admits .output f.type.innermost
  arguments : ∀ a ∈ f.arguments, ds.Admits .input a.type.innermost

variable {ds : Declarations} {name : String} {d : Definition}

/-! ## What the checks mean -/

theorem expect_eq_nil_iff {position : Position} {place : Reference} :
    ds.expect name position place = [] ↔ ds.Admits position name := by
  unfold expect Admits
  cases ds.find name with
  | none => simp
  | some d => simp

theorem fieldErrors_eq_nil_iff {owner : String} {f : Field} :
    ds.fieldErrors owner f = [] ↔ ds.FieldAdmitted f := by
  rw [fieldErrors, List.append_eq_nil_iff, List.flatMap_eq_nil_iff, expect_eq_nil_iff]
  simp only [expect_eq_nil_iff]
  exact ⟨fun h => ⟨h.1, h.2⟩, fun h => ⟨h.type, h.arguments⟩⟩

theorem fieldAdmitted_of_definitionErrors (h : ds.definitionErrors d = []) {f : Field}
    (hf : f ∈ d.fields) : ds.FieldAdmitted f := by
  unfold definitionErrors Definition.fields at *
  cases hb : d.body with
  | interface i =>
    simp only [hb, List.append_eq_nil_iff, List.flatMap_eq_nil_iff] at h hf
    exact fieldErrors_eq_nil_iff.1 (h.1 f hf)
  | object o =>
    simp only [hb, List.flatMap_eq_nil_iff] at h hf
    exact fieldErrors_eq_nil_iff.1 (h f hf)
  | scalar | enum | inputObject | union => simp [hb] at hf

/-- The names among which no interface is repeated, missing or of another kind. -/
theorem interface_of_interfaceErrors {type : String} {names : List String} :
    ∀ {seen : List String}, ds.interfaceErrors type seen names = [] → ∀ n ∈ names,
      ∃ d, ds.find n = some d ∧ d.kind = .interface := by
  -- what has been seen only grows, and a name that has been seen is an error
  induction names with
  | nil => simp
  | cons name names ih =>
    intro seen h n hn
    unfold interfaceErrors at h
    split at h
    · cases h
    · obtain ⟨hname, hrest⟩ := List.append_eq_nil_iff.1 h
      rcases List.mem_cons.1 hn with rfl | hn
      · cases hd : ds.find n with
        | none => simp [hd] at hname
        | some d =>
          refine ⟨d, rfl, ?_⟩
          by_contra hk
          simp [hd, hk] at hname
      · exact ih hrest n hn

/-! ## Composed fields -/

/-- Every composed field is declared by some definition. -/
theorem Coherent.exists_declaring (hc : ds.Coherent) (hd : d ∈ ds.definitions)
    {o : ObjectType} (ho : d.body = .object o) {found : Field}
    (hf : Table.get? (ds.compose d.name o).fields name = some found) :
    ∃ e ∈ ds.definitions, found ∈ e.fields := by
  rw [hc.get?_compose_fields hd ho] at hf
  rcases ObjectType.mem_of_composedField? hf with hown | ⟨i, hi, hinherited⟩
  · exact ⟨d, hd, by simpa only [Definition.fields, ho] using hown⟩
  · obtain ⟨_, -, e, he, hbody⟩ := exists_of_mem_interfacesOf hi
    exact ⟨e, mem_of_findDefinition he, by simpa only [Definition.fields, hbody] using hinherited⟩

end Declarations

/-! ## Built schemas -/

theorem Roots.mem_names {r : Roots} {name : String} :
    name ∈ r.names ↔ ∃ role, r.type? role = some name := by
  rw [names, List.mem_filterMap]
  refine exists_congr fun role => and_iff_right ?_
  cases role <;> decide

namespace Schema.BuiltFrom

variable {s : Schema} {r : Registry} {d : Definition} {name : String}

theorem referenceErrors_eq_nil (h : s.BuiltFrom r) : r.referenceErrors = [] :=
  (List.append_eq_nil_iff.1 (List.append_eq_nil_iff.1 h.violations).1).2

theorem admits_root (h : s.BuiltFrom r) {role : Role} (hr : s.roots.type? role = some name) :
    r.declarations.Admits .object name := by
  have herrors := (List.append_eq_nil_iff.1 h.referenceErrors_eq_nil).1
  rw [h.roots, Declarations.rootErrors, List.append_eq_nil_iff, List.flatMap_eq_nil_iff] at herrors
  have hrole := herrors.1 role (by cases role <;> decide)
  simp only [hr] at hrole
  exact Declarations.expect_eq_nil_iff.1 hrole

theorem admits_schemaOrphan (h : s.BuiltFrom r) (hn : name ∈ s.roots.orphans) :
    r.declarations.Admits .object name := by
  have herrors := (List.append_eq_nil_iff.1 h.referenceErrors_eq_nil).1
  rw [h.roots, Declarations.rootErrors, List.append_eq_nil_iff, List.flatMap_eq_nil_iff,
    List.flatMap_eq_nil_iff] at herrors
  exact Declarations.expect_eq_nil_iff.1 (herrors.2 name hn)

theorem definitionErrors_eq_nil (h : s.BuiltFrom r) (hd : d ∈ r.declarations.definitions) :
    r.declarations.definitionErrors d = [] :=
  List.flatMap_eq_nil_iff.1 (List.append_eq_nil_iff.1 h.referenceErrors_eq_nil).2 d hd

theorem compose_errors_eq_nil (h : s.BuiltFrom r) {o : ObjectType}
    (hd : d ∈ r.declarations.definitions) (ho : d.body = .object o) :
    (r.declarations.compose d.name o).errors = [] := by
  refine List.flatMap_eq_nil_iff.1 (List.append_eq_nil_iff.1 h.violations).2 _ ?_
  exact List.mem_filterMap.2 ⟨d, hd, by rw [ho]⟩

theorem interface_of_mem (h : s.BuiltFrom r) {o : ObjectType}
    (hd : d ∈ r.declarations.definitions) (ho : d.body = .object o) (hn : name ∈ o.interfaces) :
    ∃ e, r.declarations.find name = some e ∧ e.kind = .interface :=
  Declarations.interface_of_interfaceErrors
    (List.append_eq_nil_iff.1 (h.compose_errors_eq_nil hd ho)).1 name hn

/-- The interfaces that a type names are defined, and those that it implements. -/
theorem exists_implemented (h : s.BuiltFrom r) {o : ObjectType}
    (hd : d ∈ r.declarations.definitions) (ho : d.body = .object o) (hn : name ∈ o.interfaces) :
    ∃ e ∈ r.declarations.definitions, e.name = name ∧ ∃ i, e.body = .interface i ∧
      ⟨name, i⟩ ∈ r.declarations.implemented o.interfaces := by
  obtain ⟨e, he, hk⟩ := h.interface_of_mem hd ho hn
  obtain ⟨i, hi⟩ := Definition.exists_interface hk
  refine ⟨e, mem_of_findDefinition he, name_of_findDefinition he, i, hi, ?_⟩
  exact List.mem_filterMap.2 ⟨name, List.mem_eraseDups.2 hn,
    Declarations.interface?_eq_some_iff.2 ⟨rfl, e, he, hi⟩⟩

/-- Every field of an interface has a composed field: the field itself, or one that satisfies it. -/
theorem exists_fulfilling (h : s.BuiltFrom r) {o : ObjectType}
    (hd : d ∈ r.declarations.definitions) (ho : d.body = .object o) {i : Declarations.Implemented}
    (hi : i ∈ r.declarations.implemented o.interfaces) {expected : Field}
    (he : expected ∈ i.body.fields) :
    ∃ found, Table.get? (s.fieldTable d.name) expected.name = some found ∧
      (found = expected ∨ r.declarations.Fulfills expected found) := by
  have herrors := (List.append_eq_nil_iff.1 (h.compose_errors_eq_nil hd ho)).2
  rw [h.fieldTable_object hd ho]
  exact h.coherent.exists_fulfilling hd ho hi (List.flatMap_eq_nil_iff.1 herrors i hi) he

theorem admits_member (h : s.BuiltFrom r) {u : UnionType}
    (hd : d ∈ r.declarations.definitions) (hu : d.body = .union u) (hn : name ∈ u.members) :
    r.declarations.Admits .object name := by
  have herrors := h.definitionErrors_eq_nil hd
  rw [Declarations.definitionErrors, hu] at herrors
  exact Declarations.expect_eq_nil_iff.1
    (List.flatMap_eq_nil_iff.1 (List.append_eq_nil_iff.1 herrors).2 name hn)

theorem admits_orphan (h : s.BuiltFrom r) {i : InterfaceType}
    (hd : d ∈ r.declarations.definitions) (hi : d.body = .interface i) (hn : name ∈ i.orphans) :
    r.declarations.Admits .object name := by
  have herrors := h.definitionErrors_eq_nil hd
  rw [Declarations.definitionErrors, hi] at herrors
  exact Declarations.expect_eq_nil_iff.1
    (List.flatMap_eq_nil_iff.1 (List.append_eq_nil_iff.1 herrors).2 name hn)

theorem admits_input (h : s.BuiltFrom r) {inputs : List Argument} {a : Argument}
    (hd : d ∈ r.declarations.definitions) (hb : d.body = .inputObject inputs) (ha : a ∈ inputs) :
    r.declarations.Admits .input a.type.innermost := by
  have herrors := h.definitionErrors_eq_nil hd
  rw [Declarations.definitionErrors, hb] at herrors
  exact Declarations.expect_eq_nil_iff.1 (List.flatMap_eq_nil_iff.1 herrors a ha)

/-- Every composed field is declared by some definition. -/
theorem exists_declaring (h : s.BuiltFrom r) (hd : d ∈ r.declarations.definitions) {f : Field}
    (hf : f ∈ Table.values (s.fieldTable d.name)) :
    ∃ e ∈ r.declarations.definitions, f ∈ e.fields := by
  cases hb : d.body with
  | object o =>
    rw [h.fieldTable_object hd hb] at hf
    obtain ⟨⟨n, g⟩, hmem, rfl⟩ := List.mem_map.1 hf
    exact h.coherent.exists_declaring hd hb
      ((Table.get?_eq_some_iff (h.coherent.isTable_compose_fields hd hb).distinct).2 hmem)
  | interface i =>
    rw [h.fieldTable_interface hd hb, Field.values_table] at hf
    exact ⟨d, hd, by simpa only [Definition.fields, hb] using hf⟩
  | scalar | enum | inputObject | union =>
    simp [h.fieldTable, Declarations.finalFields, h.coherent.body?_of_mem hd, hb,
      Table.values] at hf

theorem fieldAdmitted (h : s.BuiltFrom r) (hd : d ∈ r.declarations.definitions) {f : Field}
    (hf : f ∈ Table.values (s.fieldTable d.name)) : r.declarations.FieldAdmitted f := by
  obtain ⟨e, he, hfe⟩ := h.exists_declaring hd hf
  exact Declarations.fieldAdmitted_of_definitionErrors (h.definitionErrors_eq_nil he) hfe

/-- Every reference of a definition is defined. -/
theorem exists_of_refers (h : s.BuiltFrom r) (hd : d ∈ r.declarations.definitions)
    (hr : d.Refers (Table.values (s.fieldTable d.name)) name) :
    ∃ e, r.declarations.find name = some e := by
  have hadmits {position : Position} {n : String} (ha : r.declarations.Admits position n) :
      ∃ e, r.declarations.find n = some e := ha.imp fun _ he => he.1
  cases hr with
  | fieldType _ hf => exact hadmits (h.fieldAdmitted hd hf).type
  | argumentType _ hf ha => exact hadmits ((h.fieldAdmitted hd hf).arguments _ ha)
  | implements ho hn => exact (h.interface_of_mem hd ho hn).imp fun _ he => he.1
  | orphan hi hn => exact hadmits (h.admits_orphan hd hi hn)
  | member hu hn => exact hadmits (h.admits_member hd hu hn)
  | inputField hb ha => exact hadmits (h.admits_input hd hb ha)

/-- Whatever a reachable definition refers to is defined and reachable. -/
theorem reachable_of_refers (h : s.BuiltFrom r) (hd : d ∈ r.declarations.definitions)
    (hreach : s.isReachable d.name = true)
    (hr : d.Refers (Table.values (s.fieldTable d.name)) name) :
    ∃ e ∈ r.declarations.definitions, e.name = name ∧ s.isReachable name = true := by
  obtain ⟨e, he⟩ := h.exists_of_refers hd hr
  have hmem := mem_of_findDefinition he
  obtain rfl := name_of_findDefinition he
  exact ⟨e, hmem, rfl, h.isReachable_of_refers hd hmem hreach hr⟩

end Schema.BuiltFrom

/-- The interface of the small run is visible by way of the query type. -/
theorem Registry.Sample.isReachable_node {s : Schema}
    (hs : (run {} operations).build.outcome = .ok s) : s.isReachable "Node" = true := by
  have hb := builtFrom_run hs
  obtain ⟨-, -, hr⟩ := hb.of_getType (getType_query hs)
  have hrefers : queryType.Refers (Table.values (s.fieldTable "Query")) "Node" :=
    .implements rfl (by decide)
  obtain ⟨-, -, -, hnode⟩ := hb.reachable_of_refers queryType_mem hr hrefers
  exact hnode

end GraphSchema
