import GraphSchema.Proofs.Arguments
import GraphSchema.Proofs.Declarations.Violations
import GraphSchema.Proofs.Schema.Covariance
import GraphSchema.Proofs.TypeRef

/-!
# The contract of interfaces

What a composed field owes to the field of an interface, as a rule: a type that may stand for the
declared one, every argument with its type, and no further argument that has to be given. Where the
arguments of each field have distinct names, composition reports exactly the fields that break the
rule, in order.

## Main definitions

* `Declarations.Belongs` — the named types that belong to an abstract type.
* `Declarations.Meets` — the rule for two fields.
* `Composition.Keeps` — the rule for a composed type and the field of an interface.
* `Error.violation?` — the interface, the type and the field that an error of a contract names.

## Main statements

* `Declarations.incompatibility?_eq_none_iff_meets` — the check of two fields decides the rule.
* `Declarations.Coherent.violations_contractErrors` — what is reported of one interface.
* `Registry.run_contractViolations` — what is reported of a type after any run.
-/

namespace GraphSchema

/-- What an error says that is about a contract: the interface, the type, and the field. -/
def Error.violation? : Error → Option (String × String × String)
  | contractViolation interface type field _ => some (interface, type, field)
  | _ => none

namespace Declarations

/-- Whether a type belongs to an abstract type: it is an object type that lists the interface, or
the union lists it. -/
inductive Belongs (ds : Declarations) (type abstract : String) : Prop
  | implements {i : InterfaceType} {o : ObjectType} : ds.body? abstract = some (.interface i) →
      ds.body? type = some (.object o) → abstract ∈ o.interfaces → ds.Belongs type abstract
  | member {u : UnionType} : ds.body? abstract = some (.union u) → type ∈ u.members →
      ds.Belongs type abstract

/-- Whether a field keeps what the field of an interface promises. -/
structure Meets (ds : Declarations) (expected found : Field) : Prop where
  type : TypeRef.Sub ds.Belongs found.type expected.type
  arguments : ∀ a ∈ expected.arguments, ∃ b ∈ found.arguments, b.name = a.name ∧ b.type = a.type
  extra : ∀ b ∈ found.arguments, (∀ a ∈ expected.arguments, a.name ≠ b.name) → b.required = false

end Declarations

/-- Whether the composed field of the name keeps what the field of an interface promises. -/
def Composition.Keeps (c : Composition) (ds : Declarations) (expected : Field) : Prop :=
  ∃ found, Table.get? c.fields expected.name = some found ∧ ds.Meets expected found

namespace Declarations

variable {ds : Declarations} {d : Definition} {o : ObjectType} {i : Implemented}
  {expected found : Field} {abstract type : String}

/-! ## Two fields -/

theorem isPossible_iff_belongs : ds.isPossible abstract type = true ↔ ds.Belongs type abstract := by
  constructor
  · intro h
    rcases isPossible_cases h with ⟨i, o, hi, ho, hm⟩ | ⟨u, hu, hm⟩
    · exact .implements hi ho (List.contains_iff_mem.1 hm)
    · exact .member hu (List.contains_iff_mem.1 hm)
  · intro h
    cases h with
    | implements hi ho hm => simp [isPossible, hi, ho, hm]
    | member hu hm => simp [isPossible, hu, hm]

/-- Among distinct names the rule reads arguments as the check does. -/
theorem meets_iff_fulfills (h : (found.arguments.map (·.name)).Nodup) :
    ds.Meets expected found ↔ ds.Fulfills expected found := by
  have htype : found.type.isSubtype ds.isPossible expected.type = true ↔
      TypeRef.Sub ds.Belongs found.type expected.type :=
    TypeRef.isSubtype_iff_sub fun _ _ => isPossible_iff_belongs
  have hnone (name : String) : expected.argument? name = none ↔
      ∀ a ∈ expected.arguments, a.name ≠ name := by
    simp [Field.argument?]
  constructor
  · intro hm
    refine ⟨htype.2 hm.type, fun a ha => ?_, fun b hb hb' => hm.extra b hb ((hnone _).1 hb')⟩
    obtain ⟨b, hb, hname, ht⟩ := hm.arguments a ha
    exact ⟨b, hname ▸ Field.argument?_of_mem h hb, ht⟩
  · intro hf
    refine ⟨htype.1 hf.type, fun a ha => ?_, fun b hb hb' => hf.extra b hb ((hnone _).2 hb')⟩
    obtain ⟨b, hb, ht⟩ := hf.arguments a ha
    obtain ⟨hmem, hname⟩ := Field.argument?_eq_some hb
    exact ⟨b, hmem, hname, ht⟩

/-- The check of two fields finds nothing exactly if one meets the other. -/
theorem incompatibility?_eq_none_iff_meets (h : (found.arguments.map (·.name)).Nodup) :
    ds.incompatibility? expected found = none ↔ ds.Meets expected found :=
  incompatibility?_eq_none_iff.trans (meets_iff_fulfills h).symm

/-- A field with distinct arguments meets itself. -/
theorem meets_self {f : Field} (h : (f.arguments.map (·.name)).Nodup) : ds.Meets f f :=
  (meets_iff_fulfills h).2 (Field.fulfills_self h)

/-! ## One interface -/

/-- Implemented interfaces are told apart by their names. -/
theorem eq_of_name_implemented {names : List String} {j : Implemented}
    (hi : i ∈ ds.implemented names) (hj : j ∈ ds.implemented names) (h : i.name = j.name) :
    i = j := by
  have hfind := interface?_of_implemented hi
  rw [h, interface?_of_implemented hj] at hfind
  exact (Option.some.inj hfind).symm

/-- What is wrong with the names of interfaces is no matter of contracts. -/
theorem violations_interfaceErrors {names : List String} :
    ∀ {seen : List String},
      (ds.interfaceErrors type seen names).filterMap Error.violation? = [] := by
  induction names with
  | nil => exact fun {seen} => rfl
  | cons name names ih =>
    intro seen
    unfold interfaceErrors
    split
    · exact ih
    · rw [List.filterMap_append, ih, List.append_nil]
      split
      · rfl
      · split <;> rfl

namespace Coherent

open Classical in
/-- Of the fields of one interface exactly those are reported which the composed type does not keep.
An inherited field is not looked at, and is kept. -/
theorem violations_contractErrors (hc : ds.Coherent) (hd : d ∈ ds.definitions)
    (ho : d.body = .object o)
    (hdistinct : ∀ e ∈ ds.definitions, ∀ f ∈ e.fields, (f.arguments.map (·.name)).Nodup)
    (hi : i ∈ ds.implemented o.interfaces) :
    (ds.contractErrors d.name (ds.implemented o.interfaces) (ds.compose d.name o).fields
        i).filterMap Error.violation? =
      (i.body.fields.filter fun f => ¬ (ds.compose d.name o).Keeps ds f).map
        fun f => (i.name, d.name, f.name) := by
  have hiface := interface?_of_implemented hi
  rw [contractErrors, hc.interfaceFields hiface, Field.table, List.filterMap_map,
    List.filterMap_filterMap, ← List.filterMap_eq_map, List.filterMap_filter]
  refine List.filterMap_congr fun expected he => ?_
  obtain ⟨found, hfound⟩ := hc.exists_composed hd ho hi he
  obtain ⟨e, hmem, hfe⟩ := hc.exists_declaring hd ho hfound
  have hkeeps : (ds.compose d.name o).Keeps ds expected ↔ ds.Meets expected found := by
    simp [Composition.Keeps, hfound]
  by_cases hinherits : ds.inherits d.name (ds.implemented o.interfaces) i expected.name = true
  · have hsame : found = expected := by
      rw [hc.get?_of_inherits hd ho hi hinherits, hc.get?_interfaceFields hi he] at hfound
      exact (Option.some.inj hfound).symm
    subst hsame
    have hself : ds.Meets found found := meets_self (hdistinct e hmem found hfe)
    simp [hinherits, hkeeps, hself]
  · have hnone : ds.incompatibility? expected found = none ↔ ds.Meets expected found :=
      incompatibility?_eq_none_iff_meets (hdistinct e hmem found hfe)
    cases hreason : ds.incompatibility? expected found with
    | none => simp [hinherits, hfound, hreason, hkeeps, hnone.1 hreason]
    | some reason =>
      have hbreaks : ¬ ds.Meets expected found := by
        intro hm
        rw [hnone.2 hm] at hreason
        cases hreason
      simp [hinherits, hfound, hreason, hkeeps, hbreaks, Error.violation?]

open Classical in
/-- What composition reports of the contracts of a type. -/
theorem violations_compose (hc : ds.Coherent) (hd : d ∈ ds.definitions) (ho : d.body = .object o)
    (hdistinct : ∀ e ∈ ds.definitions, ∀ f ∈ e.fields, (f.arguments.map (·.name)).Nodup) :
    (ds.compose d.name o).errors.filterMap Error.violation? =
      (ds.implemented o.interfaces).flatMap fun i =>
        (i.body.fields.filter fun f => ¬ (ds.compose d.name o).Keeps ds f).map
          fun f => (i.name, d.name, f.name) := by
  change List.filterMap _ (ds.interfaceErrors d.name [] o.interfaces ++ _) = _
  rw [List.filterMap_append, violations_interfaceErrors, List.nil_append, List.filterMap_flatMap]
  exact List.flatMap_congr fun i hi => hc.violations_contractErrors hd ho hdistinct hi

/-- No field of an interface is named twice. -/
theorem nodup_violations (hc : ds.Coherent) {names : List String} {p : Field → Bool} :
    ((ds.implemented names).flatMap fun i =>
      (i.body.fields.filter p).map fun f => (i.name, type, f.name)).Nodup := by
  rw [List.nodup_flatMap]
  constructor
  · intro i hi
    have hfields := hc.distinct_interface (interface?_of_implemented hi)
    have hnames : ((i.body.fields.filter p).map (·.name)).Nodup :=
      hfields.sublist (List.filter_sublist.map _)
    exact List.Nodup.of_map (fun x => x.2.2) (by simpa [Function.comp_def] using hnames)
  · have hinterfaces : (ds.implemented names).Pairwise fun i j => i.name ≠ j.name :=
      List.pairwise_map.1 (nodup_name_implemented names)
    refine hinterfaces.imp fun {i j} hne x hi hj => hne ?_
    obtain ⟨f, -, rfl⟩ := List.mem_map.1 hi
    obtain ⟨g, -, hg⟩ := List.mem_map.1 hj
    simp only [Prod.mk.injEq] at hg
    exact hg.1.symm

end Coherent

end Declarations

/-! ## Runs -/

namespace Registry

open Classical in
/-- The errors of the composition of an object type that are about contracts, after any run: one for
each field of its interfaces that the composed type does not keep, in the order of the interfaces
and of their fields. A field that is inherited as it is breaks no contract. -/
theorem run_contractViolations (settings : Settings) (ops : List Operation) {d : Definition}
    {o : ObjectType} (hd : d ∈ (run settings ops).declarations.definitions)
    (ho : d.body = .object o)
    (hdistinct : ∀ e ∈ (run settings ops).declarations.definitions, ∀ f ∈ e.fields,
      (f.arguments.map (·.name)).Nodup) :
    ∃ c, (run settings ops).declarations.composition d = .ok c ∧
      c.errors.filterMap Error.violation? =
        ((run settings ops).declarations.implemented o.interfaces).flatMap (fun i =>
          (i.body.fields.filter fun f => ¬ c.Keeps (run settings ops).declarations f).map
            fun f => (i.name, d.name, f.name)) ∧
      (c.errors.filterMap Error.violation?).Nodup ∧
      ∀ i ∈ (run settings ops).declarations.implemented o.interfaces, ∀ f ∈ i.body.fields,
        Table.get? c.fields f.name = some f →
          (i.name, d.name, f.name) ∉ c.errors.filterMap Error.violation? := by
  have hc := (sound_run settings ops).coherent
  refine ⟨(run settings ops).declarations.compose d.name o, ?_, ?_⟩
  · rw [Declarations.composition, ho]
  rw [hc.violations_compose hd ho hdistinct]
  refine ⟨rfl, hc.nodup_violations, fun i hi f hf hinherited hmem => ?_⟩
  obtain ⟨j, hj, hmem⟩ := List.mem_flatMap.1 hmem
  obtain ⟨g, hg, hsame⟩ := List.mem_map.1 hmem
  simp only [Prod.mk.injEq, true_and] at hsame
  obtain ⟨hname, hfield⟩ := hsame
  obtain rfl : j = i := Declarations.eq_of_name_implemented hj hi hname
  obtain ⟨hg, hbroken⟩ := List.mem_filter.1 hg
  obtain rfl : g = f := List.inj_on_of_nodup_map
    (hc.distinct_interface (Declarations.interface?_of_implemented hi)) hg hf hfield
  obtain ⟨e, he, hfe⟩ := hc.exists_declaring hd ho hinherited
  exact of_decide_eq_true hbroken ⟨g, hinherited, Declarations.meets_self (hdistinct e he g hfe)⟩

/-! ## A broken contract -/

namespace Account

/-- An interface with an identifier, an owner of its own type, and a label. -/
def node : InterfaceType where
  fields := [
    { name := "id", type := .nonNull (.named "ID") },
    { name := "owner", type := .named "Node" },
    { name := "label", type := .named "String" }]

/-- An object type that narrows the owner and inherits the label, but allows the identifier to be
null. -/
def query : ObjectType where
  fields := [
    { name := "id", type := .named "ID" },
    { name := "owner", type := .nonNull (.named "Query") }]
  interfaces := ["Node"]

/-- Both are declared. -/
def operations : List Operation := [
  .register ⟨"Node", none, .interface node⟩,
  .register ⟨"Query", none, .object query⟩]

theorem query_mem : ⟨"Query", none, .object query⟩ ∈ (run {} operations).declarations.definitions :=
  List.mem_of_getElem? (i := 6) rfl

theorem distinct : ∀ e ∈ (run {} operations).declarations.definitions, ∀ f ∈ e.fields,
    (f.arguments.map (·.name)).Nodup := by
  have hdefinitions : (run {} operations).declarations.definitions = Definition.builtins ++
      [⟨"Node", none, .interface node⟩, ⟨"Query", none, .object query⟩] := rfl
  simp [hdefinitions, Definition.builtins, Definition.fields, node, query]

end Account

/-- The identifier is reported and nothing else, and the type does not keep it. -/
theorem account_contractViolations :
    (∀ e ∈ (run {} Account.operations).declarations.definitions, ∀ f ∈ e.fields,
      (f.arguments.map (·.name)).Nodup) ∧
    ∃ c, (run {} Account.operations).declarations.composition
        ⟨"Query", none, .object Account.query⟩ = .ok c ∧
      c.errors.filterMap Error.violation? = [("Node", "Query", "id")] ∧
      ∃ f ∈ Account.node.fields, f.name = "id" ∧
        ¬ c.Keeps (run {} Account.operations).declarations f := by
  obtain ⟨c, hc, hviolations, -, -⟩ :=
    run_contractViolations {} Account.operations Account.query_mem rfl Account.distinct
  have hreported : c.errors.filterMap Error.violation? = [("Node", "Query", "id")] := by
    obtain rfl := Except.ok.inj hc
    rfl
  refine ⟨Account.distinct, c, hc, hreported, ?_⟩
  have hmem : ("Node", "Query", "id") ∈ c.errors.filterMap Error.violation? := by simp [hreported]
  rw [hviolations] at hmem
  obtain ⟨i, hi, hmem⟩ := List.mem_flatMap.1 hmem
  obtain ⟨f, hf, hname⟩ := List.mem_map.1 hmem
  obtain ⟨hf, hbroken⟩ := List.mem_filter.1 hf
  have hnode : (run {} Account.operations).declarations.implemented Account.query.interfaces =
      [⟨"Node", Account.node⟩] := rfl
  rw [hnode, List.mem_singleton] at hi
  subst hi
  exact ⟨f, hf, (Prod.mk.inj (Prod.mk.inj hname).2).2, by simpa using hbroken⟩

end Registry

end GraphSchema
