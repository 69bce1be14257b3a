import GraphSchema.Proofs.Schema.Introspection

/-!
# The roots of a built schema

A build checks every root that bears a name: it is a reachable object type. Whether there is a
query root at all is not checked, so a schema is built for the empty name as well, and such a
schema has nothing that queries start from.

## Main definitions

* `Schema.HasRoots` — the query root and all other roots are there.

## Main statements

* `Schema.BuiltFrom.exists_object_of_root` — named roots are reachable object types.
* `Schema.BuiltFrom.hasRoots_iff` — the roots are there exactly if the query root bears a name.
* `Registry.run_hasRoots_iff` — the same after every run, said of what is given as the query root.
-/

namespace GraphSchema

/-- Whether a schema has its roots: the query root is a reachable object type, the type of queries
and the first of the root types; every other root is a reachable object type; and the schema can be
described. -/
structure Schema.HasRoots (s : Schema) : Prop where
  query : ∃ name d, s.roots.query = some name ∧ s.getType name = .ok d ∧ d.kind = .object ∧
    s.queryType = .ok d ∧ ∃ others, s.rootTypes = .ok (d :: others)
  roots : ∀ name ∈ s.roots.names, ∃ d, s.getType name = .ok d ∧ d.kind = .object
  described : ∃ info, s.introspect = .ok info

/-! ## The names of roots -/

namespace Roots

variable {r : Roots} {name : String}

theorem ne_empty_of_mem_names (h : name ∈ r.names) : name ≠ "" := by
  obtain ⟨role, hr⟩ := mem_names.1 h
  cases role <;> simpa using (Option.filter_eq_some_iff.1 hr).2

theorem type?_query_eq_some_iff :
    r.type? .query = some name ↔ r.query = some name ∧ name ≠ "" := by
  rw [type?, Option.filter_eq_some_iff, decide_eq_true_eq]

theorem names_of_query (h : r.type? .query = some name) :
    r.names = name :: [Role.mutation, Role.subscription].filterMap r.type? :=
  List.filterMap_cons_some h

end Roots

/-! ## Built schemas -/

/-- Without a definition of the query root there is no description. -/
theorem Schema.introspect_of_missing_query {s : Schema} (h : s.roots.query.bind s.find = none) :
    s.introspect = .error (.missingKey (.ofOption s.roots.query)) := by
  rw [introspect, namedInfo, definition, h]
  rfl

namespace Schema.BuiltFrom

variable {s : Schema} {r : Registry} {name : String}

/-- Named roots are reachable object types. -/
theorem exists_object_of_root (h : s.BuiltFrom r) (hn : name ∈ s.roots.names) :
    ∃ d, s.getType name = .ok d ∧ d.kind = .object := by
  obtain ⟨role, hr⟩ := Roots.mem_names.1 hn
  obtain ⟨d, hd, hk⟩ := h.admits_root hr
  obtain ⟨e, he, hen⟩ := h.names_of_root hr
  obtain ⟨hmem, hreach⟩ := h.mem_reachableTypes.1 he
  have hde : d = e := by
    rw [← hen, h.coherent.find_of_mem hmem] at hd
    exact (Option.some.inj hd).symm
  subst hde
  refine ⟨d, hen ▸ h.getType_of_reachable hmem hreach, ?_⟩
  simpa [Position.admits, Position.kinds] using hk

/-- A schema has its roots exactly if its query root bears a name. -/
theorem hasRoots_iff (h : s.BuiltFrom r) :
    s.HasRoots ↔ ∃ name, s.roots.query = some name ∧ name ≠ "" := by
  obtain ⟨types, htypes, hnames, hmem⟩ := h.exists_rootTypes_map
  constructor
  · intro hroots
    obtain ⟨name, d, hquery, hd, -, -, others, hfirst⟩ := hroots.query
    obtain ⟨-, rfl, -⟩ := h.of_getType hd
    -- the first of the root types bears one of the names of roots, none of which is empty
    obtain rfl : types = d :: others := Except.ok.inj (htypes.symm.trans hfirst)
    refine ⟨d.name, hquery, Roots.ne_empty_of_mem_names (r := s.roots) ?_⟩
    rw [← hnames, List.map_cons]
    exact List.mem_cons_self
  · rintro ⟨name, hquery, hne⟩
    have hq : s.roots.type? .query = some name := Roots.type?_query_eq_some_iff.2 ⟨hquery, hne⟩
    rw [Roots.names_of_query hq] at hnames
    obtain ⟨d, others, rfl, rfl, -⟩ := List.map_eq_cons_iff.1 hnames
    have hd := (h.mem_reachableTypes.1 (hmem d List.mem_cons_self)).1
    obtain ⟨e, he, hk⟩ := h.exists_object_of_root (Roots.mem_names.2 ⟨_, hq⟩)
    obtain ⟨hemem, hen, -⟩ := h.of_getType he
    obtain rfl : e = d := h.coherent.eq_of_name_eq hd hemem hen
    obtain ⟨info, hinfo, -⟩ := h.exists_introspect hq
    exact {
      query := ⟨e.name, e, hquery, he, hk, by rw [queryType, hquery, h.definition_of_mem hd],
        others, htypes⟩
      roots := fun _ hn => h.exists_object_of_root hn
      described := ⟨info, hinfo⟩ }

end Schema.BuiltFrom

/-! ## Runs -/

theorem RootSpecs.exists_query_iff {given : RootSpecs} {query : Option Spec} {roots : Roots}
    (h : given.toRoots query = .ok roots) :
    (∃ name, roots.query = some name ∧ name ≠ "") ↔
      ∃ spec name, query = some spec ∧ spec.typeName = .ok name ∧ name ≠ "" := by
  have hquery := query_of_toRoots h
  cases query with
  | none =>
    have hnone : none = roots.query := Except.ok.inj hquery
    simp [← hnone]
  | some spec =>
    rw [Option.mapM_some] at hquery
    cases hn : spec.typeName with
    | error e =>
      rw [hn] at hquery
      cases hquery
    | ok name =>
      rw [hn] at hquery
      have hname : some name = roots.query := Except.ok.inj hquery
      simp [← hname, hn]

namespace Registry

/-- What a schema that is built after any run has of its roots. They are given by a declaration of
the run. Every root that bears a name is a reachable object type, and the schema has its roots
exactly if the query root that is given stands for a name which is not empty. -/
theorem run_hasRoots_iff {settings : Settings} {ops : List Operation} {s : Schema}
    (hs : (run settings ops).build.outcome = .ok s) :
    (∀ name ∈ s.roots.names, ∃ d, s.getType name = .ok d ∧ d.kind = .object) ∧
    ∃ given query, .declareRoots given ∈ ops ∧ given.query = some query ∧
      given.toRoots query = .ok s.roots ∧
      (s.HasRoots ↔ ∃ spec name, query = some spec ∧ spec.typeName = .ok name ∧ name ≠ "") := by
  have hb := builtFrom_run hs
  obtain ⟨op, hop, given, query, rfl, hgiven, hroots⟩ := roots_run hb.roots
  refine ⟨fun _ hn => hb.exists_object_of_root hn, given, query, hop, hgiven, hroots, ?_⟩
  rw [hb.hasRoots_iff]
  exact RootSpecs.exists_query_iff hroots

/-- The small run gives a query root, and its schema has its roots. -/
theorem sample_hasRoots :
    ∃ s, (run {} Sample.operations).build.outcome = .ok s ∧ s.HasRoots := by
  obtain ⟨s, hs⟩ := Sample.exists_build
  obtain ⟨-, given, query, hop, hgiven, hroots, hiff⟩ := run_hasRoots_iff hs
  obtain rfl : given = { query := some (some (.text "Query")) } := by
    simpa [Sample.operations] using hop
  cases hgiven
  exact ⟨s, hs, hiff.2 ⟨_, "Query", rfl, rfl, by decide⟩⟩

/-! ## A schema without a query root -/

namespace Rootless

/-- An object type is declared, and the empty name is given as the query root. -/
def operations : List Operation := [
  .register ⟨"Query", none, .object { fields := [{ name := "version", type := .named "String" }] }⟩,
  .declareRoots { query := some (some (.text "")) }]

end Rootless

/-- A schema is built for the empty name. It lacks its roots, and it cannot be described. -/
theorem rootless_built :
    ∃ s, (run {} Rootless.operations).build.outcome = .ok s ∧
      s.introspect = .error (.missingKey (.str "")) ∧ ¬ s.HasRoots := by
  obtain ⟨s, hs⟩ : ∃ s, (run {} Rootless.operations).build.outcome = .ok s :=
    exists_build_of_violations rfl rfl
  have hb := builtFrom_run hs
  have hroots : s.roots = { query := some "" } := Option.some.inj hb.roots.symm
  have hfind : s.find "" = none := hb.find_eq
  have hintrospect : s.introspect = .error (.missingKey (.str "")) := by
    rw [Schema.introspect_of_missing_query (by rw [hroots, Option.bind_some, hfind]), hroots]
    rfl
  refine ⟨s, hs, hintrospect, fun h => ?_⟩
  obtain ⟨info, hinfo⟩ := h.described
  rw [hintrospect] at hinfo
  cases hinfo

end Registry

end GraphSchema
