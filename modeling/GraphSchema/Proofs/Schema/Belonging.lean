import GraphSchema.Proofs.Registry.Contracts
import GraphSchema.Proofs.Registry.Extension
import GraphSchema.Proofs.Schema.PossibleTypes

/-!
# Views of possible types

Which types belong to an abstract type is decided among the declarations while a schema is built,
and again among the reachable types of the schema. It is also read from both ends: an abstract type
lists its possible types, and an object type lists its interfaces. All of these agree.

## Main statements

* `Schema.BuiltFrom.isPossible_iff` — the decision of a schema is that of the declarations, among
  the reachable types.
* `Schema.BuiltFrom.mem_name_possibleTypes` — the list of possible types is that decision.
* `Schema.BuiltFrom.mem_possible_of_union` — the possible types of a visible union.
* `Schema.BuiltFrom.exists_lists` — both ends in a description.
* `Registry.run_possibleTypes` — all views, after any run.
-/

namespace GraphSchema

theorem Declarations.isPossible_congr {ds ds' : Declarations}
    (h : ds'.definitions = ds.definitions) {abstract type : String} :
    ds'.isPossible abstract type = ds.isPossible abstract type := by
  simp only [isPossible, body?, find, h]

namespace Schema.BuiltFrom

variable {s : Schema} {r : Registry} {d e : Definition} {abstract type : String}

/-! ## The decision -/

/-- A schema decides as the declarations do, but among the reachable types. -/
theorem isPossible_iff (h : s.BuiltFrom r) : s.isPossible abstract type = true ↔
    s.isReachable type = true ∧ r.declarations.isPossible abstract type = true := by
  constructor
  · intro hp
    rw [isPossible, h.map_body_find, h.map_body_find, Bool.and_eq_true] at hp
    refine ⟨hp.1, Declarations.isPossible_iff_belongs.2 ?_⟩
    split at hp
    · next o i ho hi => exact .implements hi ho (List.contains_iff_mem.1 hp.2)
    · next o u ho hu => exact .member hu (List.contains_iff_mem.1 hp.2)
    · exact absurd hp.2 Bool.false_ne_true
  · rintro ⟨hr, hp⟩
    exact h.isPossible_of_declared hr hp

theorem body?_of_reachable (h : s.BuiltFrom r) (hd : d ∈ s.reachableTypes) :
    r.declarations.body? d.name = some d.body :=
  h.coherent.body?_of_mem (h.mem_reachableTypes.1 hd).1

theorem isPossible_interface_iff (h : s.BuiltFrom r) {i : InterfaceType} {o : ObjectType}
    (hd : d ∈ s.reachableTypes) (ho : d.body = .object o) (he : e ∈ s.reachableTypes)
    (hi : e.body = .interface i) : s.isPossible e.name d.name = true ↔ e.name ∈ o.interfaces := by
  rw [isPossible, (h.mem_reachableTypes.1 hd).2, h.map_body_find, h.map_body_find,
    h.body?_of_reachable hd, h.body?_of_reachable he, ho, hi]
  exact List.contains_iff_mem

/-! ## The list -/

/-- The possible types are listed in the order of their names. -/
theorem pairwise_name_possibleTypes (h : s.BuiltFrom r) :
    ((s.possibleTypes abstract).map (·.name)).Pairwise (· < ·) :=
  h.pairwise_name_reachableTypes.sublist (List.filter_sublist.map _)

theorem mem_name_possibleTypes (h : s.BuiltFrom r) :
    type ∈ (s.possibleTypes abstract).map (·.name) ↔ s.isPossible abstract type = true := by
  constructor
  · intro hmem
    obtain ⟨d, hd, rfl⟩ := List.mem_map.1 hmem
    exact (mem_possibleTypes.1 hd).2
  · intro hp
    obtain ⟨hr, -⟩ := h.isPossible_iff.1 hp
    obtain ⟨d, hd, rfl⟩ := h.exists_of_reachable hr
    exact List.mem_map.2 ⟨d, mem_possibleTypes.2 ⟨h.mem_reachableTypes.2 ⟨hd, hr⟩, hp⟩, rfl⟩

/-- All members of a visible union are possible types: they are visible with it. -/
theorem mem_possible_of_union (h : s.BuiltFrom r) (hd : d ∈ s.reachableTypes) {u : UnionType}
    (hu : d.body = .union u) :
    type ∈ (s.possibleTypes d.name).map (·.name) ↔ type ∈ u.members := by
  have hbody := h.body?_of_reachable hd
  rw [h.mem_name_possibleTypes, h.isPossible_iff, Declarations.isPossible, hbody, hu]
  refine ⟨fun hp => List.contains_iff_mem.1 hp.2, fun hm => ⟨?_, List.contains_iff_mem.2 hm⟩⟩
  obtain ⟨hmem, hr⟩ := h.mem_reachableTypes.1 hd
  obtain ⟨-, -, -, hmember⟩ := h.reachable_of_refers hmem hr (.member hu hm)
  exact hmember

/-! ## Descriptions -/

/-- The description of an object type has its interfaces. -/
theorem interfaces_typeInfo (h : s.BuiltFrom r) (hd : d ∈ s.reachableTypes) {o : ObjectType}
    (ho : d.body = .object o) {t : TypeInfo} (ht : s.typeInfo d = .ok t) :
    t.interfaces = some (o.interfaces.map (.named .interface)) := by
  have hinterfaces : (o.interfaces.mapM fun name => s.namedInfo (some name)) =
      .ok (o.interfaces.map (.named .interface)) := by
    refine mapM_eq_ok_map fun name hn => ?_
    obtain ⟨e, he, hk⟩ := h.interface_of_mem (h.mem_reachableTypes.1 hd).1 ho hn
    obtain rfl := name_of_findDefinition he
    rw [h.namedInfo_of_mem (mem_of_findDefinition he), hk]
  rw [typeInfo, ho] at ht
  obtain ⟨fields, -, ht⟩ := exists_of_bind_eq_ok ht
  rw [hinterfaces] at ht
  obtain rfl := Except.ok.inj ht
  rfl

/-- The description of an interface has its possible types. -/
theorem possibleTypes_typeInfo (h : s.BuiltFrom r) {i : InterfaceType}
    (hi : d.body = .interface i) {t : TypeInfo} (ht : s.typeInfo d = .ok t) :
    t.possibleTypes =
      some (((s.possibleTypes d.name).map (·.name)).map (.named .object)) := by
  have hpossible : s.possibleInfo d.name =
      .ok (((s.possibleTypes d.name).map (·.name)).map (.named .object)) := by
    rw [possibleInfo, List.map_map]
    refine mapM_eq_ok_map fun e he => ?_
    obtain ⟨hget, hk⟩ := h.getType_of_possible he
    rw [h.namedInfo_of_mem (h.of_getType hget).1, hk]
    rfl
  rw [typeInfo, hi] at ht
  obtain ⟨fields, -, ht⟩ := exists_of_bind_eq_ok ht
  rw [hpossible] at ht
  obtain rfl := Except.ok.inj ht
  rfl

/-- In a description, an object type lists an interface exactly if the interface lists it. -/
theorem exists_lists (h : s.BuiltFrom r) {info : SchemaInfo} (hinfo : s.introspect = .ok info)
    {i t : TypeInfo} (hi : i ∈ info.types) (hik : i.kind = .interface) (ht : t ∈ info.types)
    (htk : t.kind = .object) :
    ∃ interfaces possible : List String,
      t.interfaces = some (interfaces.map (.named .interface)) ∧
      i.possibleTypes = some (possible.map (.named .object)) ∧
      (i.name ∈ interfaces ↔ t.name ∈ possible) := by
  obtain ⟨e, he, hie, hek, hiname, -⟩ := exists_of_mem_forall₂ (h.forall₂_introspect hinfo) hi
  obtain ⟨d, hd, htd, hdk, htname, -⟩ := exists_of_mem_forall₂ (h.forall₂_introspect hinfo) ht
  obtain ⟨body, hbody⟩ := Definition.exists_interface (hek.symm.trans hik)
  obtain ⟨o, ho⟩ := Definition.exists_object (hdk.symm.trans htk)
  refine ⟨_, _, h.interfaces_typeInfo hd ho htd, h.possibleTypes_typeInfo hbody hie, ?_⟩
  rw [hiname, htname, h.mem_name_possibleTypes, h.isPossible_interface_iff hd ho he hbody]

end Schema.BuiltFrom

/-! ## Runs -/

namespace Registry

/-- All views of the possible types of a schema that is built after a run agree. The schema decides
as any declarations with its definitions do, among the reachable types. The possible types of
whatever name are exactly the types that are decided to be, found under their names and in the order
of these, and those of a visible union are all its members. In the description of the schema, which
can be given if there is a query root and describes the visible types, an object type lists an
interface exactly if the interface lists it. -/
theorem run_possibleTypes {settings : Settings} {ops : List Operation} {s : Schema}
    (hs : (run settings ops).build.outcome = .ok s) :
    (∀ ds : Declarations, ds.definitions = s.definitions → ∀ abstract type,
      s.isPossible abstract type = true ↔
        s.isReachable type = true ∧ ds.isPossible abstract type = true) ∧
    (∀ abstract, ((s.possibleTypes abstract).map (·.name)).Pairwise (· < ·) ∧
      (∀ type, type ∈ (s.possibleTypes abstract).map (·.name) ↔
        s.isPossible abstract type = true) ∧
      ∀ d ∈ s.possibleTypes abstract, s.getType d.name = .ok d ∧ d.kind = .object) ∧
    (∀ d ∈ s.reachableTypes, ∀ u, d.body = .union u →
      ∀ type, type ∈ (s.possibleTypes d.name).map (·.name) ↔ type ∈ u.members) ∧
    (∀ query, s.roots.type? .query = some query → ∃ info, s.introspect = .ok info) ∧
    ∀ info, s.introspect = .ok info →
      info.types.map (fun t => (t.kind, t.name)) =
        s.reachableTypes.map (fun d => (d.kind, d.name)) ∧
      ∀ i ∈ info.types, i.kind = .interface → ∀ t ∈ info.types, t.kind = .object →
        ∃ interfaces possible : List String,
          t.interfaces = some (interfaces.map (.named .interface)) ∧
          i.possibleTypes = some (possible.map (.named .object)) ∧
          (i.name ∈ interfaces ↔ t.name ∈ possible) := by
  have hb := builtFrom_run hs
  refine ⟨fun ds hds abstract type => ?_, fun abstract => ?_, ?_, fun query hq => ?_, ?_⟩
  · rw [hb.isPossible_iff, Declarations.isPossible_congr (hds.trans hb.definitions)]
  · exact ⟨hb.pairwise_name_possibleTypes, fun _ => hb.mem_name_possibleTypes,
      fun _ => hb.getType_of_possible⟩
  · exact fun d hd u hu type => hb.mem_possible_of_union hd hu
  · obtain ⟨info, hinfo, -⟩ := hb.exists_introspect hq
    exact ⟨info, hinfo⟩
  · exact fun info hinfo => ⟨hb.map_types_introspect hinfo,
      fun i hi hik t ht htk => hb.exists_lists hinfo hi hik ht htk⟩

namespace Sample

/-- The small run with a further type that implements its interface. -/
def drafted : List Operation := operations ++ [draft].map .register

theorem exists_build_drafted : ∃ s, (run {} drafted).build.outcome = .ok s :=
  exists_build_of_violations rfl rfl

/-- The further type changes nothing in what is visible. -/
theorem isReachable_drafted {s s' : Schema} (hs : (run {} operations).build.outcome = .ok s)
    (hs' : (run {} drafted).build.outcome = .ok s') (name : String) :
    s'.isReachable name = s.isReachable name := by
  rw [Schema.isReachable, Schema.isReachable, Reachability.contains, Reachability.contains,
    (agreeOn_append hs hs').reachable]

theorem not_isReachable_draft {s : Schema} (hs : (run {} operations).build.outcome = .ok s) :
    s.isReachable "Draft" = false := by
  rw [← Bool.not_eq_true]
  intro hr
  obtain ⟨d, hd, hname⟩ := (builtFrom_run hs).exists_of_reachable hr
  have hnone : (run {} operations).declarations.find "Draft" = none := rfl
  rw [← hname, (sound_run _ _).coherent.find_of_mem hd] at hnone
  cases hnone

theorem nodeType_visible {s s' : Schema} (hs : (run {} operations).build.outcome = .ok s)
    (hs' : (run {} drafted).build.outcome = .ok s') : nodeType ∈ s'.reachableTypes :=
  (builtFrom_run hs').mem_reachableTypes.2 ⟨List.mem_of_getElem? (i := 5) rfl,
    (isReachable_drafted hs hs' "Node").trans (isReachable_node hs)⟩

theorem queryType_visible {s s' : Schema} (hs : (run {} operations).build.outcome = .ok s)
    (hs' : (run {} drafted).build.outcome = .ok s') : queryType ∈ s'.reachableTypes := by
  obtain ⟨-, -, hr⟩ := (builtFrom_run hs).of_getType (getType_query hs)
  exact (builtFrom_run hs').mem_reachableTypes.2 ⟨List.mem_of_getElem? (i := 6) rfl,
    (isReachable_drafted hs hs' "Query").trans hr⟩

end Sample

/-- In the small run with a further type that implements its interface both object types belong to
the interface by the declarations, and in the schema the one that is reachable. The description has
this type under the interface, and the interface under the type. -/
theorem sample_possibleTypes :
    ∃ s, (run {} Sample.drafted).build.outcome = .ok s ∧
      (∀ type ∈ ["Query", "Draft"],
        (run {} Sample.drafted).declarations.isPossible "Node" type = true) ∧
      "Query" ∈ (s.possibleTypes "Node").map (·.name) ∧
      "Draft" ∉ (s.possibleTypes "Node").map (·.name) ∧
      ∃ info, s.introspect = .ok info ∧
        ∃ i ∈ info.types, i.kind = .interface ∧ i.name = "Node" ∧
        ∃ t ∈ info.types, t.kind = .object ∧ t.name = "Query" ∧
        ∃ interfaces possible : List String,
          t.interfaces = some (interfaces.map (.named .interface)) ∧ "Node" ∈ interfaces ∧
          i.possibleTypes = some (possible.map (.named .object)) ∧ "Query" ∈ possible := by
  obtain ⟨s, hs⟩ := Sample.exists_build
  obtain ⟨s', hs'⟩ := Sample.exists_build_drafted
  have hb := builtFrom_run hs'
  obtain ⟨hdecides, hlists, -, hdescribed, hboth⟩ := run_possibleTypes hs'
  have hdeclared : ∀ type ∈ ["Query", "Draft"],
      (run {} Sample.drafted).declarations.isPossible "Node" type = true :=
    List.forall_mem_cons.2 ⟨rfl, List.forall_mem_singleton.2 rfl⟩
  have hlisted (type : String) (htype : type ∈ ["Query", "Draft"]) :
      type ∈ (s'.possibleTypes "Node").map (·.name) ↔ s.isReachable type = true := by
    rw [(hlists "Node").2.1, hdecides _ hb.definitions.symm, hdeclared type htype,
      Sample.isReachable_drafted hs hs']
    exact and_iff_left rfl
  obtain ⟨-, -, hquery⟩ := (builtFrom_run hs).of_getType (Sample.getType_query hs)
  refine ⟨s', hs', hdeclared, (hlisted "Query" (by simp)).2 hquery, fun hdraft => ?_, ?_⟩
  · have hr := (hlisted "Draft" (by simp)).1 hdraft
    rw [Sample.not_isReachable_draft hs] at hr
    cases hr
  · have hroots : s'.roots = { query := some "Query" } := Option.some.inj hb.roots.symm
    obtain ⟨info, hinfo⟩ := hdescribed "Query" (by rw [hroots]; rfl)
    have hentries := hb.forall₂_introspect hinfo
    obtain ⟨i, hi, -, hik, hiname, -⟩ :=
      exists_mem_of_forall₂ hentries (Sample.nodeType_visible hs hs')
    obtain ⟨t, ht, htype, htk, htname, -⟩ :=
      exists_mem_of_forall₂ hentries (Sample.queryType_visible hs hs')
    obtain ⟨interfaces, possible, hinterfaces, hpossible, hagree⟩ :=
      (hboth info hinfo).2 i hi hik t ht htk
    have hnode : interfaces = ["Node"] := by
      have hlist := hb.interfaces_typeInfo (Sample.queryType_visible hs hs') rfl htype
      rw [hinterfaces] at hlist
      exact List.map_injective_iff.2 (fun _ _ h => (TypeRefInfo.named.inj h).2)
        (Option.some.inj hlist)
    have hmember : "Node" ∈ interfaces := hnode ▸ List.mem_cons_self
    rw [hiname, htname] at hagree
    exact ⟨info, hinfo, i, hi, hik, hiname, t, ht, htk, htname, interfaces, possible,
      hinterfaces, hmember, hpossible, hagree.1 hmember⟩

end Registry

end GraphSchema
