import GraphSchema.Proofs.Schema.DistinctNames
import GraphSchema.Proofs.Schema.Introspection

/-!
# Stray behaviors

A behavior under a name that is not a field of the type is a stray. Composition lets the strays of
object types fall. An interface is not composed, and keeps the strays that it lists: its table has
them, but they are not found under any field.

## Main definitions

* `Schema.BehaviorsFit` — whether the behaviors of a type are those of its fields.
* `InterfaceType.Astray` — whether an interface lists a behavior under a name that is no field.

## Main statements

* `InterfaceType.astray_final_iff` — what is listed astray, by the declared names.
* `Schema.effectiveBehavior_eq` — the behavior that is found under a name.
* `Registry.run_behaviorsFit_iff` — when the behaviors of a type are those of its fields.
* `Registry.stray_kept` — an interface that keeps a stray.
-/

namespace GraphSchema

/-- Whether the behaviors of a type are those of its fields: every behavior stands under the name of
a field, it is found under each name that has one and missing under the name of each other field,
and no other name is that of a field. -/
structure Schema.BehaviorsFit (s : Schema) (type : String) (fields : List Field)
    (behaviors : Table String Behavior) : Prop where
  keys : ∀ key ∈ Table.keys behaviors, key ∈ fields.map (·.name)
  found : ∀ name, (∃ b, s.effectiveBehavior type name = .ok b) ↔ name ∈ Table.keys behaviors
  missing : ∀ name,
    (s.effectiveBehavior type name).mapError Error.category = .error .behaviorNotFound ↔
      name ∈ fields.map (·.name) ∧ name ∉ Table.keys behaviors
  unknown : ∀ name,
    (s.effectiveBehavior type name).mapError Error.category = .error .fieldNotFound ↔
      name ∉ fields.map (·.name) ∧ name ∉ Table.keys behaviors

/-- Whether an interface lists a behavior under a name that is not one of its fields. -/
def InterfaceType.Astray (i : InterfaceType) : Prop :=
  ∃ key ∈ Table.keys i.behaviors, key ∉ i.fields.map (·.name)

/-! ## What is listed astray -/

section Astray

variable {i : InterfaceType} {camelize : Bool} {key : String}

/-- A key that a field is declared under becomes the final name of a field. -/
theorem Registry.finalKey_mem {fields : List Field} (h : ∃ f ∈ fields, f.name = key) :
    finalKey camelize (finalNames camelize fields) key ∈
      (fields.map (finalField camelize)).map (·.name) := by
  have hkey : key ∈ Table.keys (finalNames camelize fields) :=
    Table.mem_keys_ofList.2 (by simpa [Table.keys] using h)
  obtain ⟨name, hname⟩ := Option.isSome_iff_exists.1 (Table.contains_iff_mem_keys.2 hkey)
  have hmem : (key, name) ∈ fields.map fun f => (f.name, (finalField camelize f).name) :=
    (Table.mem_merge (Table.mem_of_get?_eq_some hname)).resolve_left List.not_mem_nil
  obtain ⟨f, hf, he⟩ := List.mem_map.1 hmem
  rw [finalKey, hname, Option.getD_some, List.map_map]
  exact List.mem_map.2 ⟨f, hf, congrArg Prod.snd he⟩

/-- Any other key is spelled as names are. -/
theorem Registry.finalKey_of_undeclared {fields : List Field} (h : ¬ ∃ f ∈ fields, f.name = key) :
    finalKey camelize (finalNames camelize fields) key = spelling camelize key := by
  have hnone : Table.get? (finalNames camelize fields) key = none :=
    Table.get?_ofList_eq_none (by simpa [Table.keys] using h)
  rw [finalKey, hnone]
  rfl

/-- The final keys are those that come from a declared key. -/
theorem Registry.mem_keys_finalBehaviors {fields : List Field} {behaviors : Table String Behavior} :
    key ∈ Table.keys (finalBehaviors camelize fields behaviors) ↔
      ∃ key' ∈ Table.keys behaviors,
        finalKey camelize (finalNames camelize fields) key' = key := by
  rw [finalBehaviors, Table.mem_keys_ofList]
  simp [Table.keys]

/-- In the end those behaviors are astray that are listed under a name which no field is declared
under, and which is not spelled like one. -/
theorem InterfaceType.astray_final_iff : (i.final camelize).Astray ↔
    ∃ key ∈ Table.keys i.behaviors, (¬ ∃ f ∈ i.fields, f.name = key) ∧
      spelling camelize key ∉ (i.final camelize).fields.map (·.name) := by
  unfold Astray
  constructor
  · rintro ⟨_, hkey, hname⟩
    obtain ⟨key, hlisted, rfl⟩ := Registry.mem_keys_finalBehaviors.1 hkey
    have hundeclared : ¬ ∃ f ∈ i.fields, f.name = key :=
      fun h => hname (Registry.finalKey_mem h)
    exact ⟨key, hlisted, hundeclared, Registry.finalKey_of_undeclared hundeclared ▸ hname⟩
  · rintro ⟨key, hlisted, hundeclared, hname⟩
    exact ⟨_, Registry.mem_keys_finalBehaviors.2
      ⟨key, hlisted, Registry.finalKey_of_undeclared hundeclared⟩, hname⟩

end Astray

/-! ## The behavior under a name -/

namespace Schema

variable {s : Schema} {r : Registry} {d : Definition} {i : InterfaceType} {o : ObjectType}
  {type name key : String} {fields : List Field} {behaviors : Table String Behavior}

/-- Under the name of a field that behavior is found which the table has, and nothing under any
other name. -/
theorem effectiveBehavior_eq (hd : s.getType type = .ok d) (name : String) :
    s.effectiveBehavior type name =
      if name ∈ Table.keys (s.fieldTable type) then
        match Table.get? (s.behaviorTable type) name with
        | some b => .ok b
        | none => .error (.behaviorNotFound type name)
      else .error (.fieldNotFound type name) := by
  unfold effectiveBehavior lookupField
  rw [hd]
  by_cases hname : name ∈ Table.keys (s.fieldTable type)
  · obtain ⟨f, hf⟩ := Option.isSome_iff_exists.1 (Table.contains_iff_mem_keys.2 hname)
    simp only [bind, Except.bind, hf, if_pos hname]
    rfl
  · simp only [bind, Except.bind, Table.get?_eq_none_iff.2 hname, if_neg hname]
    rfl

/-- What is found under names fits the fields exactly if every behavior stands under a field. -/
theorem behaviorsFit_iff
    (hfound : ∀ name, s.effectiveBehavior type name =
      if name ∈ fields.map (·.name) then
        match Table.get? behaviors name with
        | some b => .ok b
        | none => .error (.behaviorNotFound type name)
      else .error (.fieldNotFound type name)) :
    s.BehaviorsFit type fields behaviors ↔
      ∀ key ∈ Table.keys behaviors, key ∈ fields.map (·.name) := by
  refine ⟨fun h => h.keys, fun hkeys => ⟨hkeys, fun name => ?_, fun name => ?_, fun name => ?_⟩⟩
  all_goals
    rw [hfound name]
    have hkey := hkeys name
    by_cases hname : name ∈ fields.map (·.name)
    · rw [if_pos hname]
      cases hget : Table.get? behaviors name with
      | none => simp [hname, Table.get?_eq_none_iff.1 hget, Except.mapError, Error.category]
      | some b =>
        have hmem : name ∈ Table.keys behaviors :=
          List.mem_map_of_mem (f := Prod.fst) (Table.mem_of_get?_eq_some hget)
        simp [hmem, Except.mapError]
    · simp [hname, mt hkey hname, Except.mapError, Error.category]

namespace BuiltFrom

/-- The behaviors of an object type stand under its fields. -/
theorem mem_fieldTable_of_behavior (h : s.BuiltFrom r) (hd : d ∈ r.declarations.definitions)
    (ho : d.body = .object o) (hkey : key ∈ Table.keys (s.behaviorTable d.name)) :
    key ∈ Table.keys (s.fieldTable d.name) := by
  rw [h.behaviorTable_object hd ho] at hkey
  rw [h.fieldTable_object hd ho, h.coherent.keys_compose_fields hd ho]
  by_contra hname
  have hget : Table.get? (r.declarations.compose d.name o).behaviors key = none :=
    (h.coherent.get?_compose_behaviors hd ho).trans (if_neg hname)
  exact Table.get?_eq_none_iff.1 hget hkey

/-- The behaviors of an interface stand under its fields, except for those that are listed
astray. -/
theorem forall_behavior_interface_iff (h : s.BuiltFrom r) (hd : d ∈ r.declarations.definitions)
    (hi : d.body = .interface i) :
    (∀ key ∈ Table.keys (s.behaviorTable d.name), key ∈ Table.keys (s.fieldTable d.name)) ↔
      ¬ i.Astray := by
  have hnames : Table.keys (s.fieldTable d.name) = i.fields.map (·.name) := by
    rw [h.fieldTable_interface hd hi, Field.keys_table]
  have hkeys (key : String) : key ∉ Table.keys (s.behaviorTable d.name) ↔
      key ∉ Table.keys i.behaviors ∧
        (i.fields.find? (·.name == key)).bind (·.resolver) = none := by
    rw [← Table.get?_eq_none_iff, h.get?_behaviorTable_interface hd hi, layerBehavior?,
      Option.orElse_eq_orElse, Option.orElse_eq_or, Option.or_eq_none_iff, Table.get?_eq_none_iff]
  rw [hnames]
  constructor
  · rintro hfit ⟨key, hkey, hname⟩
    exact ((hkeys key).1 (mt (hfit key) hname)).1 hkey
  · intro hastray key hkey
    by_contra hname
    refine (hkeys key).2 ⟨fun hlisted => hastray ⟨key, hlisted, hname⟩, ?_⟩ hkey
    have hfind : i.fields.find? (·.name == key) = none :=
      List.find?_eq_none.2 fun f hf hn => hname (beq_iff_eq.1 hn ▸ List.mem_map_of_mem hf)
    rw [hfind, Option.bind_none]

end BuiltFrom

end Schema

/-! ## Runs -/

namespace Registry

variable {settings : Settings} {ops : List Operation} {s : Schema} {d : Definition}

/-- For every visible object type or interface of a schema that is built after a run: under the name
of a field that behavior is found which the table of the type has, or is missing if it has none, and
there is no field under any other name. The behaviors are those of the fields exactly if the type is
not an interface that lists a behavior astray. -/
theorem run_behaviorsFit_iff (hs : (run settings ops).build.outcome = .ok s)
    (hd : d ∈ s.reachableTypes) (hf : d.hasFields = true) :
    ∃ fields behaviors, s.effectiveFields d.name = .ok fields ∧
      s.effectiveBehaviors d.name = .ok behaviors ∧
      (∀ name, s.effectiveBehavior d.name name =
        if name ∈ fields.map (·.name) then
          match Table.get? behaviors name with
          | some b => .ok b
          | none => .error (.behaviorNotFound d.name name)
        else .error (.fieldNotFound d.name name)) ∧
      (s.BehaviorsFit d.name fields behaviors ↔ ∀ i, d.body = .interface i → ¬ i.Astray) := by
  have hb := builtFrom_run hs
  obtain ⟨hmem, hr⟩ := hb.mem_reachableTypes.1 hd
  have hnames := hb.map_name_fieldTable d.name
  have hfound := Schema.effectiveBehavior_eq (hb.getType_of_reachable hmem hr)
  rw [← hnames] at hfound
  refine ⟨_, _, hb.effectiveFields_of_reachable hmem hr hf,
    hb.effectiveBehaviors_of_reachable hmem hr, hfound, (Schema.behaviorsFit_iff hfound).trans ?_⟩
  rw [hnames]
  cases hbody : d.body with
  | interface i => simpa using hb.forall_behavior_interface_iff hmem hbody
  | object o => simpa using fun key => hb.mem_fieldTable_of_behavior hmem hbody
  | scalar | enum | inputObject | union =>
    simp [Definition.hasFields, Definition.kind, TypeBody.kind, hbody] at hf

/-! ## An interface that keeps a stray -/

namespace Stray

/-- An interface that lists a behavior under a name that is no field. -/
def node : Definition where
  name := "Node"
  body := .interface {
    fields := [{ name := "id", type := .named "ID" }]
    behaviors := [("nope", .always "nope" (.ok (.int 1)))] }

/-- An object type that implements it. -/
def query : Definition where
  name := "Query"
  body := .object { interfaces := ["Node"] }

/-- Both are declared, and the object type is the query root. -/
def operations : List Operation := [
  .register node,
  .register query,
  .declareRoots { query := some (some (.text "Query")) }]

theorem exists_build : ∃ s, (run {} operations).build.outcome = .ok s :=
  exists_build_of_violations rfl rfl

theorem visible (hs : (run {} operations).build.outcome = .ok s) :
    node ∈ s.reachableTypes ∧ query ∈ s.reachableTypes := by
  have hb := builtFrom_run hs
  have hnode : node ∈ (run {} operations).declarations.definitions :=
    List.mem_of_getElem? (i := 5) rfl
  have hquery : query ∈ (run {} operations).declarations.definitions :=
    List.mem_of_getElem? (i := 6) rfl
  have hroots : { query := some "Query" } = s.roots := Option.some.inj hb.roots
  have hroot : s.isReachable "Query" = true :=
    hb.isReachable_of_start hquery (hroots ▸ List.mem_cons_self)
  have hreach : s.isReachable "Node" = true :=
    hb.isReachable_of_refers hquery hnode hroot (.implements rfl List.mem_cons_self)
  exact ⟨hb.mem_reachableTypes.2 ⟨hnode, hreach⟩, hb.mem_reachableTypes.2 ⟨hquery, hroot⟩⟩

end Stray

/-- The object type does not inherit the stray. -/
theorem stray_dropped :
    ∃ s, (run {} Stray.operations).build.outcome = .ok s ∧
      ∃ fields behaviors, s.effectiveFields "Query" = .ok fields ∧
        s.effectiveBehaviors "Query" = .ok behaviors ∧
        s.BehaviorsFit "Query" fields behaviors := by
  obtain ⟨s, hs⟩ := Stray.exists_build
  obtain ⟨fields, behaviors, hfields, hbehaviors, -, hfit⟩ :=
    run_behaviorsFit_iff hs (Stray.visible hs).2 rfl
  exact ⟨s, hs, fields, behaviors, hfields, hbehaviors, hfit.2 fun _ hi => nomatch hi⟩

/-- The interface keeps it, where it is found under no field. -/
theorem stray_kept :
    ∃ s, (run {} Stray.operations).build.outcome = .ok s ∧
      Stray.node ∈ s.reachableTypes ∧
      ∃ fields behaviors, s.effectiveFields "Node" = .ok fields ∧
        s.effectiveBehaviors "Node" = .ok behaviors ∧
        "nope" ∈ Table.keys behaviors ∧ "nope" ∉ fields.map (·.name) ∧
        s.effectiveBehavior "Node" "nope" = .error (.fieldNotFound "Node" "nope") ∧
        ¬ s.BehaviorsFit "Node" fields behaviors := by
  obtain ⟨s, hs⟩ := Stray.exists_build
  have hb := builtFrom_run hs
  obtain ⟨hnode, hr⟩ := hb.mem_reachableTypes.1 (Stray.visible hs).1
  have hfields : Table.values (s.fieldTable "Node") = [{ name := "id", type := .named "ID" }] :=
    congrArg Table.values (hb.fieldTable "Node")
  have hkey : "nope" ∈ Table.keys (s.behaviorTable "Node") :=
    hb.behaviorTable "Node" ▸ List.mem_cons_self
  have hname : "nope" ∉ (Table.values (s.fieldTable "Node")).map (·.name) := by
    rw [hfields]
    decide
  refine ⟨s, hs, (Stray.visible hs).1, _, _, hb.effectiveFields_of_reachable hnode hr rfl,
    hb.effectiveBehaviors_of_reachable hnode hr, hkey, hname, ?_,
    fun hfit => hname (hfit.keys _ hkey)⟩
  have hget : s.getType "Node" = .ok Stray.node := hb.getType_of_reachable hnode hr
  have hfound := Schema.effectiveBehavior_eq hget "nope"
  rwa [← hb.map_name_fieldTable, if_neg hname] at hfound

end Registry

end GraphSchema
