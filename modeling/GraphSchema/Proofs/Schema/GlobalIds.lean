import GraphSchema.Proofs.Arguments
import GraphSchema.Proofs.GlobalId
import GraphSchema.Proofs.Schema.Declared

/-!
# Global IDs of a built schema

A field that holds global IDs gives the ID of the parent value under the type that it is composed
into, also where an interface declares it. The ID tells the type and the object exactly if the
separator of the settings is unambiguous after the name of the type, which the build does not check.

## Main statements

* `Registry.resolveField_globalId` — the value of a field that holds global IDs.
* `Registry.run_globalId` — when it tells the type and the object.
* `Registry.groups_confused` — two objects with one global ID.
-/

namespace GraphSchema

@[simp] theorem Behavior.action_bind {b : Behavior} {type : String} :
    (b.bind type).action = b.action := by
  unfold bind
  split <;> rfl

/-- Global IDs name the type that they are bound to. -/
theorem Behavior.owner_bind {b : Behavior} {type idAttribute : String}
    (h : b.action = .globalId idAttribute) : (b.bind type).owner = some type := by
  rw [bind, h]

/-- A global ID behavior that is bound to a type gives IDs of this type, with the separator of the
schema. -/
theorem Schema.run_bind_globalId {s : Schema} {b : Behavior} {type name idAttribute : String}
    {parent : Value} {args : Arguments} (h : b.action = .globalId idAttribute) :
    (b.bind type).run parent args (some (s.fieldContext none type name)) =
      if type = "" then .error .unownedGlobalId
      else .ok (.str (GlobalId.encode type (parent.resolve idAttribute).display
        s.settings.separator.display)) := by
  simp only [Behavior.run, Behavior.action_bind, h, Behavior.owner_bind h]
  by_cases htype : type = ""
  · subst htype
    rfl
  · have howner : Behavior.globalIdType (some type) (some (s.fieldContext none type name)) =
        .ok type := by
      simp [Behavior.globalIdType, Option.filter, htype]
    rw [howner, if_neg htype]
    rfl

namespace Registry

theorem arguments_finalField {camelize : Bool} {f : Field} (h : f.arguments = []) :
    (finalField camelize f).arguments = [] := by
  unfold finalField Field.camelized
  split
  · split <;> simp [h]
  · exact h

/-! ## Runs -/

section Runs

variable {settings : Settings} {ops : List Operation} {s : Schema} {d : Definition}
  {o : ObjectType} {f : Field} {b : Behavior} {separator idAttribute : String} {parent : Value}

/-- The value of a field that holds global IDs and is declared without arguments: the ID of the
parent value under the name of the type, unless that is empty. -/
theorem resolveField_globalId (hs : (run settings ops).build.outcome = .ok s)
    (hseparator : settings.separator = .str separator) (hd : d ∈ declared settings ops)
    (ho : d.body = .object o) (hr : s.isReachable d.name = true)
    (hf : o.Declares (declared settings ops) f) (harguments : f.arguments = [])
    (hb : s.effectiveBehavior d.name (finalField settings.autoCamelize.truthy f).name = .ok b)
    (haction : b.action = .globalId idAttribute) :
    s.resolveField d.name (finalField settings.autoCamelize.truthy f).name parent [] none =
      if d.name = "" then .error .unownedGlobalId
      else .ok (.str (GlobalId.encode d.name (parent.resolve idAttribute).display separator)) := by
  obtain ⟨found, hfound, hfulfills⟩ := exists_composed hs hd ho hf
  have hlookup := lookupField_of_declared hs hd hr hfound
  -- no interface lets a type require an argument that the interface does not have
  have haccepts : found.Accepts d.name [] := by
    have hfinal : (finalField settings.autoCamelize.truthy f).arguments = [] :=
      arguments_finalField harguments
    rw [Field.accepts_nil_iff]
    rcases hfulfills with rfl | hfulfills
    · simp [hfinal]
    · intro a ha _
      refine hfulfills.extra a ha ?_
      simp [Field.argument?, hfinal]
  obtain ⟨passed, hpassed⟩ := haccepts
  -- the behavior that is composed into the type is bound to it
  have hget := get?_behaviorTable_of_declared hs hd ho hfound
  rw [Schema.effectiveBehavior_of_lookup hlookup] at hb
  cases hbehavior : Table.get? (s.behaviorTable d.name)
      (finalField settings.autoCamelize.truthy f).name with
  | none => simp [hbehavior] at hb
  | some b' =>
    obtain rfl : b' = b := by simpa [hbehavior] using hb
    rw [hbehavior, eq_comm, Option.map_eq_some_iff] at hget
    obtain ⟨b, -, rfl⟩ := hget
    rw [Behavior.action_bind] at haction
    rw [Schema.resolveField_of_coerce hlookup hpassed, hbehavior]
    dsimp only
    rw [Schema.run_bind_globalId haction, (builtFrom_run hs).settings, settings_run, hseparator]
    rfl

/-- For a visible object type of a built schema and a field that it or one of its interfaces declares
without arguments, and whose behavior gives global IDs: the ID of a parent value is decoded to the
type and the identifier exactly if the separator is unambiguous after the name of the type. Then no
other object of an unambiguous type has this ID. -/
theorem run_globalId (hs : (run settings ops).build.outcome = .ok s)
    (hseparator : settings.separator = .str separator) (hne : separator ≠ "")
    (hd : d ∈ declared settings ops) (ho : d.body = .object o) (hr : s.isReachable d.name = true)
    (hf : o.Declares (declared settings ops) f) (harguments : f.arguments = [])
    (hb : s.effectiveBehavior d.name (finalField settings.autoCamelize.truthy f).name = .ok b)
    (haction : b.action = .globalId idAttribute) :
    ((∃ id, s.resolveField d.name (finalField settings.autoCamelize.truthy f).name parent [] none =
          .ok (.str id) ∧
        GlobalId.decode id separator = .ok (d.name, (parent.resolve idAttribute).display)) ↔
      GlobalId.Unambiguous separator d.name) ∧
    (GlobalId.Unambiguous separator d.name →
      ∀ typeName objectId, GlobalId.Unambiguous separator typeName →
        s.resolveField d.name (finalField settings.autoCamelize.truthy f).name parent [] none =
          .ok (.str (GlobalId.encode typeName objectId separator)) →
        typeName = d.name ∧ objectId = (parent.resolve idAttribute).display) := by
  rw [resolveField_globalId hs hseparator hd ho hr hf harguments hb haction]
  by_cases hname : d.name = ""
  · have hnot : ¬ GlobalId.Unambiguous separator d.name := fun h => h.1 hname
    rw [if_pos hname]
    refine ⟨⟨?_, fun h => absurd h hnot⟩, fun h => absurd h hnot⟩
    rintro ⟨id, hid, -⟩
    cases hid
  · rw [if_neg hname]
    constructor
    · rw [← GlobalId.decode_encode_iff hne]
      constructor
      · rintro ⟨id, hid, hdecode⟩
        cases hid
        exact hdecode
      · exact fun h => ⟨_, rfl, h⟩
    · intro h typeName objectId htype heq
      have hid : GlobalId.encode d.name (parent.resolve idAttribute).display separator =
          GlobalId.encode typeName objectId separator := by simpa using heq
      obtain ⟨hname, hobject⟩ := (GlobalId.encode_inj hne h htype).1 hid
      exact ⟨hname.symm, hobject.symm⟩

end Runs

/-! ## Two objects with one global ID -/

namespace Groups

/-- An interface for everything that has a global ID. -/
def node : InterfaceType where
  fields := [.globalId "id" (.globalId "id" "id") none]

/-- A type that has one. -/
def member : ObjectType where
  interfaces := ["Node"]

/-- Two such types, the name of one starting with that of the other. -/
def operations : List Operation := [
  .register ⟨"Node", none, .interface node⟩,
  .register ⟨"User", none, .object member⟩,
  .register ⟨"User_Group", none, .object member⟩,
  .declareRoots { query := some (some (.text "User")), orphans := [.text "User_Group"] }]

/-- Settings with a separator that may stand in names. -/
def settings : Settings := { separator := .str "_" }

theorem exists_build : ∃ s, (run settings operations).build.outcome = .ok s :=
  exists_build_of_violations rfl rfl

variable {s : Schema} {type : String}

theorem member_mem (htype : type ∈ ["User", "User_Group"]) :
    ⟨type, none, .object member⟩ ∈ declared settings operations := by
  simp only [List.mem_cons, List.not_mem_nil, or_false] at htype
  rcases htype with rfl | rfl
  · exact List.mem_of_getElem? (i := 1) rfl
  · exact List.mem_of_getElem? (i := 2) rfl

/-- Both have the field of the interface. -/
theorem declares_id : member.Declares (declared settings operations)
    (.globalId "id" (.globalId "id" "id") none) :=
  .inherited ⟨"Node", none, .interface node⟩ node (List.mem_of_getElem? (i := 0) rfl) rfl
    (by simp [member]) (by simp [node])

theorem isReachable_member (htype : type ∈ ["User", "User_Group"])
    (hs : (run settings operations).build.outcome = .ok s) :
    s.isReachable type = true := by
  have hroots : (run settings operations).roots =
      some { query := some "User", orphans := ["User_Group"] } := rfl
  exact isReachable_of_root hs (member_mem htype) hroots htype

theorem effectiveBehavior_member (htype : type ∈ ["User", "User_Group"])
    (hs : (run settings operations).build.outcome = .ok s) :
    s.effectiveBehavior type "id" = .ok ⟨"id", .globalId "id", some type⟩ := by
  obtain ⟨f, hfound, -⟩ := exists_composed hs (member_mem htype) rfl declares_id
  have hlookup : s.lookupField type "id" = .ok f :=
    lookupField_of_declared hs (member_mem htype) (isReachable_member htype hs) hfound
  have htable : s.behaviorTable type = [("id", ⟨"id", .globalId "id", some type⟩)] := by
    rw [(builtFrom_run hs).behaviorTable]
    simp only [List.mem_cons, List.not_mem_nil, or_false] at htype
    rcases htype with rfl | rfl
    · rfl
    · rfl
  rw [Schema.effectiveBehavior_of_lookup hlookup, htable]
  rfl

end Groups

/-- The ID of a user is decoded to the type and the identifier. -/
theorem groups_globalId :
    ∃ s, (run Groups.settings Groups.operations).build.outcome = .ok s ∧
      ∃ id, s.resolveField "User" "id" (.map [(.str "id", .int 7)]) [] none = .ok (.str id) ∧
        GlobalId.decode id "_" = .ok ("User", "7") := by
  obtain ⟨s, hs⟩ := Groups.exists_build
  have htype : "User" ∈ ["User", "User_Group"] := by decide
  have hiff : (∃ id, s.resolveField "User" "id" (.map [(.str "id", .int 7)]) [] none =
      .ok (.str id) ∧ GlobalId.decode id "_" = .ok ("User", "7")) ↔
        GlobalId.Unambiguous "_" "User" :=
    (run_globalId hs rfl (by decide) (Groups.member_mem htype) rfl
      (Groups.isReachable_member htype hs) Groups.declares_id rfl
      (Groups.effectiveBehavior_member htype hs) rfl).1
  exact ⟨s, hs, hiff.2 (by decide)⟩

/-- The ID of a group is that of a user, and decoded to the latter. -/
theorem groups_confused :
    ∃ s, (run Groups.settings Groups.operations).build.outcome = .ok s ∧
      ∃ id,
        s.resolveField "User" "id" (.map [(.str "id", .str "Group_1")]) [] none = .ok (.str id) ∧
        s.resolveField "User_Group" "id" (.map [(.str "id", .str "1")]) [] none = .ok (.str id) ∧
        GlobalId.decode id "_" = .ok ("User", "Group_1") := by
  obtain ⟨s, hs⟩ := Groups.exists_build
  have hresolve {type : String} (htype : type ∈ ["User", "User_Group"]) (hne : type ≠ "")
      (parent : Value) :
      s.resolveField type "id" parent [] none =
        .ok (.str (GlobalId.encode type (parent.resolve "id").display "_")) := by
    refine Eq.trans (resolveField_globalId hs rfl (Groups.member_mem htype) rfl
      (Groups.isReachable_member htype hs) Groups.declares_id rfl
      (Groups.effectiveBehavior_member htype hs) rfl) ?_
    exact if_neg hne
  refine ⟨s, hs, GlobalId.encode "User" "Group_1" "_", ?_, ?_, ?_⟩
  · rw [hresolve (by decide) (by decide)]
    rfl
  · rw [hresolve (by decide) (by decide)]
    rfl
  · exact (GlobalId.decode_encode_iff (by decide)).2 (by decide)

end Registry

end GraphSchema
