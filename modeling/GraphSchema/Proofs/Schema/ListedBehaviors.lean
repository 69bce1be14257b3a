import GraphSchema.Proofs.Schema.Declared

/-!
# Listed behaviors

A type lists its behaviors by the names that fields are declared with. The fields of the type itself
tell their final names. A name that only an interface declares is taken to be spelled with capitals,
whether or not the interface has kept it.

## Main definitions

* `ObjectType.Reaches` — whether a behavior that is listed under a declared name gets to the field.

## Main statements

* `Registry.finalKey_eq_iff` — where a listed behavior goes.
* `Registry.run_listed_behavior` — a listed behavior is the effective one exactly if it gets there.
* `Registry.dated_dropped` — a listed behavior that does not.
-/

namespace GraphSchema

/-- Whether a behavior that a type lists under the name `key` gets to the fields declared under it,
whose final name is `name`: the type declares one itself, or the final name is as expected. -/
def ObjectType.Reaches (camelize : Bool) (o : ObjectType) (key name : String) : Prop :=
  (∃ f ∈ o.fields, f.name = key) ∨ (if camelize then camelCase key else key) = name

namespace Registry

/-! ## Keys -/

section Keys

variable {o : ObjectType} {camelize : Bool} {key name : String}

/-- A listed behavior goes to the final name of the fields that are declared under its key exactly
if it reaches them. -/
theorem finalKey_eq_iff
    (hfinal : ∀ f ∈ o.fields, f.name = key → (finalField camelize f).name = name) :
    finalKey camelize (finalNames camelize o.fields) key = name ↔
      o.Reaches camelize key name := by
  have hkeys : key ∈ Table.keys (o.fields.map fun f => (f.name, (finalField camelize f).name)) ↔
      ∃ f ∈ o.fields, f.name = key := by
    simp [Table.keys]
  unfold finalKey ObjectType.Reaches
  by_cases hown : ∃ f ∈ o.fields, f.name = key
  · have hget : Table.get? (finalNames camelize o.fields) key = some name :=
      Table.get?_ofList (hkeys.2 hown) (by simpa using hfinal)
    simp [hget, hown]
  · have hget : Table.get? (finalNames camelize o.fields) key = none :=
      Table.get?_ofList_eq_none (mt hkeys.1 hown)
    rw [hget, Option.getD_none, or_iff_right hown]

end Keys

/-! ## Runs -/

variable {settings : Settings} {ops : List Operation} {s : Schema} {d : Definition}
  {o : ObjectType} {key name : String} {b : Behavior}

/-- For an object type of a built schema that lists one behavior, under a name that it or one of its
interfaces declares fields with, all of one final name: the behavior is the effective one of this
name, bound to the type, if it reaches the fields; otherwise the effective one is what it would be
without the list. -/
theorem run_listed_behavior (hs : (run settings ops).build.outcome = .ok s)
    (hd : d ∈ declared settings ops) (ho : d.body = .object o) (hlisted : o.behaviors = [(key, b)])
    (hdeclares : ∃ f, o.Declares (declared settings ops) f ∧ f.name = key)
    (hfinal : ∀ f, o.Declares (declared settings ops) f → f.name = key →
      (finalField settings.autoCamelize.truthy f).name = name) :
    (o.Reaches settings.autoCamelize.truthy key name →
      Table.get? (s.behaviorTable d.name) name = some (b.bind d.name) ∧
      (s.isReachable d.name = true → s.effectiveBehavior d.name name = .ok (b.bind d.name))) ∧
    (¬ o.Reaches settings.autoCamelize.truthy key name →
      Table.get? (s.behaviorTable d.name) name =
        (ObjectType.composedBehavior? { o.final settings.autoCamelize.truthy with behaviors := [] }
          ((run settings ops).declarations.interfacesOf o) name).map (·.bind d.name)) := by
  obtain ⟨f, hf, hkey⟩ := hdeclares
  obtain ⟨found, hfound, -⟩ := exists_composed hs hd ho hf
  rw [hfinal f hf hkey] at hfound
  have hget := get?_behaviorTable_of_declared hs hd ho hfound
  have hlayer : Table.get? (o.final settings.autoCamelize.truthy).behaviors name =
      if finalKey settings.autoCamelize.truthy (finalNames settings.autoCamelize.truthy o.fields)
        key = name then some b else none := by
    rw [ObjectType.final, finalBehaviors, hlisted]
    rfl
  have hiff := finalKey_eq_iff fun g hg => hfinal g (.own hg)
  constructor
  · intro hreaches
    have hbehavior : Table.get? (s.behaviorTable d.name) name = some (b.bind d.name) := by
      rw [hget, ObjectType.composedBehavior?, layerBehavior?, hlayer, if_pos (hiff.2 hreaches)]
      rfl
    refine ⟨hbehavior, fun hr => ?_⟩
    rw [Schema.effectiveBehavior_of_lookup (lookupField_of_declared hs hd hr hfound), hbehavior]
  · intro hreaches
    rw [hget, ObjectType.composedBehavior?, layerBehavior?, hlayer, if_neg (mt hiff.1 hreaches)]
    rfl

/-! ## A behavior that falls away -/

namespace Dated

/-- An interface whose field may keep its name, or be spelled with capitals. -/
def dated (camelize : Bool) : InterfaceType where
  fields := [{ name := "created_at", type := .named "String", camelize }]

/-- The behavior that is listed. -/
def now : Behavior := .always "now" (.ok (.str "now"))

/-- An object type that lists a behavior for the field of its interface. -/
def query : ObjectType where
  behaviors := [("created_at", now)]
  interfaces := ["Dated"]

/-- Both are declared, and the object type is the query root. -/
def operations (camelize : Bool) : List Operation := [
  .register ⟨"Dated", none, .interface (dated camelize)⟩,
  .register ⟨"Query", none, .object query⟩,
  .declareRoots { query := some (some (.text "Query")) }]

variable {camelize : Bool}

theorem exists_build : ∃ s, (run {} (operations camelize)).build.outcome = .ok s := by
  cases camelize with
  | false => exact exists_build_of_violations rfl rfl
  | true => exact exists_build_of_violations rfl rfl

theorem declared_operations : declared {} (operations camelize) =
    [⟨"Dated", none, .interface (dated camelize)⟩, ⟨"Query", none, .object query⟩] := by
  cases camelize <;> rfl

theorem query_mem : ⟨"Query", none, .object query⟩ ∈ declared {} (operations camelize) := by
  simp [declared_operations]

theorem isReachable_query (hs : (run {} (operations camelize)).build.outcome = .ok s) :
    s.isReachable "Query" = true := by
  have hroots : (run {} (operations camelize)).roots = some { query := some "Query" } := by
    cases camelize <;> rfl
  exact isReachable_of_root hs query_mem hroots (by decide)

/-- The field that is declared for the object type is that of its interface. -/
theorem declares_iff {f : Field} :
    query.Declares (declared {} (operations camelize)) f ↔ f ∈ (dated camelize).fields := by
  constructor
  · rintro (hf | ⟨e, i, he, hi, -, hf⟩)
    · cases hf
    · rw [declared_operations] at he
      simp only [List.mem_cons, List.not_mem_nil, or_false] at he
      rcases he with rfl | rfl
      · cases hi
        exact hf
      · cases hi
  · intro hf
    exact .inherited ⟨"Dated", none, .interface (dated camelize)⟩ _ (by simp [declared_operations])
      rfl (by simp [query]) hf

end Dated

/-- Where the interface lets the field be spelled with capitals the behavior reaches it. -/
theorem dated_reached :
    ∃ s, (run {} (Dated.operations true)).build.outcome = .ok s ∧
      s.effectiveBehavior "Query" "createdAt" = .ok Dated.now := by
  obtain ⟨s, hs⟩ : ∃ s, (run {} (Dated.operations true)).build.outcome = .ok s :=
    Dated.exists_build
  have hfinal : ∀ f, Dated.query.Declares (declared {} (Dated.operations true)) f →
      f.name = "created_at" → (finalField true f).name = "createdAt" := by
    intro f hf _
    obtain rfl := List.mem_singleton.1 (Dated.declares_iff.1 hf)
    rfl
  have hlisted := run_listed_behavior hs Dated.query_mem rfl rfl
    ⟨_, Dated.declares_iff.2 List.mem_cons_self, rfl⟩ hfinal
  exact ⟨s, hs, (hlisted.1 (.inr rfl)).2 (Dated.isReachable_query hs)⟩

/-- Where the interface keeps its name the behavior falls away. -/
theorem dated_dropped :
    ∃ s, (run {} (Dated.operations false)).build.outcome = .ok s ∧
      (∃ f, s.lookupField "Query" "created_at" = .ok f) ∧
      s.effectiveBehavior "Query" "created_at" =
        .error (.behaviorNotFound "Query" "created_at") := by
  obtain ⟨s, hs⟩ : ∃ s, (run {} (Dated.operations false)).build.outcome = .ok s :=
    Dated.exists_build
  obtain ⟨f, hfound, -⟩ := exists_composed hs Dated.query_mem rfl
    (Dated.declares_iff.2 List.mem_cons_self)
  have hlookup : s.lookupField "Query" "created_at" = .ok f :=
    lookupField_of_declared hs Dated.query_mem (Dated.isReachable_query hs) hfound
  have hnone : s.behaviorTable "Query" = [] := (builtFrom_run hs).behaviorTable "Query"
  refine ⟨s, hs, ⟨f, hlookup⟩, ?_⟩
  rw [Schema.effectiveBehavior_of_lookup hlookup, hnone]
  rfl

end Registry

end GraphSchema
