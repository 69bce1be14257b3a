import GraphSchema.Proofs.Arguments
import GraphSchema.Proofs.Schema.Declared

/-!
# Calls through an interface

Whether an object type accepts the arguments that its interface accepts. The build compares the
arguments of both fields by name and type. It leaves out the defaults: what the interface has a
default for may be required by the object type, and this is the only way in which a call that the
interface accepts can be refused.

## Main statements

* `Registry.run_accepts_iff` — of the arguments that the field of an interface accepts, those that
  the field of the object type accepts.
* `Registry.paging_refused` — an interface whose calls an implementing type refuses.
-/

namespace GraphSchema

namespace Registry

/-! ## Runs -/

/-- For an object type of a built schema whose arguments have been declared, and a field of one of
its interfaces: the object type has a field of this name. Provided that its arguments have distinct
names, it accepts those of the arguments accepted by the interface that give everything which it
requires and the interface has a default for. -/
theorem run_accepts_iff {settings : Settings} {ops : List Operation} {s : Schema}
    (hs : (run settings ops).build.outcome = .ok s)
    (hdeclared : ∀ e ∈ declared settings ops, ∀ f ∈ e.fields, ∀ a ∈ f.arguments, a.IsDeclared)
    {type : String} {d : Definition} {o : ObjectType} (hd : s.find type = some d)
    (ho : d.body = .object o) {abstract : String} (hi : abstract ∈ o.interfaces) {name : String}
    {expected : Field} (hexpected : Table.get? (s.fieldTable abstract) name = some expected) :
    ∃ found, Table.get? (s.fieldTable type) name = some found ∧
      ((found.arguments.map (·.name)).Nodup → ∀ args, expected.Accepts abstract args →
        (found.Accepts type args ↔
          ∀ a ∈ found.arguments, a.required = true → ∀ b, expected.argument? a.name = some b →
            b.defaultValue.isSome = true → Table.contains args a.name = true)) := by
  have hb := builtFrom_run hs
  rw [hb.find_eq] at hd
  have hmem := mem_of_findDefinition hd
  obtain rfl := name_of_findDefinition hd
  obtain ⟨e, hemem, rfl, i, hbody, himpl⟩ := hb.exists_implemented hmem ho hi
  have hfield : expected ∈ i.fields ∧ expected.name = name := by
    rw [hb.fieldTable_interface hemem hbody, Field.get?_table] at hexpected
    exact ⟨List.mem_of_find?_eq_some hexpected, by simpa using List.find?_some hexpected⟩
  obtain ⟨hfield, rfl⟩ := hfield
  obtain ⟨found, hfound, hfulfills⟩ := hb.exists_fulfilling hmem ho himpl hfield
  refine ⟨found, hfound, fun hdistinct args haccepts => ?_⟩
  have harguments {x : Definition} {f : Field}
      (hx : x ∈ (run settings ops).declarations.definitions)
      (hf : Table.get? (s.fieldTable x.name) expected.name = some f) :
      ∀ a ∈ f.arguments, a.IsDeclared := by
    intro a ha
    refine forall_arguments hs hdeclared (fun _ hb => hb.camelized) hx ?_ ha
    exact List.mem_map.2 ⟨_, Table.mem_of_get?_eq_some hf, rfl⟩
  have hfulfills : (run settings ops).declarations.Fulfills expected found := by
    rcases hfulfills with rfl | hfulfills
    · exact Field.fulfills_self hdistinct
    · exact hfulfills
  exact Field.accepts_iff_of_fulfills (harguments hemem hexpected) (harguments hmem hfound)
    hdistinct hfulfills haccepts

/-! ## A refused call -/

namespace Paging

/-- The size of a page, which may be left out. -/
def sizeOrNull : Argument where
  name := "size"
  type := .named "Int"

/-- The size of a page, with a default. -/
def sizeOrTen : Argument where
  name := "size"
  type := .nonNull (.named "Int")
  defaultValue := some (.int 10)

/-- The size of a page, which has to be given. -/
def size : Argument where
  name := "size"
  type := .nonNull (.named "Int")
  required := true

/-- An interface whose fields need no arguments. -/
def paged : InterfaceType where
  fields := [
    { name := "items", type := .named "Int", arguments := [sizeOrTen] },
    { name := "tags", type := .named "Int", arguments := [sizeOrNull] }]

/-- An object type whose fields do: one is without the default, the other has a further argument of
the same name. -/
def query : ObjectType where
  fields := [
    { name := "items", type := .named "Int", arguments := [size] },
    { name := "tags", type := .named "Int", arguments := [sizeOrNull, size] }]
  interfaces := ["Paged"]

/-- Both are declared, and the object type is the query root. -/
def operations : List Operation := [
  .register ⟨"Paged", none, .interface paged⟩,
  .register ⟨"Query", none, .object query⟩,
  .declareRoots { query := some (some (.text "Query")) }]

theorem exists_build : ∃ s, (run {} operations).build.outcome = .ok s :=
  exists_build_of_violations rfl rfl

theorem isDeclared : ∀ e ∈ declared {} operations, ∀ f ∈ e.fields, ∀ a ∈ f.arguments,
    a.IsDeclared := by
  have hnull : sizeOrNull.IsDeclared := ⟨"size", .ref (.named "Int"), false, none, none, rfl⟩
  have hten : sizeOrTen.IsDeclared :=
    ⟨"size", .ref (.nonNull (.named "Int")), false, some (.int 10), none, rfl⟩
  have hsize : size.IsDeclared := ⟨"size", .ref (.named "Int"), true, none, none, rfl⟩
  have hoperations : declared {} operations =
      [⟨"Paged", none, .interface paged⟩, ⟨"Query", none, .object query⟩] := rfl
  simp [hoperations, Definition.fields, paged, query, hnull, hten, hsize]

variable {s : Schema}

theorem find_query (hs : (run {} operations).build.outcome = .ok s) :
    s.find "Query" = some ⟨"Query", none, .object (query.final true)⟩ :=
  (builtFrom_run hs).find_eq.trans rfl

/-- The fields of the interface in the schema. -/
theorem fieldTable_paged (hs : (run {} operations).build.outcome = .ok s) :
    s.fieldTable "Paged" = Field.table paged.fields :=
  (builtFrom_run hs).fieldTable "Paged"

/-- The fields of the object type in the schema. -/
theorem fieldTable_query (hs : (run {} operations).build.outcome = .ok s) :
    s.fieldTable "Query" = Field.table query.fields :=
  (builtFrom_run hs).fieldTable "Query"

end Paging

/-- The object type accepts what its interface accepts of the first field, if the size is given. -/
theorem paging_accepts_iff :
    ∃ s, (run {} Paging.operations).build.outcome = .ok s ∧
      ∃ expected found, Table.get? (s.fieldTable "Paged") "items" = some expected ∧
        Table.get? (s.fieldTable "Query") "items" = some found ∧
        ∀ args, expected.Accepts "Paged" args →
          (found.Accepts "Query" args ↔ Table.contains args "size" = true) := by
  obtain ⟨s, hs⟩ := Paging.exists_build
  have hexpected : Table.get? (s.fieldTable "Paged") "items" = some (Paging.paged.fields[0]) := by
    rw [Paging.fieldTable_paged hs]
    rfl
  obtain ⟨found, hfound, hiff⟩ := run_accepts_iff hs Paging.isDeclared (Paging.find_query hs) rfl
    (by decide) hexpected
  refine ⟨s, hs, _, found, hexpected, hfound, fun args haccepts => ?_⟩
  obtain rfl : Paging.query.fields[0] = found := by
    rw [Paging.fieldTable_query hs] at hfound
    exact Option.some.inj hfound
  rw [hiff (by decide) args haccepts]
  simp [Paging.paged, Paging.query, Field.argument?, Paging.size, Paging.sizeOrTen]

/-- The interface accepts both fields without arguments, and the object type accepts neither. -/
theorem paging_refused :
    ∃ s, (run {} Paging.operations).build.outcome = .ok s ∧
      (∀ e ∈ declared {} Paging.operations, ∀ f ∈ e.fields, ∀ a ∈ f.arguments, a.IsDeclared) ∧
      (∃ d o, s.find "Query" = some d ∧ d.body = .object o ∧ "Paged" ∈ o.interfaces) ∧
      ∀ name ∈ ["items", "tags"], ∃ expected found,
        Table.get? (s.fieldTable "Paged") name = some expected ∧
        Table.get? (s.fieldTable "Query") name = some found ∧
        expected.Accepts "Paged" [] ∧ ¬ found.Accepts "Query" [] := by
  obtain ⟨s, hs⟩ := Paging.exists_build
  refine ⟨s, hs, Paging.isDeclared, ⟨_, _, Paging.find_query hs, rfl, by decide⟩, ?_⟩
  rw [Paging.fieldTable_paged hs, Paging.fieldTable_query hs]
  simp only [List.forall_mem_cons]
  refine ⟨⟨_, _, rfl, rfl, ?_⟩, ⟨_, _, rfl, rfl, ?_⟩, by simp⟩
  · simp [Field.accepts_nil_iff, Paging.sizeOrTen, Paging.size]
  · simp [Field.accepts_nil_iff, Paging.sizeOrNull, Paging.size]

end Registry

end GraphSchema
