import GraphSchema.Composition
import GraphSchema.Registry.Violations
import GraphSchema.Schema.Printer

/-!
# Builds

The build of a schema from the declarations of a registry. It reports every violation at once;
without any it composes the types, decides which are reachable, and closes the registry.

## Main definitions

* `BuildFailure` — why there is no schema.
* `Build` — the outcome of a build: the registry after it, the schema or a failure, notices.
* `Registry.violations` — everything wrong with the declarations.
* `Registry.build` — the build.
-/

namespace GraphSchema

/-- Why a build gives no schema: violations, or a store of fields that is closed already. -/
inductive BuildFailure where
  | violations (errors : List Error)
  | refused (error : Error)

namespace BuildFailure

/-- The wording of a failed build. -/
def message : BuildFailure → String
  | violations errors =>
    "Schema build failed with " ++ toString errors.length ++ " error(s):\n" ++
      String.intercalate "\n" (errors.map fun e => "  - " ++ e.message)
  | refused error => error.message

end BuildFailure

/-- The outcome of a build. -/
structure Build where
  registry : Registry
  outcome : Except BuildFailure Schema
  notices : List Notice := []

namespace Registry

/-- Everything wrong with the declarations: the problems met on the way, bad references, and
types that do not satisfy their interfaces. -/
def violations (r : Registry) : List Error :=
  r.problems ++ r.referenceErrors ++ r.declarations.compositions.flatMap (·.errors)

/-- The behaviors without a field that composition lets fall. -/
def droppedNotices (r : Registry) : List Notice :=
  r.declarations.compositions.flatMap Composition.notices

/-- The interfaces among the definitions. -/
def interfaces (r : Registry) : List Declarations.Implemented :=
  r.declarations.definitions.filterMap fun d =>
    match d.body with
    | .interface i => some ⟨d.name, i⟩
    | _ => none

/-- The final table of fields of every interface and object type. -/
def effectiveTables (r : Registry) : Table String (Table String Field) :=
  (r.interfaces.map fun i => (i.name, r.declarations.interfaceFields i)) ++
    r.declarations.compositions.map fun c => (c.typeName, c.fields)

/-- The final table of behaviors of every interface and object type. -/
def behaviorTables (r : Registry) : Table String (Table String Behavior) :=
  (r.interfaces.map fun i => (i.name, r.declarations.interfaceBehaviors i)) ++
    r.declarations.compositions.map fun c => (c.typeName, c.behaviors)

/-- The store with the final tables of fields. -/
def composedStore (r : Registry) : Except Error FieldStore :=
  r.effectiveTables.foldlM (fun s e => s.setEffective e.1 (Table.values e.2)) r.declarations.fields

/-- The schema of valid declarations, whose store holds the final tables. -/
def assemble (r : Registry) (roots : Roots) (store : FieldStore) : Schema :=
  let ds := { r.declarations with fields := store }
  { definitions := ds.definitions
    roots
    settings := r.settings
    fields := (ds.definitions.filter Definition.hasFields).map fun d =>
      (d.name, store.effective d.name)
    behaviors := r.behaviorTables
    reachability := ds.reachability roots.names roots.orphans }

/-- What is reported of a new schema. -/
def schemaNotices (r : Registry) (s : Schema) : List Notice :=
  (if r.settings.warnOnExcluded.truthy then
    s.excludedImplementers.map fun (type, interfaces) => .excludedImplementer type interfaces
  else []) ++
  [.finalized s.definitions.length s.reachability.reachable.length s.fingerprint]

/-- Closes the registry over its schema. -/
def finish (r : Registry) (s : Schema) (store : FieldStore) : Registry :=
  { r with
    declarations := { r.declarations with fields := store.freeze }
    schema := some s }

/-- Builds the schema, or gives the one that is built already. Once the tables are composed nothing
can go wrong: the fingerprint in the last notice is that of a text which can always be printed, as
limits to the digits of an integer or to nesting and lone surrogates are left out here. -/
def build (r : Registry) : Build :=
  match r.schema with
  | some s => { registry := r, outcome := .ok s }
  | none =>
    match r.violations, r.roots with
    | [], some roots =>
      match r.composedStore with
      | .ok store =>
        let s := r.assemble roots store
        { registry := r.finish s store, outcome := .ok s,
          notices := r.droppedNotices ++ r.schemaNotices s }
      | .error e =>
        { registry := r, outcome := .error (.refused e), notices := r.droppedNotices }
    | errors, _ =>
      { registry := r, outcome := .error (.violations errors), notices := r.droppedNotices }

end Registry

end GraphSchema
