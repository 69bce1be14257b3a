import GraphSchema.Schema

/-!
# Registries

A registry collects declarations until a schema is built from them. Names and fields declared
twice are remembered as problems and reported by the build together with everything else.

## Main definitions

* `Registry` — the declarations, the problems, and the schema once it is built.
* `Registry.register` — declare a type.
* `Registry.declareRoots` — declare the root operations.
* `Registry.requireSchema` — the schema, which must be built.
-/

namespace GraphSchema

/-- The declarations of a schema to be, and the schema after its build. -/
structure Registry where
  settings : Settings := {}
  declarations : Declarations := {}
  roots : Option Roots := none
  problems : List Error := []
  schema : Option Schema := none

namespace Registry

/-! ## Fields of a definition -/

/-- A field as it is registered. -/
def finalField (camelize : Bool) (f : Field) : Field := if camelize then f.camelized else f

/-- The final name of every declared field name. -/
def finalNames (camelize : Bool) (fields : List Field) : Table String String :=
  Table.ofList (fields.map fun f => (f.name, (finalField camelize f).name))

/-- The final key of a behavior: the final name of the field declared under the key. -/
def finalKey (camelize : Bool) (names : Table String String) (key : String) : String :=
  (Table.get? names key).getD (if camelize then camelCase key else key)

/-- The behaviors under their final keys. -/
def finalBehaviors (camelize : Bool) (fields : List Field) (behaviors : Table String Behavior) :
    Table String Behavior :=
  let names := finalNames camelize fields
  Table.ofList (behaviors.map fun (key, b) => (finalKey camelize names key, b))

/-- Fields on their way into the store: those taken so far, and the repeated ones. -/
structure Intake where
  store : FieldStore
  taken : List Field := []
  problems : List Error := []

/-- Takes a field in, unless the owner already has one of its name. -/
def Intake.add (x : Intake) (owner : String) (layer : Layer) (f : Field) : Except Error Intake :=
  match x.store.define owner f layer with
  | .ok store => .ok { x with store, taken := x.taken ++ [f] }
  | .error (.duplicateField o n l) =>
    .ok { x with problems := x.problems ++ [.duplicateField o n l] }
  | .error e => .error e

/-- Takes the fields of an owner in, in order. -/
def intake (store : FieldStore) (owner : String) (layer : Layer) (fields : List Field) :
    Except Error Intake :=
  fields.foldlM (fun x f => x.add owner layer f) { store }

/-! ## Declarations -/

/-- Whether names are given in the spelling with capitals. -/
def camelizes (r : Registry) : Bool := r.settings.autoCamelize.truthy

/-- Adds a definition with the fields that its owner has been given. -/
def add (r : Registry) (d : Definition) (store : FieldStore) (problems : List Error) : Registry :=
  { r with
    declarations := { definitions := r.declarations.definitions ++ [d], fields := store }
    problems := r.problems ++ problems }

/-- Declares a type. The answer is the definition as registered. A second type of a name is a
problem and is otherwise ignored. -/
def register (r : Registry) (d : Definition) : Except Error (Definition × Registry) :=
  if r.schema.isSome then .error (.frozenType d.name)
  else if (r.declarations.find d.name).isSome then
    .ok (d, { r with problems := r.problems ++ [.duplicateType d.name] })
  else
    let camelize := r.camelizes
    match d.body with
    | .interface i => do
      let x ← intake r.declarations.fields d.name .interface (i.fields.map (finalField camelize))
      let d := { d with
        body := .interface { i with
          fields := x.taken
          behaviors := finalBehaviors camelize i.fields i.behaviors } }
      return (d, r.add d x.store x.problems)
    | .object o => do
      let x ← intake r.declarations.fields d.name .own (o.fields.map (finalField camelize))
      let d := { d with
        body := .object { o with
          fields := x.taken
          behaviors := finalBehaviors camelize o.fields o.behaviors } }
      return (d, r.add d x.store x.problems)
    | .inputObject inputs =>
      let inputs := if camelize then inputs.map Argument.camelized else inputs
      let d := { d with body := .inputObject inputs }
      .ok (d, r.add d r.declarations.fields [])
    | _ => .ok (d, r.add d r.declarations.fields [])

/-- Sets the root operations. A second declaration is a problem and is otherwise ignored. -/
def setRoots (r : Registry) (roots : Roots) : Registry :=
  match r.roots with
  | none => { r with roots := some roots }
  | some _ => { r with problems := r.problems ++ [.duplicateRoots] }

/-- Declares the root operations, until the schema is built. The answer is the roots as given. -/
def declareRoots (r : Registry) (given : RootSpecs) : Except Error (Roots × Registry) := do
  let some query := given.query | throw .missingQuery
  if r.schema.isSome then throw .frozenRoots
  let roots ← given.toRoots query
  return (roots, r.setRoots roots)

/-- Changes the store of fields. -/
def withFields (r : Registry) (store : FieldStore) : Registry :=
  { r with declarations := { r.declarations with fields := store } }

/-- The schema, on behalf of an operation that needs it. -/
def requireSchema (r : Registry) (operation : String) : Except Error Schema :=
  match r.schema with
  | some s => .ok s
  | none => .error (.notFinalized operation)

end Registry

end GraphSchema
