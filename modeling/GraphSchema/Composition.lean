import GraphSchema.Declarations
import GraphSchema.Notice
import GraphSchema.TypeRef.Subtype

/-!
# Composition

The fields and behaviors of an object type: those of its interfaces, first come first kept, and
over them its own, which always win.

## Main definitions

* `Composition` — the composed tables of one type.
* `Declarations.compose` — the composition of an object type.
* `Declarations.incompatibility?` — how a field fails the field of an interface.
* `Declarations.contractErrors` — all such failures of a composed type.
-/

namespace GraphSchema

/-- The composed fields and behaviors of a type, the behaviors that fell away for want of a
field, and what is wrong with the type. -/
structure Composition where
  typeName : String
  fields : Table String Field
  behaviors : Table String Behavior
  dropped : List String
  errors : List Error

namespace Composition

/-- Whether nothing is wrong with the composed type. -/
def success (c : Composition) : Bool := c.errors.isEmpty

/-- What is reported of the composition. -/
def notices (c : Composition) : List Notice := c.dropped.map (.droppedBehavior c.typeName)

end Composition

namespace Declarations

/-! ## Interfaces -/

/-- An interface that a type implements. -/
structure Implemented where
  name : String
  body : InterfaceType

/-- The registered interface of a name. -/
def interface? (ds : Declarations) (name : String) : Option Implemented :=
  match ds.body? name with
  | some (.interface i) => some ⟨name, i⟩
  | _ => none

/-- The registered interfaces among the names, each once, in order. -/
def implemented (ds : Declarations) (names : List String) : List Implemented :=
  names.eraseDups.filterMap ds.interface?

/-- What is wrong with the names of interfaces, of which `seen` have come before. -/
def interfaceErrors (ds : Declarations) (type : String) (seen : List String) :
    List String → List Error
  | [] => []
  | name :: names =>
    if seen.contains name then
      .repeatedInterface type name :: ds.interfaceErrors type seen names
    else
      (match ds.find name with
        | none => [.unknownType name (some (.implementing type)) false]
        | some d => if d.kind = .interface then [] else [.notAnInterface type name d.kind]) ++
        ds.interfaceErrors type (name :: seen) names

/-! ## Tables -/

/-- The resolvers of the fields of a layer by field name. -/
def inlineBehaviors (fields : Table String Field) : Table String Behavior :=
  fields.filterMap fun (name, f) => f.resolver.map (name, ·)

/-- The behaviors of a layer: the resolvers of its fields, and over them the behaviors that its
owner lists. -/
def layerBehaviors (ds : Declarations) (owner : String) (layer : Layer)
    (listed : Table String Behavior) : Table String Behavior :=
  Table.merge (inlineBehaviors (ds.fields.declared owner layer)) listed

/-- The fields of an interface. -/
def interfaceFields (ds : Declarations) (i : Implemented) : Table String Field :=
  ds.fields.declared i.name .interface

/-- The behaviors of an interface. -/
def interfaceBehaviors (ds : Declarations) (i : Implemented) : Table String Behavior :=
  ds.layerBehaviors i.name .interface i.body.behaviors

/-- The fields of a type: those of its interfaces, then its own. -/
def composeFields (ds : Declarations) (type : String) (interfaces : List Implemented) :
    Table String Field :=
  Table.merge (interfaces.foldl (fun t i => Table.mergeNew t (ds.interfaceFields i)) [])
    (ds.fields.declared type .own)

/-- The behaviors of a type: those of its interfaces, then its own. -/
def composeBehaviors (ds : Declarations) (type : String) (o : ObjectType)
    (interfaces : List Implemented) : Table String Behavior :=
  Table.merge (interfaces.foldl (fun t i => Table.mergeNew t (ds.interfaceBehaviors i)) [])
    (ds.layerBehaviors type .own o.behaviors)

/-! ## Contracts -/

/-- How a field fails the field of an interface: by its type, by an argument that is missing or
of another type, or by a further argument that is required. -/
def incompatibility? (ds : Declarations) (expected found : Field) : Option Incompatibility :=
  if !found.type.isSubtype ds.isPossible expected.type then
    some (.type found.type expected.type)
  else
    expected.arguments.findSome? (fun a =>
      match found.argument? a.name with
      | none => some (.missingArgument a.name)
      | some b => if b.type = a.type then none else some (.argumentType a.name b.type a.type)) <|>
    found.arguments.findSome? fun b =>
      if (expected.argument? b.name).isNone && b.required then some (.requiredExtra b.name)
      else none

/-- Whether the composed field of a name is the very field of the interface: the type does not
declare it, and no earlier interface does. Fields are values here, so a field is told by where it
comes from: one that several owners were declared with counts as separate, equal fields. This
matters only if its arguments repeat a name with different types, as every other field satisfies
itself. -/
def inherits (ds : Declarations) (type : String) (interfaces : List Implemented)
    (i : Implemented) (fieldName : String) : Bool :=
  !Table.contains (ds.fields.declared type .own) fieldName &&
    ((interfaces.find? fun j => Table.contains (ds.interfaceFields j) fieldName).map (·.name)
      == some i.name)

/-- The failures of composed fields against the fields of one interface. -/
def contractErrors (ds : Declarations) (type : String) (interfaces : List Implemented)
    (fields : Table String Field) (i : Implemented) : List Error :=
  (ds.interfaceFields i).filterMap fun (name, expected) =>
    if ds.inherits type interfaces i name then none
    else do
      let found ← Table.get? fields name
      let reason ← ds.incompatibility? expected found
      return .contractViolation i.name type name reason

/-! ## Composition -/

/-- The composition of an object type. -/
def compose (ds : Declarations) (type : String) (o : ObjectType) : Composition :=
  let interfaces := ds.implemented o.interfaces
  let fields := ds.composeFields type interfaces
  let behaviors := ds.composeBehaviors type o interfaces
  let (kept, dropped) := behaviors.partition fun (name, _) => Table.contains fields name
  { typeName := type
    fields
    behaviors := kept.map fun (name, b) => (name, b.bind type)
    dropped := Table.keys dropped
    errors := ds.interfaceErrors type [] o.interfaces ++
      interfaces.flatMap (ds.contractErrors type interfaces fields) }

/-- The composition of a definition, which must be an object type. -/
def composition (ds : Declarations) (d : Definition) : Except Error Composition :=
  match d.body with
  | .object o => .ok (ds.compose d.name o)
  | _ => .error (.noInterfaces d.kind)

/-- The compositions of all object types, in order of registration. -/
def compositions (ds : Declarations) : List Composition :=
  ds.definitions.filterMap fun d =>
    match d.body with
    | .object o => some (ds.compose d.name o)
    | _ => none

end Declarations

end GraphSchema
