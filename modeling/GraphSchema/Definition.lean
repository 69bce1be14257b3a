import GraphSchema.TypeKind
import GraphSchema.TypeRef.Spec

/-!
# Definitions

Definitions of named types. They refer to one another by name.

## Main definitions

* `ResolveType` — a function that tells the concrete type of a value.
* `ObjectType`, `InterfaceType`, `UnionType`, `EnumValue` — the parts of definitions.
* `Definition` — a named type.
* `Definition.builtins` — the types that every schema starts with.
* `Roots` — the root operations of a schema.
* `RootSpecs` — what is given to declare them.
-/

namespace GraphSchema

/-- What a type resolver answers: some value, or the definition registered under a name. -/
inductive Answer where
  | value (v : Value)
  | definition (name : String)

/-- Tells the concrete type of a value in a context. -/
abbrev ResolveType := Value → Option Context → Except Error Answer

/-- One value of an enum. -/
structure EnumValue where
  name : String
  value : Value := .null
  description : Option String := none
  deprecation : Option String := none

/-- An enum value that stands for its own name. -/
def EnumValue.ofName (name : String) : EnumValue := { name, value := .str name }

/-- What an object type has: fields, behaviors by field name, and the interfaces that it
implements. -/
structure ObjectType where
  fields : List Field := []
  behaviors : Table String Behavior := []
  interfaces : List String := []

/-- What an interface has: fields, behaviors for all implementing types, a type resolver, and
object types that belong to a schema whenever the interface does. -/
structure InterfaceType where
  fields : List Field := []
  behaviors : Table String Behavior := []
  orphans : List String := []
  resolveType : Option ResolveType := none

/-- What a union has: its member types and a type resolver. -/
structure UnionType where
  members : List String := []
  resolveType : Option ResolveType := none

/-- What a type of each kind has. -/
inductive TypeBody where
  | scalar
  | enum (values : List EnumValue)
  | inputObject (fields : List Argument)
  | interface (i : InterfaceType)
  | object (o : ObjectType)
  | union (u : UnionType)

/-- A named type. -/
structure Definition where
  name : String
  description : Option String := none
  body : TypeBody

/-- The kind of a type. -/
def TypeBody.kind : TypeBody → TypeKind
  | scalar => .scalar
  | enum _ => .enum
  | inputObject _ => .inputObject
  | interface _ => .interface
  | object _ => .object
  | union _ => .union

namespace Definition

/-- The kind of a definition. -/
def kind (d : Definition) : TypeKind := d.body.kind

/-- Whether the definition is an object type. -/
def isObject (d : Definition) : Bool := d.kind == .object

/-- The interfaces that a definition names: those of an object type. -/
def interfaces (d : Definition) : List String :=
  match d.body with
  | .object o => o.interfaces
  | _ => []

/-- Whether fields of the definition have behaviors and layers. -/
def hasFields (d : Definition) : Bool := d.kind == .object || d.kind == .interface

/-- The scalar types that every schema starts with. -/
def builtins : List Definition := [
  ⟨"String", some "UTF-8 character sequence.", .scalar⟩,
  ⟨"Int", some "Signed 32-bit integer.", .scalar⟩,
  ⟨"Float", some "Signed double-precision floating-point value.", .scalar⟩,
  ⟨"Boolean", some "`true` or `false`.", .scalar⟩,
  ⟨"ID", some "Unique identifier, serialized as a string.", .scalar⟩]

/-- Whether a name is that of a built-in scalar. -/
def isBuiltin (name : String) : Bool := builtins.any (·.name == name)

/-! ## Definitions from specifications -/

/-- An interface, its orphan types given in any form. -/
def declareInterface (name : String) (fields : List Field) (behaviors : Table String Behavior)
    (resolveType : Option ResolveType) (orphans : List Spec) (description : Option String) :
    Except Error Definition := do
  let orphans ← orphans.mapM Spec.typeName
  return ⟨name, description, .interface { fields, behaviors, orphans, resolveType }⟩

/-- An object type, its interfaces given in any form. -/
def declareObject (name : String) (interfaces : List Spec) (fields : List Field)
    (behaviors : Table String Behavior) (description : Option String) :
    Except Error Definition := do
  let interfaces ← interfaces.mapM Spec.typeName
  return ⟨name, description, .object { fields, behaviors, interfaces }⟩

/-- A union, its members given in any form. -/
def declareUnion (name : String) (members : List Spec) (resolveType : Option ResolveType)
    (description : Option String) : Except Error Definition := do
  let members ← members.mapM Spec.typeName
  return ⟨name, description, .union { members, resolveType }⟩

end Definition

/-- The first definition of a name. -/
def findDefinition (definitions : List Definition) (name : String) : Option Definition :=
  definitions.find? (·.name == name)

theorem mem_of_findDefinition {definitions : List Definition} {name : String} {d : Definition}
    (h : findDefinition definitions name = some d) : d ∈ definitions :=
  List.mem_of_find?_eq_some h

/-- The definition found bears the name that was looked for. -/
theorem name_of_findDefinition {definitions : List Definition} {name : String} {d : Definition}
    (h : findDefinition definitions name = some d) : d.name = name := by
  simpa using List.find?_some h

/-- The root operations of a schema, further object types that belong to it, and the resolver
for abstract types without their own. -/
structure Roots where
  query : Option String
  mutation : Option String := none
  subscription : Option String := none
  orphans : List String := []
  resolveType : Option ResolveType := none

namespace Roots

/-- The type of a root operation, if one is named. -/
def type? (r : Roots) : Role → Option String
  | .query => r.query.filter (· ≠ "")
  | .mutation => r.mutation.filter (· ≠ "")
  | .subscription => r.subscription.filter (· ≠ "")

/-- The root operations in order. -/
def roles : List Role := [.query, .mutation, .subscription]

/-- The types of the root operations. -/
def names (r : Roots) : List String := roles.filterMap r.type?

end Roots

/-- What is given to declare the roots of a schema. Of the query root it has to be said which type
it is, or that there is none. -/
structure RootSpecs where
  query : Option (Option Spec) := none
  mutation : Option Spec := none
  subscription : Option Spec := none
  orphans : List Spec := []
  resolveType : Option ResolveType := none

/-- The roots that are given, if there is a query root or none. -/
def RootSpecs.toRoots (given : RootSpecs) (query : Option Spec) : Except Error Roots := do
  let query ← query.mapM Spec.typeName
  let mutation ← given.mutation.mapM Spec.typeName
  let subscription ← given.subscription.mapM Spec.typeName
  let orphans ← given.orphans.mapM Spec.typeName
  return { query, mutation, subscription, orphans, resolveType := given.resolveType }

end GraphSchema
