import GraphSchema.Reachability

/-!
# Schemas

A schema after its declarations have been checked and composed. Nothing changes in it any more.
Only reachable types are visible.

## Main definitions

* `Schema` — the composed tables and the reachable types.
* `Schema.getType`, `Schema.reachableTypes`, `Schema.possibleTypes` — its types.
* `Schema.effectiveFields`, `Schema.lookupField` — its fields.
* `Schema.effectiveBehaviors`, `Schema.effectiveBehavior` — its behaviors.
-/

namespace GraphSchema

/-- The definitions, the composed fields and behaviors of their owners, and the reachable
types. -/
structure Schema where
  definitions : List Definition
  roots : Roots
  settings : Settings
  fields : Table String (Table String Field)
  behaviors : Table String (Table String Behavior)
  reachability : Reachability

namespace Schema

/-- The definition of a name, reachable or not. -/
def find (s : Schema) (name : String) : Option Definition := findDefinition s.definitions name

/-- The definition of a name, which must be there. -/
def definition (s : Schema) (name : Option String) : Except Error Definition :=
  match name.bind s.find with
  | some d => .ok d
  | none => .error (.missingKey (.ofOption name))

/-! ## Roots -/

/-- The definitions of the root types. -/
def rootTypes (s : Schema) : Except Error (List Definition) :=
  s.roots.names.mapM fun name => s.definition (some name)

/-- The type of queries. -/
def queryType (s : Schema) : Except Error Definition := s.definition s.roots.query

/-- The type of a further root operation, if there is one. -/
def rootType? (s : Schema) (role : Role) : Option Definition := (s.roots.type? role).bind s.find

/-! ## Types -/

/-- Whether a type is part of the schema. -/
def isReachable (s : Schema) (name : String) : Bool := s.reachability.contains name

/-- The reachable type of a name. -/
def getType (s : Schema) (name : String) : Except Error Definition :=
  if s.isReachable name then s.definition (some name)
  else .error (.unknownType name none (s.find name).isSome)

/-- The reachable types, sorted by name. -/
def reachableTypes (s : Schema) : List Definition := s.reachability.reachable.filterMap s.find

/-- The declared types that are not reachable, without the built-in scalars. -/
def excludedTypes (s : Schema) : List String :=
  s.reachability.unreachable.filter fun name => !Definition.isBuiltin name

/-- The unreachable object types that implement reachable interfaces, with these. -/
def excludedImplementers (s : Schema) : Table String (List String) :=
  s.reachability.excludedImplementers

/-- Whether a reachable object type implements an interface or is a member of a union. -/
def isPossible (s : Schema) (abstract type : String) : Bool :=
  s.isReachable type &&
    match (s.find type).map Definition.body, (s.find abstract).map Definition.body with
    | some (.object o), some (.interface _) => o.interfaces.contains abstract
    | some (.object _), some (.union u) => u.members.contains type
    | _, _ => false

/-- The reachable object types of an abstract type, sorted by name. -/
def possibleTypes (s : Schema) (abstract : String) : List Definition :=
  s.reachableTypes.filter fun d => s.isPossible abstract d.name

/-! ## Fields and behaviors -/

/-- The table of composed fields of an owner. -/
def fieldTable (s : Schema) (owner : String) : Table String Field :=
  (Table.get? s.fields owner).getD []

/-- The table of composed behaviors of an owner. -/
def behaviorTable (s : Schema) (owner : String) : Table String Behavior :=
  (Table.get? s.behaviors owner).getD []

/-- The composed fields of a reachable object type or interface. -/
def effectiveFields (s : Schema) (type : String) : Except Error (List Field) := do
  let d ← s.getType type
  if d.hasFields then return Table.values (s.fieldTable type)
  else throw (.hasNoFields type d.kind)

/-- A composed field of a reachable type. -/
def lookupField (s : Schema) (type fieldName : String) : Except Error Field := do
  let _ ← s.getType type
  match Table.get? (s.fieldTable type) fieldName with
  | some f => return f
  | none => throw (.fieldNotFound type fieldName)

/-- The composed behaviors of a reachable type. -/
def effectiveBehaviors (s : Schema) (type : String) : Except Error (Table String Behavior) := do
  let _ ← s.getType type
  return s.behaviorTable type

/-- The composed behavior of a field of a reachable type. -/
def effectiveBehavior (s : Schema) (type fieldName : String) : Except Error Behavior := do
  let _ ← s.lookupField type fieldName
  match Table.get? (s.behaviorTable type) fieldName with
  | some b => return b
  | none => throw (.behaviorNotFound type fieldName)

end Schema

end GraphSchema
