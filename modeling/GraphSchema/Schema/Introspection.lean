import GraphSchema.Schema
import GraphSchema.Value.Literal

/-!
# Introspection

A description of the reachable types of a schema for its clients.

## Main definitions

* `TypeRefInfo`, `InputValueInfo`, `FieldInfo`, `EnumValueInfo`, `TypeInfo`, `SchemaInfo` — the
  parts of the description.
* `Schema.introspect` — the description of a schema.
-/

namespace GraphSchema

/-- A reference with the kind of the type that it wraps. -/
inductive TypeRefInfo where
  | named (kind : TypeKind) (name : String)
  | list (item : TypeRefInfo)
  | nonNull (inner : TypeRefInfo)
deriving DecidableEq

/-- An argument or an input field; its default is a literal. -/
structure InputValueInfo where
  name : String
  description : Option String
  type : TypeRefInfo
  defaultValue : Option String
deriving DecidableEq

/-- A field. -/
structure FieldInfo where
  name : String
  description : Option String
  args : List InputValueInfo
  type : TypeRefInfo
  deprecation : Option String
deriving DecidableEq

/-- Whether a field is deprecated: whether a reason is given, be it empty. -/
def FieldInfo.isDeprecated (f : FieldInfo) : Bool := f.deprecation.isSome

/-- A value of an enum. -/
structure EnumValueInfo where
  name : String
  description : Option String
  deprecation : Option String
deriving DecidableEq

/-- Whether an enum value is deprecated: whether a reason is given, be it empty. -/
def EnumValueInfo.isDeprecated (v : EnumValueInfo) : Bool := v.deprecation.isSome

/-- A type. Lists that do not apply to its kind are missing. -/
structure TypeInfo where
  kind : TypeKind
  name : String
  description : Option String
  fields : Option (List FieldInfo) := none
  interfaces : Option (List TypeRefInfo) := none
  possibleTypes : Option (List TypeRefInfo) := none
  enumValues : Option (List EnumValueInfo) := none
  inputFields : Option (List InputValueInfo) := none
deriving DecidableEq

/-- A schema: its roots and its reachable types. -/
structure SchemaInfo where
  queryType : TypeRefInfo
  mutationType : Option TypeRefInfo
  subscriptionType : Option TypeRefInfo
  types : List TypeInfo
deriving DecidableEq

/-- The first type of a name. -/
def SchemaInfo.getType? (info : SchemaInfo) (name : String) : Option TypeInfo :=
  info.types.find? (·.name == name)

namespace Schema

/-- The reference to a declared type. -/
def namedInfo (s : Schema) (name : Option String) : Except Error TypeRefInfo := do
  let d ← s.definition name
  return .named d.kind d.name

/-- A reference. -/
def typeRefInfo (s : Schema) : TypeRef → Except Error TypeRefInfo
  | .named name => s.namedInfo (some name)
  | .list t => .list <$> s.typeRefInfo t
  | .nonNull t => .nonNull <$> s.typeRefInfo t

/-- An argument or input field. -/
def inputValueInfo (s : Schema) (a : Argument) : Except Error InputValueInfo := do
  let type ← s.typeRefInfo a.type
  return ⟨a.name, a.description, type, a.defaultValue.map Value.literal⟩

/-- A field. -/
def fieldInfo (s : Schema) (f : Field) : Except Error FieldInfo := do
  let args ← f.arguments.mapM s.inputValueInfo
  let type ← s.typeRefInfo f.type
  return ⟨f.name, f.description, args, type, f.deprecation⟩

/-- The possible types of an abstract type. -/
def possibleInfo (s : Schema) (abstract : String) : Except Error (List TypeRefInfo) :=
  (s.possibleTypes abstract).mapM fun d => s.namedInfo (some d.name)

/-- A type. -/
def typeInfo (s : Schema) (d : Definition) : Except Error TypeInfo := do
  let info : TypeInfo := { kind := d.kind, name := d.name, description := d.description }
  match d.body with
  | .scalar => return info
  | .enum values =>
    return { info with
      enumValues := some (values.map fun v => ⟨v.name, v.description, v.deprecation⟩) }
  | .inputObject inputs => return { info with inputFields := some (← inputs.mapM s.inputValueInfo) }
  | .object o =>
    let fields ← (Table.values (s.fieldTable d.name)).mapM s.fieldInfo
    let interfaces ← o.interfaces.mapM fun name => s.namedInfo (some name)
    return { info with fields := some fields, interfaces := some interfaces }
  | .interface _ =>
    let fields ← (Table.values (s.fieldTable d.name)).mapM s.fieldInfo
    return { info with fields := some fields, possibleTypes := some (← s.possibleInfo d.name) }
  | .union _ => return { info with possibleTypes := some (← s.possibleInfo d.name) }

/-- The description of the reachable part of a schema. -/
def introspect (s : Schema) : Except Error SchemaInfo := do
  let queryType ← s.namedInfo s.roots.query
  let mutationType ← (s.roots.type? .mutation).mapM fun name => s.namedInfo (some name)
  let subscriptionType ← (s.roots.type? .subscription).mapM fun name => s.namedInfo (some name)
  let types ← s.reachableTypes.mapM s.typeInfo
  return { queryType, mutationType, subscriptionType, types }

end Schema

end GraphSchema
