/-!
# Kinds of types

The kinds of named types, where each may stand, and the tables of fields that those with fields can
have.

## Main definitions

* `TypeKind` — the six kinds of named types.
* `Position` — a place that a type name can stand in, with the kinds it admits.
* `Layer` — the three tables of fields of an owner.
-/

namespace GraphSchema

/-- The kind of a named type. -/
inductive TypeKind where
  | enum
  | inputObject
  | interface
  | object
  | scalar
  | union
deriving DecidableEq, Inhabited

/-- The name of a kind. -/
def TypeKind.text : TypeKind → String
  | .enum => "ENUM"
  | .inputObject => "INPUT_OBJECT"
  | .interface => "INTERFACE"
  | .object => "OBJECT"
  | .scalar => "SCALAR"
  | .union => "UNION"

/-- How definitions of a kind are called. -/
def TypeKind.definitionText : TypeKind → String
  | .enum => "EnumDef"
  | .inputObject => "InputObjectDef"
  | .interface => "InterfaceDef"
  | .object => "ObjectTypeDef"
  | .scalar => "ScalarDef"
  | .union => "UnionDef"

/-- Where a type name stands: a place for object types only, for the type of a field, or for
the type of an argument or input field. -/
inductive Position where
  | object
  | output
  | input
deriving DecidableEq, Inhabited

/-- The kinds that a position admits, sorted by name. -/
def Position.kinds : Position → List TypeKind
  | .object => [.object]
  | .output => [.enum, .interface, .object, .scalar, .union]
  | .input => [.enum, .inputObject, .scalar]

/-- Whether a type of the kind may stand in the position. -/
def Position.admits (p : Position) (k : TypeKind) : Bool := p.kinds.contains k

/-- Fields that an interface declares, fields that an object type declares itself, and the
composed fields. -/
inductive Layer where
  | interface
  | own
  | effective
deriving DecidableEq, Inhabited

/-- The name of a layer. -/
def Layer.text : Layer → String
  | .interface => "interface"
  | .own => "own"
  | .effective => "effective"

/-- The layer of a name. -/
def Layer.ofText? : String → Option Layer
  | "interface" => some .interface
  | "own" => some .own
  | "effective" => some .effective
  | _ => none

end GraphSchema
