import GraphSchema.Definition
import GraphSchema.FieldStore

/-!
# Declarations

What has been declared: the definitions in order of registration, and the fields of their
owners. This is what composition and reachability read.

## Main definitions

* `Declarations` — definitions and fields.
* `Declarations.find` — the definition of a name.
* `Declarations.isPossible` — whether a type belongs to an abstract type.
* `Declarations.references` — the types that a definition names.
-/

namespace GraphSchema

/-- Definitions in order of registration, and fields by owner and layer. -/
structure Declarations where
  definitions : List Definition := Definition.builtins
  fields : FieldStore := {}

namespace Declarations

/-- The definition of a name. -/
def find (ds : Declarations) (name : String) : Option Definition :=
  findDefinition ds.definitions name

/-- What the type of a name has. -/
def body? (ds : Declarations) (name : String) : Option TypeBody :=
  (ds.find name).map Definition.body

/-- Whether a type implements an interface, or is a member of a union. -/
def isPossible (ds : Declarations) (abstract type : String) : Bool :=
  match ds.body? abstract with
  | some (.interface _) => match ds.body? type with
    | some (.object o) => o.interfaces.contains abstract
    | _ => false
  | some (.union u) => u.members.contains type
  | _ => false

/-- The types that a field and its arguments name. -/
def fieldReferences (f : Field) : List String :=
  f.type.innermost :: f.arguments.map (·.type.innermost)

/-- The types that the composed fields of an owner name. -/
def effectiveReferences (ds : Declarations) (owner : String) : List String :=
  (Table.values (ds.fields.effective owner)).flatMap fieldReferences

/-- The types that a definition names. The types that implement an interface are not among
them. -/
def references (ds : Declarations) (d : Definition) : List String :=
  match d.body with
  | .object o => ds.effectiveReferences d.name ++ o.interfaces
  | .interface i => ds.effectiveReferences d.name ++ i.orphans
  | .union u => u.members
  | .inputObject fields => fields.map (·.type.innermost)
  | .scalar | .enum _ => []

end Declarations

end GraphSchema
