import GraphSchema.Field
import GraphSchema.TypeRef.Parser

/-!
# Type specifications

The forms in which a declaration may give a type: a text, a class of values that stands for a
scalar, a list of one item type, a definition, or a reference.

## Main definitions

* `Spec` — what a declaration gives as a type.
* `Spec.inspect` — a specification in a message.
* `Spec.toTypeRef` — the reference that it stands for.
* `Spec.typeName` — the name of the type that it stands for, where no wrapper is allowed.
-/

namespace GraphSchema

/-- The classes of values. -/
inductive ValueClass where
  | str
  | int
  | float
  | bool
  | list
  | dict
  | tuple
  | object
  | bytes
deriving DecidableEq, Inhabited

namespace ValueClass

/-- The name of a class. -/
def text : ValueClass → String
  | str => "str"
  | int => "int"
  | float => "float"
  | bool => "bool"
  | list => "list"
  | dict => "dict"
  | tuple => "tuple"
  | object => "object"
  | bytes => "bytes"

/-- The scalar type that a class stands for. -/
def scalar? : ValueClass → Option String
  | str => some "String"
  | int => some "Int"
  | float => some "Float"
  | bool => some "Boolean"
  | _ => none

end ValueClass

/-- What a declaration gives as a type. `definition` is anything known only by its name, and
`value` any other value, neither a text nor a list. -/
inductive Spec where
  | text (s : String)
  | valueClass (c : ValueClass)
  | list (items : List Spec)
  | definition (name : Value)
  | ref (t : TypeRef)
  | argument (a : Argument)
  | value (v : Value)

instance : Inhabited Spec := ⟨.text ""⟩

/-- A reference in a message. -/
def TypeRef.inspect : TypeRef → String
  | .named name => "TypeRef(kind='named', name=" ++ Value.quote name ++ ", of_type=None)"
  | .list t => "TypeRef(kind='list', name=None, of_type=" ++ t.inspect ++ ")"
  | .nonNull t => "TypeRef(kind='non_null', name=None, of_type=" ++ t.inspect ++ ")"

/-- An argument in a message. -/
def Argument.inspect (a : Argument) : String :=
  "ArgumentDef(name=" ++ Value.quote a.name ++ ", type=" ++ a.type.inspect ++
    ", required=" ++ (Value.bool a.required).inspect ++
    ", default=" ++ (match a.defaultValue with
      | some v => v.inspect
      | none => "NO_DEFAULT") ++
    ", description=" ++ (Value.ofOption a.description).inspect ++ ")"

namespace Spec

mutual

/-- A specification in a message. -/
def inspect : Spec → String
  | text s => Value.quote s
  | valueClass c => "<class '" ++ c.text ++ "'>"
  | list items => "[" ++ Value.commas (inspectAll items) ++ "]"
  | definition name => "<def " ++ name.display ++ ">"
  | ref t => t.inspect
  | argument a => a.inspect
  | value v => v.inspect

/-- The specifications of a list in a message. -/
def inspectAll : List Spec → List String
  | [] => []
  | x :: xs => inspect x :: inspectAll xs

end

/-- The name that a specification other than a text bears. -/
def name? : Spec → Option String
  | definition (.str name) => some name
  | ref (.named name) => some name
  | argument a => some a.name
  | value v => match v.attribute? "name" with
    | some (.str name) => some name
    | _ => none
  | _ => none

/-- The reference that a specification stands for. Items of a list are not null. -/
def toTypeRef : Spec → Except Error TypeRef
  | ref t => .ok t
  | valueClass c => match c.scalar? with
    | some name => .ok (.named name)
    | none => .error (.notAType (valueClass c).inspect)
  | list [item] => do
    let t ← toTypeRef item
    return .list t.required
  | list items => .error (.listItems (list items).inspect)
  | text s => TypeRef.parse s
  | spec => match spec.name? with
    | some name => TypeRef.named? name
    | none => .error (.notAType spec.inspect)

/-- The name of the type that a specification stands for: a name itself, or what bears one. -/
def typeName : Spec → Except Error String
  | text s => .ok s
  | spec => match spec.name? with
    | some name => .ok name
    | none => .error (.notATypeName spec.inspect)

/-- The specification that a value is. -/
def ofValue : Value → Spec
  | .str s => text s
  | v => value v

end Spec

end GraphSchema
