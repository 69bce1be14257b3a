import GraphSchema.Behavior

/-!
# Fields and arguments

## Main definitions

* `Argument` — an argument of a field, or a field of an input object.
* `Field` — a field of an object type or an interface.
* `Field.argument?` — the argument of a name.
* `Argument.camelized`, `Field.camelized` — with names in the spelling with capitals.
-/

namespace GraphSchema

/-- An argument of a field, or a field of an input object. -/
structure Argument where
  name : String
  type : TypeRef
  required : Bool := false
  defaultValue : Option Value := none
  description : Option String := none
deriving Inhabited

/-- A field of an object type or an interface. `camelize` says whether its name may be given in
the spelling with capitals. -/
structure Field where
  name : String
  type : TypeRef
  arguments : List Argument := []
  description : Option String := none
  resolver : Option Behavior := none
  deprecation : Option String := none
  connection : Bool := false
  camelize : Bool := true

/-- The argument with its name in the spelling with capitals. -/
def Argument.camelized (a : Argument) : Argument := { a with name := camelCase a.name }

namespace Field

/-- The first argument of a name. -/
def argument? (f : Field) (name : String) : Option Argument :=
  f.arguments.find? (·.name == name)

/-- The field with its name and the names of its arguments in the spelling with capitals, if it
allows that. -/
def camelized (f : Field) : Field :=
  if f.camelize then
    { f with name := camelCase f.name, arguments := f.arguments.map Argument.camelized }
  else f

end Field

end GraphSchema
