import GraphSchema.TypeRef.Spec

/-!
# Declaring fields and arguments

Fields and arguments as their authors write them, with their types in any of the accepted
forms.

## Main definitions

* `Argument.declare` — an argument from its parts.
* `Field.Options`, `Field.declare` — a field from its name, its type and further options.
* `Field.globalId` — the field that holds the global ID of an object.
-/

namespace GraphSchema

/-- An argument. A required one without a default is not null, and an argument that is not null
and has no default is required. -/
def Argument.declare (name : String) (type : Spec) (required : Bool)
    (defaultValue : Option Value) (description : Option String) : Except Error Argument := do
  let ref ← type.toTypeRef
  let ref := if required && defaultValue.isNone then ref.required else ref
  return { name, type := ref, required := ref.isNonNull && defaultValue.isNone, defaultValue,
           description }

namespace Field

/-- What may be said about a field beyond its name and type. -/
structure Options where
  nullable : Bool := true
  arguments : List Argument := []
  description : Option String := none
  resolver : Option Behavior := none
  deprecation : Option String := none
  connection : Bool := false
  camelize : Bool := true

/-- The arguments of every connection. -/
def connectionArguments : List Argument := [
  { name := "first", type := .named "Int",
    description := some "Returns the first _n_ elements from the list." },
  { name := "after", type := .named "String",
    description := some
      "Returns the elements in the list that come after the specified cursor." },
  { name := "last", type := .named "Int",
    description := some "Returns the last _n_ elements from the list." },
  { name := "before", type := .named "String",
    description := some
      "Returns the elements in the list that come before the specified cursor." }]

/-- The arguments with those of a connection that are not among them. -/
def addConnectionArguments (args : List Argument) : List Argument :=
  args ++ connectionArguments.filter fun c => !args.any (·.name == c.name)

/-- A field. -/
def declare (name : String) (type : Spec) (o : Options) : Except Error Field := do
  let ref ← type.toTypeRef
  return {
    name
    type := if o.nullable then ref else ref.required
    arguments := if o.connection then addConnectionArguments o.arguments else o.arguments
    description := o.description
    resolver := o.resolver
    deprecation := o.deprecation
    connection := o.connection
    camelize := o.camelize }

/-- What a global ID field is described as, unless told otherwise. -/
def globalIdDescription : String := "The global ID of the object."

/-- The field that holds the global ID of an object. -/
def globalId (name : String) (resolver : Behavior) (description : Option String) : Field where
  name := name
  type := .nonNull (.named "ID")
  description := some ((description.filter (· ≠ "")).getD globalIdDescription)
  resolver := some resolver

end Field

end GraphSchema
