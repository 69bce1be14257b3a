import GraphSchema.Registry

/-!
# Violations

What is wrong with the references of a set of declarations: names that are not defined, names of
types of the wrong kind, and types that must not be empty.

## Main definitions

* `Declarations.expect` — the error of one reference, if any.
* `Registry.referenceErrors` — the errors of all references, in order.
-/

namespace GraphSchema

namespace Declarations

/-- The error of a reference to the type `name` from a place that admits some kinds. -/
def expect (ds : Declarations) (name : String) (position : Position) (place : Reference) :
    List Error :=
  match ds.find name with
  | none => [.unknownType name (some place) false]
  | some d => if position.admits d.kind then [] else [.wrongKind place position d.kind name]

/-- The errors of the root operations. -/
def rootErrors (ds : Declarations) : Option Roots → List Error
  | none => [.noQueryRoot]
  | some r =>
    (Roots.roles.flatMap fun role =>
      match r.type? role with
      | some name => ds.expect name .object (.root role)
      | none => []) ++
    r.orphans.flatMap fun name => ds.expect name .object .schemaOrphan

/-- The errors of a field and its arguments. -/
def fieldErrors (ds : Declarations) (owner : String) (f : Field) : List Error :=
  ds.expect f.type.innermost .output (.field owner f.name) ++
    f.arguments.flatMap fun a =>
      ds.expect a.type.innermost .input (.argument owner f.name a.name)

/-- The errors of a definition. -/
def definitionErrors (ds : Declarations) (d : Definition) : List Error :=
  match d.body with
  | .scalar => []
  | .enum values => if values.isEmpty then [.emptyEnum d.name] else []
  | .inputObject inputs => inputs.flatMap fun a =>
      ds.expect a.type.innermost .input (.inputField d.name a.name)
  | .interface i => i.fields.flatMap (ds.fieldErrors d.name) ++
      i.orphans.flatMap fun name => ds.expect name .object (.interfaceOrphan d.name)
  | .object o => o.fields.flatMap (ds.fieldErrors d.name)
  | .union u => (if u.members.isEmpty then [.emptyUnion d.name] else []) ++
      u.members.flatMap fun name => ds.expect name .object (.member d.name)

end Declarations

/-- The errors of all references: of the roots, then of the definitions in order. -/
def Registry.referenceErrors (r : Registry) : List Error :=
  r.declarations.rootErrors r.roots ++
    r.declarations.definitions.flatMap r.declarations.definitionErrors

end GraphSchema
