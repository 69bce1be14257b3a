import GraphSchema.Hash.Sha256
import GraphSchema.Schema
import GraphSchema.Text.CharClass
import GraphSchema.Value.Literal

/-!
# Printed schemas

The schema definition language: the roots, then the reachable types by name, without the
built-in scalars. Fields stand in order of composition.

## Main definitions

* `Schema.printType` — the lines of one definition.
* `Schema.print` — the text of a schema.
* `Schema.fingerprint` — the hash of that text.
-/

namespace GraphSchema

namespace Printer

/-- The lines of a description: on one line if it has neither quotes nor line feeds, else as a
block. Nothing is printed for an empty one. -/
def descriptionLines (indent : String) (description : Option String) : List String :=
  match description with
  | none | some "" => []
  | some text =>
    if text.contains '\n' || text.contains '"' then
      (indent ++ "\"\"\"") ::
        (Text.lines text.toList).map (fun line =>
          if line.isEmpty then "" else indent ++ String.ofList line) ++
        [indent ++ "\"\"\""]
    else [indent ++ "\"" ++ text ++ "\""]

/-- The mark of a deprecation. -/
def deprecation : Option String → String
  | none => ""
  | some reason =>
    " @deprecated(reason: " ++ String.ofList (Text.jsonQuoted reason.toList) ++ ")"

/-- An argument with its type and default. -/
def argument (a : Argument) : String :=
  a.name ++ ": " ++ a.type.text ++
    match a.defaultValue with
    | some v => " = " ++ v.literal
    | none => ""

/-- The arguments of a field in parentheses. -/
def arguments : List Argument → String
  | [] => ""
  | args => "(" ++ Value.commas (args.map argument) ++ ")"

/-- The lines of a field. -/
def fieldLines (f : Field) : List String :=
  descriptionLines "  " f.description ++
    ["  " ++ f.name ++ arguments f.arguments ++ ": " ++ f.type.text ++ deprecation f.deprecation]

/-- The lines of an input field. -/
def inputFieldLines (a : Argument) : List String :=
  descriptionLines "  " a.description ++ ["  " ++ argument a]

/-- The lines of an enum value. -/
def enumValueLines (v : EnumValue) : List String :=
  descriptionLines "  " v.description ++ ["  " ++ v.name ++ deprecation v.deprecation]

/-- Lines between braces after a header. -/
def block (header : String) (lines : List String) : List String :=
  (header ++ " \x7b") :: lines ++ ["\x7d"]

/-- The interfaces in the header of an object type. -/
def implements : List String → String
  | [] => ""
  | names => " implements " ++ String.intercalate " & " names

/-- The lines of a definition whose composed fields are given. -/
def definitionLines (d : Definition) (fields : List Field) : List String :=
  descriptionLines "" d.description ++
    match d.body with
    | .scalar => ["scalar " ++ d.name]
    | .enum values => block ("enum " ++ d.name) (values.flatMap enumValueLines)
    | .union u => ["union " ++ d.name ++ " = " ++ String.intercalate " | " u.members]
    | .inputObject inputs => block ("input " ++ d.name) (inputs.flatMap inputFieldLines)
    | .interface _ => block ("interface " ++ d.name) (fields.flatMap fieldLines)
    | .object o =>
      block ("type " ++ d.name ++ implements o.interfaces) (fields.flatMap fieldLines)

/-- The lines of the root operations. -/
def rootLines (r : Roots) : List String :=
  block "schema" (("  query: " ++ (Value.ofOption r.query).display) ::
    [Role.mutation, Role.subscription].filterMap fun role =>
      (r.type? role).map fun name => "  " ++ role.text ++ ": " ++ name)

end Printer

namespace Schema

/-- The lines of a definition of the schema. -/
def printType (s : Schema) (d : Definition) : Except Error (List String) :=
  if d.hasFields then Printer.definitionLines d <$> s.effectiveFields d.name
  else .ok (Printer.definitionLines d [])

/-- The reachable types that are printed. -/
def printedTypes (s : Schema) : List Definition :=
  s.reachableTypes.filter fun d => !Definition.isBuiltin d.name

/-- The text of a schema. Every schema has one: defaults are literals however large or deeply nested,
and texts have no lone surrogates. -/
def print (s : Schema) : String :=
  let types := s.printedTypes.map fun d =>
    Printer.definitionLines d (Table.values (s.fieldTable d.name))
  String.intercalate "\n\n" ((Printer.rootLines s.roots :: types).map (String.intercalate "\n"))
    ++ "\n"

/-- The hash of the text of a schema. It is total as the text is: no limit is set to the digits of
an integer or to nesting, and a text can always be encoded. -/
def fingerprint (s : Schema) : String :=
  "sha256:" ++ Sha256.hexDigest (Utf8.encode s.print.toList)

end Schema

end GraphSchema
