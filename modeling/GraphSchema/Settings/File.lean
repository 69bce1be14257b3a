import GraphSchema.Settings
import GraphSchema.Yaml.Block
import GraphSchema.Yaml.Node

/-!
# Settings files

Settings as YAML documents: a version, and the settings under the key `schema`.

## Main definitions

* `Settings.load` — the settings of a file, which need not exist.
* `Settings.save` — the file of settings.
-/

namespace GraphSchema.Settings

/-- The settings of a document. Empty documents and sections stand for defaults. -/
def ofDocument (document : Value) : Except Error Settings :=
  if !document.truthy then ofValue (.map [])
  else match document with
    | .map entries =>
      let settings := (Value.lookup entries "schema").getD .null
      ofValue (if settings.truthy then settings else .map [])
    | v => .error (.noAttribute v.className "get")

/-- The settings of a file; without a file there are only defaults. -/
def load : Option String → Except Error Settings
  | none => .ok {}
  | some text =>
    match Yaml.read text with
    | .ok document => ofDocument document
    | .error fault => .error (.invalidSettings fault)

/-- The entries of the document of settings. -/
def document (s : Settings) : List (Value × Value) := [
  (.str "version", .int 1),
  (.str "schema", .map [
    (.str "auto_camelize", s.autoCamelize),
    (.str "warn_on_excluded_types", s.warnOnExcluded),
    (.str "global_id_separator", s.separator)])]

/-- The file of settings, if they can be written so that they are read again. -/
def save (s : Settings) : Except Error String :=
  match Yaml.write s.document with
  | some text => .ok text
  | none => .error (.invalidSettings .malformed)

/-- Whether two settings are equal. -/
def same (s t : Settings) : Bool :=
  Value.same s.autoCamelize t.autoCamelize && Value.same s.warnOnExcluded t.warnOnExcluded &&
    Value.same s.separator t.separator

end GraphSchema.Settings
