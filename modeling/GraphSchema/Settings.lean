import GraphSchema.Error

/-!
# Settings

The settings of a schema. They come from configuration files and are taken as they are; only
an empty separator is refused.

## Main definitions

* `Settings` — the settings, with their defaults.
* `Settings.ofValue` — the settings in the entries of a map.
-/

namespace GraphSchema

/-- Whether names are given in the spelling with capitals, whether excluded types are reported,
and what stands between the parts of a global ID. -/
structure Settings where
  autoCamelize : Value := .bool true
  warnOnExcluded : Value := .bool true
  separator : Value := .str "-"

namespace Settings

/-- The settings in the entries of a map, defaults for the others. No other value can be asked for
an entry, not even one that has something under that name. -/
def ofValue : Value → Except Error Settings
  | .map entries =>
    let settings : Settings :=
      { autoCamelize := (Value.lookup entries "auto_camelize").getD (.bool true)
        warnOnExcluded := (Value.lookup entries "warn_on_excluded_types").getD (.bool true)
        separator := (Value.lookup entries "global_id_separator").getD (.str "-") }
    if settings.separator.truthy then .ok settings else .error .emptyIdSeparator
  | v => match v.attribute? "get" with
    | some part => .error (.notCallable part.className)
    | none => .error (.noAttribute v.className "get")

end Settings

end GraphSchema
