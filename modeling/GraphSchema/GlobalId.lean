import GraphSchema.Error

/-!
# Global IDs

Opaque identifiers that are unique across a schema: the Base64 form of a type name, a separator
and the identifier of an object of that type.

## Main definitions

* `GlobalId.encode` — the global ID of an object.
* `GlobalId.decode` — the type name and the identifier in a global ID.
-/

namespace GraphSchema.GlobalId

/-- The global ID of the object of a type. -/
def encode (typeName objectId separator : String) : String :=
  String.ofList (Base64.encode (Utf8.encode (typeName ++ separator ++ objectId).toList))

/-- The texts before and after the first occurrence of a separator. -/
def splitFirst (separator : List Char) : List Char → Option (List Char × List Char)
  | [] => if separator = [] then some ([], []) else none
  | c :: cs =>
    if separator.isPrefixOf (c :: cs) then some ([], (c :: cs).drop separator.length)
    else (splitFirst separator cs).map fun (before, after) => (c :: before, after)

/-- The text behind a global ID. -/
def decodeText (input : String) : Except Error (List Char) :=
  if input.toList.all (·.toNat < 0x80) then
    match Base64.decode input.toList with
    | .error refusal => .error (.invalidGlobalId input (.base64 refusal))
    | .ok octets =>
      match Utf8.decode octets with
      | .error refusal => .error (.invalidGlobalId input (.utf8 refusal))
      | .ok text => .ok text
  else .error .nonAsciiGlobalId

/-- The type name and the identifier in a global ID, parted at the first separator. -/
def decode (input separator : String) : Except Error (String × String) := do
  let text ← decodeText input
  if separator = "" then throw .emptySeparator
  match splitFirst separator.toList text with
  | some (c :: typeName, objectId) =>
    return (String.ofList (c :: typeName), String.ofList objectId)
  | _ => throw (.invalidGlobalId input .missingTypeName)

end GraphSchema.GlobalId
