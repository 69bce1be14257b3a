import GraphSchema.Decimal.Shortest
import GraphSchema.Table

/-!
# Values

The runtime values that fields resolve to, arguments carry and type resolution looks at.

## Main definitions

* `Class` — a class of values.
* `Value` — a runtime value.
* `Value.truthy` — whether a value counts as true.
* `Value.same`, `Value.ofEntries` — when two values are equal, and the map of a list of entries.
* `Value.lineage` — the classes that a value is an instance of.
* `Value.lookup` — look up a textual key in the entries of a map.
* `Value.operations` — the operations of a value that is not an object.
* `Value.attribute?`, `Value.method?`, `Value.member?` — the parts of a value.
-/

namespace GraphSchema

/-- A class of values. A declared class is told apart by the place of its declaration from all
others of its name; a built-in class has none. -/
structure Class where
  name : String
  declared : Option Nat := none
deriving DecidableEq, Inhabited

/-- A runtime value. An object has its class and all classes that this derives from; its methods
hide attributes of the same name, and a method is known by what it returns when called without
arguments. -/
inductive Value where
  | null
  | bool (b : Bool)
  | int (i : Int)
  | float (x : Float)
  | str (s : String)
  | list (items : List Value)
  | tuple (items : List Value)
  | map (entries : List (Value × Value))
  | object (lineage : List Class) (attributes methods : List (String × Value))

namespace Value

instance : Inhabited Value := ⟨.null⟩

/-- Null, false, zero and all that is empty count as false. -/
def truthy : Value → Bool
  | null => false
  | bool b => b
  | int i => i != 0
  | float x => !(x == 0)
  | str s => s != ""
  | list items => !items.isEmpty
  | tuple items => !items.isEmpty
  | map entries => !entries.isEmpty
  | object .. => true

/-- Whether the double is exactly the integer. -/
def floatIsInt (x : Float) (i : Int) : Bool :=
  if x.isNaN || x.isInf then false
  else
    let b := Decimal.Binary.ofFloat x
    let m : Int := if Decimal.isNegative x then -b.mantissa else b.mantissa
    m * Decimal.power 2 b.exponent == i * Decimal.power 2 (-b.exponent)

/-- The integer behind an integer or a truth value. -/
def toInt? : Value → Option Int
  | bool b => some (if b then 1 else 0)
  | int i => some i
  | _ => none

/-- Whether two values that are not compound are equal: numbers by their numerical value, truth
values as zero and one. -/
def sameScalar (a b : Value) : Bool :=
  match a.toInt?, b.toInt? with
  | some i, some j => i == j
  | some i, none => match b with
    | float y => floatIsInt y i
    | _ => false
  | none, some j => match a with
    | float x => floatIsInt x j
    | _ => false
  | none, none => match a, b with
    | null, null => true
    | float x, float y => x == y
    | str s, str t => s == t
    | _, _ => false

mutual

/-- Whether two values are equal. The order of a map does not matter, and no two objects are
equal. -/
def same : Value → Value → Bool
  | tuple xs, tuple ys => sameItems xs ys
  | list xs, list ys => sameItems xs ys
  | map es, map fs => es.length == fs.length && sameEntries es fs
  | a, b => sameScalar a b

/-- Whether two lists of values are equal, one by one. -/
def sameItems : List Value → List Value → Bool
  | [], [] => true
  | x :: xs, y :: ys => same x y && sameItems xs ys
  | _, _ => false

/-- Whether the entries of one map are all among those of another. -/
def sameEntries : List (Value × Value) → List (Value × Value) → Bool
  | [], _ => true
  | (k, v) :: es, fs => fs.any (fun f => same k f.1 && same v f.2) && sameEntries es fs

end

/-- Adds an entry to a map whose keys are told apart by `sameKey`: a known key keeps its place and
its first form. -/
def insertEntry (sameKey : Value → Value → Bool) :
    List (Value × Value) → Value → Value → List (Value × Value)
  | [], k, v => [(k, v)]
  | (k', v') :: es, k, v =>
    if sameKey k' k then (k', v) :: es else (k', v') :: insertEntry sameKey es k v

/-- The map of a list of entries whose keys are told apart by `sameKey`. -/
def ofEntries (sameKey : Value → Value → Bool) (entries : List (Value × Value)) : Value :=
  map (entries.foldl (fun es e => insertEntry sameKey es e.1 e.2) [])

/-- The classes that a value is an instance of, its own first. -/
def lineage : Value → List Class
  | null => [⟨"NoneType", none⟩, ⟨"object", none⟩]
  | bool _ => [⟨"bool", none⟩, ⟨"int", none⟩, ⟨"object", none⟩]
  | int _ => [⟨"int", none⟩, ⟨"object", none⟩]
  | float _ => [⟨"float", none⟩, ⟨"object", none⟩]
  | str _ => [⟨"str", none⟩, ⟨"object", none⟩]
  | list _ => [⟨"list", none⟩, ⟨"object", none⟩]
  | tuple _ => [⟨"tuple", none⟩, ⟨"object", none⟩]
  | map _ => [⟨"dict", none⟩, ⟨"object", none⟩]
  | object lineage _ _ => lineage

/-- The name of a value's class. -/
def className (v : Value) : String := (v.lineage.head?.map (·.name)).getD ""

/-- The value under a textual key in the entries of a map. -/
def lookup : List (Value × Value) → String → Option Value
  | [], _ => none
  | (str s, v) :: es, name => if s = name then some v else lookup es name
  | _ :: es, name => lookup es name

/-- What the method `name` of an object returns. -/
def method? : Value → String → Option Value
  | object _ _ methods, name => Table.get? methods name
  | _, _ => none

/-- The names of the operations of a value that is not an object. -/
def operations : Value → List String
  | bool _ | int _ =>
    ["as_integer_ratio", "bit_count", "bit_length", "conjugate", "from_bytes", "to_bytes"]
  | float _ =>
    ["as_integer_ratio", "conjugate", "fromhex", "hex", "is_integer"]
  | str _ =>
    ["capitalize", "casefold", "center", "count", "encode", "endswith", "expandtabs", "find",
      "format", "format_map", "index", "isalnum", "isalpha", "isascii", "isdecimal",
      "isdigit", "isidentifier", "islower", "isnumeric", "isprintable", "isspace", "istitle",
      "isupper", "join", "ljust", "lower", "lstrip", "maketrans", "partition", "removeprefix",
      "removesuffix", "replace", "rfind", "rindex", "rjust", "rpartition", "rsplit", "rstrip",
      "split", "splitlines", "startswith", "strip", "swapcase", "title", "translate", "upper",
      "zfill"]
  | list _ =>
    ["append", "clear", "copy", "count", "extend", "index", "insert", "pop", "remove",
      "reverse", "sort"]
  | tuple _ =>
    ["count", "index"]
  | _ => []

/-- An operation as a value of its own, of which only the class is known. -/
def operation : Value := object [⟨"builtin_function_or_method", none⟩, ⟨"object", none⟩] [] []

/-- The attribute `name` of a value: of an object that has no method of that name, a part of a
number, or an operation. -/
def attribute? : Value → String → Option Value
  | object _ attributes methods, name =>
    if Table.contains methods name then none else Table.get? attributes name
  | float x, "real" => some (float x)
  | float _, "imag" => some (float 0)
  | v, name => match v.toInt?, name with
    | some i, "real" | some i, "numerator" => some (int i)
    | some _, "imag" => some (int 0)
    | some _, "denominator" => some (int 1)
    | _, name => if v.operations.contains name then some operation else none

/-- What a value has under a name: its attribute, or what its method returns. -/
def member? (v : Value) (name : String) : Option Value :=
  v.attribute? name <|> v.method? name

end Value

end GraphSchema
