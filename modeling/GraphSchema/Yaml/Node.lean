import GraphSchema.Yaml.Scalar
import GraphSchema.Yaml.Token

/-!
# Nodes of YAML

The tree of a YAML document, and the value that it stands for.

## Main definitions

* `Node` — a scalar, a sequence or a mapping.
* `node` and the functions beside it — the nodes of tokens.
* `document` — the node of a whole document.
* `Node.merged` — a node whose mappings have taken in what they merge.
* `Node.value` — the value of a node.
* `read` — the value of a text.
-/

namespace GraphSchema.Yaml

/-- A node of a document. -/
inductive Node where
  | scalar (text : List Char) (plain : Bool)
  | sequence (items : List Node)
  | mapping (entries : List (Node × Node))

/-- The node where nothing is written. -/
def Node.absent : Node := .scalar [] true

/-! ## Nodes of tokens -/

/-- The fault of tokens that do not fit: the fault that they start with, if they start with
one. -/
def unexpected {α : Type} : List Token → Except Fault α
  | .fault f :: _ => .error f
  | _ => .error .malformed

mutual

/-- The node that tokens start with, and the rest. The first argument bounds the depth of the
reading; `block` admits block collections, and `indentless` a sequence without indentation of its
own. -/
def node : Nat → (block indentless : Bool) → List Token → Except Fault (Node × List Token)
  | 0, _, _, _ => .error .malformed
  | n + 1, block, indentless, ts =>
    match ts with
    | .scalar text plain :: rest => .ok (.scalar text plain, rest)
    | .flowSequence :: rest => do
      let (items, rest) ← flowItems n true rest
      return (.sequence items, rest)
    | .flowMapping :: rest => do
      let (entries, rest) ← flowEntries n true rest
      return (.mapping entries, rest)
    | .blockEntry :: _ =>
      if indentless then do
        let (items, rest) ← indentlessItems n ts
        return (.sequence items, rest)
      else .error .malformed
    | .blockSequence :: rest =>
      if block then do
        let (items, rest) ← blockItems n rest
        return (.sequence items, rest)
      else .error .malformed
    | .blockMapping :: rest =>
      if block then do
        let (entries, rest) ← blockEntries n rest
        return (.mapping entries, rest)
      else .error .malformed
    | _ => unexpected ts

/-- The items of a block sequence. -/
def blockItems : Nat → List Token → Except Fault (List Node × List Token)
  | 0, _ => .error .malformed
  | n + 1, ts =>
    match ts with
    | .blockEnd :: rest => .ok ([], rest)
    | .blockEntry :: rest => do
      let (item, rest) ← match rest with
        | .blockEntry :: _ | .blockEnd :: _ => pure (Node.absent, rest)
        | _ => node n true false rest
      let (items, rest) ← blockItems n rest
      return (item :: items, rest)
    | _ => unexpected ts

/-- The items of a sequence that has no indentation of its own. -/
def indentlessItems : Nat → List Token → Except Fault (List Node × List Token)
  | 0, _ => .error .malformed
  | n + 1, ts =>
    match ts with
    | .blockEntry :: rest => do
      let (item, rest) ← match rest with
        | .blockEntry :: _ | .blockEnd :: _ | .key :: _ | .value :: _ => pure (Node.absent, rest)
        | _ => node n true false rest
      let (items, rest) ← indentlessItems n rest
      return (item :: items, rest)
    | _ => .ok ([], ts)

/-- A key or a value of a block mapping, which may be absent. -/
def blockPart : Nat → List Token → Except Fault (Node × List Token)
  | 0, _ => .error .malformed
  | n + 1, ts =>
    match ts with
    | .key :: _ | .value :: _ | .blockEnd :: _ => .ok (Node.absent, ts)
    | _ => node n true true ts

/-- The entries of a block mapping. -/
def blockEntries : Nat → List Token → Except Fault (List (Node × Node) × List Token)
  | 0, _ => .error .malformed
  | n + 1, ts =>
    match ts with
    | .blockEnd :: rest => .ok ([], rest)
    | .key :: rest => do
      let (key, rest) ← blockPart n rest
      let (value, rest) ← match rest with
        | .value :: rest => blockPart n rest
        | _ => pure (Node.absent, rest)
      let (entries, rest) ← blockEntries n rest
      return ((key, value) :: entries, rest)
    | _ => unexpected ts

/-- A key inside a flow collection, which may be absent. -/
def flowKey : Nat → (closing : Token) → List Token → Except Fault (Node × List Token)
  | 0, _, _ => .error .malformed
  | n + 1, closing, ts =>
    match ts with
    | .value :: _ | .flowEntry :: _ => .ok (Node.absent, ts)
    | _ => if ts.head? = some closing then .ok (Node.absent, ts) else node n false false ts

/-- The value after a key inside a flow collection, which may be absent. -/
def flowValue : Nat → (closing : Token) → List Token → Except Fault (Node × List Token)
  | 0, _, _ => .error .malformed
  | n + 1, closing, ts =>
    match ts with
    | .value :: .flowEntry :: rest => .ok (Node.absent, .flowEntry :: rest)
    | .value :: rest =>
      if rest.head? = some closing then .ok (Node.absent, rest) else node n false false rest
    | _ => .ok (Node.absent, ts)

/-- The items of a flow sequence, the first of which has no comma before it. -/
def flowItems : Nat → (first : Bool) → List Token → Except Fault (List Node × List Token)
  | 0, _, _ => .error .malformed
  | n + 1, first, ts =>
    match ts with
    | .flowSequenceEnd :: rest => .ok ([], rest)
    | _ => do
      let ts ← if first then pure ts else match ts with
        | .flowEntry :: rest => pure rest
        | _ => unexpected ts
      match ts with
      | .flowSequenceEnd :: rest => return ([], rest)
      | .key :: rest =>
        let (key, rest) ← flowKey n .flowSequenceEnd rest
        let (value, rest) ← flowValue n .flowSequenceEnd rest
        let (items, rest) ← flowItems n false rest
        return (.mapping [(key, value)] :: items, rest)
      | _ =>
        let (item, rest) ← node n false false ts
        let (items, rest) ← flowItems n false rest
        return (item :: items, rest)

/-- The entries of a flow mapping, the first of which has no comma before it. -/
def flowEntries :
    Nat → (first : Bool) → List Token → Except Fault (List (Node × Node) × List Token)
  | 0, _, _ => .error .malformed
  | n + 1, first, ts =>
    match ts with
    | .flowMappingEnd :: rest => .ok ([], rest)
    | _ => do
      let ts ← if first then pure ts else match ts with
        | .flowEntry :: rest => pure rest
        | _ => unexpected ts
      match ts with
      | .flowMappingEnd :: rest => return ([], rest)
      | .key :: rest =>
        let (key, rest) ← flowKey n .flowMappingEnd rest
        let (value, rest) ← flowValue n .flowMappingEnd rest
        let (entries, rest) ← flowEntries n false rest
        return ((key, value) :: entries, rest)
      | _ =>
        let (key, rest) ← node n false false ts
        let (entries, rest) ← flowEntries n false rest
        return ((key, Node.absent) :: entries, rest)

end

/-- The node of the only document among the tokens. -/
def document (ts : List Token) : Except Fault Node := do
  let depth := 4 * ts.length + 4
  let (node, rest) ← match ts with
    | [] | .documentStart :: [] => pure (Node.absent, [])
    | .documentStart :: .documentEnd :: rest => pure (Node.absent, .documentEnd :: rest)
    | .documentStart :: rest => node depth true false rest
    | _ => node depth true false ts
  match rest.dropWhile (· == .documentEnd) with
  | [] => return node
  | rest => unexpected rest

/-! ## Merging -/

namespace Node

/-- Whether a node is the key that merges its value into the mapping around it. -/
def isMerge : Node → Bool
  | scalar text plain => plain && text == ['<', '<']
  | _ => false

/-- The entries of a mapping that has merged everything. -/
def entries? : Node → Option (List (Node × Node))
  | mapping entries => if entries.any (·.1.isMerge) then none else some entries
  | _ => none

/-- The entries to merge: those of a mapping, or of all mappings in a sequence, the first of
which wins and so comes last. -/
def contribution? : Node → Option (List (Node × Node))
  | sequence items => (items.reverse.mapM entries?).map List.flatten
  | node => node.entries?

/-- The mapping of entries, before them those that they merge. If something cannot be merged,
the merging key is all that remains. -/
def ofEntries (entries : List (Node × Node)) : Node :=
  let (merges, own) := entries.partition (·.1.isMerge)
  match merges.mapM fun e => e.2.contribution? with
  | some merged => mapping (merged.flatten ++ own)
  | none => mapping (merges.take 1)

mutual

/-- The node with everything merged that its mappings merge. -/
def merged : Node → Node
  | scalar text plain => scalar text plain
  | sequence items => sequence (mergedItems items)
  | mapping entries => ofEntries (mergedEntries entries)

/-- The same for the items of a sequence. -/
def mergedItems : List Node → List Node
  | [] => []
  | x :: xs => merged x :: mergedItems xs

/-- The same for the values of a mapping. -/
def mergedEntries : List (Node × Node) → List (Node × Node)
  | [] => []
  | (k, x) :: es => (k, merged x) :: mergedEntries es

end

end Node

/-! ## Values -/

/-- What a part of a document stands for, or its first fault. A document is read level by level,
so that of two faults the one fewer levels down is the first; it comes with that number. -/
abbrev Reading (α : Type) := Except (Nat × Fault) α

namespace Reading

/-- What two parts stand for, one after the other. -/
def both {α β γ : Type} (f : α → β → γ) : Reading α → Reading β → Reading γ
  | .ok a, .ok b => .ok (f a b)
  | .error e, .ok _ => .error e
  | .ok _, .error e => .error e
  | .error d, .error e => .error (if e.1 < d.1 then e else d)

/-- What a part stands for one level further down. -/
def deeper {α : Type} (r : Reading α) : Reading α := r.mapError fun (level, f) => (level + 1, f)

/-- What a scalar stands for. -/
def ofScalar {α : Type} (r : Except Fault α) : Reading α := r.mapError (0, ·)

end Reading

namespace Node

/-- What a scalar stands for. -/
def scalarValue (text : List Char) (plain : Bool) : Except Fault Value :=
  if plain then plainValue text else .ok (.str (String.ofList text))

/-- What a key stands for. A collection is no key, and a plain equals sign is a text. -/
def key : Node → Except Fault Value
  | scalar text plain => scalarValue text (plain && text != ['='])
  | _ => .error .malformed

/-- Whether two keys of a mapping are equal. What is no number is one value throughout a document,
and so is equal to itself. -/
def sameKey : Value → Value → Bool
  | .float x, .float y => x == y || (x.isNaN && y.isNaN)
  | k, l => k.same l

mutual

/-- What a node stands for as a part of a collection. -/
def part : Node → Reading Value
  | scalar text plain => .ofScalar (scalarValue text plain)
  | sequence items => (Value.list <$> parts items).deeper
  | mapping entries => (Value.ofEntries sameKey <$> entryParts entries).deeper

/-- What the items of a sequence stand for. -/
def parts : List Node → Reading (List Value)
  | [] => .ok []
  | x :: xs => .both List.cons (part x) (parts xs)

/-- What the entries of a mapping stand for. -/
def entryParts : List (Node × Node) → Reading (List (Value × Value))
  | [] => .ok []
  | (k, x) :: es =>
    .both List.cons (.both Prod.mk (.ofScalar (key k)) (part x)) (entryParts es)

end

/-- The value of a node. -/
def value (x : Node) : Except Fault Value := x.merged.part.mapError (·.2)

end Node

/-- The value of a text, which has to be a single document. -/
def read (text : String) : Except Fault Value := do
  let x ← document (tokens text)
  x.value

end GraphSchema.Yaml
