import GraphSchema.Yaml.Fault

/-!
# Tokens of YAML

The tokens of a small YAML document: block and flow collections, plain and quoted scalars,
comments, and document markers. Indentation becomes tokens of its own, and a scalar turns out to
be a key only when the colon after it is read.

A fault in the text is a token too, the last one, so that a fault in the order of the tokens
before it is found first.

## Main definitions

* `Token` — a token.
* `plainScalar`, `quotedScalar` — the two kinds of scalars.
* `Lexer` — the state of reading.
* `tokens` — the tokens of a text.
-/

namespace GraphSchema.Yaml

/-- A token. -/
inductive Token where
  | documentStart
  | documentEnd
  | blockSequence
  | blockMapping
  | blockEnd
  | flowSequence
  | flowSequenceEnd
  | flowMapping
  | flowMappingEnd
  | blockEntry
  | flowEntry
  | key
  | value
  | scalar (text : List Char) (plain : Bool)
  | fault (f : Fault)
deriving DecidableEq

/-! ## Characters -/

/-- The characters that break lines. -/
def isBreak (c : Char) : Bool := c == '\n' || c == '\u2028' || c == '\u2029'

/-- Carriage returns, alone or before a line feed, and next-line marks as line feeds. -/
def unifyBreaks : List Char → List Char
  | [] => []
  | '\r' :: '\n' :: cs => '\n' :: unifyBreaks cs
  | c :: cs => (if c = '\r' ∨ c = '\u0085' then '\n' else c) :: unifyBreaks cs

/-- Whether a token may end before this character, or at the end of the text. -/
def isGap : Option Char → Bool
  | none => true
  | some c => c == ' ' || c == '\t' || isBreak c

/-- Whether the text starts with a document marker made of the character `c`. -/
def startsMarker (c : Char) : List Char → Bool
  | a :: b :: d :: rest => a == c && b == c && d == c && isGap rest.head?
  | _ => false

/-- Whether the text starts with a document marker. -/
def startsSeparator (cs : List Char) : Bool := startsMarker '-' cs || startsMarker '.' cs

/-- The characters that a document may contain. -/
def isAllowed (c : Char) : Bool :=
  let n := c.toNat
  n == 0x09 || n == 0x0a || (0x20 ≤ n && n ≤ 0x7e) || (0xa0 ≤ n && n ≤ 0xd7ff) ||
    (0xe000 ≤ n && n ≤ 0xfffd) || 0x10000 ≤ n

/-- The text after blanks, line breaks and comments. -/
def skipGap (comment : Bool) : List Char → List Char
  | [] => []
  | c :: cs =>
    if comment then skipGap (!isBreak c) cs
    else if c == ' ' || isBreak c then skipGap false cs
    else if c == '#' then skipGap true cs
    else c :: cs

/-- A line break between words counts as a space, unless more breaks follow, which then stand
for themselves. -/
def foldedBreak (first : Char) (more : List Char) : List Char :=
  if first != '\n' then first :: more else if more.isEmpty then [' '] else more

/-! ## Plain scalars -/

/-- The length of the word that a plain scalar goes on with. -/
def wordLength (flow : Bool) : List Char → Nat
  | [] => 0
  | c :: cs =>
    if isGap (some c) then 0
    else if c == ':' && (isGap cs.head? || (flow && cs.head?.any ",[]{}".toList.contains)) then 0
    else if flow && ",?[]\x7b\x7d".toList.contains c then 0
    else wordLength flow cs + 1

/-- What stands between two words of a plain scalar: the text it counts as, the text after it,
and the column if it contains line breaks. -/
structure WordGap where
  text : List Char
  rest : List Char
  newColumn : Option Nat

/-- Further line breaks and blanks, up to a document marker: the breaks, the rest, the column,
and whether a marker was met. -/
def moreBreaks (column : Nat) : List Char → List Char × List Char × Nat × Bool
  | [] => ([], [], column, false)
  | c :: cs =>
    if c == ' ' then moreBreaks (column + 1) cs
    else if isBreak c then
      if startsSeparator cs then ([], cs, 0, true)
      else
        let (breaks, rest, column, stop) := moreBreaks 0 cs
        (c :: breaks, rest, column, stop)
    else ([], c :: cs, column, false)

/-- What follows a word of a plain scalar. -/
def wordGap (cs : List Char) : WordGap :=
  let blanks := cs.takeWhile (· == ' ')
  match cs.dropWhile (· == ' ') with
  | [] => ⟨blanks, [], none⟩
  | c :: rest =>
    if !isBreak c then ⟨blanks, c :: rest, none⟩
    else if startsSeparator rest then ⟨[], rest, some 0⟩
    else
      let (breaks, rest, column, stop) := moreBreaks 0 rest
      if stop then ⟨[], rest, some column⟩ else ⟨foldedBreak c breaks, rest, some column⟩

/-- A plain scalar that has been read: its text, the text after it, and whether line breaks stand
between. -/
structure PlainScalar where
  text : List Char
  rest : List Char
  broken : Bool

/-- Reads words of a plain scalar, at most `words`. In a block the scalar ends before a line that
is indented by less than `indent`. -/
def plainWords (flow : Bool) (indent : Int) :
    (words : Nat) → (pending : List Char) → (broken : Bool) → List Char → PlainScalar
  | 0, _, broken, cs => ⟨[], cs, broken⟩
  | words + 1, pending, broken, cs =>
    let n := wordLength flow cs
    if cs.head? == some '#' || n == 0 then ⟨[], cs, broken⟩
    else
      let gap := wordGap (cs.drop n)
      let outdented := !flow && gap.newColumn.any fun column => (column : Int) < indent
      let tail :=
        if gap.text.isEmpty || gap.rest.head? == some '#' || outdented then
          ⟨[], gap.rest, gap.newColumn.isSome⟩
        else plainWords flow indent words gap.text gap.newColumn.isSome gap.rest
      { tail with text := pending ++ cs.take n ++ tail.text }

/-- Reads a plain scalar. Every word has a character, so the length bounds their number. -/
def plainScalar (flow : Bool) (indent : Int) (cs : List Char) : PlainScalar :=
  plainWords flow indent cs.length [] false cs

/-! ## Quoted scalars -/

/-- Line breaks inside quotes, and the blanks around them; a document marker is not allowed. -/
def quotedBreaks (lineStart : Bool) : List Char → Except Fault (List Char × List Char)
  | [] => .ok ([], [])
  | c :: cs =>
    if lineStart && startsSeparator (c :: cs) then .error .malformed
    else if c == ' ' || c == '\t' then quotedBreaks false cs
    else if isBreak c then do
      let (breaks, rest) ← quotedBreaks true cs
      return (c :: breaks, rest)
    else .ok ([], c :: cs)

/-- The characters that are escaped by one character. -/
def namedEscapes : List (Char × Char) := [
  ('0', '\x00'), ('a', '\x07'), ('b', '\x08'), ('t', '\t'), ('\t', '\t'), ('n', '\n'),
  ('v', '\x0b'), ('f', '\x0c'), ('r', '\r'), ('e', '\x1b'), (' ', ' '), ('"', '"'),
  ('\\', '\\'), ('/', '/'), ('N', '\u0085'), ('_', '\u00a0'), ('L', '\u2028'), ('P', '\u2029')]

/-- The number of hexadecimal digits after an escape. -/
def hexEscapes : List (Char × Nat) := [('x', 2), ('u', 4), ('U', 8)]

/-- The value of a hexadecimal digit. -/
def hexValue? (c : Char) : Option Nat :=
  if c.isDigit then some (c.toNat - '0'.toNat)
  else if 'a' ≤ c && c ≤ 'f' then some (c.toNat - 'a'.toNat + 10)
  else if 'A' ≤ c && c ≤ 'F' then some (c.toNat - 'A'.toNat + 10)
  else none

/-- The character of a code point. Half of a surrogate pair is no character of its own, and is
read as the replacement character. -/
def ofCodePoint (n : Nat) : Except Fault Char :=
  if n.isValidChar then .ok (Char.ofNat n)
  else if n < 0x110000 then .ok '\ufffd'
  else .error (.codePoint n)

/-- The text that an escape stands for, read after the backslash, and the rest. -/
def escape : List Char → Except Fault (List Char × List Char)
  | [] => .error .malformed
  | c :: cs =>
    match namedEscapes.lookup c, hexEscapes.lookup c with
    | some d, _ => .ok ([d], cs)
    | none, some n =>
      match (cs.take n).mapM hexValue? with
      | some values => do
        if values.length < n then throw .malformed
        let d ← ofCodePoint (values.foldl (fun n v => n * 16 + v) 0)
        return ([d], cs.drop n)
      | none => .error .malformed
    | none, none => if isBreak c then quotedBreaks true cs else .error .malformed

/-- Blanks inside quotes: line breaks among them fold, otherwise they stand for themselves. -/
def quotedBlanks (cs : List Char) : Except Fault (List Char × List Char) :=
  let isBlank (c : Char) : Bool := c == ' ' || c == '\t'
  match cs.dropWhile isBlank with
  | [] => .error .malformed
  | c :: rest =>
    if isBreak c then do
      let (breaks, rest) ← quotedBreaks true rest
      return (foldedBreak c breaks, rest)
    else .ok (cs.takeWhile isBlank, c :: rest)

/-- One part of a quoted scalar: `none` at the closing quote. -/
def quotedPart (double : Bool) : List Char → Except Fault (Option (List Char) × List Char)
  | [] => .error .malformed
  | c :: cs =>
    if c == ' ' || c == '\t' || isBreak c then do
      let (text, rest) ← quotedBlanks (c :: cs)
      return (some text, rest)
    else if double && c == '"' then .ok (none, cs)
    else if double && c == '\\' then do
      let (text, rest) ← escape cs
      return (some text, rest)
    else if !double && c == '\'' then
      match cs with
      | '\'' :: rest => .ok (some ['\''], rest)
      | _ => .ok (none, cs)
    else .ok (some [c], cs)

/-- Reads at most `parts` parts of a quoted scalar. -/
def quotedParts (double : Bool) : (parts : Nat) → List Char → Except Fault (List Char × List Char)
  | 0, _ => .error .malformed
  | parts + 1, cs => do
    match ← quotedPart double cs with
    | (none, rest) => return ([], rest)
    | (some text, rest) =>
      let (more, rest) ← quotedParts double parts rest
      return (text ++ more, rest)

/-- The text of a quoted scalar after its opening quote, and the rest. Every part has a
character, so the length bounds their number. -/
def quotedScalar (double : Bool) (cs : List Char) : Except Fault (List Char × List Char) :=
  quotedParts double cs.length cs

/-! ## The lexer -/

/-- A place in the text. -/
structure Cursor where
  rest : List Char
  index : Nat := 0
  line : Nat := 0
  column : Nat := 0

namespace Cursor

/-- The place after one character. -/
def next (x : Cursor) : Cursor :=
  match x.rest with
  | [] => x
  | c :: rest =>
    if isBreak c then ⟨rest, x.index + 1, x.line + 1, 0⟩
    else ⟨rest, x.index + 1, x.line, if c == '\ufeff' then x.column else x.column + 1⟩

/-- The place `n` characters on. -/
def skip (x : Cursor) : Nat → Cursor
  | 0 => x
  | n + 1 => x.next.skip n

/-- The place where `rest` begins, which is the end of the text from here. -/
def moveTo (x : Cursor) (rest : List Char) : Cursor := x.skip (x.rest.length - rest.length)

end Cursor

/-- A token that may turn out to be a key: its place among the tokens and in the text, and
whether only a key can stand there. -/
structure SimpleKey where
  position : Nat
  required : Bool
  index : Nat
  line : Nat
  column : Nat

/-- The state of reading: the place, the depth of flow collections, the indentation of the
open blocks (the innermost first), whether a key may start here, the possible key of each depth,
and the tokens so far. -/
structure Lexer where
  cursor : Cursor
  depth : Nat := 0
  indent : Int := -1
  indents : List Int := []
  keyAllowed : Bool := true
  keys : List (Nat × SimpleKey) := []
  tokens : List Token := []

namespace Lexer

/-- Adds a token. -/
def push (x : Lexer) (t : Token) : Lexer := { x with tokens := x.tokens ++ [t] }

/-- Adds a token before those from `position` on. -/
def insert (x : Lexer) (position : Nat) (t : Token) : Lexer :=
  { x with tokens := x.tokens.take position ++ t :: x.tokens.drop position }

/-- Moves on by `n` characters. -/
def skip (x : Lexer) (n : Nat) : Lexer := { x with cursor := x.cursor.skip n }

/-- Says whether a key may start here. -/
def allowKey (x : Lexer) (allowed : Bool) : Lexer := { x with keyAllowed := allowed }

/-- Forgets the possible key of this depth, unless only a key can stand there. -/
def dropKey (x : Lexer) : Except Fault Lexer :=
  match x.keys.lookup x.depth with
  | some k => if k.required then .error .malformed
      else .ok { x with keys := x.keys.filter fun e => e.1 != x.depth }
  | none => .ok x

/-- Whether a possible key is on another line or too far back. -/
def isStale (x : Lexer) (k : SimpleKey) : Bool :=
  k.line != x.cursor.line || x.cursor.index - k.index > 1024

/-- Forgets the possible keys that are on another line or too far back. -/
def dropStaleKeys (x : Lexer) : Except Fault Lexer :=
  if x.keys.any fun e => x.isStale e.2 && e.2.required then .error .malformed
  else .ok { x with keys := x.keys.filter fun e => !x.isStale e.2 }

/-- Remembers that the next token may be a key. -/
def saveKey (x : Lexer) : Except Fault Lexer :=
  if x.keyAllowed then do
    let x ← x.dropKey
    let k : SimpleKey :=
      { position := x.tokens.length
        required := x.depth == 0 && x.indent == x.cursor.column
        index := x.cursor.index
        line := x.cursor.line
        column := x.cursor.column }
    return { x with keys := (x.depth, k) :: x.keys }
  else .ok x

/-- Closes blocks down to a column. -/
def unwindTo (column : Int) (indent : Int) (indents : List Int) (tokens : List Token) :
    Int × List Int × List Token :=
  match indents with
  | [] => (indent, [], tokens)
  | outer :: rest =>
    if indent > column then unwindTo column outer rest (tokens ++ [.blockEnd])
    else (indent, outer :: rest, tokens)

/-- Closes the blocks that are indented by more than a column. -/
def unwind (x : Lexer) (column : Int) : Lexer :=
  if x.depth > 0 then x
  else
    let (indent, indents, tokens) := unwindTo column x.indent x.indents x.tokens
    { x with indent, indents, tokens }

/-- Opens a block at a column, if that is further in. -/
def openBlock (x : Lexer) (column : Nat) (position : Nat) (t : Token) : Lexer :=
  if x.depth == 0 && x.indent < column then
    { x.insert position t with indent := column, indents := x.indent :: x.indents }
  else x

/-- Moves to the next token. -/
def toNextToken (x : Lexer) : Lexer :=
  let start := if x.cursor.index == 0 && x.cursor.rest.head? == some '\ufeff' then
    x.cursor.next else x.cursor
  let cursor := start.moveTo (skipGap false start.rest)
  { x with cursor, keyAllowed := x.keyAllowed || (x.depth == 0 && cursor.line != start.line) }

/-- A document marker. -/
def marker (x : Lexer) (t : Token) : Except Fault Lexer := do
  let x ← (x.unwind (-1)).dropKey
  return ((x.allowKey false).push t).skip 3

/-- The start of a flow collection. -/
def openFlow (x : Lexer) (t : Token) : Except Fault Lexer := do
  let x ← x.saveKey
  return (({ x with depth := x.depth + 1 }.allowKey true).push t).skip 1

/-- The end of a flow collection. -/
def closeFlow (x : Lexer) (t : Token) : Except Fault Lexer := do
  let x ← x.dropKey
  return (({ x with depth := x.depth - 1 }.allowKey false).push t).skip 1

/-- A comma between items. -/
def flowEntry (x : Lexer) : Except Fault Lexer := do
  let x ← (x.allowKey true).dropKey
  return (x.push .flowEntry).skip 1

/-- A dash before an item. -/
def blockEntry (x : Lexer) : Except Fault Lexer := do
  if x.depth == 0 && !x.keyAllowed then throw .malformed
  let x := x.openBlock x.cursor.column x.tokens.length .blockSequence
  let x ← (x.allowKey true).dropKey
  return (x.push .blockEntry).skip 1

/-- A question mark before a key. -/
def explicitKey (x : Lexer) : Except Fault Lexer := do
  if x.depth == 0 && !x.keyAllowed then throw .malformed
  let x := x.openBlock x.cursor.column x.tokens.length .blockMapping
  let x ← (x.allowKey (x.depth == 0)).dropKey
  return (x.push .key).skip 1

/-- A colon, which makes the possible key before it a key. -/
def value (x : Lexer) : Except Fault Lexer := do
  match x.keys.lookup x.depth with
  | some k =>
    let x := { x with keys := x.keys.filter fun e => e.1 != x.depth }
    let x := (x.insert k.position .key).openBlock k.column k.position .blockMapping
    return ((x.allowKey false).push .value).skip 1
  | none =>
    if x.depth == 0 && !x.keyAllowed then throw .malformed
    let x := x.openBlock x.cursor.column x.tokens.length .blockMapping
    let x ← (x.allowKey (x.depth == 0)).dropKey
    return (x.push .value).skip 1

/-- A quoted scalar. -/
def quoted (x : Lexer) (double : Bool) : Except Fault Lexer := do
  let x ← x.saveKey
  let (text, rest) ← quotedScalar double x.cursor.rest.tail
  let x := (x.allowKey false).push (.scalar text false)
  return { x with cursor := x.cursor.moveTo rest }

/-- A plain scalar. -/
def plain (x : Lexer) : Except Fault Lexer := do
  let x ← x.saveKey
  let s := plainScalar (x.depth > 0) (x.indent + 1) x.cursor.rest
  let x := (x.allowKey s.broken).push (.scalar s.text true)
  return { x with cursor := x.cursor.moveTo s.rest }

/-- Whether a plain scalar may start with the character before `next`. -/
def startsPlain (x : Lexer) (c : Char) (next : Option Char) : Bool :=
  !(isGap (some c) || "-?:,[]\x7b\x7d#&*!|>'\"%@`".toList.contains c) ||
    (!isGap next && (c == '-' || (x.depth == 0 && (c == '?' || c == ':'))))

/-- Reads the token that starts with a character. -/
def fetch (x : Lexer) (c : Char) (rest : List Char) : Except Fault Lexer :=
  let flow := x.depth > 0
  let gapNext := isGap rest.head?
  if x.cursor.column == 0 && startsMarker '-' (c :: rest) then x.marker .documentStart
  else if x.cursor.column == 0 && startsMarker '.' (c :: rest) then x.marker .documentEnd
  else if c == '[' then x.openFlow .flowSequence
  else if c == '\x7b' then x.openFlow .flowMapping
  else if c == ']' then x.closeFlow .flowSequenceEnd
  else if c == '\x7d' then x.closeFlow .flowMappingEnd
  else if c == ',' then x.flowEntry
  else if c == '-' && gapNext then x.blockEntry
  else if c == '?' && (flow || gapNext) then x.explicitKey
  else if c == ':' && (flow || gapNext) then x.value
  else if c == '\'' then x.quoted false
  else if c == '"' then x.quoted true
  else if x.startsPlain c rest.head? then x.plain
  else .error .malformed

/-- Reads one token, or the end of the text. -/
def step (x : Lexer) : Except Fault Lexer := do
  let x ← x.toNextToken.dropStaleKeys
  let x := x.unwind x.cursor.column
  match x.cursor.rest with
  | [] => (x.unwind (-1)).dropKey
  | c :: rest => x.fetch c rest

/-- The tokens that are certain by now: those before the first that may turn out to be a key. -/
def certainTokens (x : Lexer) : List Token :=
  let positions := (x.keys.filter fun e => !x.isStale e.2).map (·.2.position)
  x.tokens.take (positions.foldl min x.tokens.length)

/-- Reads at most `steps` tokens. The text has ended when a step reads nothing. -/
def run : (steps : Nat) → Lexer → List Token
  | 0, x => x.tokens
  | steps + 1, x =>
    match x.step with
    | .error f => x.certainTokens ++ [.fault f]
    | .ok y => if x.cursor.rest.isEmpty then y.tokens else run steps y

end Lexer

/-- The tokens of a text. Every token has a character, so the length bounds their number. -/
def tokens (text : String) : List Token :=
  let cs := unifyBreaks text.toList
  if cs.all isAllowed then Lexer.run (cs.length + 1) { cursor := ⟨cs, 0, 0, 0⟩ }
  else [.fault .malformed]

end GraphSchema.Yaml
