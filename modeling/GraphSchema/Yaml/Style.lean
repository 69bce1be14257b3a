import GraphSchema.Decimal.Notation
import GraphSchema.Yaml.Scalar

/-!
# Written scalars

A text as a scalar in a block mapping: plain where that reads back as the same text, in single
quotes where only those are needed, and in double quotes with escapes otherwise. Long scalars are
broken at blanks.

## Main definitions

* `Style`, `styleOf` — the style of a text.
* `writeText` — the scalar of a text.
* `writeKey` — the scalar of a text on a single line.
* `writeValue` — the scalar of a value that is not compound.
-/

namespace GraphSchema.Yaml

/-- The styles of scalars. -/
inductive Style where
  | plain
  | single
  | double
deriving DecidableEq

/-- A blank or line break, of those that need no escape. -/
def isBlankOrBreak (c : Char) : Bool := c == ' ' || c == '\n'

/-- The characters that need an escape: all but line feeds and printable ASCII. -/
def isSpecial (c : Char) : Bool := !(c == '\n' || (' ' ≤ c && c ≤ '~'))

/-- Whether two characters stand next to each other somewhere in a text. -/
def hasAdjacent (a b : Char) : List Char → Bool
  | c :: d :: cs => (c == a && d == b) || hasAdjacent a b (d :: cs)
  | _ => false

/-- Whether a plain scalar in a block cannot start with this text. -/
def startsIndicator (cs : List Char) : Bool :=
  cs.take 3 == ['-', '-', '-'] || cs.take 3 == ['.', '.', '.'] ||
    match cs with
    | [] => false
    | c :: rest =>
      "#,[]\x7b\x7d&*!|>'\"%@`".toList.contains c ||
        ((c == '?' || c == ':' || c == '-') && rest.head?.all isBlankOrBreak)

/-- Whether a colon before a blank or the end, or a hash after a blank, stands in the text after
a first character. -/
def hasIndicator : List Char → Bool
  | a :: b :: cs =>
    (b == ':' && cs.head?.all isBlankOrBreak) || (b == '#' && isBlankOrBreak a) ||
      hasIndicator (b :: cs)
  | _ => false

/-- Whether the text can stand without quotes and reads back as itself. -/
def plainAllowed (cs : List Char) : Bool :=
  !cs.head?.any isBlankOrBreak && !cs.getLast?.any isBlankOrBreak && !cs.contains '\n' &&
    !startsIndicator cs && !hasIndicator cs && plainKind cs == .text

/-- The style of a text. Single quotes cannot hold blanks next to line breaks. -/
def styleOf (cs : List Char) : Style :=
  if cs.any isSpecial || hasAdjacent ' ' '\n' cs || hasAdjacent '\n' ' ' cs then .double
  else if plainAllowed cs then .plain
  else .single

/-- The column from which a blank ends the line. -/
def bestWidth : Nat := 80

/-- A line break with the indentation of the lines of a scalar. -/
def newLine (indent : Nat) : List Char := '\n' :: List.replicate indent ' '

/-- Whether a blank between `previous` and the rest may be written as a line break. -/
def breaksHere (column : Nat) (previous : Option Char) (rest : List Char) : Bool :=
  column > bestWidth && previous.any (· != ' ') && rest.head?.any (· != ' ')

/-- The rest of a plain scalar. -/
def plainText (indent : Nat) : (column : Nat) → (previous : Option Char) → List Char → List Char
  | _, _, [] => []
  | column, previous, c :: cs =>
    if c == ' ' && breaksHere column previous cs then
      newLine indent ++ plainText indent indent (some c) cs
    else c :: plainText indent (column + 1) (some c) cs

/-- The rest of a scalar in single quotes: quotes are doubled, and each run of line breaks takes
one more. -/
def singleText (indent : Nat) : (column : Nat) → (previous : Option Char) → List Char → List Char
  | _, _, [] => ['\'']
  | column, previous, c :: cs =>
    if c == '\'' then '\'' :: '\'' :: singleText indent (column + 2) (some c) cs
    else if c == '\n' then
      (if previous == some '\n' then [] else ['\n']) ++
        (if cs.head? == some '\n' then '\n' :: singleText indent 0 (some c) cs
        else newLine indent ++ singleText indent indent (some c) cs)
    else if c == ' ' && breaksHere column previous cs then
      newLine indent ++ singleText indent indent (some c) cs
    else c :: singleText indent (column + 1) (some c) cs

/-- The escapes by one character. -/
def shortEscapes : List (Char × Char) := [
  ('\x00', '0'), ('\x07', 'a'), ('\x08', 'b'), ('\t', 't'), ('\n', 'n'), ('\x0b', 'v'),
  ('\x0c', 'f'), ('\r', 'r'), ('\x1b', 'e'), ('"', '"'), ('\\', '\\'), ('\u0085', 'N'),
  ('\u00a0', '_'), ('\u2028', 'L'), ('\u2029', 'P')]

/-- A number in hexadecimal, on at least `width` digits of upper case. -/
def upperHex (width n : Nat) : List Char :=
  let digits := (Nat.toDigits 16 n).map Char.toUpper
  List.replicate (width - digits.length) '0' ++ digits

/-- The escape of a character. -/
def escapeChar (c : Char) : List Char :=
  let n := c.toNat
  match shortEscapes.lookup c with
  | some d => ['\\', d]
  | none =>
    if n < 0x100 then '\\' :: 'x' :: upperHex 2 n
    else if n < 0x10000 then '\\' :: 'u' :: upperHex 4 n
    else '\\' :: 'U' :: upperHex 8 n

/-- Whether a character is escaped between double quotes. -/
def needsEscape (c : Char) : Bool := c == '"' || c == '\\' || !(' ' ≤ c && c ≤ '~')

/-- An escaped line break, after which a blank has to be escaped. -/
def escapedBreak (indent : Nat) (rest : List Char) : List Char :=
  '\\' :: newLine indent ++ (if rest.head? == some ' ' then ['\\'] else [])

/-- The column after an escaped line break. -/
def columnAfterBreak (indent : Nat) (rest : List Char) : Nat :=
  if rest.head? == some ' ' then indent + 1 else indent

/-- The rest of a scalar in double quotes. A line may end before a blank or next to an escape,
but not at the ends of the text; `escaped` says that an escape has just been written. -/
def doubleText (indent : Nat) : (column : Nat) → (first escaped : Bool) → List Char → List Char
  | _, _, _, [] => ['"']
  | column, first, escaped, c :: cs =>
    let inside := !first && !cs.isEmpty
    if needsEscape c then
      let escape := escapeChar c
      if inside && column + escape.length > bestWidth + 1 then
        escape ++ escapedBreak indent cs ++
          doubleText indent (columnAfterBreak indent cs) false true cs
      else escape ++ doubleText indent (column + escape.length) false true cs
    else if inside && (c == ' ' || escaped) && column > bestWidth then
      escapedBreak indent (c :: cs) ++
        c :: doubleText indent (columnAfterBreak indent (c :: cs) + 1) false false cs
    else c :: doubleText indent (column + 1) false false cs

/-- The scalar of a text that starts at a column, with its further lines indented. -/
def writeText (indent column : Nat) (s : String) : String :=
  String.ofList <|
    match styleOf s.toList with
    | .plain => plainText indent column none s.toList
    | .single => '\'' :: singleText indent (column + 1) none s.toList
    | .double => '"' :: doubleText indent (column + 1) true false s.toList

/-- The scalar of a text without line breaks, on a single line. -/
def writeKey (s : String) : String :=
  let doubled (c : Char) := if c == '\'' then ['\'', '\''] else [c]
  let escaped (c : Char) := if needsEscape c then escapeChar c else [c]
  String.ofList <|
    match styleOf s.toList with
    | .plain => s.toList
    | .single => '\'' :: s.toList.flatMap doubled ++ ['\'']
    | .double => '"' :: s.toList.flatMap escaped ++ ['"']

/-- The notation of a double; an exponent always has a point before it. -/
def writeFloat (x : Float) : String :=
  if x.isNaN then ".nan"
  else if x.isInf then (if x < 0 then "-.inf" else ".inf")
  else
    let text := (Decimal.floatText x).toList
    if text.contains '.' then String.ofList text
    else String.ofList (text.takeWhile (· != 'e') ++ ['.', '0'] ++ text.dropWhile (· != 'e'))

/-- The scalar of a value that starts at a column. Only values that are not compound have one. -/
def writeValue (indent column : Nat) : Value → Option String
  | .null => some "null"
  | .bool b => some (if b then "true" else "false")
  | .int i => some (toString i)
  | .float x => some (writeFloat x)
  | .str s => some (writeText indent column s)
  | _ => none

end GraphSchema.Yaml
