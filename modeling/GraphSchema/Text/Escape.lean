import GraphSchema.Text.Printable

/-!
# Escaped text

Two ways to write a text between quotes. `quoted` is for messages: it picks the quote that the
text does not contain and keeps every printable character. `jsonQuoted` is for literals: always
double quotes, and every character beyond ASCII as UTF-16 units.

## Main definitions

* `quoted` — the form for messages.
* `jsonQuoted` — the form for literals.
-/

namespace GraphSchema.Text

/-- `n` in hexadecimal, on at least `width` digits of lower case. -/
def hex (width n : Nat) : List Char :=
  let digits := Nat.toDigits 16 n
  List.replicate (width - digits.length) '0' ++ digits

/-- A character that is not printable, by the shortest escape that holds its code point. -/
def hexEscape (c : Char) : List Char :=
  let n := c.toNat
  if n < 0x100 then '\\' :: 'x' :: hex 2 n
  else if n < 0x10000 then '\\' :: 'u' :: hex 4 n
  else '\\' :: 'U' :: hex 8 n

/-- One character inside the given quotes. -/
def quotedChar (quote c : Char) : List Char :=
  if c = quote ∨ c = '\\' then ['\\', c]
  else if c = '\n' then ['\\', 'n']
  else if c = '\r' then ['\\', 'r']
  else if c = '\t' then ['\\', 't']
  else if isPrintable c then [c]
  else hexEscape c

/-- The text between single quotes, or between double quotes when it contains a single quote
and no double one. -/
def quoted (cs : List Char) : List Char :=
  let quote := if cs.contains '\'' && !cs.contains '"' then '"' else '\''
  quote :: cs.flatMap (quotedChar quote) ++ [quote]

/-- One UTF-16 unit. -/
def unitEscape (n : Nat) : List Char := '\\' :: 'u' :: hex 4 n

/-- One character of a literal: named escapes where there are any, code points beyond U+FFFF as
two surrogate units. -/
def jsonChar (c : Char) : List Char :=
  let n := c.toNat
  if c = '"' ∨ c = '\\' then ['\\', c]
  else if c = '\n' then ['\\', 'n']
  else if c = '\r' then ['\\', 'r']
  else if c = '\t' then ['\\', 't']
  else if n = 0x08 then ['\\', 'b']
  else if n = 0x0c then ['\\', 'f']
  else if 0x20 ≤ n ∧ n < 0x7f then [c]
  else if n < 0x10000 then unitEscape n
  else unitEscape (0xd800 + (n - 0x10000) / 0x400) ++ unitEscape (0xdc00 + (n - 0x10000) % 0x400)

/-- The text as a literal between double quotes. -/
def jsonQuoted (cs : List Char) : List Char := '"' :: cs.flatMap jsonChar ++ ['"']

end GraphSchema.Text
