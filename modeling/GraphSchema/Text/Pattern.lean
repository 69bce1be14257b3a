/-!
# Patterns

Regular patterns over characters, matched against whole texts by derivatives: the derivative of
a pattern by a character matches what may follow that character.

## Main definitions

* `Pattern` — a pattern.
* `Pattern.matchesEmpty`, `Pattern.after` — whether it matches nothing, and its derivative.
* `Pattern.accepts` — whether it matches a text.
-/

namespace GraphSchema.Text

/-- A regular pattern. -/
inductive Pattern where
  | never
  | empty
  | one (p : Char → Bool)
  | seq (a b : Pattern)
  | either (a b : Pattern)
  | many (a : Pattern)

namespace Pattern

/-- Whether the pattern matches the empty text. -/
def matchesEmpty : Pattern → Bool
  | never => false
  | empty => true
  | one _ => false
  | seq a b => a.matchesEmpty && b.matchesEmpty
  | either a b => a.matchesEmpty || b.matchesEmpty
  | many _ => true

/-- One pattern after the other, in short where one of them is trivial. -/
def andThen : Pattern → Pattern → Pattern
  | never, _ => never
  | empty, b => b
  | a, b => seq a b

/-- One pattern or the other, in short where one of them matches nothing at all. -/
def orElse : Pattern → Pattern → Pattern
  | never, b => b
  | a, never => a
  | a, b => either a b

/-- What may follow the character `c`. -/
def after (c : Char) : Pattern → Pattern
  | never => never
  | empty => never
  | one p => if p c then empty else never
  | seq a b =>
    if a.matchesEmpty then orElse (andThen (a.after c) b) (b.after c) else andThen (a.after c) b
  | either a b => orElse (a.after c) (b.after c)
  | many a => andThen (a.after c) (many a)

/-- Whether the pattern matches the whole text. -/
def accepts (p : Pattern) : List Char → Bool
  | [] => p.matchesEmpty
  | c :: cs => (p.after c).accepts cs

/-! ## Derived patterns -/

/-- One of the characters of a text. -/
def among (s : String) : Pattern := one s.toList.contains

/-- A fixed text. -/
def word (s : String) : Pattern := s.toList.foldr (fun c p => seq (one (· == c)) p) empty

/-- Patterns one after the other. -/
def sequence (ps : List Pattern) : Pattern := ps.foldr seq empty

/-- One of several patterns. -/
def choice (ps : List Pattern) : Pattern := ps.foldr either never

/-- The pattern or nothing. -/
def optional (p : Pattern) : Pattern := either p empty

/-- The pattern at least once. -/
def some (p : Pattern) : Pattern := seq p (many p)

end Pattern

end GraphSchema.Text
