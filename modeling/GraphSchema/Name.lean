import GraphSchema.Text.Lowercase

/-!
# Names

Names of types, fields and arguments, and the two spellings of compound names: words joined by
underscores, and words joined by capitals.

## Main definitions

* `isName` — letters, digits and underscores, not starting with a digit.
* `isTypeName` — what is accepted as the name of a type.
* `snakeCase`, `camelCase` — the two spellings.
-/

namespace GraphSchema

namespace Name

/-- An ASCII letter of lower case. -/
def isLower (c : Char) : Bool := 'a' ≤ c && c ≤ 'z'

/-- An ASCII letter of upper case. -/
def isUpper (c : Char) : Bool := 'A' ≤ c && c ≤ 'Z'

/-- An ASCII digit. -/
def isDigit (c : Char) : Bool := '0' ≤ c && c ≤ '9'

/-- A character that may start a name. -/
def isStart (c : Char) : Bool := c == '_' || isUpper c || isLower c

/-- A character that may continue a name. -/
def isContinue (c : Char) : Bool := isStart c || isDigit c

/-- A name starts with a letter or underscore and goes on with these and digits. -/
def isName : List Char → Bool
  | [] => false
  | c :: cs => isStart c && cs.all isContinue

/-- A type is called by a name, which one line feed may follow. -/
def isTypeName (cs : List Char) : Bool :=
  isName cs || (cs.getLast? == some '\n' && isName cs.dropLast)

/-- Whether a word ends between the neighbours `a` and `b`, the latter followed by `c`: a
capital after a small letter or digit, or the last of several capitals before a small letter. -/
def isBoundary (a b : Char) (c : Option Char) : Bool :=
  ((isLower a || isDigit a) && isUpper b) || (isUpper a && isUpper b && c.any isLower)

/-- Puts an underscore at every end of a word inside the name. -/
def separateWords : List Char → List Char
  | a :: b :: cs =>
    if isBoundary a b cs.head? then a :: '_' :: separateWords (b :: cs)
    else a :: separateWords (b :: cs)
  | cs => cs

/-- Words in lower case joined by underscores. -/
def snakeChars (cs : List Char) : List Char := Text.lowercase (separateWords cs)

/-- Drops each underscore before a small letter or digit, and raises that letter. -/
def joinWords : List Char → List Char
  | '_' :: c :: cs =>
    if isLower c || isDigit c then c.toUpper :: joinWords cs else '_' :: joinWords (c :: cs)
  | c :: cs => c :: joinWords cs
  | [] => []

/-- Words joined by capitals; underscores in front stay. -/
def camelChars (cs : List Char) : List Char :=
  cs.takeWhile (· == '_') ++ joinWords (cs.dropWhile (· == '_'))

end Name

/-- The spelling of a name with words in lower case joined by underscores. -/
def snakeCase (name : String) : String := String.ofList (Name.snakeChars name.toList)

/-- The spelling of a name with words joined by capitals. -/
def camelCase (name : String) : String := String.ofList (Name.camelChars name.toList)

end GraphSchema
