import GraphSchema.Error

/-!
# Declared classes

Classes that are declared one after the other, each deriving from classes declared before it. A
class with several bases derives from all that its bases derive from, in an order that keeps the
order of each base and that of the bases; where there is none, the class is refused.

## Main definitions

* `ClassTable` — the declared classes.
* `ClassTable.lineage` — the class of a name, with all that it derives from.
* `ClassTable.declare` — a further class.
-/

namespace GraphSchema

namespace Class

/-- The first class that starts a list and is in no list at a later place. -/
def next? (lists : List (List Class)) : Option Class :=
  (lists.filterMap List.head?).find? fun c => lists.all fun l => !l.tail.contains c

/-- One list that keeps the order of each of the lists; otherwise the classes that remain first
where they disagree. The number bounds the length of the list. -/
def merge : Nat → List (List Class) → Except (List Class) (List Class)
  | 0, _ => .ok []
  | n + 1, lists =>
    match next? lists with
    | some c =>
      (c :: ·) <$> merge n (lists.map fun l => if l.head? = some c then l.tail else l)
    | none =>
      match (lists.filterMap List.head?).eraseDups with
      | [] => .ok []
      | heads => .error heads

/-- What a class derives from that has bases with these lineages. -/
def ancestors (bases : List (List Class)) : Except Error (List Class) :=
  let heads := bases.filterMap List.head?
  match heads.find? fun c => heads.count c > 1 with
  | some c => .error (.duplicateBase c.name)
  | none =>
    (merge (bases.flatten.length + heads.length) (bases ++ [heads])).mapError fun classes =>
      .inconsistentBases (classes.map (·.name))

end Class

/-- The declared classes, the last one first, each with all that it derives from. -/
abbrev ClassTable := List (List Class)

namespace ClassTable

/-- The class last declared under a name, followed by all that it derives from. -/
def lineage (t : ClassTable) (name : String) : Except Error (List Class) :=
  match t.find? fun lineage => lineage.head?.any (·.name = name) with
  | some lineage => .ok lineage
  | none => .error (.missingKey (.str name))

/-- The table with a further class. Without bases it derives from the class of `root`. -/
def declare (t : ClassTable) (root : List Class) (name : String) (bases : List String) :
    Except Error ClassTable := do
  let lineages ← bases.mapM t.lineage
  let ancestors ← Class.ancestors (if bases.isEmpty then [root] else lineages)
  return (⟨name, some t.length⟩ :: ancestors) :: t

end ClassTable

end GraphSchema
