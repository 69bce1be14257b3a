import GraphSchema.Declarations

/-!
# Reachability

Which types belong to a schema: the roots and orphans, and everything that a type of the schema
names. Implementing an interface of the schema is not enough.

## Main definitions

* `Declarations.explore` — the types reachable from a queue of names.
* `Reachability`, `Declarations.reachability` — the types in and outside of the schema.
-/

namespace GraphSchema

namespace Declarations

/-- The definitions that are not among the visited names. -/
def unvisited (ds : Declarations) (visited : List String) : List Definition :=
  ds.definitions.filter fun d => !visited.contains d.name

theorem length_unvisited_cons_lt {ds : Declarations} {visited : List String} {name : String}
    {d : Definition} (hv : visited.contains name = false) (hd : ds.find name = some d) :
    (ds.unvisited (name :: visited)).length < (ds.unvisited visited).length := by
  have hmem : d ∈ ds.definitions := mem_of_findDefinition hd
  have hname : d.name = name := name_of_findDefinition hd
  have hsub : ds.unvisited (name :: visited) =
      (ds.unvisited visited).filter fun d => d.name != name := by
    simp only [unvisited, List.filter_filter]
    refine List.filter_congr fun x _ => ?_
    simp only [List.contains_cons, bne, Bool.not_or]
  rw [hsub]
  have hin : d ∈ ds.unvisited visited := by
    simp only [unvisited, List.mem_filter, hname, hv, hmem, Bool.not_false, and_self]
  refine Nat.lt_of_le_of_ne (List.length_filter_le _ _) fun h => ?_
  have hall := List.length_filter_eq_length_iff.1 h d hin
  simp [hname] at hall

/-- Visits the queued names in order, and after each definition the names in it. -/
def explore (ds : Declarations) (visited : List String) : List String → List String
  | [] => visited
  | name :: queue =>
    if _hv : visited.contains name then ds.explore visited queue
    else match _hd : ds.find name with
      | none => ds.explore visited queue
      | some d => ds.explore (name :: visited) (queue ++ ds.references d)
termination_by queue => ((ds.unvisited visited).length, queue.length)
decreasing_by
  · exact Prod.Lex.right _ (by simp)
  · exact Prod.Lex.right _ (by simp)
  · exact Prod.Lex.left _ _ (length_unvisited_cons_lt (by simpa using _hv) _hd)

end Declarations

/-- The types of a schema and the types outside of it, sorted, and for object types outside the
interfaces of the schema that they implement. -/
structure Reachability where
  reachable : List String
  unreachable : List String
  excludedImplementers : Table String (List String)

/-- Whether a type belongs to the schema. -/
def Reachability.contains (r : Reachability) (name : String) : Bool := r.reachable.contains name

namespace Declarations

/-- The types reachable from roots and orphans. -/
def reachability (ds : Declarations) (roots orphans : List String) : Reachability :=
  let visited := ds.explore [] (roots ++ orphans)
  let unreachable := ((ds.unvisited visited).map (·.name)).mergeSort
  { reachable := visited.mergeSort
    unreachable
    excludedImplementers := unreachable.filterMap fun name =>
      match (ds.find name).map fun d => d.interfaces.filter visited.contains with
      | some (i :: is) => some (name, i :: is)
      | _ => none }

end Declarations

end GraphSchema
