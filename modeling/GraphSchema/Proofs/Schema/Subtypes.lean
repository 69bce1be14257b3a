import GraphSchema.Proofs.Schema.Covariance
import GraphSchema.Proofs.TypeRef

/-!
# The order of types

Among the declarations of a built schema only interfaces and unions have types that belong to them,
and only object types belong to these. So there are no chains, and subtypes are a partial order.

## Main statements

* `Schema.BuiltFrom.noChains_isPossible` — nothing belongs to what belongs to an abstract type.
* `Registry.run_isPartialOrder` — subtypes are a partial order without chains, hence after every run
  whose schema is built.
-/

namespace GraphSchema

open TypeRef

/-- Nothing belongs to an object type. -/
theorem Declarations.isPossible_object {ds : Declarations} {abstract type : String}
    {o : ObjectType} (h : ds.body? abstract = some (.object o)) :
    ds.isPossible abstract type = false := by
  rw [isPossible, h]

/-- What belongs to an abstract type is an object type, to which nothing belongs. -/
theorem Schema.BuiltFrom.noChains_isPossible {s : Schema} {r : Registry} (h : s.BuiltFrom r) :
    NoChains r.declarations.isPossible := by
  intro abstract type hp name
  obtain ⟨o, ho⟩ := h.object_of_possible hp
  exact Declarations.isPossible_object ho

namespace Registry

/-- Subtypes are a partial order on all references whenever no type that belongs to another has
types that belong to it. That is so among the declarations of every run whose schema is built. -/
theorem run_isPartialOrder :
    (∀ possible, NoChains possible →
      IsPartialOrder TypeRef fun s t => s.isSubtype possible t = true) ∧
    ∀ settings ops s, (run settings ops).build.outcome = .ok s →
      NoChains (run settings ops).declarations.isPossible ∧
      IsPartialOrder TypeRef fun s t =>
        s.isSubtype (run settings ops).declarations.isPossible t = true := by
  refine ⟨fun possible h => isPartialOrder_isSubtype h, fun settings ops s hs => ?_⟩
  have hchains := (builtFrom_run hs).noChains_isPossible
  exact ⟨hchains, isPartialOrder_isSubtype hchains⟩

/-- In the small run the query type stands for its interface, and a list of the one that holds no
nulls for a list of the other; not the other way round. -/
theorem sample_isPartialOrder :
    (∃ s, (run {} Sample.operations).build.outcome = .ok s) ∧
    (nonNull (list (nonNull (named "Query")))).isSubtype
      (run {} Sample.operations).declarations.isPossible (list (named "Node")) = true ∧
    (list (named "Node")).isSubtype (run {} Sample.operations).declarations.isPossible
      (nonNull (list (nonNull (named "Query")))) = false ∧
    IsPartialOrder TypeRef fun s t =>
      s.isSubtype (fun abstract type => abstract == "Node" && type == "Query") t = true := by
  obtain ⟨s, hs⟩ := Sample.exists_build
  obtain ⟨hgeneral, hrun⟩ := run_isPartialOrder
  have hchains : NoChains fun abstract type => abstract == "Node" && type == "Query" := by
    intro abstract type h name
    simp only [Bool.and_eq_true, beq_iff_eq] at h
    simp [h.2]
  obtain ⟨-, horder⟩ := hrun {} Sample.operations s hs
  have hnode : (run {} Sample.operations).declarations.isPossible "Node" "Query" = true := rfl
  have hsub : (nonNull (list (nonNull (named "Query")))).isSubtype
      (run {} Sample.operations).declarations.isPossible (list (named "Node")) = true := by
    simp [isSubtype, hnode]
  refine ⟨⟨s, hs⟩, hsub, ?_, hgeneral _ hchains⟩
  rw [← Bool.not_eq_true]
  exact fun h => absurd (horder.antisymm _ _ hsub h) (by decide)

end Registry

end GraphSchema
