import GraphSchema.Proofs.Declarations.Coherence
import GraphSchema.Registry.Violations
import Mathlib.Data.List.Basic
import Mathlib.Data.Set.Basic

/-!
# What composition and validation read

Both read the definitions and the declared fields, but neither composed fields nor whether the
store is closed, and they find definitions by name. So declarations that agree on what is found
and declared under every name compose in the same way and have the same violations. For the
composed tables of some types alone it is enough to agree on these types and their interfaces.

## Main definitions

* `Declarations.finalFields`, `Declarations.finalBehaviors` — the final tables of an owner.
* `Declarations.AgreeOn` — declarations that say the same of certain names.
* `Declarations.Agree` — declarations that say the same of every name.
* `Declarations.SameDeclared` — declarations that differ in what builds write only.

## Main statements

* `Declarations.AgreeOn.finalFields`, `Declarations.AgreeOn.finalBehaviors` — they compose the
  types of these names in the same way.
* `Declarations.Agree.compose` — composition is the same as a whole.
* `Declarations.Agree.rootErrors`, `Declarations.Agree.definitionErrors` — references have the
  same errors.
* `Declarations.SameDeclared.coherent` — declarations that differ so are coherent together.
-/

namespace GraphSchema

namespace Declarations

/-- The final fields of an owner: of an object type those that are composed, of an interface
those that it declares. -/
def finalFields (ds : Declarations) (owner : String) : Table String Field :=
  match ds.body? owner with
  | some (.object o) => (ds.compose owner o).fields
  | some (.interface i) => ds.interfaceFields ⟨owner, i⟩
  | _ => []

/-- The final behaviors of an owner. -/
def finalBehaviors (ds : Declarations) (owner : String) : Table String Behavior :=
  match ds.body? owner with
  | some (.object o) => (ds.compose owner o).behaviors
  | some (.interface i) => ds.interfaceBehaviors ⟨owner, i⟩
  | _ => []

variable {ds ds' : Declarations} {N : Set String} {name owner : String}

/-! ## Agreement on certain names -/

/-- Declarations that say the same of certain names. With a type its interfaces are among these
names. -/
structure AgreeOn (N : Set String) (ds ds' : Declarations) : Prop where
  find : ∀ name ∈ N, ds'.find name = ds.find name
  declared : ∀ owner ∈ N, ∀ layer, layer ≠ .effective →
    ds'.fields.declared owner layer = ds.fields.declared owner layer
  interfaces : ∀ name ∈ N, ∀ d, ds.find name = some d → ∀ i ∈ d.interfaces, i ∈ N

/-- Coherent declarations declare the same fields for a name that they both define alike. -/
theorem Coherent.agreeOn (h : ds.Coherent) (h' : ds'.Coherent)
    (hfind : ∀ name ∈ N, ds'.find name = ds.find name)
    (hinterfaces : ∀ name ∈ N, ∀ d, ds.find name = some d → ∀ i ∈ d.interfaces, i ∈ N) :
    AgreeOn N ds ds' where
  find := hfind
  declared owner ho layer hl := by
    rw [h.declared owner layer hl, h'.declared owner layer hl, hfind owner ho]
  interfaces := hinterfaces

theorem name_mem_of_implemented {i : Implemented} {names : List String}
    (hi : i ∈ ds.implemented names) : i.name ∈ names := by
  obtain ⟨n, hn, hfound⟩ := List.mem_filterMap.1 hi
  obtain ⟨rfl, -⟩ := interface?_eq_some_iff.1 hfound
  exact List.mem_eraseDups.1 hn

namespace AgreeOn

theorem body? (h : AgreeOn N ds ds') (hn : name ∈ N) : ds'.body? name = ds.body? name := by
  rw [Declarations.body?, h.find name hn, ← Declarations.body?]

theorem interface? (h : AgreeOn N ds ds') (hn : name ∈ N) :
    ds'.interface? name = ds.interface? name := by
  rw [Declarations.interface?, h.body? hn, ← Declarations.interface?]

theorem implemented (h : AgreeOn N ds ds') {names : List String} (hn : ∀ n ∈ names, n ∈ N) :
    ds'.implemented names = ds.implemented names :=
  List.filterMap_congr fun n hmem => h.interface? (hn n (List.mem_eraseDups.1 hmem))

theorem interfaceFields (h : AgreeOn N ds ds') {i : Implemented} (hi : i.name ∈ N) :
    ds'.interfaceFields i = ds.interfaceFields i :=
  h.declared i.name hi .interface (by decide)

theorem layerBehaviors (h : AgreeOn N ds ds') (ho : owner ∈ N) {layer : Layer}
    (listed : Table String Behavior) (hl : layer ≠ .effective) :
    ds'.layerBehaviors owner layer listed = ds.layerBehaviors owner layer listed := by
  rw [Declarations.layerBehaviors, h.declared owner ho layer hl, ← Declarations.layerBehaviors]

theorem interfaceBehaviors (h : AgreeOn N ds ds') {i : Implemented} (hi : i.name ∈ N) :
    ds'.interfaceBehaviors i = ds.interfaceBehaviors i :=
  h.layerBehaviors hi i.body.behaviors (by decide)

theorem composeFields (h : AgreeOn N ds ds') (hn : name ∈ N) {interfaces : List Implemented}
    (hi : ∀ i ∈ interfaces, i.name ∈ N) :
    ds'.composeFields name interfaces = ds.composeFields name interfaces := by
  have hinherited : interfaces.foldl (fun t i => Table.mergeNew t (ds'.interfaceFields i)) [] =
      interfaces.foldl (fun t i => Table.mergeNew t (ds.interfaceFields i)) [] :=
    List.foldl_ext _ _ _ fun t i hmem => by rw [h.interfaceFields (hi i hmem)]
  rw [Declarations.composeFields, hinherited, h.declared name hn .own (by decide),
    ← Declarations.composeFields]

theorem composeBehaviors (h : AgreeOn N ds ds') (hn : name ∈ N) {interfaces : List Implemented}
    (hi : ∀ i ∈ interfaces, i.name ∈ N) (o : ObjectType) :
    ds'.composeBehaviors name o interfaces = ds.composeBehaviors name o interfaces := by
  have hinherited : interfaces.foldl (fun t i => Table.mergeNew t (ds'.interfaceBehaviors i)) [] =
      interfaces.foldl (fun t i => Table.mergeNew t (ds.interfaceBehaviors i)) [] :=
    List.foldl_ext _ _ _ fun t i hmem => by rw [h.interfaceBehaviors (hi i hmem)]
  rw [Declarations.composeBehaviors, hinherited, h.layerBehaviors hn o.behaviors (by decide),
    ← Declarations.composeBehaviors]

/-- A type whose interfaces are among the names is composed in the same way. -/
theorem compose_tables (h : AgreeOn N ds ds') (hn : name ∈ N) {o : ObjectType}
    (ho : ∀ i ∈ o.interfaces, i ∈ N) :
    (ds'.compose name o).fields = (ds.compose name o).fields ∧
      (ds'.compose name o).behaviors = (ds.compose name o).behaviors := by
  have hi : ∀ i ∈ ds.implemented o.interfaces, i.name ∈ N :=
    fun i hi => ho i.name (name_mem_of_implemented hi)
  simp only [compose, h.implemented ho, h.composeFields hn hi, h.composeBehaviors hn hi, and_self]

theorem interfaces_of_body? (h : AgreeOn N ds ds') (hn : name ∈ N) {o : ObjectType}
    (ho : ds.body? name = some (.object o)) : ∀ i ∈ o.interfaces, i ∈ N := by
  obtain ⟨d, hd, hb⟩ := Option.map_eq_some_iff.1 ho
  have hinterfaces := h.interfaces name hn d hd
  rwa [Definition.interfaces, hb] at hinterfaces

theorem finalFields (h : AgreeOn N ds ds') (hn : name ∈ N) :
    ds'.finalFields name = ds.finalFields name := by
  unfold Declarations.finalFields
  rw [h.body? hn]
  split
  · next o ho => exact (h.compose_tables hn (h.interfaces_of_body? hn ho)).1
  · next i _ => exact h.interfaceFields (i := ⟨name, i⟩) hn
  · rfl

theorem finalBehaviors (h : AgreeOn N ds ds') (hn : name ∈ N) :
    ds'.finalBehaviors name = ds.finalBehaviors name := by
  unfold Declarations.finalBehaviors
  rw [h.body? hn]
  split
  · next o ho => exact (h.compose_tables hn (h.interfaces_of_body? hn ho)).2
  · next i _ => exact h.interfaceBehaviors (i := ⟨name, i⟩) hn
  · rfl

end AgreeOn

/-! ## Agreement on every name -/

/-- Declarations that say the same of every name. -/
structure Agree (ds ds' : Declarations) : Prop where
  find : ds'.find = ds.find
  declared : ∀ owner layer, layer ≠ .effective →
    ds'.fields.declared owner layer = ds.fields.declared owner layer

theorem Coherent.agree (h : ds.Coherent) (h' : ds'.Coherent) (hfind : ds'.find = ds.find) :
    Agree ds ds' where
  find := hfind
  declared owner layer hl := by
    rw [h.declared owner layer hl, h'.declared owner layer hl, hfind]

namespace Agree

theorem agreeOn (h : Agree ds ds') : AgreeOn Set.univ ds ds' where
  find name _ := congrFun h.find name
  declared owner _ := h.declared owner
  interfaces _ _ _ _ _ _ := Set.mem_univ _

theorem body? (h : Agree ds ds') : ds'.body? = ds.body? :=
  funext fun _ => h.agreeOn.body? (Set.mem_univ _)

theorem interfaceFields (h : Agree ds ds') : ds'.interfaceFields = ds.interfaceFields :=
  funext fun _ => h.agreeOn.interfaceFields (Set.mem_univ _)

theorem isPossible (h : Agree ds ds') : ds'.isPossible = ds.isPossible := by
  funext abstract type
  rw [Declarations.isPossible, h.body?, ← Declarations.isPossible]

theorem interfaceErrors (h : Agree ds ds') {type : String} {seen names : List String} :
    ds'.interfaceErrors type seen names = ds.interfaceErrors type seen names := by
  induction names generalizing seen with
  | nil => rfl
  | cons name names ih => simp only [Declarations.interfaceErrors, h.find, ih]

theorem incompatibility? (h : Agree ds ds') : ds'.incompatibility? = ds.incompatibility? := by
  funext expected found
  rw [Declarations.incompatibility?, h.isPossible, ← Declarations.incompatibility?]

theorem inherits (h : Agree ds ds') : ds'.inherits = ds.inherits := by
  funext type interfaces i fieldName
  rw [Declarations.inherits, h.interfaceFields, h.declared type .own (by decide),
    ← Declarations.inherits]

theorem contractErrors (h : Agree ds ds') : ds'.contractErrors = ds.contractErrors := by
  funext type interfaces fields i
  rw [Declarations.contractErrors, h.interfaceFields, h.inherits, h.incompatibility?,
    ← Declarations.contractErrors]

theorem compose (h : Agree ds ds') : ds'.compose = ds.compose := by
  funext type o
  have himplemented : ds'.implemented o.interfaces = ds.implemented o.interfaces :=
    h.agreeOn.implemented fun _ _ => Set.mem_univ _
  have hfields (interfaces : List Implemented) :
      ds'.composeFields type interfaces = ds.composeFields type interfaces :=
    h.agreeOn.composeFields (Set.mem_univ type) fun _ _ => Set.mem_univ _
  have hbehaviors (interfaces : List Implemented) :
      ds'.composeBehaviors type o interfaces = ds.composeBehaviors type o interfaces :=
    h.agreeOn.composeBehaviors (Set.mem_univ type) (fun _ _ => Set.mem_univ _) o
  simp only [Declarations.compose, himplemented, hfields, hbehaviors, h.interfaceErrors,
    h.contractErrors]

/-! ## References -/

theorem expect (h : Agree ds ds') : ds'.expect = ds.expect := by
  funext name position place
  rw [Declarations.expect, h.find, ← Declarations.expect]

theorem rootErrors (h : Agree ds ds') : ds'.rootErrors = ds.rootErrors := by
  funext roots
  cases roots with
  | none => rfl
  | some roots => simp only [Declarations.rootErrors, h.expect]

theorem definitionErrors (h : Agree ds ds') : ds'.definitionErrors = ds.definitionErrors := by
  have hf : ds'.fieldErrors = ds.fieldErrors := by
    funext owner f
    rw [fieldErrors, h.expect, ← fieldErrors]
  funext d
  rw [Declarations.definitionErrors, h.expect, hf, ← Declarations.definitionErrors]

end Agree

/-! ## Before and after a build -/

/-- Declarations with the same definitions and the same declared fields: only composed fields
may differ, and whether the store is closed. -/
structure SameDeclared (ds ds' : Declarations) : Prop where
  definitions : ds'.definitions = ds.definitions
  declared : ∀ owner layer, layer ≠ .effective →
    ds'.fields.declared owner layer = ds.fields.declared owner layer

namespace SameDeclared

theorem agree (h : SameDeclared ds ds') : Agree ds ds' where
  find := by
    funext name
    rw [Declarations.find, h.definitions, ← Declarations.find]
  declared := h.declared

theorem coherent (h : SameDeclared ds ds') (hc : ds.Coherent) : ds'.Coherent where
  distinct := by
    rw [h.definitions]
    exact hc.distinct
  distinctFields := by
    rw [h.definitions]
    exact hc.distinctFields
  distinctBehaviors := by
    rw [h.definitions]
    exact hc.distinctBehaviors
  declared owner layer hl := by
    rw [h.declared owner layer hl, h.agree.find, hc.declared owner layer hl]

theorem compositions (h : SameDeclared ds ds') : ds'.compositions = ds.compositions := by
  rw [Declarations.compositions, h.definitions, h.agree.compose, ← Declarations.compositions]

end SameDeclared

end Declarations

end GraphSchema
