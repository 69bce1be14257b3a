import GraphSchema.Proofs.Composition.Contract
import GraphSchema.Proofs.Registry.Provenance
import GraphSchema.Proofs.Reports
import GraphSchema.Proofs.Schema.References

/-!
# What is wrong with a declaration

The violations of one definition by their sites, each with its error: fields of a repeated name,
references to what is not there or of another kind, definitions that must not be empty, and
interfaces that are not satisfied. The checks report every site once, and nothing else.

## Main definitions

* `Part` — a part of a declaration that can be wrong.
* `Check`, `Part.check` — the checks in order, and the one that looks at a part.
* `Misplaced` — what is wrong with a reference.
* `Declarations.Breaks` — what is wrong with a composed field.
* `Definition.Repeats`, `Definition.Mistypes`, `Definition.Misrefers`, `Definition.Misimplements` —
  what is wrong with the names of fields and with their types, with other references, and with the
  interfaces of an object type.

## Main statements

* `Registry.reports_accepted` — repeated names are reported as the definition is taken in.
* `Declarations.reports_definitionErrors` — references are reported.
* `Declarations.Coherent.reports_compose_errors` — interfaces are reported by composition.
-/

namespace GraphSchema

/-- A part of a declaration that can be wrong. What is listed is told by its place, and what an
interface asks for by its names. -/
inductive Part where
  | name
  | field (index : Nat)
  | fieldType (index : Nat)
  | argumentType (field index : Nat)
  | inputType (index : Nat)
  | orphan (index : Nat)
  | members
  | member (index : Nat)
  | values
  | interface (index : Nat)
  | contract (interface field : String)
  | roots

/-- The checks of declarations, in order. -/
inductive Check where
  | intake
  | roots
  | references
  | composition

/-- The check that looks at a part. -/
def Part.check : Part → Check
  | .name | .field _ | .roots => .intake
  | .interface _ | .contract .. => .composition
  | _ => .references

/-- The type of a field, or that of an argument. -/
def Part.ofField : Nat × Option Nat → Part
  | (index, none) => .fieldType index
  | (index, some argument) => .argumentType index argument

theorem Part.ofField_injective : Function.Injective Part.ofField := by
  rintro ⟨j, _ | m⟩ ⟨k, _ | n⟩ h <;> cases h <;> rfl

/-- What is wrong with a reference from a place that admits some kinds of types, where it is known
what kind of type a name stands for: the name stands for none, or for one of another kind. -/
inductive Misplaced (kind? : String → Option TypeKind) (name : String) (position : Position)
    (place : Reference) : Error → Prop
  | unknown : kind? name = none →
    Misplaced kind? name position place (.unknownType name (some place) false)
  | wrongKind {k : TypeKind} : kind? name = some k → position.admits k = false →
    Misplaced kind? name position place (.wrongKind place position k name)

/-- What is wrong with the composed field of an object type that has the name of an interface field:
it comes from elsewhere than the interface, and does not satisfy the field of this. The error tells
what it fails first. -/
inductive Declarations.Breaks (ds : Declarations) (type : String) (o : ObjectType)
    (i : Implemented) (expected : Field) : Error → Prop
  | intro {found : Field} {reason : Incompatibility} : ds.Replaced o i expected.name →
    o.composedField? (ds.interfacesOf o) expected.name = some found →
    ¬ ds.Fulfills expected found → ds.Fails expected found reason →
    ds.Breaks type o i expected (.contractViolation i.name type expected.name reason)

namespace Definition

/-- The fields that a definition declares, under their final names. -/
def finalFields (camelize : Bool) (d : Definition) : List Field :=
  d.fields.map (Registry.finalField camelize)

/-- The layer that the fields of a definition stand in. -/
def layer (d : Definition) : Layer :=
  match d.body with
  | .interface _ => .interface
  | _ => .own

/-- Whether the field at a place bears the name of an earlier one. -/
def IsRepeated (camelize : Bool) (d : Definition) (index : Nat) (f : Field) : Prop :=
  f.name ∈ ((d.finalFields camelize).take index).map (·.name)

variable (camelize : Bool) (kind? : String → Option TypeKind) (ds : Declarations)

/-- What is wrong with the names of the fields of a declared definition. -/
inductive Repeats (d : Definition) : Part → Error → Prop
  | field {index : Nat} {f : Field} : (d.finalFields camelize)[index]? = some f →
    d.IsRepeated camelize index f →
    d.Repeats (.field index) (.duplicateField d.name f.name d.layer)

/-- What is wrong with the types of the fields of a declared definition, and with those of their
arguments. Fields of a repeated name are left out. -/
inductive Mistypes (d : Definition) : Part → Error → Prop
  | fieldType {index : Nat} {f : Field} {e : Error} :
    (d.finalFields camelize)[index]? = some f → ¬ d.IsRepeated camelize index f →
    Misplaced kind? f.type.innermost .output (.field d.name f.name) e →
    d.Mistypes (.fieldType index) e
  | argumentType {field index : Nat} {f : Field} {a : Argument} {e : Error} :
    (d.finalFields camelize)[field]? = some f → ¬ d.IsRepeated camelize field f →
    f.arguments[index]? = some a →
    Misplaced kind? a.type.innermost .input (.argument d.name f.name a.name) e →
    d.Mistypes (.argumentType field index) e

/-- What is wrong with the other references of a registered definition, and with what must not be
empty. -/
inductive Misrefers (d : Definition) : Part → Error → Prop
  | inputType {inputs : List Argument} {index : Nat} {a : Argument} {e : Error} :
    d.body = .inputObject inputs → inputs[index]? = some a →
    Misplaced kind? a.type.innermost .input (.inputField d.name a.name) e →
    d.Misrefers (.inputType index) e
  | orphan {i : InterfaceType} {index : Nat} {name : String} {e : Error} :
    d.body = .interface i → i.orphans[index]? = some name →
    Misplaced kind? name .object (.interfaceOrphan d.name) e → d.Misrefers (.orphan index) e
  | noMembers {u : UnionType} : d.body = .union u → u.members = [] →
    d.Misrefers .members (.emptyUnion d.name)
  | member {u : UnionType} {index : Nat} {name : String} {e : Error} :
    d.body = .union u → u.members[index]? = some name →
    Misplaced kind? name .object (.member d.name) e → d.Misrefers (.member index) e
  | noValues : d.body = .enum [] → d.Misrefers .values (.emptyEnum d.name)

/-- What is wrong with the interfaces of a registered definition: a name may be listed before, stand
for no type, or for one that is no interface; and a composed field may break the contract. -/
inductive Misimplements (d : Definition) : Part → Error → Prop
  | repeated {index : Nat} {name : String} : d.interfaces[index]? = some name →
    name ∈ d.interfaces.take index →
    d.Misimplements (.interface index) (.repeatedInterface d.name name)
  | unknown {index : Nat} {name : String} : d.interfaces[index]? = some name →
    name ∉ d.interfaces.take index → kind? name = none →
    d.Misimplements (.interface index) (.unknownType name (some (.implementing d.name)) false)
  | wrongKind {index : Nat} {name : String} {k : TypeKind} : d.interfaces[index]? = some name →
    name ∉ d.interfaces.take index → kind? name = some k → k ≠ .interface →
    d.Misimplements (.interface index) (.notAnInterface d.name name k)
  | contract {o : ObjectType} {i : Declarations.Implemented} {expected : Field} {e : Error} :
    d.body = .object o → i ∈ ds.implemented o.interfaces → expected ∈ i.body.fields →
    ds.Breaks d.name o i expected e → d.Misimplements (.contract i.name expected.name) e

end Definition

/-! ## Checks -/

section Checks

variable {camelize : Bool} {kind? : String → Option TypeKind} {ds : Declarations} {d : Definition}
  {part : Part} {e : Error}

theorem Definition.Repeats.check (h : d.Repeats camelize part e) : part.check = .intake := by
  cases h
  rfl

theorem Definition.Mistypes.check (h : d.Mistypes camelize kind? part e) :
    part.check = .references := by
  cases h <;> rfl

theorem Definition.Misrefers.check (h : d.Misrefers kind? part e) : part.check = .references := by
  cases h <;> rfl

theorem Definition.Misimplements.check (h : d.Misimplements kind? ds part e) :
    part.check = .composition := by
  cases h <;> rfl

end Checks

/-! ## Names of fields -/

namespace Registry

variable {camelize : Bool} {d : Definition} {owner : String} {layer : Layer}

theorem sifted_concat {fields : List Field} {f : Field} :
    sifted owner layer (fields ++ [f]) = sift owner layer (sifted owner layer fields) f := by
  simp [sifted]

/-- Of every name one field is taken. -/
theorem mem_map_name_sifted {fields : List Field} {name : String} :
    name ∈ (sifted owner layer fields).1.map (·.name) ↔ name ∈ fields.map (·.name) := by
  induction fields using List.reverseRecOn with
  | nil => rfl
  | append_singleton fields f ih =>
    rw [sifted_concat, sift]
    split
    · next hf =>
      rw [ih, List.map_append, List.mem_append]
      refine ⟨.inl, fun h => h.elim id fun h => ?_⟩
      obtain rfl := List.mem_singleton.1 h
      exact ih.1 hf
    · simp [ih]

/-- Every field of an earlier name is a problem. -/
theorem reports_problems_sifted (fields : List Field) :
    Reports (sifted owner layer fields).2 fun (x : Nat × Unit) e =>
      ∃ f, fields[x.1]? = some f ∧ f.name ∈ (fields.take x.1).map (·.name) ∧
        e = .duplicateField owner f.name layer := by
  refine Reports.of_prefix (E := fun fields => (sifted owner layer fields).2)
    (g := fun pre f =>
      if f.name ∈ pre.map (·.name) then [Error.duplicateField owner f.name layer] else [])
    (P := fun pre f _ e => f.name ∈ pre.map (·.name) ∧ e = .duplicateField owner f.name layer)
    rfl (fun pre f _ => ?_) fun pre f _ => ?_
  · simp only [sifted_concat, sift, mem_map_name_sifted]
    split <;> simp
  · split
    · next hf => exact Reports.singleton (x := ()) fun _ _ => by simp [hf]
    · next hf => exact Reports.nil fun _ _ => by simp [hf]

/-- What is wrong with every other field is reported at its place. -/
theorem reports_flatMap_sifted {σ : Type} {g : Field → List Error} {P : Field → σ → Error → Prop}
    (h : ∀ f, Reports (g f) (P f)) (fields : List Field) :
    Reports ((sifted owner layer fields).1.flatMap g) fun (x : Nat × σ) e =>
      ∃ f, fields[x.1]? = some f ∧ f.name ∉ (fields.take x.1).map (·.name) ∧ P f x.2 e := by
  refine Reports.of_prefix (E := fun fields => (sifted owner layer fields).1.flatMap g)
    (g := fun pre f => if f.name ∈ pre.map (·.name) then [] else g f)
    (P := fun pre f y e => f.name ∉ pre.map (·.name) ∧ P f y e)
    rfl (fun pre f _ => ?_) fun pre f _ => ?_
  · simp only [sifted_concat, sift, mem_map_name_sifted]
    split <;> simp
  · split
    · next hf => exact Reports.nil fun _ _ => by simp [hf]
    · next hf => exact (h f).congr fun _ _ => by simp [hf]

theorem snd_accepted (camelize : Bool) (d : Definition) :
    (accepted camelize d).2 = (sifted d.name d.layer (d.finalFields camelize)).2 := by
  obtain ⟨name, description, body⟩ := d
  cases body <;> rfl

/-- What is wrong with the names of fields is reported as the definition is taken in. -/
theorem reports_accepted (camelize : Bool) (d : Definition) :
    Reports (accepted camelize d).2 (d.Repeats camelize) := by
  rw [snd_accepted]
  refine ((reports_problems_sifted _).place (f := Part.field) fun _ _ => Part.field.inj).congr
    fun x e => ⟨?_, ?_⟩
  · rintro ⟨_, rfl, f, hf, hname, rfl⟩
    exact .field hf hname
  · rintro ⟨hf, hname⟩
    exact ⟨_, rfl, _, hf, hname, rfl⟩

end Registry

/-! ## References -/

namespace Declarations

variable {ds : Declarations} {camelize : Bool} {d : Definition}

/-- The kind of type that a name stands for. -/
def kind? (ds : Declarations) (name : String) : Option TypeKind := (ds.find name).map (·.kind)

theorem reports_expect (ds : Declarations) (name : String) (position : Position)
    (place : Reference) :
    Reports (ds.expect name position place) fun (_ : Unit) e =>
      Misplaced ds.kind? name position place e := by
  unfold expect
  cases hd : ds.find name with
  | none =>
    refine Reports.singleton (x := ()) fun _ e => ?_
    have hnone : ds.kind? name = none := by rw [kind?, hd]; rfl
    constructor
    · rintro (_ | ⟨hk, _⟩)
      · simp
      · cases hnone.symm.trans hk
    · rintro ⟨-, rfl⟩
      exact .unknown hnone
  | some d =>
    have hkind : ds.kind? name = some d.kind := by rw [kind?, hd]; rfl
    have hiff (e : Error) : Misplaced ds.kind? name position place e ↔
        position.admits d.kind = false ∧ e = .wrongKind place position d.kind name := by
      constructor
      · rintro (hk | ⟨hk, hadmits⟩)
        · cases hkind.symm.trans hk
        · obtain rfl := Option.some.inj (hkind.symm.trans hk)
          exact ⟨hadmits, rfl⟩
      · rintro ⟨hadmits, rfl⟩
        exact .wrongKind hkind hadmits
    dsimp only
    split
    · next hadmits => exact Reports.nil fun _ e => by simp [hiff, hadmits]
    · next hadmits => exact Reports.singleton (x := ()) fun _ e => by simp [hiff, hadmits]

/-- A list of references is reported one by one. -/
theorem reports_flatMap_expect {α τ : Type} {f : Nat → τ} (hf : Function.Injective f)
    (ds : Declarations) (name : α → String) (position : Position) (place : α → Reference)
    (l : List α) :
    Reports (l.flatMap fun a => ds.expect (name a) position (place a)) fun y e =>
      ∃ k, f k = y ∧ ∃ a, l[k]? = some a ∧
        Misplaced ds.kind? (name a) position (place a) e :=
  (Reports.flatMap fun a _ => ds.reports_expect (name a) position (place a)).place hf

/-- The type of a field is reported, and those of its arguments one by one. -/
theorem reports_fieldErrors (ds : Declarations) (owner : String) (f : Field) :
    Reports (ds.fieldErrors owner f) fun (x : Option Nat) e =>
      (x = none ∧ Misplaced ds.kind? f.type.innermost .output (.field owner f.name) e) ∨
      ∃ k, some k = x ∧ ∃ a, f.arguments[k]? = some a ∧
        Misplaced ds.kind? a.type.innermost .input (.argument owner f.name a.name) e := by
  have htype := (ds.reports_expect f.type.innermost .output (.field owner f.name)).map
    (f := fun _ => (none : Option Nat)) fun _ _ _ => rfl
  have harguments := reports_flatMap_expect (Option.some_injective Nat) ds
    (fun a : Argument => a.type.innermost) .input (fun a => .argument owner f.name a.name)
    f.arguments
  refine (htype.append harguments ?_).congr fun x e => or_congr_left ?_
  · rintro _ _ _ ⟨_, rfl, -⟩ ⟨_, ⟨⟩, -⟩
  · simp [eq_comm]

/-- The types of fields and arguments are reported, but not those of fields that are left out. -/
theorem reports_fields (ds : Declarations) (camelize : Bool) (d : Definition) :
    Reports ((Registry.accepted camelize d).1.fields.flatMap (ds.fieldErrors d.name))
      (d.Mistypes camelize ds.kind?) := by
  have hfields : (Registry.accepted camelize d).1.fields =
      (Registry.sifted d.name d.layer (d.finalFields camelize)).1 := by
    obtain ⟨name, description, body⟩ := d
    cases body <;> rfl
  rw [hfields]
  refine ((Registry.reports_flatMap_sifted (ds.reports_fieldErrors d.name) _).map
    Part.ofField_injective).congr fun x e => ⟨?_, ?_⟩
  · rintro ⟨⟨j, _⟩, rfl, f, hf, hname, ⟨rfl, hplace⟩ | ⟨m, rfl, a, ha, hplace⟩⟩
    · exact .fieldType hf hname hplace
    · exact .argumentType hf hname ha hplace
  · rintro (⟨hf, hname, hplace⟩ | ⟨hf, hname, ha, hplace⟩)
    · exact ⟨(_, none), rfl, _, hf, hname, .inl ⟨rfl, hplace⟩⟩
    · exact ⟨(_, some _), rfl, _, hf, hname, .inr ⟨_, rfl, _, ha, hplace⟩⟩

/-- The errors of a definition apart from those of its fields. -/
def otherErrors (ds : Declarations) (d : Definition) : List Error :=
  match d.body with
  | .scalar | .object _ => []
  | .enum values => if values.isEmpty then [.emptyEnum d.name] else []
  | .inputObject inputs => inputs.flatMap fun a =>
      ds.expect a.type.innermost .input (.inputField d.name a.name)
  | .interface i => i.orphans.flatMap fun name => ds.expect name .object (.interfaceOrphan d.name)
  | .union u => (if u.members.isEmpty then [.emptyUnion d.name] else []) ++
      u.members.flatMap fun name => ds.expect name .object (.member d.name)

theorem definitionErrors_eq (ds : Declarations) (d : Definition) :
    ds.definitionErrors d = d.fields.flatMap (ds.fieldErrors d.name) ++ ds.otherErrors d := by
  unfold definitionErrors otherErrors Definition.fields
  cases d.body <;> simp

/-- References apart from those of fields are reported, and what must not be empty. -/
theorem reports_otherErrors (ds : Declarations) (d : Definition) :
    Reports (ds.otherErrors d) (d.Misrefers ds.kind?) := by
  unfold otherErrors
  cases hb : d.body with
  | scalar | object _ =>
    refine Reports.nil fun x e h => ?_
    cases h <;> simp_all
  | enum values =>
    cases values with
    | nil =>
      refine Reports.singleton (x := Part.values) fun x e => ⟨fun h => ?_, ?_⟩
      · cases h <;> simp_all
      · rintro ⟨rfl, rfl⟩
        exact .noValues hb
    | cons value values =>
      refine Reports.nil fun x e h => ?_
      cases h <;> simp_all
  | inputObject inputs =>
    refine (reports_flatMap_expect (f := Part.inputType) (fun _ _ => Part.inputType.inj) ds
      (fun a : Argument => a.type.innermost) .input (fun a => .inputField d.name a.name)
      inputs).congr fun x e => ⟨?_, fun h => ?_⟩
    · rintro ⟨k, rfl, a, ha, hplace⟩
      exact .inputType hb ha hplace
    · cases h <;> simp_all
  | interface i =>
    refine (reports_flatMap_expect (f := Part.orphan) (fun _ _ => Part.orphan.inj) ds
      id .object (fun _ => .interfaceOrphan d.name) i.orphans).congr fun x e => ⟨?_, fun h => ?_⟩
    · rintro ⟨k, rfl, name, hname, hplace⟩
      exact .orphan hb hname hplace
    · cases h <;> simp_all
  | union u =>
    have hmembers := reports_flatMap_expect (f := Part.member) (fun _ _ => Part.member.inj) ds
      id .object (fun _ => .member d.name) u.members
    have hempty : Reports (if u.members.isEmpty then [Error.emptyUnion d.name] else [])
        fun x e => u.members = [] ∧ x = Part.members ∧ e = .emptyUnion d.name := by
      split
      · next hm =>
        exact Reports.singleton (x := Part.members) fun x e => by simp [List.isEmpty_iff.1 hm]
      · next hm => exact Reports.nil fun x e => by simp_all
    refine (hempty.append hmembers ?_).congr fun x e => ⟨?_, fun h => ?_⟩
    · rintro _ _ _ ⟨-, rfl, -⟩ ⟨_, ⟨⟩, -⟩
    · rintro (⟨hm, rfl, rfl⟩ | ⟨k, rfl, name, hname, hplace⟩)
      · exact .noMembers hb hm
      · exact .member hb hname hplace
    · cases h <;> simp_all

/-- All references of a registered definition are reported. -/
theorem reports_definitionErrors (ds : Declarations) (camelize : Bool) (d : Definition) :
    Reports (ds.definitionErrors (Registry.accepted camelize d).1) fun part e =>
      d.Mistypes camelize ds.kind? part e ∨
        (Registry.accepted camelize d).1.Misrefers ds.kind? part e := by
  rw [definitionErrors_eq, Registry.name_accepted]
  refine (ds.reports_fields camelize d).append (ds.reports_otherErrors _) ?_
  rintro _ _ _ (_ | _) ⟨⟩

/-! ## Interfaces -/

/-- What is wrong with one more name of an interface depends on the names before it. -/
theorem interfaceErrors_concat {type name : String} {names seen : List String} :
    ds.interfaceErrors type seen (names ++ [name]) = ds.interfaceErrors type seen names ++
      if name ∈ seen ∨ name ∈ names then [.repeatedInterface type name]
      else match ds.kind? name with
        | none => [.unknownType name (some (.implementing type)) false]
        | some k => if k = .interface then [] else [.notAnInterface type name k] := by
  induction names generalizing seen with
  | nil =>
    simp only [List.nil_append, interfaceErrors, List.contains_iff_mem, List.not_mem_nil, or_false,
      List.append_nil, kind?]
    cases ds.find name <;> rfl
  | cons n names ih =>
    simp only [List.cons_append, interfaceErrors, ih, List.contains_iff_mem, List.mem_cons]
    split
    · next hn =>
      have hiff : (name ∈ seen ∨ name ∈ names) ↔ name ∈ seen ∨ name = n ∨ name ∈ names := by
        grind
      simp only [hiff, List.cons_append]
    · have hiff : ((name = n ∨ name ∈ seen) ∨ name ∈ names) ↔
          name ∈ seen ∨ name = n ∨ name ∈ names := by
        grind
      simp only [hiff, List.append_assoc]

/-- The names of interfaces are reported one by one. -/
theorem reports_interfaceErrors (ds : Declarations) (type : String) (names : List String) :
    Reports (ds.interfaceErrors type [] names) fun part e =>
      ∃ k, Part.interface k = part ∧ ∃ name, names[k]? = some name ∧
        (name ∈ names.take k ∧ e = .repeatedInterface type name ∨
          name ∉ names.take k ∧
            (ds.kind? name = none ∧ e = .unknownType name (some (.implementing type)) false ∨
              ∃ kind, ds.kind? name = some kind ∧ kind ≠ .interface ∧
                e = .notAnInterface type name kind)) := by
  refine Reports.place (fun _ _ => Part.interface.inj) (Reports.of_prefix
    (P := fun pre name (_ : Unit) e => name ∈ pre ∧ e = .repeatedInterface type name ∨ name ∉ pre ∧
      (ds.kind? name = none ∧ e = .unknownType name (some (.implementing type)) false ∨
        ∃ kind, ds.kind? name = some kind ∧ kind ≠ .interface ∧
          e = .notAnInterface type name kind))
    rfl (fun _ _ _ => interfaceErrors_concat) fun pre name _ => ?_)
  simp only [List.not_mem_nil, false_or]
  split
  · next hname => exact Reports.singleton (x := ()) fun _ e => by simp [hname]
  · next hname =>
    cases ds.kind? name with
    | none => exact Reports.singleton (x := ()) fun _ e => by simp [hname]
    | some kind =>
      dsimp only
      split
      · next hkind => exact Reports.nil fun _ e => by simp [hname, hkind]
      · next hkind => exact Reports.singleton (x := ()) fun _ e => by simp [hname, hkind]

/-- The fields of interfaces that are not satisfied are reported one by one. -/
theorem Coherent.reports_contractErrors (hc : ds.Coherent) {o : ObjectType}
    (hd : d ∈ ds.definitions) (ho : d.body = .object o) :
    Reports ((ds.implemented o.interfaces).flatMap
        (ds.contractErrors d.name (ds.implemented o.interfaces) (ds.compose d.name o).fields))
      fun (x : String × String × Unit) e => ∃ i ∈ ds.implemented o.interfaces, i.name = x.1 ∧
        ∃ expected ∈ i.body.fields, expected.name = x.2.1 ∧ ds.Breaks d.name o i expected e := by
  refine Reports.flatMap_of_nodup (P := fun i (x : String × Unit) e =>
    ∃ expected ∈ i.body.fields, expected.name = x.1 ∧ ds.Breaks d.name o i expected e)
    (nodup_name_implemented o.interfaces) fun i hi => ?_
  have hiface := interface?_of_implemented hi
  rw [contractErrors, hc.interfaceFields hiface, Field.table, List.filterMap_map,
    List.filterMap_eq_flatMap_toList]
  refine Reports.flatMap_of_nodup (P := fun expected (_ : Unit) e =>
    ds.Breaks d.name o i expected e) (hc.distinct_interface hiface) fun expected he => ?_
  have hreplaced := hc.inherits_eq_false_iff hd ho hi (List.mem_map_of_mem he)
  refine Reports.toList fun e => ?_
  simp only [Function.comp_apply, hc.get?_compose_fields hd ho]
  constructor
  · intro herror
    split at herror
    · cases herror
    · next hinherits =>
      obtain ⟨found, hfound, herror⟩ := Option.bind_eq_some_iff.1 herror
      obtain ⟨reason, hreason, herror⟩ := Option.bind_eq_some_iff.1 herror
      obtain rfl := Option.some.inj herror
      have hfails := incompatibility?_eq_some_iff.1 hreason
      exact .intro (hreplaced.1 (Bool.eq_false_iff.2 hinherits)) hfound
        (exists_fails_iff.1 ⟨reason, hfails⟩) hfails
  · rintro ⟨hfrom, hfound, -, hfails⟩
    simp [hreplaced.2 hfrom, hfound, incompatibility?_eq_some_iff.2 hfails]

/-- What is wrong with the interfaces of an object type is reported by its composition. -/
theorem Coherent.reports_compose_errors (hc : ds.Coherent) {o : ObjectType}
    (hd : d ∈ ds.definitions) (ho : d.body = .object o) :
    Reports (ds.compose d.name o).errors (d.Misimplements ds.kind? ds) := by
  have herrors : (ds.compose d.name o).errors = ds.interfaceErrors d.name [] d.interfaces ++
      (ds.implemented o.interfaces).flatMap
        (ds.contractErrors d.name (ds.implemented o.interfaces) (ds.compose d.name o).fields) := by
    rw [Definition.interfaces, ho]
    rfl
  have hcontracts := (hc.reports_contractErrors hd ho).map (f := fun x => Part.contract x.1 x.2.1)
    fun _ _ h => Prod.ext (Part.contract.inj h).1 (Prod.ext (Part.contract.inj h).2 rfl)
  rw [herrors]
  refine ((ds.reports_interfaceErrors d.name d.interfaces).append hcontracts ?_).congr
    fun x e => ⟨?_, ?_⟩
  · rintro _ _ _ ⟨k, rfl, -⟩ ⟨_, ⟨⟩, -⟩
  · rintro (⟨k, rfl, name, hname, hwrong⟩ | ⟨x, rfl, i, hi, hin, expected, he, hen, hbreaks⟩)
    · rcases hwrong with ⟨hseen, rfl⟩ | ⟨hseen, ⟨hk, rfl⟩ | ⟨kind, hk, hne, rfl⟩⟩
      · exact .repeated hname hseen
      · exact .unknown hname hseen hk
      · exact .wrongKind hname hseen hk hne
    · rw [← hin, ← hen]
      exact .contract ho hi he hbreaks
  · rintro (⟨hname, hseen⟩ | ⟨hname, hseen, hk⟩ | ⟨hname, hseen, hk, hne⟩ | ⟨ho', hi, he, hbreaks⟩)
    · exact .inl ⟨_, rfl, _, hname, .inl ⟨hseen, rfl⟩⟩
    · exact .inl ⟨_, rfl, _, hname, .inr ⟨hseen, .inl ⟨hk, rfl⟩⟩⟩
    · exact .inl ⟨_, rfl, _, hname, .inr ⟨hseen, .inr ⟨_, hk, hne, rfl⟩⟩⟩
    · cases ho.symm.trans ho'
      exact .inr ⟨(_, _, ()), rfl, _, hi, rfl, _, he, rfl, hbreaks⟩

/-- What is wrong with the interfaces of a definition is reported if it is an object type, and there
is nothing wrong otherwise. -/
theorem Coherent.reports_objectErrors (hc : ds.Coherent) (hd : d ∈ ds.definitions) :
    Reports
      (match d.body with
      | .object o => (ds.compose d.name o).errors
      | _ => [])
      (d.Misimplements ds.kind? ds) := by
  cases hb : d.body with
  | object o => exact hc.reports_compose_errors hd hb
  | scalar | enum | inputObject | interface | union =>
    refine Reports.nil fun part e h => ?_
    cases h <;> simp_all [Definition.interfaces]

end Declarations

end GraphSchema
