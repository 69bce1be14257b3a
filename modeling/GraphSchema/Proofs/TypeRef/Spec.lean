import GraphSchema.Proofs.TypeRef.Grammar
import GraphSchema.TypeRef.Spec

/-!
# The references of type specifications

Whatever a type is specified by, no mark of its reference stands after another. The reference wraps
a name, and is read back from its written form, exactly if the name is not given on its own and with
a line feed after it.

## Main definitions

* `TypeRef.Built` — the references that the checked constructors build.
* `TypeRef.MarkedOnce` — whether no mark stands after another.
* `Spec.Admissible` — specifications with no other references inside.
* `Spec.EndsLine` — whether a specification gives a name with a line feed after it.

## Main statements

* `Spec.built_toTypeRef` — specifications stand for references that can be built.
* `Spec.toTypeRef_legible_iff` — when a reference wraps a name and is read back.
* `Spec.line_illegible` — a name with a line feed after it.
-/

namespace GraphSchema

namespace TypeRef

variable {name : String} {cs : List Char} {t : TypeRef}

/-! ## References that can be built -/

/-- The references that are built from checked names, as lists and as not null. -/
inductive Built : TypeRef → Prop
  | named {name : String} {t : TypeRef} : named? name = .ok t → Built t
  | list {t : TypeRef} : Built t → Built (.list t)
  | required {t : TypeRef} : Built t → Built t.required

/-- Whether no mark stands after another. -/
def MarkedOnce : TypeRef → Prop
  | .named _ => True
  | .list t => t.MarkedOnce
  | .nonNull t => t.isNonNull = false ∧ t.MarkedOnce

theorem named?_eq_ok_iff :
    named? name = .ok t ↔ Name.isTypeName name.toList = true ∧ t = .named name := by
  unfold named?
  split
  · next h => simp [h, eq_comm]
  · next h => simp [h]

theorem MarkedOnce.required (h : t.MarkedOnce) : t.required.MarkedOnce := by
  unfold TypeRef.required
  split
  · exact h
  · next hnull => exact ⟨by simpa using hnull, h⟩

theorem Built.markedOnce (h : t.Built) : t.MarkedOnce := by
  induction h with
  | named h =>
    obtain ⟨-, rfl⟩ := named?_eq_ok_iff.1 h
    trivial
  | list _ ih => exact ih
  | required _ ih => exact ih.required

theorem Built.isTypeName_innermost (h : t.Built) : Name.isTypeName t.innermost.toList = true := by
  induction h with
  | named h =>
    obtain ⟨hname, rfl⟩ := named?_eq_ok_iff.1 h
    exact hname
  | list _ ih => exact ih
  | required _ ih => rwa [innermost_required]

/-! ## Written references -/

/-- What an expression denotes can be built. -/
theorem Derives.built (h : Derives cs t) : t.Built := by
  induction h with
  | name hname _ => exact .named (named?_eq_ok_iff.2 ⟨by simp [Name.isTypeName, hname], rfl⟩)
  | list _ _ _ ih => exact .list ih
  | @nonNull _ _ t _ hnull _ ih =>
    have hrequired : t.required = .nonNull t := by simp [TypeRef.required, hnull]
    exact hrequired ▸ ih.required

/-- The written form of a reference to a name is an expression that denotes it. -/
theorem derives_chars (h : t.MarkedOnce) (hname : Name.isName t.innermost.toList = true) :
    Derives t.chars t := by
  induction t with
  | named name => simpa [chars, innermost] using Derives.name hname (.refl name.toList)
  | list t ih => exact .list (.refl ['[']) (ih h hname) (.refl [']'])
  | nonNull t ih => exact .nonNull (ih h.2 hname) h.1 (.refl ['!'])

/-- A reference is read back from its written form exactly if it wraps a name. -/
theorem parse_text_iff (h : t.MarkedOnce) :
    parse t.text = .ok t ↔ Name.isName t.innermost.toList = true := by
  rw [parse_eq_ok_iff, text, String.toList_ofList]
  exact ⟨Derives.isName_innermost, derives_chars h⟩

end TypeRef

/-! ## Specifications -/

namespace Spec

variable {spec : Spec} {t : TypeRef} {name : String}

/-- Specifications whose references can be built. -/
inductive Admissible : Spec → Prop
  | text (s : String) : Admissible (.text s)
  | valueClass (c : ValueClass) : Admissible (.valueClass c)
  | list {items : List Spec} : (∀ item ∈ items, Admissible item) → Admissible (.list items)
  | definition (name : Value) : Admissible (.definition name)
  | ref {t : TypeRef} : t.Built → Admissible (.ref t)
  | argument (a : Argument) : Admissible (.argument a)
  | value (v : Value) : Admissible (.value v)

/-- The name that a specification gives on its own, not in a text. -/
def bareName? : Spec → Option String
  | .list [item] => item.bareName?
  | .ref t => some t.innermost
  | spec => spec.name?

/-- Whether a specification gives a name with a line feed after it. -/
def EndsLine (spec : Spec) : Prop := ∃ name ∈ spec.bareName?, name.toList.getLast? = some '\n'

theorem isName_of_scalar? {c : ValueClass} (h : c.scalar? = some name) :
    Name.isName name.toList = true := by
  cases c <;> cases h <;> decide

/-- Specifications stand for references that can be built. -/
theorem built_toTypeRef (hspec : spec.Admissible) (h : spec.toTypeRef = .ok t) : t.Built := by
  fun_induction toTypeRef spec generalizing t with
  | case1 t' =>
    cases h
    cases hspec with
    | ref hbuilt => exact hbuilt
  | case2 c name hname =>
    cases h
    have htype : Name.isTypeName name.toList = true := by
      simp [Name.isTypeName, isName_of_scalar? hname]
    exact .named (TypeRef.named?_eq_ok_iff.2 ⟨htype, rfl⟩)
  | case3 | case5 | case8 => cases h
  | case4 item ih =>
    obtain ⟨inner, hinner, hlist⟩ := exists_of_bind_eq_ok h
    cases hlist
    cases hspec with
    | list hitems => exact .list (ih (hitems item (by simp)) hinner).required
  | case6 s => exact (TypeRef.parse_eq_ok_iff.1 h).built
  | case7 => exact .named h

/-- The name that is given on its own is the one that the reference wraps; without one, it wraps a
name of the grammar. -/
theorem innermost_toTypeRef (h : spec.toTypeRef = .ok t) :
    match spec.bareName? with
    | some name => t.innermost = name
    | none => Name.isName t.innermost.toList = true := by
  fun_induction toTypeRef spec generalizing t with
  | case1 t' =>
    cases h
    rfl
  | case2 c name hname =>
    cases h
    exact isName_of_scalar? hname
  | case3 | case5 | case8 => cases h
  | case4 item ih =>
    obtain ⟨inner, hinner, hlist⟩ := exists_of_bind_eq_ok h
    cases hlist
    simpa [TypeRef.innermost, bareName?] using ih hinner
  | case6 s => exact (TypeRef.parse_eq_ok_iff.1 h).isName_innermost
  | case7 spec href _ hlist _ _ name hname =>
    obtain ⟨-, rfl⟩ := TypeRef.named?_eq_ok_iff.1 h
    rw [bareName?.eq_3 spec hlist href, hname]
    rfl

/-- What a specification stands for wraps a name of the grammar, unless a name is given with a line
feed after it. -/
theorem isName_innermost_iff (hspec : spec.Admissible) (h : spec.toTypeRef = .ok t) :
    Name.isName t.innermost.toList = true ↔ ¬ spec.EndsLine := by
  have hinnermost := innermost_toTypeRef h
  unfold EndsLine
  cases hbare : spec.bareName? with
  | none =>
    rw [hbare] at hinnermost
    simpa using hinnermost
  | some name =>
    rw [hbare] at hinnermost
    rw [Name.isName_iff_of_isTypeName (built_toTypeRef hspec h).isTypeName_innermost, hinnermost]
    simp

/-- No mark of the reference that a specification stands for stands after another. It wraps a name
of the grammar, and is read back from its written form, exactly if the specification does not give a
name with a line feed after it. -/
theorem toTypeRef_legible_iff (hspec : spec.Admissible) (h : spec.toTypeRef = .ok t) :
    t.MarkedOnce ∧ (Name.isName t.innermost.toList = true ↔ ¬ spec.EndsLine) ∧
      (TypeRef.parse t.text = .ok t ↔ ¬ spec.EndsLine) := by
  have honce : t.MarkedOnce := (built_toTypeRef hspec h).markedOnce
  have hname := isName_innermost_iff hspec h
  exact ⟨honce, hname, (TypeRef.parse_text_iff honce).trans hname⟩

/-- A list of lists of a definition, given on its own. -/
theorem nested_legible :
    (Spec.list [.list [.definition (.str "Comment")]]).toTypeRef =
        .ok (.list (.nonNull (.list (.nonNull (.named "Comment"))))) ∧
      TypeRef.parse "[[Comment!]!]" =
        .ok (.list (.nonNull (.list (.nonNull (.named "Comment"))))) := by
  have hspec : (Spec.list [.list [.definition (.str "Comment")]]).Admissible :=
    .list (by simpa using .list (by simpa using .definition _))
  have h : (Spec.list [.list [.definition (.str "Comment")]]).toTypeRef =
      .ok (.list (.nonNull (.list (.nonNull (.named "Comment"))))) := rfl
  refine ⟨h, ?_⟩
  exact (toTypeRef_legible_iff hspec h).2.2.2 (by simp [EndsLine, bareName?, name?])

/-- A name with a line feed after it is accepted. It is no name of the grammar, and the reference
that is read from its written form is another. -/
theorem line_illegible :
    (Spec.definition (.str "Comment\n")).toTypeRef = .ok (.named "Comment\n") ∧
      Name.isName "Comment\n".toList = false ∧
      TypeRef.parse (TypeRef.named "Comment\n").text = .ok (.named "Comment") := by
  refine ⟨rfl, by decide, TypeRef.parse_eq_ok_iff.2 ?_⟩
  have hname : Name.isName "Comment".toList = true := by decide
  exact .name hname ⟨[], ['\n'], by decide, by decide, by decide⟩

end Spec

end GraphSchema
