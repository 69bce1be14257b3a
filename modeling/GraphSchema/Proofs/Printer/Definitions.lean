import GraphSchema.Proofs.Printer.Parts
import GraphSchema.Proofs.Reachability
import GraphSchema.Proofs.Traversal

/-!
# Printed definitions

Fields and definitions in print, and how they are read off the text: everything about them is shown
except the descriptions of arguments of fields, and the orphans of interfaces.

## Main definitions

* `Field.Legible`, `EnumValue.Legible`, `Definition.Legible` — whether names and descriptions can be
  told from what is around them.
* `Field.ShownAs`, `EnumValue.ShownAs`, `Definition.ShownAs` — whether two of them are shown in the
  same way.

## Main statements

* `Definition.ShownAs.refers` — what is shown in the same way refers to the same types.
* `Printer.field_append_inj` — fields are read off a text.
* `Printer.definition_append_inj` — and so are definitions.
-/

namespace GraphSchema

open Text (Stops unlines)

variable {x y : List Char}

/-! ## What is shown -/

/-- Whether a field and its arguments have names, and a description that can be told from the quotes
around it. -/
structure Field.Legible (f : Field) : Prop where
  name : Name.isName f.name.toList = true
  description : Quotable f.description
  arguments : ∀ a ∈ f.arguments, a.Legible

/-- Whether two fields are shown in the same way. The descriptions of arguments are not shown. -/
structure Field.ShownAs (f g : Field) : Prop where
  name : f.name = g.name
  description : SameLines f.description g.description
  arguments : List.Forall₂ Argument.ShownAs f.arguments g.arguments
  type : f.type = g.type
  deprecation : f.deprecation = g.deprecation

/-- Whether an enum value has a name, and a description that can be told from the quotes around
it. -/
structure EnumValue.Legible (v : EnumValue) : Prop where
  name : Name.isName v.name.toList = true
  description : Quotable v.description

/-- Whether two enum values are shown in the same way. What they stand for is not shown. -/
structure EnumValue.ShownAs (v w : EnumValue) : Prop where
  name : v.name = w.name
  description : SameLines v.description w.description
  deprecation : v.deprecation = w.deprecation

/-- Whether two input fields are shown in the same way. -/
structure Argument.ShownAsInput (a b : Argument) : Prop where
  argument : a.ShownAs b
  description : SameLines a.description b.description

/-- Whether a definition with composed fields and all its parts have names, and descriptions that
can be told from the quotes around them. -/
structure Definition.Legible (d : Definition) (fields : List Field) : Prop where
  name : Name.isName d.name.toList = true
  description : Quotable d.description
  fields : ∀ f ∈ fields, f.Legible
  values : ∀ values, d.body = .enum values → ∀ v ∈ values, v.Legible
  inputs : ∀ inputs, d.body = .inputObject inputs → ∀ a ∈ inputs, a.Legible ∧ Quotable a.description

/-- Whether two types with their composed fields are shown in the same way, apart from their names
and descriptions. -/
inductive TypeBody.ShownAs (fields fields' : List Field) : TypeBody → TypeBody → Prop
  | scalar : ShownAs fields fields' .scalar .scalar
  | enum {values values' : List EnumValue} : List.Forall₂ EnumValue.ShownAs values values' →
      ShownAs fields fields' (.enum values) (.enum values')
  | inputObject {inputs inputs' : List Argument} :
      List.Forall₂ Argument.ShownAsInput inputs inputs' →
      ShownAs fields fields' (.inputObject inputs) (.inputObject inputs')
  | interface {i i' : InterfaceType} : List.Forall₂ Field.ShownAs fields fields' →
      ShownAs fields fields' (.interface i) (.interface i')
  | object {o o' : ObjectType} : o.interfaces = o'.interfaces →
      List.Forall₂ Field.ShownAs fields fields' → ShownAs fields fields' (.object o) (.object o')
  | union {u u' : UnionType} : u.members = u'.members →
      ShownAs fields fields' (.union u) (.union u')

/-- Whether two definitions with their composed fields are shown in the same way. -/
structure Definition.ShownAs (fields fields' : List Field) (d d' : Definition) : Prop where
  name : d.name = d'.name
  description : SameLines d.description d'.description
  body : d.body.ShownAs fields fields' d'.body

/-! ## What is shown in the same way -/

section

variable {fs gs : List Field} {d d' : Definition} {name : String}

theorem Argument.ShownAsInput.symm {a b : Argument} (h : a.ShownAsInput b) : b.ShownAsInput a :=
  ⟨h.argument.symm, h.description.symm⟩

theorem Field.ShownAs.symm {f g : Field} (h : f.ShownAs g) : g.ShownAs f :=
  ⟨h.name.symm, h.description.symm, forall₂_symm h.arguments fun _ _ => .symm, h.type.symm,
    h.deprecation.symm⟩

theorem EnumValue.ShownAs.symm {v w : EnumValue} (h : v.ShownAs w) : w.ShownAs v :=
  ⟨h.name.symm, h.description.symm, h.deprecation.symm⟩

theorem TypeBody.ShownAs.symm {b c : TypeBody} (h : b.ShownAs fs gs c) : c.ShownAs gs fs b := by
  cases h with
  | scalar => exact .scalar
  | enum hvalues => exact .enum (forall₂_symm hvalues fun _ _ => .symm)
  | inputObject hinputs => exact .inputObject (forall₂_symm hinputs fun _ _ => .symm)
  | interface hfields => exact .interface (forall₂_symm hfields fun _ _ => .symm)
  | object hinterfaces hfields =>
    exact .object hinterfaces.symm (forall₂_symm hfields fun _ _ => .symm)
  | union hmembers => exact .union hmembers.symm

theorem Definition.ShownAs.symm (h : d.ShownAs fs gs d') : d'.ShownAs gs fs d :=
  ⟨h.name.symm, h.description.symm, h.body.symm⟩

theorem TypeBody.ShownAs.kind_eq {b b' : TypeBody} (h : b.ShownAs fs gs b') : b.kind = b'.kind := by
  cases h <;> rfl

theorem Definition.ShownAs.kind_eq (h : d.ShownAs fs gs d') : d.kind = d'.kind := h.body.kind_eq

theorem Definition.ShownAs.fields (h : d.ShownAs fs gs d') (hf : d.hasFields = true) :
    List.Forall₂ Field.ShownAs fs gs ∧ d'.hasFields = true := by
  unfold Definition.hasFields Definition.kind at hf ⊢
  have hbody := h.body
  generalize d.body = b, d'.body = b' at hbody hf ⊢
  cases hbody with
  | interface hfields => exact ⟨hfields, rfl⟩
  | object _ hfields => exact ⟨hfields, rfl⟩
  | scalar | enum | inputObject | union => cases hf

/-- Whatever a type refers to is shown, apart from the orphans of an interface. -/
theorem Definition.ShownAs.refers (h : d.ShownAs fs gs d') (hr : d.Refers fs name) :
    d'.Refers gs name ∨ ∃ i, d.body = .interface i ∧ name ∈ i.orphans := by
  have hbody := h.body
  generalize hb' : d'.body = b' at hbody
  cases hr with
  | @fieldType f hf hmem =>
    obtain ⟨hfields, hf'⟩ := h.fields hf
    obtain ⟨g, hg, hshown⟩ := exists_mem_of_forall₂ hfields hmem
    exact .inl (hshown.type ▸ .fieldType hf' hg)
  | @argumentType f a hf hmem ha =>
    obtain ⟨hfields, hf'⟩ := h.fields hf
    obtain ⟨g, hg, hshown⟩ := exists_mem_of_forall₂ hfields hmem
    obtain ⟨b, hb, hshown⟩ := exists_mem_of_forall₂ hshown.arguments ha
    exact .inl (hshown.type ▸ .argumentType hf' hg hb)
  | implements hb hn =>
    rw [hb] at hbody
    cases hbody with
    | object hinterfaces => exact .inl (.implements hb' (hinterfaces ▸ hn))
  | orphan hb hn => exact .inr ⟨_, hb, hn⟩
  | member hb hn =>
    rw [hb] at hbody
    cases hbody with
    | union hmembers => exact .inl (.member hb' (hmembers ▸ hn))
  | inputField hb ha =>
    rw [hb] at hbody
    cases hbody with
    | inputObject hinputs =>
      obtain ⟨b, hmem, hshown⟩ := exists_mem_of_forall₂ hinputs ha
      exact .inl (hshown.argument.type ▸ .inputField hb' hmem)

end

namespace Printer

variable {d e : Option String} {l m : String} {v w : List Char}

/-! ## Items of a block -/

/-- An indented line with its description is read off, if the line can be. -/
theorem item_append_inj {P : Prop} (hd : Quotable d) (he : Quotable e)
    (hl : l.toList = ' ' :: ' ' :: v) (hm : m.toList = ' ' :: ' ' :: w)
    (hv : ∀ z, '"' :: z ≠ v ++ '\n' :: x) (hw : ∀ z, '"' :: z ≠ w ++ '\n' :: y)
    (hread : v ++ '\n' :: x = w ++ '\n' :: y → P ∧ x = y)
    (h : unlines (descriptionLines "  " d ++ [l]) ++ x =
      unlines (descriptionLines "  " e ++ [m]) ++ y) :
    (SameLines d e ∧ P) ∧ x = y := by
  have hline {l : String} {v x : List Char} (hl : l.toList = ' ' :: ' ' :: v) :
      unlines [l] ++ x = ' ' :: ' ' :: (v ++ '\n' :: x) := by
    simp [hl]
  have hne {v x : List Char} (hv : ∀ z, '"' :: z ≠ v ++ '\n' :: x) (z : List Char) :
      "  ".toList ++ '"' :: z ≠ ' ' :: ' ' :: (v ++ '\n' :: x) := by
    simpa using hv z
  rw [Text.unlines_append, Text.unlines_append, List.append_assoc, List.append_assoc, hline hl,
    hline hm] at h
  obtain ⟨hdescription, h⟩ := descriptionLines_append_inj (by decide) hd he (hne hv) (hne hw) h
  simp only [List.cons.injEq, true_and] at h
  obtain ⟨hP, hxy⟩ := hread h
  exact ⟨⟨hdescription, hP⟩, hxy⟩

/-- An indented line with its description does not look like the end of the block. -/
theorem item_append_ne (hl : l.toList = ' ' :: ' ' :: v) :
    unlines (descriptionLines "  " d ++ [l]) ++ x ≠ '\x7d' :: y := by
  have hlines := describes_descriptionLines "  " d
  generalize descriptionLines "  " d = ls at hlines
  rw [Text.unlines_append, List.append_assoc]
  cases hlines with
  | none => simp [hl]
  | line => rw [unlines_quotedLine]; simp
  | block => rw [unlines_quotedBlock]; simp

/-- The items of a block are read one by one. -/
theorem items_append_inj {α β : Type} {f : α → List String} {g : β → List String}
    {R : α → β → Prop} {as : List α} {bs : List β}
    (hread : ∀ a ∈ as, ∀ b ∈ bs, ∀ x y, unlines (f a) ++ x = unlines (g b) ++ y → R a b ∧ x = y)
    (hf : ∀ a ∈ as, ∀ x y, unlines (f a) ++ x ≠ '\x7d' :: y)
    (hg : ∀ b ∈ bs, ∀ x y, unlines (g b) ++ x ≠ '\x7d' :: y)
    (h : unlines (as.flatMap f) ++ '\x7d' :: x = unlines (bs.flatMap g) ++ '\x7d' :: y) :
    List.Forall₂ R as bs ∧ x = y := by
  rw [Text.unlines_flatMap, Text.unlines_flatMap] at h
  obtain ⟨hshown, hxy⟩ := Text.flatMap_append_inj hread (fun a ha z => hf a ha z _)
    (fun b hb z => hg b hb z _) h
  exact ⟨hshown, by simpa using hxy⟩

/-! ## Fields, enum values and input fields -/

/-- What stands on the line of a field behind the indentation. -/
def fieldChars (f : Field) : List Char :=
  f.name.toList ++ ((arguments f.arguments).toList ++ ':' :: ' ' ::
    (f.type.chars ++ (deprecation f.deprecation).toList))

theorem toList_fieldLine (f : Field) :
    ("  " ++ f.name ++ arguments f.arguments ++ ": " ++ f.type.text ++
      deprecation f.deprecation).toList = ' ' :: ' ' :: fieldChars f := by
  simp [TypeRef.text, fieldChars]

theorem stops_deprecation {p : Char → Bool} (hblank : p ' ' = false) (hnewline : p '\n' = false)
    (d : Option String) : Stops p ((deprecation d).toList ++ '\n' :: x) := by
  cases d with
  | none => exact Text.stops_cons.2 hnewline
  | some reason => rw [toList_deprecation]; exact Text.stops_cons.2 hblank

theorem stops_arguments (as : List Argument) :
    Stops Name.isContinue ((arguments as).toList ++ ':' :: x) := by
  cases as with
  | nil => exact Text.stops_cons.2 (by decide)
  | cons a as => rw [toList_arguments]; exact Text.stops_cons.2 (by decide)

/-- What starts with a name does not start with a quote. -/
theorem name_append_ne {name : String} (h : Name.isName name.toList = true) {c : Char}
    (hc : Name.isContinue c = false) : c :: y ≠ name.toList ++ x := by
  obtain ⟨d, w, hname, hd⟩ := Name.exists_cons_of_isName h
  rw [hname]
  intro heq
  rw [← (List.cons.inj heq).1, hc] at hd
  cases hd

theorem fieldChars_append_inj {f g : Field} (hf : f.Legible) (hg : g.Legible)
    (htf : ∀ n ∈ Declarations.fieldReferences f, Name.isName n.toList = true)
    (htg : ∀ n ∈ Declarations.fieldReferences g, Name.isName n.toList = true)
    (h : fieldChars f ++ '\n' :: x = fieldChars g ++ '\n' :: y) :
    (f.name = g.name ∧ List.Forall₂ Argument.ShownAs f.arguments g.arguments ∧ f.type = g.type ∧
      f.deprecation = g.deprecation) ∧ x = y := by
  obtain ⟨htf, haf⟩ := List.forall_mem_cons.1 htf
  obtain ⟨htg, hag⟩ := List.forall_mem_cons.1 htg
  simp only [fieldChars, List.append_assoc, List.cons_append] at h
  obtain ⟨hname, h⟩ := Name.append_inj_of_isName hf.name hg.name (stops_arguments _)
    (stops_arguments _) h
  obtain ⟨harguments, h⟩ := arguments_append_inj hf.arguments hg.arguments
    (List.forall_mem_map.1 haf) (List.forall_mem_map.1 hag) (by simp) (by simp) h
  simp only [List.cons.injEq, true_and] at h
  obtain ⟨htype, h⟩ := TypeRef.chars_append_inj htf htg
    (stops_deprecation (by decide) (by decide) _) (stops_deprecation (by decide) (by decide) _) h
  obtain ⟨hdeprecation, hxy⟩ := deprecation_append_inj h
  exact ⟨⟨String.toList_inj.1 hname, harguments, htype, hdeprecation⟩, hxy⟩

theorem field_append_inj {f g : Field} (hf : f.Legible) (hg : g.Legible)
    (htf : ∀ n ∈ Declarations.fieldReferences f, Name.isName n.toList = true)
    (htg : ∀ n ∈ Declarations.fieldReferences g, Name.isName n.toList = true)
    (h : unlines (fieldLines f) ++ x = unlines (fieldLines g) ++ y) : f.ShownAs g ∧ x = y := by
  have hquote {f : Field} (hf : f.Legible) {x : List Char} (z : List Char) :
      '"' :: z ≠ fieldChars f ++ x := by
    rw [fieldChars, List.append_assoc]
    exact name_append_ne hf.name (by decide)
  obtain ⟨⟨hdescription, hname, harguments, htype, hdeprecation⟩, hxy⟩ :=
    item_append_inj hf.description hg.description (toList_fieldLine f) (toList_fieldLine g)
      (hquote hf) (hquote hg) (fieldChars_append_inj hf hg htf htg) h
  exact ⟨⟨hname, hdescription, harguments, htype, hdeprecation⟩, hxy⟩

theorem fields_append_inj {fs gs : List Field} (hfs : ∀ f ∈ fs, f.Legible)
    (hgs : ∀ g ∈ gs, g.Legible)
    (htf : ∀ f ∈ fs, ∀ n ∈ Declarations.fieldReferences f, Name.isName n.toList = true)
    (htg : ∀ g ∈ gs, ∀ n ∈ Declarations.fieldReferences g, Name.isName n.toList = true)
    (h : unlines (fs.flatMap fieldLines) ++ '\x7d' :: x =
      unlines (gs.flatMap fieldLines) ++ '\x7d' :: y) : List.Forall₂ Field.ShownAs fs gs ∧ x = y :=
  items_append_inj (fun f hf g hg _ _ => field_append_inj (hfs f hf) (hgs g hg) (htf f hf)
    (htg g hg)) (fun f _ _ _ => item_append_ne (toList_fieldLine f))
    (fun g _ _ _ => item_append_ne (toList_fieldLine g)) h

theorem toList_enumValueLine (v : EnumValue) :
    ("  " ++ v.name ++ deprecation v.deprecation).toList =
      ' ' :: ' ' :: (v.name.toList ++ (deprecation v.deprecation).toList) := by
  simp

theorem enumValue_append_inj {v w : EnumValue} (hv : v.Legible) (hw : w.Legible)
    (h : unlines (enumValueLines v) ++ x = unlines (enumValueLines w) ++ y) :
    v.ShownAs w ∧ x = y := by
  have hquote {v : EnumValue} (hv : v.Legible) {x : List Char} (z : List Char) :
      '"' :: z ≠ (v.name.toList ++ (deprecation v.deprecation).toList) ++ x := by
    rw [List.append_assoc]
    exact name_append_ne hv.name (by decide)
  have hread (h : (v.name.toList ++ (deprecation v.deprecation).toList) ++ '\n' :: x =
      (w.name.toList ++ (deprecation w.deprecation).toList) ++ '\n' :: y) :
      (v.name = w.name ∧ v.deprecation = w.deprecation) ∧ x = y := by
    simp only [List.append_assoc] at h
    obtain ⟨hname, h⟩ := Name.append_inj_of_isName hv.name hw.name
      (stops_deprecation (by decide) (by decide) _) (stops_deprecation (by decide) (by decide) _) h
    obtain ⟨hdeprecation, hxy⟩ := deprecation_append_inj h
    exact ⟨⟨String.toList_inj.1 hname, hdeprecation⟩, hxy⟩
  obtain ⟨⟨hdescription, hname, hdeprecation⟩, hxy⟩ :=
    item_append_inj hv.description hw.description (toList_enumValueLine v) (toList_enumValueLine w)
      (hquote hv) (hquote hw) hread h
  exact ⟨⟨hname, hdescription, hdeprecation⟩, hxy⟩

theorem toList_inputFieldLine (a : Argument) :
    ("  " ++ argument a).toList = ' ' :: ' ' :: (argument a).toList := by
  simp

theorem inputField_append_inj {a b : Argument} (ha : a.Legible) (hb : b.Legible)
    (hda : Quotable a.description) (hdb : Quotable b.description)
    (hta : Name.isName a.type.innermost.toList = true)
    (htb : Name.isName b.type.innermost.toList = true)
    (h : unlines (inputFieldLines a) ++ x = unlines (inputFieldLines b) ++ y) :
    a.ShownAsInput b ∧ x = y := by
  have hquote {a : Argument} (ha : a.Legible) {x : List Char} (z : List Char) :
      '"' :: z ≠ (argument a).toList ++ x := (argument_append_ne ha (by decide)).symm
  obtain ⟨⟨hdescription, hargument⟩, hxy⟩ := item_append_inj hda hdb (toList_inputFieldLine a)
    (toList_inputFieldLine b) (hquote ha) (hquote hb) (fun h => by
      obtain ⟨hargument, h⟩ := argument_append_inj ha hb hta htb (Text.stops_cons.2 (by decide))
        (Text.stops_cons.2 (by decide)) h
      exact ⟨hargument, by simpa using h⟩) h
  exact ⟨⟨hargument, hdescription⟩, hxy⟩

/-! ## Lists of names -/

/-- Names with a mark between blanks are read up to a text that does not continue them. -/
theorem names_append_inj {c : Char} {ns ms : List String}
    (hns : ∀ n ∈ ns, Name.isName n.toList = true) (hms : ∀ n ∈ ms, Name.isName n.toList = true)
    (hx : Stops Name.isContinue x) (hy : Stops Name.isContinue y) (hx' : ∀ z, ' ' :: c :: z ≠ x)
    (hy' : ∀ z, ' ' :: c :: z ≠ y)
    (h : List.intercalate [' ', c, ' '] (ns.map String.toList) ++ x =
      List.intercalate [' ', c, ' '] (ms.map String.toList) ++ y) : ns = ms ∧ x = y := by
  have hstart {n : String} (hn : Name.isName n.toList = true) {x : List Char}
      (hx : Stops Name.isContinue x) (z : List Char) : n.toList ++ z ≠ x := by
    obtain ⟨d, w, hname, hd⟩ := Name.exists_cons_of_isName hn
    rw [hname]
    rintro rfl
    rw [Text.stops_cons.1 hx] at hd
    cases hd
  obtain ⟨hsame, hxy⟩ := Text.intercalate_append_inj (R := Eq) (Stops Name.isContinue)
    (fun n hn m hm x y hx hy h => by
      obtain ⟨hname, hxy⟩ := Name.append_inj_of_isName (hns n hn) (hms m hm) hx hy h
      exact ⟨String.toList_inj.1 hname, hxy⟩)
    (fun z => ⟨Text.stops_cons.2 (by decide), hx' (' ' :: z), hy' (' ' :: z)⟩)
    (fun n hn => hstart (hns n hn) hy) (fun m hm => hstart (hms m hm) hx) hx hy h
  rw [List.forall₂_eq_eq_eq] at hsame
  exact ⟨hsame, hxy⟩

theorem toList_implements (n : String) (ns : List String) :
    (implements (n :: ns)).toList ++ x = ' ' :: 'i' :: ("mplements ".toList ++
      (List.intercalate [' ', '&', ' '] ((n :: ns).map String.toList) ++ x)) := by
  simp [implements]

/-- The interfaces in a header are read up to its brace. -/
theorem implements_append_inj {ns ms : List String}
    (hns : ∀ n ∈ ns, Name.isName n.toList = true) (hms : ∀ n ∈ ms, Name.isName n.toList = true)
    (h : (implements ns).toList ++ ' ' :: '\x7b' :: x =
      (implements ms).toList ++ ' ' :: '\x7b' :: y) :
    ns = ms ∧ x = y := by
  cases ns with
  | nil =>
    cases ms with
    | nil => exact ⟨rfl, by simpa [implements] using h⟩
    | cons m ms => rw [toList_implements] at h; simp [implements] at h
  | cons n ns =>
    cases ms with
    | nil => rw [toList_implements] at h; simp [implements] at h
    | cons m ms =>
      rw [toList_implements, toList_implements] at h
      have h := List.append_cancel_left (List.cons.inj (List.cons.inj h).2).2
      obtain ⟨hsame, hxy⟩ := names_append_inj hns hms (Text.stops_cons.2 (by decide))
        (Text.stops_cons.2 (by decide)) (by simp) (by simp) h
      exact ⟨hsame, by simpa using hxy⟩

/-! ## Definitions -/

/-- The word that a definition starts with. -/
def keyword : TypeKind → String
  | .enum => "enum"
  | .inputObject => "input"
  | .interface => "interface"
  | .object => "type"
  | .scalar => "scalar"
  | .union => "union"

/-- What stands behind the name of a definition. -/
def bodyChars (fields : List Field) : TypeBody → List Char
  | .scalar => ['\n']
  | .enum values =>
    ' ' :: '\x7b' :: '\n' :: (unlines (values.flatMap enumValueLines) ++ ['\x7d', '\n'])
  | .inputObject inputs =>
    ' ' :: '\x7b' :: '\n' :: (unlines (inputs.flatMap inputFieldLines) ++ ['\x7d', '\n'])
  | .interface _ => ' ' :: '\x7b' :: '\n' :: (unlines (fields.flatMap fieldLines) ++ ['\x7d', '\n'])
  | .object o => (implements o.interfaces).toList ++
      ' ' :: '\x7b' :: '\n' :: (unlines (fields.flatMap fieldLines) ++ ['\x7d', '\n'])
  | .union u => ' ' :: '=' :: ' ' ::
      (List.intercalate [' ', '|', ' '] (u.members.map String.toList) ++ ['\n'])

theorem unlines_block (header : String) (lines : List String) :
    unlines (block header lines) =
      header.toList ++ ' ' :: '\x7b' :: '\n' :: (unlines lines ++ ['\x7d', '\n']) := by
  simp [block]

theorem unlines_definitionLines (d : Definition) (fields : List Field) :
    unlines (definitionLines d fields) = unlines (descriptionLines "" d.description) ++
      ((keyword d.kind).toList ++ ' ' :: (d.name.toList ++ bodyChars fields d.body)) := by
  unfold definitionLines
  rw [Text.unlines_append]
  congr 1
  unfold Definition.kind
  cases d.body with
  | scalar => simp [keyword, TypeBody.kind, bodyChars]
  | enum values => simp [unlines_block, keyword, TypeBody.kind, bodyChars]
  | inputObject inputs => simp [unlines_block, keyword, TypeBody.kind, bodyChars]
  | interface i => simp [unlines_block, keyword, TypeBody.kind, bodyChars]
  | object o => simp [unlines_block, keyword, TypeBody.kind, bodyChars]
  | union u => simp [keyword, TypeBody.kind, bodyChars]

theorem keyword_inj {k k' : TypeKind} (h : (keyword k).toList = (keyword k').toList) : k = k' := by
  cases k <;> cases k' <;> first | rfl | exact absurd h (by decide)

variable {d e : Definition} {fs gs : List Field}

theorem stops_bodyChars (b : TypeBody) : Stops Name.isContinue (bodyChars fs b ++ x) := by
  cases b with
  | object o =>
    cases ho : o.interfaces with
    | nil => simp only [bodyChars, ho]; exact Text.stops_cons.2 (by decide)
    | cons n ns =>
      simp only [bodyChars, ho, toList_implements]
      exact Text.stops_cons.2 (by decide)
  | scalar | enum | inputObject | interface | union => exact Text.stops_cons.2 (by decide)

theorem fieldReferences_of_hasFields (hf : d.hasFields = true)
    (h : ∀ n, d.Refers fs n → Name.isName n.toList = true) :
    ∀ f ∈ fs, ∀ n ∈ Declarations.fieldReferences f, Name.isName n.toList = true := by
  intro f hmem n hn
  rcases List.mem_cons.1 hn with rfl | hn
  · exact h _ (.fieldType hf hmem)
  · obtain ⟨a, ha, rfl⟩ := List.mem_map.1 hn
    exact h _ (.argumentType hf hmem ha)

/-- What stands behind the name is read off, if it is known which kind of type it belongs to. -/
theorem body_append_inj (hd : d.Legible fs) (he : e.Legible gs)
    (htd : ∀ n, d.Refers fs n → Name.isName n.toList = true)
    (hte : ∀ n, e.Refers gs n → Name.isName n.toList = true) (hkind : d.kind = e.kind)
    (h : bodyChars fs d.body ++ x = bodyChars gs e.body ++ y) :
    d.body.ShownAs fs gs e.body ∧ x = y := by
  unfold Definition.kind at hkind
  -- both are of one kind, and only with that kind is there anything to read
  cases hbd : d.body with
  | scalar =>
    cases hbe : e.body with
    | scalar =>
      rw [hbd, hbe] at h
      exact ⟨.scalar, by simpa [bodyChars] using h⟩
    | enum | inputObject | interface | object | union => rw [hbd, hbe] at hkind; cases hkind
  | enum values =>
    cases hbe : e.body with
    | enum values' =>
      rw [hbd, hbe] at h
      simp only [bodyChars, List.cons_append, List.append_assoc, List.cons.injEq, true_and] at h
      obtain ⟨hshown, hxy⟩ := items_append_inj
        (fun v hv w hw _ _ => enumValue_append_inj (hd.values _ hbd v hv) (he.values _ hbe w hw))
        (fun v _ _ _ => item_append_ne (toList_enumValueLine v))
        (fun w _ _ _ => item_append_ne (toList_enumValueLine w)) h
      exact ⟨.enum hshown, by simpa using hxy⟩
    | scalar | inputObject | interface | object | union => rw [hbd, hbe] at hkind; cases hkind
  | inputObject inputs =>
    cases hbe : e.body with
    | inputObject inputs' =>
      rw [hbd, hbe] at h
      simp only [bodyChars, List.cons_append, List.append_assoc, List.cons.injEq, true_and] at h
      obtain ⟨hshown, hxy⟩ := items_append_inj
        (fun a ha b hb _ _ => inputField_append_inj (hd.inputs _ hbd a ha).1
          (he.inputs _ hbe b hb).1 (hd.inputs _ hbd a ha).2 (he.inputs _ hbe b hb).2
          (htd _ (.inputField hbd ha)) (hte _ (.inputField hbe hb)))
        (fun a _ _ _ => item_append_ne (toList_inputFieldLine a))
        (fun b _ _ _ => item_append_ne (toList_inputFieldLine b)) h
      exact ⟨.inputObject hshown, by simpa using hxy⟩
    | scalar | enum | interface | object | union => rw [hbd, hbe] at hkind; cases hkind
  | interface i =>
    cases hbe : e.body with
    | interface i' =>
      rw [hbd, hbe] at h
      simp only [bodyChars, List.cons_append, List.append_assoc, List.cons.injEq, true_and] at h
      obtain ⟨hshown, hxy⟩ := fields_append_inj hd.fields he.fields
        (fieldReferences_of_hasFields (Definition.hasFields_of_interface hbd) htd)
        (fieldReferences_of_hasFields (Definition.hasFields_of_interface hbe) hte) h
      exact ⟨.interface hshown, by simpa using hxy⟩
    | scalar | enum | inputObject | object | union => rw [hbd, hbe] at hkind; cases hkind
  | object o =>
    cases hbe : e.body with
    | object o' =>
      rw [hbd, hbe] at h
      simp only [bodyChars, List.cons_append, List.append_assoc] at h
      obtain ⟨hinterfaces, h⟩ := implements_append_inj (fun n hn => htd n (.implements hbd hn))
        (fun n hn => hte n (.implements hbe hn)) h
      obtain ⟨hshown, hxy⟩ := fields_append_inj hd.fields he.fields
        (fieldReferences_of_hasFields (Definition.hasFields_of_object hbd) htd)
        (fieldReferences_of_hasFields (Definition.hasFields_of_object hbe) hte)
        (List.cons.inj h).2
      exact ⟨.object hinterfaces hshown, by simpa using hxy⟩
    | scalar | enum | inputObject | interface | union => rw [hbd, hbe] at hkind; cases hkind
  | union u =>
    cases hbe : e.body with
    | union u' =>
      rw [hbd, hbe] at h
      simp only [bodyChars, List.cons_append, List.append_assoc, List.cons.injEq, true_and] at h
      obtain ⟨hmembers, hxy⟩ := names_append_inj (fun n hn => htd n (.member hbd hn))
        (fun n hn => hte n (.member hbe hn)) (Text.stops_cons.2 (by decide))
        (Text.stops_cons.2 (by decide)) (by simp) (by simp) h
      exact ⟨.union hmembers, by simpa using hxy⟩
    | scalar | enum | inputObject | interface | object => rw [hbd, hbe] at hkind; cases hkind

/-- A definition is read off a text. -/
theorem definition_append_inj (hd : d.Legible fs) (he : e.Legible gs)
    (htd : ∀ n, d.Refers fs n → Name.isName n.toList = true)
    (hte : ∀ n, e.Refers gs n → Name.isName n.toList = true)
    (h : unlines (definitionLines d fs) ++ x = unlines (definitionLines e gs) ++ y) :
    d.ShownAs fs gs e ∧ x = y := by
  have hletters (k : TypeKind) : ∀ c ∈ (keyword k).toList, Name.isContinue c = true :=
    List.all_eq_true.1 (by cases k <;> decide)
  have hquote (k : TypeKind) {x : List Char} (z : List Char) :
      "".toList ++ '"' :: z ≠ (keyword k).toList ++ x := by
    cases k <;> simp [keyword]
  rw [unlines_definitionLines, unlines_definitionLines, List.append_assoc, List.append_assoc] at h
  simp only [List.append_assoc, List.cons_append] at h
  obtain ⟨hdescription, h⟩ := descriptionLines_append_inj (by decide) hd.description he.description
    (hquote d.kind) (hquote e.kind) h
  obtain ⟨hkeyword, h⟩ := Text.append_inj_of_stops (hletters d.kind) (hletters e.kind)
    (Text.stops_cons.2 (by decide)) (Text.stops_cons.2 (by decide)) h
  simp only [List.cons.injEq, true_and] at h
  obtain ⟨hname, h⟩ := Name.append_inj_of_isName hd.name he.name (stops_bodyChars d.body)
    (stops_bodyChars e.body) h
  obtain ⟨hbody, hxy⟩ := body_append_inj hd he htd hte (keyword_inj hkeyword) h
  exact ⟨⟨String.toList_inj.1 hname, hdescription, hbody⟩, hxy⟩

end Printer

end GraphSchema
