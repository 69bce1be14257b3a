import GraphSchema.Proofs.Value.Literal
import GraphSchema.Schema.Printer

/-!
# Printed parts

References, descriptions, arguments and deprecations in a printed schema, and how each of them is
read off the text. What is not printed is not read: nothing is said of the description of an
argument here.

## Main definitions

* `SameLines` — whether two descriptions have the same lines.
* `Quotable` — whether a description does not end the quotes around it.
* `Argument.Legible` — whether an argument has only names where names are expected.
* `Argument.ShownAs` — whether two arguments are shown in the same way.

## Main statements

* `TypeRef.chars_append_inj` — references.
* `Printer.descriptionLines_append_inj` — descriptions.
* `Printer.argument_append_inj`, `Printer.arguments_append_inj` — arguments.
* `Printer.deprecation_append_inj` — deprecations.
-/

namespace GraphSchema

open Text (Stops unlines)

variable {x y : List Char}

/-! ## References -/

namespace TypeRef

variable {t u : TypeRef}

/-- The characters of references. -/
def isMark (c : Char) : Bool := Name.isContinue c || c == '[' || c == ']' || c == '!'

theorem isMark_of_mem_chars (ht : Name.isName t.innermost.toList = true) :
    ∀ c ∈ t.chars, isMark c = true := by
  induction t with
  | named name => exact fun c hc => by simp [isMark, Name.isContinue_of_isName ht c hc]
  | list t ih =>
    intro c hc
    rw [chars, List.cons_append, List.mem_cons, List.mem_append, List.mem_singleton] at hc
    rcases hc with rfl | hc | rfl
    · decide
    · exact ih ht c hc
    · decide
  | nonNull t ih =>
    intro c hc
    rw [chars, List.mem_append, List.mem_singleton] at hc
    rcases hc with hc | rfl
    · exact ih ht c hc
    · decide

/-- A name has no brackets and no marks in it. -/
theorem named_chars_ne {name : String} (h : Name.isName name.toList = true) (u : TypeRef) :
    (named name).chars ≠ (list u).chars ∧ (named name).chars ≠ (nonNull u).chars := by
  have hnotMem {c : Char} (hc : Name.isContinue c = false) : c ∉ (named name).chars := by
    intro hmem
    have := Name.isContinue_of_isName h c hmem
    rw [hc] at this
    cases this
  constructor
  · intro heq
    exact hnotMem (c := '[') (by decide) (by rw [heq]; exact List.mem_cons_self)
  · intro heq
    exact hnotMem (c := '!') (by decide) (by rw [heq, chars]; simp)

/-- References with the same written form are the same. -/
theorem chars_inj (ht : Name.isName t.innermost.toList = true)
    (hu : Name.isName u.innermost.toList = true) (h : t.chars = u.chars) : t = u := by
  -- on the first reference; the second has the same first or last character
  induction t generalizing u with
  | named name =>
    cases u with
    | named name' => exact congrArg named (String.toList_inj.1 h)
    | list u => exact absurd h (named_chars_ne ht u).1
    | nonNull u => exact absurd h (named_chars_ne ht u).2
  | list t ih =>
    cases u with
    | named name => exact absurd h.symm (named_chars_ne hu t).1
    | list u =>
      rw [chars, chars, List.cons_append, List.cons_append, List.cons.injEq] at h
      exact congrArg list (ih ht hu (List.append_cancel_right h.2))
    | nonNull u => exact absurd (List.append_inj' h rfl).2 (by decide)
  | nonNull t ih =>
    cases u with
    | named name => exact absurd h.symm (named_chars_ne hu t).2
    | list u => exact absurd (List.append_inj' h rfl).2 (by decide)
    | nonNull u => exact congrArg nonNull (ih ht hu (List.append_cancel_right h))

theorem chars_append_inj (ht : Name.isName t.innermost.toList = true)
    (hu : Name.isName u.innermost.toList = true) (hx : Stops isMark x) (hy : Stops isMark y)
    (h : t.chars ++ x = u.chars ++ y) : t = u ∧ x = y := by
  obtain ⟨hchars, hxy⟩ :=
    Text.append_inj_of_stops (isMark_of_mem_chars ht) (isMark_of_mem_chars hu) hx hy h
  exact ⟨chars_inj ht hu hchars, hxy⟩

end TypeRef

/-! ## Descriptions -/

/-- Whether two descriptions have the same lines. One that is missing has none. -/
def SameLines (d e : Option String) : Prop :=
  Text.lines (d.getD "").toList = Text.lines (e.getD "").toList

theorem SameLines.symm {d e : Option String} (h : SameLines d e) : SameLines e d := Eq.symm h

/-- Whether a description does not contain the quotes that end a block. -/
def Quotable (d : Option String) : Prop := ¬ ['"', '"', '"'] <:+: (d.getD "").toList

namespace Printer

variable {indent : String} {d e : Option String}

/-- A line of a description in a block: indented, unless it is empty. -/
def blockLine (indent : String) (line : List Char) : String :=
  if line.isEmpty then "" else indent ++ String.ofList line

/-- The ways to print a description: not at all, on one line, and as a block. -/
inductive Describes (indent : String) : Option String → List String → Prop
  | none {d : Option String} : d.getD "" = "" → Describes indent d []
  | line {text : String} : text ≠ "" → '"' ∉ text.toList →
      Describes indent (some text) [indent ++ "\"" ++ text ++ "\""]
  | block {text : String} : Describes indent (some text)
      ((indent ++ "\"\"\"") :: (Text.lines text.toList).map (blockLine indent) ++
        [indent ++ "\"\"\""])

theorem describes_descriptionLines (indent : String) (d : Option String) :
    Describes indent d (descriptionLines indent d) := by
  unfold descriptionLines
  split
  · exact .none rfl
  · exact .none rfl
  · next text hne =>
    split
    · exact .block
    · next h =>
      refine .line (fun h => hne (h ▸ rfl)) ?_
      simp only [Bool.or_eq_true, not_or, String.contains_char_eq, decide_eq_true_eq] at h
      exact h.2

theorem unlines_quotedLine {text : String} :
    unlines [indent ++ "\"" ++ text ++ "\""] ++ x =
      indent.toList ++ '"' :: (text.toList ++ '"' :: '\n' :: x) := by
  simp

theorem unlines_quotedBlock {ls : List (List Char)} :
    unlines ((indent ++ "\"\"\"") :: ls.map (blockLine indent) ++ [indent ++ "\"\"\""]) ++ x =
      indent.toList ++ '"' :: '"' :: '"' :: '\n' ::
        (ls.flatMap (fun l => (blockLine indent l).toList ++ ['\n']) ++
          ((blockLine indent ['"', '"', '"']).toList ++ '\n' :: x)) := by
  simp [blockLine, unlines, List.flatMap_map]

/-- The lines of a block are told apart, and from the quotes that end it. -/
theorem blockLine_inj (hindent : '\n' ∉ indent.toList) {l m : List Char} (hl : '\n' ∉ l)
    (hm : '\n' ∉ m)
    (h : ((blockLine indent l).toList ++ ['\n']) ++ x =
      ((blockLine indent m).toList ++ ['\n']) ++ y) :
    l = m ∧ x = y := by
  have hall {l : List Char} (hl : '\n' ∉ l) :
      ∀ c ∈ (blockLine indent l).toList, (c != '\n') = true := by
    intro c hc
    rw [bne_iff_ne]
    rintro rfl
    unfold blockLine at hc
    split at hc
    · simp at hc
    · rw [String.toList_append, String.toList_ofList, List.mem_append] at hc
      exact hc.elim hindent hl
  simp only [List.append_assoc, List.cons_append, List.nil_append] at h
  obtain ⟨hline, hxy⟩ := Text.append_inj_of_stops (hall hl) (hall hm)
    (Text.stops_cons.2 (by decide)) (Text.stops_cons.2 (by decide)) h
  refine ⟨?_, by simpa using hxy⟩
  cases l with
  | nil =>
    cases m with
    | nil => rfl
    | cons c m => simp [blockLine] at hline
  | cons c l =>
    cases m with
    | nil => simp [blockLine] at hline
    | cons c' m => simpa [blockLine] using hline

/-- No line of a description ends the block that it stands in. -/
theorem ne_of_mem_lines {text : String} (h : Quotable (some text)) {l : List Char}
    (hl : l ∈ Text.lines text.toList) : l ≠ ['"', '"', '"'] := by
  rintro rfl
  exact h (Text.infix_of_mem_lines hl)

variable {ls ms : List String}

theorem Describes.append_inj (hindent : '\n' ∉ indent.toList) (hd : Quotable d) (he : Quotable e)
    (hx : ∀ z, indent.toList ++ '"' :: z ≠ x) (hy : ∀ z, indent.toList ++ '"' :: z ≠ y)
    (hls : Describes indent d ls) (hms : Describes indent e ms)
    (h : unlines ls ++ x = unlines ms ++ y) : SameLines d e ∧ x = y := by
  -- a text on one line starts with one quote, a block with three
  have hfirst {text : String} (hne : text ≠ "") (hquote : '"' ∉ text.toList) {x y : List Char} :
      text.toList ++ x ≠ '"' :: y := by
    intro h
    cases htext : text.toList with
    | nil => exact hne (by simpa using htext)
    | cons c cs =>
      rw [htext] at h hquote
      exact hquote ((List.cons.inj h).1 ▸ List.mem_cons_self)
  cases hls with
  | none hd' =>
    cases hms with
    | none he' => exact ⟨by rw [SameLines, hd', he'], h⟩
    | line => rw [unlines_quotedLine] at h; exact absurd h.symm (hx _)
    | block => rw [unlines_quotedBlock] at h; exact absurd h.symm (hx _)
  | @line text hne hquote =>
    rw [unlines_quotedLine] at h
    cases hms with
    | none => exact absurd h (hy _)
    | @line text' hne' hquote' =>
      rw [unlines_quotedLine] at h
      have hall {t : List Char} (ht : '"' ∉ t) : ∀ c ∈ t, (c != '"') = true :=
        fun c hc => bne_iff_ne.2 fun heq => ht (heq ▸ hc)
      obtain ⟨htext, hxy⟩ := Text.append_inj_of_stops (hall hquote) (hall hquote')
        (Text.stops_cons.2 (by decide)) (Text.stops_cons.2 (by decide))
        (List.cons.inj (List.append_cancel_left h)).2
      obtain rfl := String.toList_inj.1 htext
      exact ⟨rfl, by simpa using hxy⟩
    | block =>
      rw [unlines_quotedBlock] at h
      exact absurd (List.cons.inj (List.append_cancel_left h)).2 (hfirst hne hquote)
  | @block text =>
    rw [unlines_quotedBlock] at h
    cases hms with
    | none => exact absurd h (hy _)
    | line hne hquote =>
      rw [unlines_quotedLine] at h
      exact absurd (List.cons.inj (List.append_cancel_left h)).2.symm (hfirst hne hquote)
    | @block text' =>
      rw [unlines_quotedBlock] at h
      have h := List.append_cancel_left h
      simp only [List.cons.injEq, true_and] at h
      have hend : '\n' ∉ ['"', '"', '"'] := by decide
      have hnewline {text : String} : ∀ l ∈ Text.lines text.toList, '\n' ∉ l :=
        fun l hl => Text.newline_notMem_of_mem_lines hl
      obtain ⟨hlines, hxy⟩ := Text.flatMap_append_inj (R := Eq)
        (fun l hl m hm x y h => blockLine_inj hindent (hnewline l hl) (hnewline m hm) h)
        (fun l hl z h => ne_of_mem_lines hd hl
          (blockLine_inj hindent (hnewline l hl) hend (by simpa using h)).1)
        (fun m hm z h => ne_of_mem_lines he hm
          (blockLine_inj hindent (hnewline m hm) hend (by simpa using h)).1) h
      rw [List.forall₂_eq_eq_eq] at hlines
      exact ⟨hlines, by simpa using hxy⟩

/-- A description is read off a text that does not look like one where it ends. -/
theorem descriptionLines_append_inj (hindent : '\n' ∉ indent.toList) (hd : Quotable d)
    (he : Quotable e) (hx : ∀ z, indent.toList ++ '"' :: z ≠ x)
    (hy : ∀ z, indent.toList ++ '"' :: z ≠ y)
    (h : unlines (descriptionLines indent d) ++ x = unlines (descriptionLines indent e) ++ y) :
    SameLines d e ∧ x = y :=
  Describes.append_inj hindent hd he hx hy (describes_descriptionLines indent d)
    (describes_descriptionLines indent e) h

end Printer

/-! ## Arguments -/

/-- Whether an argument has only names where names are expected: for itself and for the keys in its
default. -/
structure Argument.Legible (a : Argument) : Prop where
  name : Name.isName a.name.toList = true
  default : ∀ v, a.defaultValue = some v → v.keysNamed = true

/-- Whether two arguments are shown in the same way: with their names, their types and the literals
of their defaults. -/
structure Argument.ShownAs (a b : Argument) : Prop where
  name : a.name = b.name
  type : a.type = b.type
  default : a.defaultValue.map Value.literal = b.defaultValue.map Value.literal

theorem Argument.ShownAs.symm {a b : Argument} (h : a.ShownAs b) : b.ShownAs a :=
  ⟨h.name.symm, h.type.symm, h.default.symm⟩

namespace Printer

variable {a b : Argument}

/-- The characters of arguments, outside of the literals of texts, lists and maps. -/
def isPart (c : Char) : Bool := TypeRef.isMark c || Value.isBare c || c == ' '

theorem stops_isMark (h : Stops isPart x) : Stops TypeRef.isMark x :=
  h.mono fun c hc => by simp [isPart, hc]

theorem stops_isBare (h : Stops isPart x) : Stops Value.isBare x :=
  h.mono fun c hc => by simp [isPart, hc]

theorem toList_argument (a : Argument) :
    (argument a).toList ++ x = a.name.toList ++ ':' :: ' ' :: (a.type.chars ++
      ((a.defaultValue.elim [] fun v => ' ' :: '=' :: ' ' :: v.literalChars) ++ x)) := by
  cases hdefault : a.defaultValue <;> simp [argument, hdefault, TypeRef.text, Value.literal]

/-- A default is read off, and seen to be there. -/
theorem default_append_inj {d e : Option Value} (hd : ∀ v, d = some v → v.keysNamed = true)
    (he : ∀ v, e = some v → v.keysNamed = true) (hx : Stops isPart x) (hy : Stops isPart y)
    (h : (d.elim [] fun v => ' ' :: '=' :: ' ' :: v.literalChars) ++ x =
      (e.elim [] fun v => ' ' :: '=' :: ' ' :: v.literalChars) ++ y) :
    d.map Value.literal = e.map Value.literal ∧ x = y := by
  have hblank {x z : List Char} (hx : Stops isPart x) : x ≠ ' ' :: z := by
    rintro rfl
    exact absurd (Text.stops_cons.1 hx) (by decide)
  cases d with
  | none =>
    cases e with
    | none => exact ⟨rfl, h⟩
    | some w => exact absurd h (hblank hx)
  | some v =>
    cases e with
    | none => exact absurd h.symm (hblank hy)
    | some w =>
      simp only [Option.elim_some, List.cons_append, List.cons.injEq, true_and] at h
      obtain ⟨hsame, hxy⟩ := Value.literalChars_append_inj (hd v rfl) (he w rfl)
        (stops_isBare hx) (stops_isBare hy) h
      exact ⟨congrArg some hsame, hxy⟩

theorem argument_append_inj (ha : a.Legible) (hb : b.Legible)
    (hta : Name.isName a.type.innermost.toList = true)
    (htb : Name.isName b.type.innermost.toList = true) (hx : Stops isPart x) (hy : Stops isPart y)
    (h : (argument a).toList ++ x = (argument b).toList ++ y) : a.ShownAs b ∧ x = y := by
  -- no default starts with a character of a reference, and neither does what follows
  have hrest {d : Option Value} {x : List Char} (hx : Stops isPart x) : Stops TypeRef.isMark
      ((d.elim [] fun v => ' ' :: '=' :: ' ' :: v.literalChars) ++ x) := by
    cases d with
    | none => exact stops_isMark hx
    | some v => exact Text.stops_cons.2 (by decide)
  rw [toList_argument, toList_argument] at h
  obtain ⟨hname, h⟩ := Name.append_inj_of_isName ha.name hb.name (Text.stops_cons.2 (by decide))
    (Text.stops_cons.2 (by decide)) h
  simp only [List.cons.injEq, true_and] at h
  obtain ⟨htype, h⟩ := TypeRef.chars_append_inj hta htb (hrest hx) (hrest hy) h
  obtain ⟨hdefault, hxy⟩ := default_append_inj ha.default hb.default hx hy h
  exact ⟨⟨String.toList_inj.1 hname, htype, hdefault⟩, hxy⟩

/-- An argument starts with a character of its name. -/
theorem argument_append_ne (ha : a.Legible) {c : Char} (hc : Name.isContinue c = false) :
    (argument a).toList ++ x ≠ c :: y := by
  obtain ⟨d, w, hname, hd⟩ := Name.exists_cons_of_isName ha.name
  rw [toList_argument, hname]
  intro h
  rw [(List.cons.inj h).1, hc] at hd
  cases hd

theorem toList_arguments (a : Argument) (as : List Argument) :
    (arguments (a :: as)).toList ++ x = '(' ::
      (List.intercalate [',', ' '] ((a :: as).map fun b => (argument b).toList) ++ ')' :: x) := by
  simp [arguments, Value.commas, Function.comp_def]

/-- The arguments of a field are read off a text that does not open another parenthesis. -/
theorem arguments_append_inj {as bs : List Argument} (has : ∀ a ∈ as, a.Legible)
    (hbs : ∀ b ∈ bs, b.Legible) (hta : ∀ a ∈ as, Name.isName a.type.innermost.toList = true)
    (htb : ∀ b ∈ bs, Name.isName b.type.innermost.toList = true) (hx : ∀ z, '(' :: z ≠ x)
    (hy : ∀ z, '(' :: z ≠ y) (h : (arguments as).toList ++ x = (arguments bs).toList ++ y) :
    List.Forall₂ Argument.ShownAs as bs ∧ x = y := by
  cases as with
  | nil =>
    cases bs with
    | nil => exact ⟨.nil, h⟩
    | cons b bs => rw [toList_arguments] at h; exact absurd h.symm (hx _)
  | cons a as =>
    cases bs with
    | nil => rw [toList_arguments] at h; exact absurd h (hy _)
    | cons b bs =>
      rw [toList_arguments, toList_arguments] at h
      have hcomma (z : List Char) : Stops isPart ([',', ' '] ++ z) := Text.stops_cons.2 (by decide)
      obtain ⟨hshown, hxy⟩ := Text.intercalate_append_inj (Stops isPart)
        (fun a ha b hb x y hx hy h => argument_append_inj (has a ha) (hbs b hb) (hta a ha)
          (htb b hb) hx hy h)
        (fun z => ⟨hcomma z, by simp, by simp⟩)
        (fun a ha z => argument_append_ne (has a ha) (by decide))
        (fun b hb z => argument_append_ne (hbs b hb) (by decide))
        (Text.stops_cons.2 (by decide)) (Text.stops_cons.2 (by decide)) (List.cons.inj h).2
      exact ⟨hshown, by simpa using hxy⟩

/-! ## Deprecations -/

theorem toList_deprecation (reason : String) :
    (deprecation (some reason)).toList ++ x = ' ' :: ("@deprecated(reason: ".toList ++
      (Text.jsonQuoted reason.toList ++ ')' :: x)) := by
  have hmark : " @deprecated(reason: ".toList = ' ' :: "@deprecated(reason: ".toList := by simp
  have hclose : ")".toList = [')'] := by simp
  have htext : deprecation (some reason) =
      " @deprecated(reason: " ++ String.ofList (Text.jsonQuoted reason.toList) ++ ")" := rfl
  rw [htext, String.toList_append, String.toList_append, hmark, hclose]
  simp only [String.toList_ofList, List.append_assoc, List.cons_append, List.nil_append]

/-- The mark of a deprecation is read off the end of a line. -/
theorem deprecation_append_inj {d e : Option String}
    (h : (deprecation d).toList ++ '\n' :: x = (deprecation e).toList ++ '\n' :: y) :
    d = e ∧ x = y := by
  cases d with
  | none =>
    cases e with
    | none => exact ⟨rfl, (List.cons.inj (List.append_cancel_left h)).2⟩
    | some reason =>
      rw [toList_deprecation] at h
      exact absurd (List.cons.inj h).1 (by decide)
  | some reason =>
    cases e with
    | none =>
      rw [toList_deprecation] at h
      exact absurd (List.cons.inj h).1 (by decide)
    | some reason' =>
      rw [toList_deprecation, toList_deprecation] at h
      have h := List.append_cancel_left (List.cons.inj h).2
      obtain ⟨hreason, h⟩ := Text.jsonQuoted_append_inj h
      exact ⟨congrArg some (String.toList_inj.1 hreason), by simpa using h⟩

end Printer

end GraphSchema
