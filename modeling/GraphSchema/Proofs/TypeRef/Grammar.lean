import GraphSchema.Proofs.Name
import GraphSchema.Proofs.Traversal
import GraphSchema.TypeRef.Parser

/-!
# The grammar of type expressions

An expression is a name, an expression in brackets, or an expression with a mark after it that has
none yet; blanks may stand around every name, bracket and mark. Reading from the outside in accepts
these expressions and nothing else.

## Main definitions

* `TypeRef.Padded` — a token with blanks around it.
* `TypeRef.Derives` — the expressions of the grammar, and the references that they denote.

## Main statements

* `Text.trim_append` — blanks at the ends do not matter.
* `TypeRef.parse_eq_ok_iff` — the parser accepts the expressions of the grammar.
* `TypeRef.Derives.chars_eq` — the written form is the expression without its blanks.
* `TypeRef.parse_exact` — what the parser makes of every text.
-/

namespace GraphSchema

/-! ## Blanks -/

namespace Text

variable {c : Char} {cs before after : List Char}

/-- Whether a text has only blanks. -/
def AllBlank (cs : List Char) : Prop := ∀ c ∈ cs, isBlank c = true

instance {cs : List Char} : Decidable (AllBlank cs) :=
  List.decidableBAll (fun c => isBlank c = true) cs

@[simp] theorem allBlank_nil : AllBlank [] := by simp [AllBlank]

theorem AllBlank.append (hbefore : AllBlank before) (hafter : AllBlank after) :
    AllBlank (before ++ after) :=
  List.forall_mem_append.2 ⟨hbefore, hafter⟩

theorem trimStart_append (h : AllBlank before) : trimStart (before ++ cs) = trimStart cs :=
  List.dropWhile_append_of_pos h

theorem trimEnd_append (h : AllBlank after) : trimEnd (cs ++ after) = trimEnd cs := by
  have hreverse : AllBlank after.reverse := by simpa [AllBlank] using h
  rw [trimEnd, List.reverse_append, ← trimStart, trimStart_append hreverse]
  rfl

theorem trim_eq : trim cs = trimEnd (trimStart cs) := rfl

/-- Blanks at the ends do not matter. -/
theorem trim_append (hbefore : AllBlank before) (hafter : AllBlank after) :
    trim (before ++ cs ++ after) = trim cs := by
  rw [List.append_assoc, trim_eq, trimStart_append hbefore, trimStart, List.dropWhile_append]
  split
  · next hempty =>
    have hcs : trimStart cs = [] := List.isEmpty_iff.1 hempty
    have hrest : trimStart after = [] := by
      rw [← List.append_nil after, trimStart_append hafter]
      rfl
    rw [trim_eq, hcs, ← trimStart, hrest]
  · exact trimEnd_append hafter

theorem trimStart_of_head (h : ∀ c ∈ cs.head?, isBlank c = false) : trimStart cs = cs := by
  cases cs with
  | nil => rfl
  | cons c cs => exact List.dropWhile_cons_of_neg (by simp [h c rfl])

theorem trimEnd_of_getLast (h : ∀ c ∈ cs.getLast?, isBlank c = false) : trimEnd cs = cs := by
  rw [trimEnd, ← trimStart, trimStart_of_head (by simpa using h), List.reverse_reverse]

theorem trimStart_concat (hc : isBlank c = false) :
    trimStart (cs ++ [c]) = trimStart cs ++ [c] := by
  rw [trimStart, List.dropWhile_append]
  split
  · next hempty =>
    rw [trimStart, List.isEmpty_iff.1 hempty, List.dropWhile_cons_of_neg (by simp [hc])]
    rfl
  · rfl

theorem trim_concat (hc : isBlank c = false) : trim (cs ++ [c]) = trimStart cs ++ [c] := by
  rw [trim_eq, trimStart_concat hc, trimEnd_of_getLast (by simpa using hc)]

/-- A text is parted into what is left of it and the blanks after that. -/
theorem exists_trimEnd (cs : List Char) : ∃ after, AllBlank after ∧ cs = trimEnd cs ++ after := by
  refine ⟨(cs.reverse.takeWhile isBlank).reverse, ?_, ?_⟩
  · intro c hc
    exact List.all_eq_true.1 List.all_takeWhile c (List.mem_reverse.1 hc)
  · rw [trimEnd, ← List.reverse_append, List.takeWhile_append_dropWhile, List.reverse_reverse]

/-- A text is parted into what is left of it and the blanks around that. -/
theorem exists_trim (cs : List Char) :
    ∃ before after, AllBlank before ∧ AllBlank after ∧ cs = before ++ trim cs ++ after := by
  obtain ⟨after, hafter, heq⟩ := exists_trimEnd (trimStart cs)
  refine ⟨cs.takeWhile isBlank, after, ?_, hafter, ?_⟩
  · exact fun c hc => List.all_eq_true.1 List.all_takeWhile c hc
  · rw [List.append_assoc, trim_eq, ← heq]
    exact List.takeWhile_append_dropWhile.symm

/-- What is left of a text does not end with a blank. -/
theorem isBlank_getLast_trimEnd : ∀ c ∈ (trimEnd cs).getLast?, isBlank c = false := by
  intro c hc
  rw [trimEnd, List.getLast?_reverse] at hc
  have := List.head?_dropWhile_not isBlank cs.reverse
  rw [Option.mem_def.1 hc] at this
  exact this

end Text

namespace TypeRef

open Text (AllBlank isBlank trim trimStart trimEnd)

variable {source : String} {cs : List Char} {t : TypeRef}

/-! ## The grammar -/

/-- A token with blanks around it. -/
def Padded (token cs : List Char) : Prop :=
  ∃ before after, AllBlank before ∧ AllBlank after ∧ cs = before ++ token ++ after

/-- The expressions of the grammar, and the references that they denote. What a mark stands after
has none yet. -/
inductive Derives : List Char → TypeRef → Prop
  | name {name cs : List Char} : Name.isName name = true → Padded name cs →
      Derives cs (.named (String.ofList name))
  | list {opening cs closing : List Char} {t : TypeRef} : Padded ['['] opening → Derives cs t →
      Padded [']'] closing → Derives (opening ++ cs ++ closing) (.list t)
  | nonNull {cs mark : List Char} {t : TypeRef} : Derives cs t → t.isNonNull = false →
      Padded ['!'] mark → Derives (cs ++ mark) (.nonNull t)

theorem Padded.refl (token : List Char) : Padded token token :=
  ⟨[], [], Text.allBlank_nil, Text.allBlank_nil, by simp⟩

/-- A padded token may have further blanks around it. -/
theorem Padded.pad {token before after : List Char} (h : Padded token cs)
    (hbefore : AllBlank before) (hafter : AllBlank after) :
    Padded token (before ++ cs ++ after) := by
  obtain ⟨before', after', hbefore', hafter', rfl⟩ := h
  refine ⟨before ++ before', after' ++ after, hbefore.append hbefore', hafter'.append hafter, ?_⟩
  simp

/-- An expression may have blanks around it. -/
theorem Derives.pad {before after : List Char} (h : Derives cs t) (hbefore : AllBlank before)
    (hafter : AllBlank after) : Derives (before ++ cs ++ after) t := by
  induction h generalizing before after with
  | name hname hpadded => exact .name hname (hpadded.pad hbefore hafter)
  | @list opening cs closing t hopening h hclosing _ =>
    have hlist := Derives.list (hopening.pad hbefore Text.allBlank_nil) h
      (hclosing.pad Text.allBlank_nil hafter)
    simpa using hlist
  | @nonNull cs mark t h hnull hmark ih =>
    have hmarked := Derives.nonNull (ih hbefore Text.allBlank_nil) hnull
      (hmark.pad Text.allBlank_nil hafter)
    simpa using hmarked

/-! ## Steps of the parser -/

theorem isBlank_of_isContinue {c : Char} (h : Name.isContinue c = true) : isBlank c = false := by
  refine Text.forall_ascii (p := fun c => Name.isContinue c = true → isBlank c = false) ?_
    (Name.toNat_of_isContinue h) h
  decide +kernel

theorem isBlank_of_isName (h : Name.isName cs = true) : ∀ c ∈ cs, isBlank c = false :=
  fun c hc => isBlank_of_isContinue (Name.isContinue_of_isName h c hc)

theorem trim_of_isName (h : Name.isName cs = true) : trim cs = cs := by
  have hblank := isBlank_of_isName h
  rw [Text.trim_eq, Text.trimStart_of_head fun c hc => hblank c (List.mem_of_head? hc),
    Text.trimEnd_of_getLast fun c hc => hblank c (List.mem_of_getLast? hc)]

theorem trim_brackets : trim ('[' :: cs ++ [']']) = '[' :: cs ++ [']'] := by
  have hhead : ∀ c ∈ ('[' :: cs).head?, isBlank c = false := by
    simpa using (by decide : isBlank '[' = false)
  rw [Text.trim_concat (by decide), Text.trimStart_of_head hhead]

theorem parseTrimmed_name (h : Name.isName cs = true) :
    parseTrimmed source cs = .ok (.named (String.ofList cs)) := by
  have hcontinue := Name.isContinue_of_isName h
  have hne : cs ≠ [] := by
    rintro rfl
    cases h
  have hlast : cs.getLast? ≠ some '!' := fun hlast =>
    absurd (hcontinue _ (List.mem_of_getLast? hlast)) (by decide)
  have hhead : cs.head? ≠ some '[' := fun hhead =>
    absurd (hcontinue _ (List.mem_of_head? hhead)) (by decide)
  rw [parseTrimmed, if_neg hne, if_neg hlast, if_neg hhead, if_pos (by simp [Name.isTypeName, h])]

theorem parseTrimmed_brackets :
    parseTrimmed source ('[' :: cs ++ [']']) = .list <$> parseTrimmed source (trim cs) := by
  have hhead : ('[' :: cs ++ [']']).head? = some '[' := rfl
  have hlast : ('[' :: cs ++ [']']).getLast? = some ']' := List.getLast?_concat
  have hinside : ('[' :: cs ++ [']']).tail.dropLast = cs := List.dropLast_concat
  rw [parseTrimmed, if_neg (by simp), hlast, hhead, if_neg (by decide), if_pos rfl, if_pos rfl,
    hinside]

theorem parseTrimmed_mark (h : parseTrimmed source (trimEnd cs) = .ok t)
    (ht : t.isNonNull = false) : parseTrimmed source (cs ++ ['!']) = .ok (.nonNull t) := by
  rw [parseTrimmed, if_neg (by simp), if_pos (by simp), List.dropLast_concat, h]
  simp [bind, Except.bind, ht, pure, Except.pure]

/-! ## The parser -/

/-- What derives from the grammar is read as the reference that it denotes. -/
theorem Derives.parseTrimmed_trim (h : Derives cs t) : parseTrimmed source (trim cs) = .ok t := by
  induction h with
  | @name name cs hname hpadded =>
    obtain ⟨before, after, hbefore, hafter, rfl⟩ := hpadded
    rw [Text.trim_append hbefore hafter, trim_of_isName hname, parseTrimmed_name hname]
  | @list opening cs closing t hopening _ hclosing ih =>
    obtain ⟨before, inside, hbefore, hinside, rfl⟩ := hopening
    obtain ⟨inside', after, hinside', hafter, rfl⟩ := hclosing
    have hcs : (before ++ ['['] ++ inside) ++ cs ++ (inside' ++ [']'] ++ after) =
        before ++ ('[' :: (inside ++ cs ++ inside') ++ [']']) ++ after := by simp
    rw [hcs, Text.trim_append hbefore hafter, trim_brackets, parseTrimmed_brackets,
      Text.trim_append hinside hinside', ih]
    rfl
  | @nonNull cs mark t _ ht hmark ih =>
    obtain ⟨before, after, hbefore, hafter, rfl⟩ := hmark
    have hcs : cs ++ (before ++ ['!'] ++ after) = [] ++ ((cs ++ before) ++ ['!']) ++ after := by
      simp
    have hinner : trim (cs ++ before) = trim cs := Text.trim_append Text.allBlank_nil hbefore
    rw [hcs, Text.trim_append Text.allBlank_nil hafter, Text.trim_concat (by decide)]
    exact parseTrimmed_mark (by rw [← Text.trim_eq, hinner, ih]) ht

/-- A text from an opening bracket to a closing one. -/
theorem brackets_eq (hhead : cs.head? = some '[') (hlast : cs.getLast? = some ']') :
    '[' :: cs.tail.dropLast ++ [']'] = cs := by
  obtain ⟨rest, rfl⟩ : ∃ rest, cs = '[' :: rest := List.head?_eq_some_iff.1 hhead
  have hrest : rest.getLast? = some ']' := by
    cases rest with
    | nil => cases hlast
    | cons c rest => simpa [List.getLast?_cons_cons] using hlast
  exact congrArg ('[' :: ·) (List.dropLast_append_getLast? _ hrest)

/-- What is read derives from the grammar. -/
theorem derives_of_parseTrimmed (hend : ∀ c ∈ cs.getLast?, isBlank c = false)
    (h : parseTrimmed source cs = .ok t) : Derives cs t := by
  fun_induction parseTrimmed source cs generalizing t with
  | case1 | case4 | case6 => cases h
  | case2 cs hne hmark ih =>
    obtain ⟨inner, hinner, hrest⟩ := exists_of_bind_eq_ok h
    cases hnull : inner.isNonNull with
    | true =>
      rw [hnull] at hrest
      cases hrest
    | false =>
      rw [hnull] at hrest
      cases hrest
      obtain ⟨before, hbefore, heq⟩ := Text.exists_trimEnd cs.dropLast
      have hcs : trimEnd cs.dropLast ++ (before ++ ['!'] ++ []) = cs := by
        rw [List.append_nil, ← List.append_assoc, ← heq]
        exact List.dropLast_append_getLast? _ hmark
      have hderives := Derives.nonNull (ih Text.isBlank_getLast_trimEnd hinner) hnull
        ⟨before, [], hbefore, Text.allBlank_nil, rfl⟩
      rwa [hcs] at hderives
  | case3 cs hne hmark hhead hlast ih =>
    obtain ⟨item, hitem, rfl⟩ := exists_of_map_eq_ok h
    obtain ⟨before, after, hbefore, hafter, heq⟩ := Text.exists_trim cs.tail.dropLast
    have hcs := calc ([] ++ ['['] ++ before) ++ trim cs.tail.dropLast ++ (after ++ [']'] ++ [])
          = '[' :: (before ++ trim cs.tail.dropLast ++ after) ++ [']'] := by simp
        _ = '[' :: cs.tail.dropLast ++ [']'] := by rw [← heq]
        _ = cs := brackets_eq hhead hlast
    have hderives := Derives.list ⟨[], before, Text.allBlank_nil, hbefore, rfl⟩
      (ih Text.isBlank_getLast_trimEnd hitem) ⟨after, [], hafter, Text.allBlank_nil, rfl⟩
    rwa [hcs] at hderives
  | case5 cs hne hmark hhead hname =>
    cases h
    have hlast : cs.getLast? ≠ some '\n' := fun hlast => absurd (hend _ hlast) (by decide)
    exact .name ((Name.isName_iff_of_isTypeName hname).2 hlast) (.refl cs)

/-- The parser accepts the expressions of the grammar. -/
theorem parse_eq_ok_iff : parse source = .ok t ↔ Derives source.toList t := by
  constructor
  · intro h
    obtain ⟨before, after, hbefore, hafter, heq⟩ := Text.exists_trim source.toList
    rw [heq]
    exact (derives_of_parseTrimmed Text.isBlank_getLast_trimEnd h).pad hbefore hafter
  · exact fun h => h.parseTrimmed_trim

example : parse " [ A ! ] !" = .ok (.nonNull (.list (.nonNull (.named "A")))) := by cbv

/-! ## Written forms -/

/-- A reference that an expression denotes wraps a name. -/
theorem Derives.isName_innermost (h : Derives cs t) : Name.isName t.innermost.toList = true := by
  induction h with
  | name hname _ => simpa [innermost] using hname
  | list _ _ _ ih => exact ih
  | nonNull _ _ _ ih => exact ih

/-- Without the blanks, a token is left as it is if it has none. -/
theorem Padded.filter {token : List Char} (h : Padded token cs)
    (htoken : token.filter (fun c => !isBlank c) = token) :
    cs.filter (fun c => !isBlank c) = token := by
  obtain ⟨before, after, hbefore, hafter, rfl⟩ := h
  have hblank {l : List Char} (h : AllBlank l) : l.filter (fun c => !isBlank c) = [] :=
    List.filter_eq_nil_iff.2 fun c hc => by simp [h c hc]
  rw [List.filter_append, List.filter_append, hblank hbefore, hblank hafter, htoken]
  simp

/-- The written form of a reference is the expression without its blanks. -/
theorem Derives.chars_eq (h : Derives cs t) : t.chars = cs.filter fun c => !isBlank c := by
  induction h with
  | @name name cs hname hpadded =>
    have hblank := isBlank_of_isName hname
    rw [hpadded.filter (List.filter_eq_self.2 fun c hc => by simp [hblank c hc])]
    simp [chars]
  | list hopening _ hclosing ih =>
    rw [List.filter_append, List.filter_append, ← ih, hopening.filter rfl,
      hclosing.filter rfl]
    rfl
  | nonNull _ _ hmark ih =>
    rw [List.filter_append, ← ih, hmark.filter rfl]
    rfl

/-! ## Refusals -/

/-- What is refused is a fault of the definition. -/
theorem category_of_parseTrimmed {e : Error} (h : parseTrimmed source cs = .error e) :
    e.category = .definition := by
  fun_induction parseTrimmed source cs generalizing e with
  | case1 | case4 | case6 =>
    cases h
    rfl
  | case2 cs hne hmark ih =>
    cases hinner : parseTrimmed source (trimEnd cs.dropLast) with
    | error e' =>
      rw [hinner] at h
      cases h
      exact ih hinner
    | ok inner =>
      simp only [hinner, bind, Except.bind] at h
      split at h
      · cases h
        rfl
      · cases h
  | case3 cs hne hmark hhead hlast ih =>
    cases hitem : parseTrimmed source (trim cs.tail.dropLast) with
    | error e' =>
      rw [hitem] at h
      cases h
      exact ih hitem
    | ok item =>
      rw [hitem] at h
      cases h
  | case5 => cases h

/-- Every text is either an expression of the grammar, and read as the reference that it denotes,
whose written form is the text without its blanks, or refused as a faulty definition. -/
theorem parse_exact (source : String) :
    (∀ t, parse source = .ok t ↔ Derives source.toList t) ∧
    (∀ t, Derives source.toList t →
      t.text = String.ofList (source.toList.filter fun c => !isBlank c)) ∧
    ((∃ t, Derives source.toList t) ∨ ∃ e, parse source = .error e ∧ e.category = .definition) := by
  refine ⟨fun t => parse_eq_ok_iff, fun t h => by rw [text, h.chars_eq], ?_⟩
  cases hparse : parse source with
  | ok t => exact .inl ⟨t, parse_eq_ok_iff.1 hparse⟩
  | error e => exact .inr ⟨e, rfl, category_of_parseTrimmed hparse⟩

end TypeRef

end GraphSchema
