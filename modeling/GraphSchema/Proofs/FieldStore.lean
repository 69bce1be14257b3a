import GraphSchema.FieldStore

/-!
# Writes to a store of fields

Fields are declared, composed tables are set, and the store is closed, in any order and for any
owners and layers. Every write changes one table at most, and one that is refused changes nothing,
although the table of a layer is made before its names are looked at. So declared fields stay as
they are, whatever is written later, and a closed store does not change any more.

## Main definitions

* `Write`, `Write.apply` — what is written to a store, and the store after it.
* `FieldStore.write`, `FieldStore.after` — a write that is carried out in place, and many of them.
* `FieldStore.Ends` — how a write ends, and what it leaves behind.
* `FieldStore.Lawful` — the tables of a store, what the next write does to them, and what is found.

## Main statements

* `FieldStore.write_eq` — to write in place is to write, or to be refused without a trace.
* `FieldStore.ends_write` — every write ends in one of the ways.
* `FieldStore.Ends.tidy`, `FieldStore.Ends.isPrefix`, `FieldStore.Ends.frozen_iff` — what one write
  keeps, and `FieldStore.Tidy.after`, `FieldStore.isPrefix_after`, `FieldStore.frozen_after` many.
* `FieldStore.writes_lawful` — what holds after any writes.
-/

namespace GraphSchema

/-- What is written to a store of fields, past the declarations. -/
inductive Write where
  | define (owner : String) (f : Field) (layer : Layer)
  | setEffective (owner : String) (fields : List Field)
  | freeze

/-- The store after a write. -/
def Write.apply (store : FieldStore) : Write → Except Error FieldStore
  | define owner f layer => store.define owner f layer
  | setEffective owner fields => store.setEffective owner fields
  | freeze => .ok store.freeze

namespace FieldStore

variable {s : FieldStore} {w : Write} {ws : List Write} {owner : String} {layer : Layer}

/-! ## Writes in place -/

/-- The store with a table for a layer, which is empty if there has been none. -/
def provide (s : FieldStore) (owner : String) (layer : Layer) : FieldStore :=
  { s with tables := Table.insertNew s.tables (owner, layer) [] }

/-- A write that is carried out in place: how it ends, and the store that it leaves behind. The
table of a layer is made before the field is refused or put there. -/
def write (s : FieldStore) : Write → Except Error Unit × FieldStore
  | .define owner f layer =>
    if s.frozen then (.error (.frozenField owner f.name), s)
    else
      let made := s.provide owner layer
      let fields := made.declared owner layer
      if Table.contains fields f.name then (.error (.duplicateField owner f.name layer), made)
      else (.ok (), { made with
        tables := Table.insert made.tables (owner, layer) (Table.insert fields f.name f) })
  | .setEffective owner fields =>
    if s.frozen then (.error (.frozenEffective owner), s)
    else (.ok (), { s with
      tables := Table.insert s.tables (owner, .effective) (Table.ofList (Field.table fields)) })
  | .freeze => (.ok (), s.freeze)

/-- The store after writes in order. -/
def after (s : FieldStore) (ws : List Write) : FieldStore :=
  ws.foldl (fun s w => (s.write w).2) s

@[simp] theorem declared_provide (s : FieldStore) (owner o : String) (layer l : Layer) :
    (s.provide owner layer).declared o l = s.declared o l := by
  simp only [provide, declared, Table.get?_insertNew]
  cases Table.get? s.tables (o, l) with
  | some t => rfl
  | none => split <;> rfl

/-- A layer with a field has a table already. -/
theorem provide_eq_self {name : String}
    (h : Table.contains (s.declared owner layer) name = true) : s.provide owner layer = s := by
  have htable : Table.contains s.tables (owner, layer) = true := by
    unfold declared at h
    cases ht : Table.get? s.tables (owner, layer) with
    | none => simp [ht, Table.contains, Table.get?] at h
    | some t => simp [Table.contains, ht]
  rw [provide, Table.insertNew, if_pos htable]

/-- To write in place is to write, or to be refused without a trace. -/
theorem write_eq (s : FieldStore) (w : Write) :
    s.write w = match w.apply s with
      | .ok s' => (.ok (), s')
      | .error e => (.error e, s) := by
  cases w with
  | define owner f layer =>
    simp only [write, Write.apply, define, declared_provide]
    by_cases hf : s.frozen = true
    · rw [if_pos hf, if_pos hf]
    · rw [if_neg hf, if_neg hf]
      by_cases hc : Table.contains (s.declared owner layer) f.name = true
      · rw [if_pos hc, if_pos hc, provide_eq_self hc]
      · rw [if_neg hc, if_neg hc, Table.insert_of_notMem (mt Table.contains_iff_mem_keys.2 hc)]
        simp only [provide, Table.insert_insertNew]
  | setEffective owner fields =>
    simp only [write, Write.apply, setEffective, Field.table]
    split <;> rfl
  | freeze => rfl

theorem write_of_apply_ok {s' : FieldStore} (h : w.apply s = .ok s') :
    s.write w = (.ok (), s') := by
  rw [write_eq, h]

theorem write_of_apply_error {e : Error} (h : w.apply s = .error e) :
    s.write w = (.error e, s) := by
  rw [write_eq, h]

/-! ## How a write ends -/

/-- How a write to a store ends: it is refused because the store is closed or because the layer has
a field of this name, or it changes a table, or it closes the store. -/
inductive Ends (s : FieldStore) : Write → Except Error Unit × FieldStore → Prop where
  | late {w : Write} {e : Error} (hw : w ≠ .freeze) (hclosed : s.frozen = true)
      (he : e.category = .frozen) : Ends s w (.error e, s)
  | duplicate {owner : String} {f : Field} {layer : Layer} (hopen : s.frozen = false)
      (hname : f.name ∈ Table.keys (s.declared owner layer)) :
      Ends s (.define owner f layer) (.error (.duplicateField owner f.name layer), s)
  | defined {owner : String} {f : Field} {layer : Layer} {s' : FieldStore}
      (hopen : s.frozen = false) (hname : f.name ∉ Table.keys (s.declared owner layer))
      (hopen' : s'.frozen = false)
      (hdeclared : ∀ o l, s'.declared o l =
        if (owner, layer) = (o, l) then s.declared owner layer ++ Field.table [f]
        else s.declared o l) :
      Ends s (.define owner f layer) (.ok (), s')
  | composed {owner : String} {fields : List Field} {s' : FieldStore}
      (hopen : s.frozen = false) (hopen' : s'.frozen = false)
      (hdeclared : ∀ o l, s'.declared o l =
        if (owner, Layer.effective) = (o, l) then Table.ofList (Field.table fields)
        else s.declared o l) :
      Ends s (.setEffective owner fields) (.ok (), s')
  | closed : Ends s .freeze (.ok (), s.freeze)

theorem ends_write (s : FieldStore) (w : Write) : s.Ends w (s.write w) := by
  cases w with
  | define owner f layer =>
    cases hf : s.frozen with
    | true =>
      have happly : (Write.define owner f layer).apply s = .error (.frozenField owner f.name) :=
        if_pos hf
      rw [write_of_apply_error happly]
      exact .late nofun hf rfl
    | false =>
      rcases define_of_open hf owner f layer with ⟨hn, hd⟩ | ⟨hn, s', hd⟩
      · rw [write_of_apply_error (w := .define owner f layer) hd]
        exact .duplicate hf hn
      · rw [write_of_apply_ok (w := .define owner f layer) hd]
        exact .defined hf hn (frozen_define hd) fun o l => declared_define hd
  | setEffective owner fields =>
    cases hf : s.frozen with
    | true =>
      have happly : (Write.setEffective owner fields).apply s = .error (.frozenEffective owner) :=
        if_pos hf
      rw [write_of_apply_error happly]
      exact .late nofun hf rfl
    | false =>
      obtain ⟨s', hs, hopen, hdeclared⟩ := setEffective_of_open hf owner fields
      rw [write_of_apply_ok (w := .setEffective owner fields) hs]
      exact .composed hf hopen hdeclared
  | freeze => exact .closed

theorem ends_of_write {out : Except Error Unit × FieldStore} (h : s.write w = out) :
    s.Ends w out :=
  h ▸ s.ends_write w

/-! ## What one write keeps -/

/-- Whether every table holds fields under their names, each name once. -/
def Tidy (s : FieldStore) : Prop := ∀ owner layer, Field.IsTable (s.declared owner layer)

theorem freeze_of_frozen (h : s.frozen = true) : s.freeze = s := by
  rw [freeze, ← h]

namespace Ends

variable {out : Except Error Unit × FieldStore} {s' : FieldStore} {f : Field}
  {fields : List Field} {e : Error}

theorem tidy (h : s.Ends w out) (hs : s.Tidy) : out.2.Tidy := by
  cases h with
  | late | duplicate | closed => exact hs
  | defined hopen hname hopen' hdeclared =>
    intro o l
    rw [hdeclared]
    split
    · exact (hs _ _).concat hname
    · exact hs o l
  | composed hopen hopen' hdeclared =>
    intro o l
    rw [hdeclared]
    split
    · exact Field.isTable_ofList
    · exact hs o l

/-- Declared fields stay where they are. -/
theorem isPrefix (h : s.Ends w out) (hl : layer ≠ .effective) :
    s.declared owner layer <+: out.2.declared owner layer := by
  cases h with
  | late | duplicate | closed => exact List.prefix_refl _
  | defined hopen hname hopen' hdeclared =>
    rw [hdeclared]
    split
    · next heq =>
      obtain ⟨rfl, rfl⟩ := Prod.mk.inj heq
      exact List.prefix_append _ _
    · exact List.prefix_refl _
  | @composed o fields s' hopen hopen' hdeclared =>
    have hsame : s'.declared owner layer = s.declared owner layer := by
      rw [hdeclared, if_neg]
      intro heq
      exact hl (Prod.mk.inj heq).2.symm
    exact hsame ▸ List.prefix_refl _

/-- A store is closed by one write only, and is never opened again. -/
theorem frozen_iff (h : s.Ends w out) : out.2.frozen = true ↔ s.frozen = true ∨ w = .freeze := by
  cases h <;> grind [freeze]

/-- A closed store does not change. -/
theorem eq_of_frozen (h : s.Ends w out) (hclosed : s.frozen = true) : out.2 = s := by
  cases h <;> grind [freeze_of_frozen]

/-- A write that is refused leaves no trace. -/
theorem eq_of_error (h : s.Ends w (.error e, s')) : s' = s := by
  cases h <;> rfl

/-! ## What a definition does -/

theorem define_ok_iff (h : s.Ends (.define owner f layer) out) :
    out.1 = .ok () ↔ s.frozen = false ∧ f.name ∉ Table.keys (s.declared owner layer) := by
  cases h with
  | late hw hclosed he => simp [hclosed]
  | duplicate hopen hname => simp [hname]
  | defined hopen hname => simp [hopen, hname]

theorem define_duplicate_iff (h : s.Ends (.define owner f layer) out) :
    (∃ e, out.1 = .error e ∧ e.category = .duplicateField) ↔
      s.frozen = false ∧ f.name ∈ Table.keys (s.declared owner layer) := by
  cases h with
  | late hw hclosed he => simp [hclosed, he]
  | duplicate hopen hname => simp [hopen, hname, Error.category]
  | defined hopen hname => simp [hname]

theorem declared_define (h : s.Ends (.define owner f layer) (.ok (), s')) (o : String)
    (l : Layer) :
    s'.declared o l =
      if (owner, layer) = (o, l) then s.declared owner layer ++ Field.table [f]
      else s.declared o l := by
  cases h with
  | defined hopen hname hopen' hdeclared => exact hdeclared o l

/-! ## What setting a composed table does -/

theorem setEffective_ok_iff (h : s.Ends (.setEffective owner fields) out) :
    out.1 = .ok () ↔ s.frozen = false := by
  cases h with
  | late hw hclosed he => simp [hclosed]
  | composed hopen => simp [hopen]

theorem declared_setEffective (h : s.Ends (.setEffective owner fields) (.ok (), s'))
    (o : String) (l : Layer) :
    s'.declared o l =
      if (owner, Layer.effective) = (o, l) then Table.ofList (Field.table fields)
      else s.declared o l := by
  cases h with
  | composed hopen hopen' hdeclared => exact hdeclared o l

end Ends

/-! ## What many writes keep -/

theorem after_append (s : FieldStore) (ws later : List Write) :
    s.after (ws ++ later) = (s.after ws).after later :=
  List.foldl_append

theorem Tidy.after (h : s.Tidy) (ws : List Write) : (s.after ws).Tidy := by
  induction ws generalizing s with
  | nil => exact h
  | cons w ws ih => exact ih ((s.ends_write w).tidy h)

theorem isPrefix_after (hl : layer ≠ .effective) (ws : List Write) :
    s.declared owner layer <+: (s.after ws).declared owner layer := by
  induction ws generalizing s with
  | nil => exact List.prefix_refl _
  | cons w ws ih => exact ((s.ends_write w).isPrefix hl).trans ih

theorem frozen_after (s : FieldStore) (ws : List Write) :
    (s.after ws).frozen = true ↔ s.frozen = true ∨ .freeze ∈ ws := by
  induction ws generalizing s with
  | nil => simp [after]
  | cons w ws ih =>
    refine (ih (s.write w).2).trans ?_
    rw [(s.ends_write w).frozen_iff, List.mem_cons, or_assoc, eq_comm (a := w)]

theorem after_of_frozen (h : s.frozen = true) (ws : List Write) : s.after ws = s := by
  induction ws with
  | nil => rfl
  | cons w ws ih => rw [after, List.foldl_cons, (s.ends_write w).eq_of_frozen h, ← after, ih]

/-! ## Lawful stores -/

/-- What a store of fields is to its users: what its tables hold, what the next write does to them,
and what is looked up in them. -/
structure Lawful (s : FieldStore) : Prop where
  isTable : ∀ owner layer, Field.IsTable (s.declared owner layer)
  refused : ∀ w e s', s.write w = (.error e, s') → s' = s
  accepts_define : ∀ owner f layer, (s.write (.define owner f layer)).1 = .ok () ↔
    s.frozen = false ∧ f.name ∉ Table.keys (s.declared owner layer)
  duplicate_define : ∀ owner f layer,
    (∃ e, (s.write (.define owner f layer)).1 = .error e ∧ e.category = .duplicateField) ↔
      s.frozen = false ∧ f.name ∈ Table.keys (s.declared owner layer)
  declared_define : ∀ owner f layer s', s.write (.define owner f layer) = (.ok (), s') →
    ∀ o l, s'.declared o l =
      if (owner, layer) = (o, l) then s.declared owner layer ++ [(f.name, f)] else s.declared o l
  accepts_setEffective : ∀ owner fields,
    (s.write (.setEffective owner fields)).1 = .ok () ↔ s.frozen = false
  declared_setEffective : ∀ owner fields s', s.write (.setEffective owner fields) = (.ok (), s') →
    ∀ o l, (owner, Layer.effective) ≠ (o, l) → s'.declared o l = s.declared o l
  effective_setEffective : ∀ owner fields s', s.write (.setEffective owner fields) = (.ok (), s') →
    Table.keys (s'.declared owner .effective) = (fields.map (·.name)).eraseDups ∧
    ∀ name, Table.get? (s'.declared owner .effective) name =
      fields.reverse.find? (·.name == name)
  lookup_ok_iff : ∀ owner name f,
    s.lookup owner name = .ok f ↔ (name, f) ∈ s.declared owner .effective
  lookup_error_iff : ∀ owner name e, s.lookup owner name = .error e ↔
    e = .fieldNotFound owner name ∧ name ∉ Table.keys (s.declared owner .effective)

theorem lookup_error_iff {name : String} {e : Error} :
    s.lookup owner name = .error e ↔
      e = .fieldNotFound owner name ∧ name ∉ Table.keys (s.declared owner .effective) := by
  rw [← Table.get?_eq_none_iff, lookup, effective]
  cases Table.get? (s.declared owner .effective) name <;> simp [eq_comm]

theorem Tidy.lookup_ok_iff (h : s.Tidy) {name : String} {f : Field} :
    s.lookup owner name = .ok f ↔ (name, f) ∈ s.declared owner .effective := by
  rw [← Table.get?_eq_some_iff (h owner .effective).distinct, lookup, effective]
  cases Table.get? (s.declared owner .effective) name <;> simp

theorem Tidy.lawful (h : s.Tidy) : s.Lawful where
  isTable := h
  refused _ _ _ hw := (ends_of_write hw).eq_of_error
  accepts_define owner f layer := (s.ends_write (.define owner f layer)).define_ok_iff
  duplicate_define owner f layer := (s.ends_write (.define owner f layer)).define_duplicate_iff
  declared_define _ _ _ _ hw := (ends_of_write hw).declared_define
  accepts_setEffective owner fields :=
    (s.ends_write (.setEffective owner fields)).setEffective_ok_iff
  declared_setEffective owner fields s' hw o l hne := by
    rw [(ends_of_write hw).declared_setEffective, if_neg hne]
  effective_setEffective owner fields s' hw := by
    rw [(ends_of_write hw).declared_setEffective, if_pos rfl]
    refine ⟨?_, fun name => Field.get?_ofList_table⟩
    rw [Table.keys_ofList, Field.keys_table]
  lookup_ok_iff _ _ _ := h.lookup_ok_iff
  lookup_error_iff _ _ _ := lookup_error_iff

theorem tidy_fresh : ({} : FieldStore).Tidy := fun _ _ => ⟨List.nodup_nil, nofun⟩

/-- After any writes to a fresh store, which is closed exactly if one of them has closed it, every
table is in order and the next write does what it should. Whatever is written later, declared fields
stay as they are, and from the time that the store is closed no table changes. -/
theorem writes_lawful (ws : List Write) :
    ((after {} ws).frozen = true ↔ .freeze ∈ ws) ∧ (after {} ws).Lawful ∧
    ∀ later,
      (∀ owner layer, layer ≠ .effective →
        (after {} ws).declared owner layer <+: (after {} (ws ++ later)).declared owner layer) ∧
      (after {} (ws ++ .freeze :: later)).tables = (after {} ws).tables := by
  refine ⟨?_, (tidy_fresh.after ws).lawful, fun later => ⟨fun owner layer hl => ?_, ?_⟩⟩
  · simpa using frozen_after {} ws
  · rw [after_append]
    exact isPrefix_after hl later
  · have hclosed : (after {} ws).freeze.frozen = true := rfl
    calc (after {} (ws ++ .freeze :: later)).tables
        = ((after {} ws).freeze.after later).tables := by rw [after_append]; rfl
      _ = (after {} ws).freeze.tables := by rw [after_of_frozen hclosed]
      _ = (after {} ws).tables := rfl

end FieldStore

end GraphSchema
