import GraphSchema.Field

/-!
# Stores of fields

Fields by owner and layer. An owner may have a field of one name in several layers, which is how
a type overrides a field of an interface.

## Main definitions

* `FieldStore` — the tables of fields.
* `FieldStore.declared`, `FieldStore.effective`, `FieldStore.lookup` — read the tables.
* `FieldStore.define`, `FieldStore.setEffective`, `FieldStore.freeze` — write and close them.
* `Field.table`, `Field.IsTable` — the table of fields by name.

## Main statements

* `FieldStore.declared_define`, `FieldStore.setEffective_of_open` — a write changes one table.
-/

namespace GraphSchema

/-- The tables of fields, and whether they are closed. -/
structure FieldStore where
  tables : Table (String × Layer) (Table String Field) := []
  frozen : Bool := false

namespace FieldStore

/-- The fields of one layer in order of declaration. -/
def declared (s : FieldStore) (owner : String) (layer : Layer) : Table String Field :=
  (Table.get? s.tables (owner, layer)).getD []

/-- The composed fields of an owner. -/
def effective (s : FieldStore) (owner : String) : Table String Field := s.declared owner .effective

/-- Adds a field to a layer, which must not have one of its name. -/
def define (s : FieldStore) (owner : String) (field : Field) (layer : Layer) :
    Except Error FieldStore :=
  if s.frozen then .error (.frozenField owner field.name)
  else
    let fields := s.declared owner layer
    if Table.contains fields field.name then .error (.duplicateField owner field.name layer)
    else .ok { s with
      tables := Table.insert s.tables (owner, layer) (fields ++ [(field.name, field)]) }

/-- Replaces the composed fields of an owner. -/
def setEffective (s : FieldStore) (owner : String) (fields : List Field) :
    Except Error FieldStore :=
  if s.frozen then .error (.frozenEffective owner)
  else .ok { s with
    tables := Table.insert s.tables (owner, .effective)
      (Table.ofList (fields.map fun f => (f.name, f))) }

/-- The composed field of a name. -/
def lookup (s : FieldStore) (owner fieldName : String) : Except Error Field :=
  match Table.get? (s.effective owner) fieldName with
  | some field => .ok field
  | none => .error (.fieldNotFound owner fieldName)

/-- The owners of tables, sorted. -/
def owners (s : FieldStore) : List String :=
  (s.tables.map (·.1.1)).eraseDups.mergeSort

/-- Closes the tables. -/
def freeze (s : FieldStore) : FieldStore := { s with frozen := true }

end FieldStore

/-! ## Tables of fields -/

namespace Field

/-- Fields by name. -/
def table (fs : List Field) : Table String Field := fs.map fun f => (f.name, f)

/-- Whether a table holds every field under its name, and each name once. -/
structure IsTable (t : Table String Field) : Prop where
  distinct : (Table.keys t).Nodup
  named : ∀ e ∈ t, e.1 = e.2.name

@[simp] theorem keys_table {fs : List Field} : Table.keys (table fs) = fs.map (·.name) := by
  simp [Table.keys, table]

@[simp] theorem values_table {fs : List Field} : Table.values (table fs) = fs := by
  simp [Table.values, table, Function.comp_def]

theorem get?_table {fs : List Field} {name : String} :
    Table.get? (table fs) name = fs.find? (·.name == name) := by
  induction fs with
  | nil => rfl
  | cons f fs ih =>
    rw [table, List.map_cons, Table.get?, List.find?_cons, ← table, ih]
    by_cases h : f.name = name
    · rw [if_pos h, beq_iff_eq.2 h]
    · rw [if_neg h, beq_eq_false_iff_ne.2 h]

theorem isTable_table {fs : List Field} (h : (fs.map (·.name)).Nodup) : IsTable (table fs) where
  distinct := by rwa [keys_table]
  named e he := by
    obtain ⟨f, -, rfl⟩ := List.mem_map.1 he
    rfl

/-- A table takes a field with a new name at its end. -/
theorem IsTable.concat {t : Table String Field} (h : IsTable t) {f : Field}
    (hf : f.name ∉ Table.keys t) : IsTable (t ++ table [f]) where
  distinct := by
    rw [Table.keys_append, keys_table]
    exact Table.nodup_concat h.distinct hf
  named e he := by
    rcases List.mem_append.1 he with he | he
    · exact h.named e he
    · rw [List.mem_singleton.1 he]

/-- Of fields that share a name the table holds the last one. -/
theorem isTable_ofList {fs : List Field} : IsTable (Table.ofList (table fs)) where
  distinct := Table.nodup_keys_ofList
  named e he := by
    rcases Table.mem_merge he with he | he
    · cases he
    · obtain ⟨f, -, rfl⟩ := List.mem_map.1 he
      rfl

theorem get?_ofList_table {fs : List Field} {name : String} :
    Table.get? (Table.ofList (table fs)) name = fs.reverse.find? (·.name == name) := by
  rw [Table.get?_ofList_eq_reverse, table, ← List.map_reverse, ← table, get?_table]

/-- A table of fields is made up by its values. -/
theorem IsTable.table_values {t : Table String Field} (h : IsTable t) :
    table (Table.values t) = t := by
  rw [table, Table.values, List.map_map]
  refine (List.map_congr_left fun e he => ?_).trans (List.map_id t)
  exact Prod.ext (h.named e he).symm rfl

theorem IsTable.ofList_values {t : Table String Field} (h : IsTable t) :
    Table.ofList ((Table.values t).map fun f => (f.name, f)) = t :=
  (congrArg Table.ofList h.table_values).trans (Table.ofList_eq_self h.distinct)

end Field

/-! ## Writes -/

namespace FieldStore

/-- A definition appends the field to its own table. -/
theorem declared_define {s s' : FieldStore} {owner o : String} {f : Field} {layer l : Layer}
    (h : s.define owner f layer = .ok s') :
    s'.declared o l =
      if (owner, layer) = (o, l) then s.declared owner layer ++ Field.table [f]
      else s.declared o l := by
  unfold define at h
  split at h
  · cases h
  · dsimp only at h
    split at h
    · cases h
    · cases h
      simp only [declared, Table.get?_insert]
      split <;> rfl

theorem frozen_define {s s' : FieldStore} {owner : String} {f : Field} {layer : Layer}
    (h : s.define owner f layer = .ok s') : s'.frozen = false := by
  unfold define at h
  split at h
  · cases h
  · next hf =>
    dsimp only at h
    split at h
    · cases h
    · cases h
      simpa using hf

/-- While the store is open, a field is refused only for its name. -/
theorem define_of_open {s : FieldStore} (h : s.frozen = false) (owner : String) (f : Field)
    (layer : Layer) :
    (f.name ∈ Table.keys (s.declared owner layer) ∧
      s.define owner f layer = .error (.duplicateField owner f.name layer)) ∨
    (f.name ∉ Table.keys (s.declared owner layer) ∧ ∃ s', s.define owner f layer = .ok s') := by
  unfold define
  rw [h, if_neg Bool.false_ne_true]
  by_cases hc : Table.contains (s.declared owner layer) f.name = true
  · exact .inl ⟨Table.contains_iff_mem_keys.1 hc, if_pos hc⟩
  · exact .inr ⟨fun hm => hc (Table.contains_iff_mem_keys.2 hm), _, if_neg hc⟩

/-- An open store takes the composed fields of an owner. -/
theorem setEffective_of_open {s : FieldStore} (h : s.frozen = false) (owner : String)
    (fs : List Field) :
    ∃ s', s.setEffective owner fs = .ok s' ∧ s'.frozen = false ∧
      ∀ o l, s'.declared o l =
        if (owner, Layer.effective) = (o, l) then Table.ofList (Field.table fs)
        else s.declared o l := by
  refine ⟨_, if_neg (by rw [h]; exact Bool.false_ne_true), h, fun o l => ?_⟩
  simp only [declared, Table.get?_insert]
  split <;> rfl

end FieldStore

end GraphSchema
