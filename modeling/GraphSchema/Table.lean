/-!
# Tables

Finite tables that keep the order in which their keys were first added. A table is a list of
entries; the functions here keep its keys distinct.

## Main definitions

* `Table.get?`, `Table.contains` — look up a key.
* `Table.insert` — add an entry, or replace the value of a key in its place.
* `Table.insertNew` — add an entry only if its key is new.
* `Table.merge`, `Table.mergeNew`, `Table.ofList` — the same for many entries, in order.

## Main statements

* `Table.contains_iff_mem_keys` — a key has a value exactly if it is among the keys.
* `Table.get?_insert`, `Table.keys_insert` — what an insertion does to values and keys.
* `Table.get?_insertNew`, `Table.keys_insertNew` — what an insertion of a new key does.
* `Table.get?_merge`, `Table.keys_merge` — what many insertions do; `Table.get?_mergeNew`,
  `Table.keys_mergeNew` — what many insertions of new keys do.
* `Table.ofList_eq_self` — entries with distinct keys are a table as they are.
* `Table.keys_ofList`, `Table.get?_ofList_eq_reverse` — of all others each key has one entry, with
  the value that it was given last.
* `Table.find?_of_mem`, `Table.get?_filterMap` — look-up among members with distinct names.
-/

namespace GraphSchema

/-- Entries in the order in which their keys were first added. -/
abbrev Table (κ : Type) (ν : Type u) := List (κ × ν)

namespace Table

variable {κ : Type} {ν : Type u}

/-- The keys in order. -/
def keys (t : Table κ ν) : List κ := t.map (·.1)

/-- The values in order. -/
def values (t : Table κ ν) : List ν := t.map (·.2)

@[simp] theorem keys_nil : keys ([] : Table κ ν) = [] := rfl

@[simp] theorem keys_cons {t : Table κ ν} {e : κ × ν} : keys (e :: t) = e.1 :: keys t := rfl

@[simp] theorem keys_append {t u : Table κ ν} : keys (t ++ u) = keys t ++ keys u :=
  List.map_append

@[simp] theorem keys_map {t : Table κ ν} {μ : Type w} {g : ν → μ} :
    keys (t.map fun e => (e.1, g e.2)) = keys t := by
  simp [keys, Function.comp_def]

/-- Distinct keys stay distinct when a new one goes to the end. -/
theorem nodup_concat {ks : List κ} {k : κ} (h : ks.Nodup) (hk : k ∉ ks) : (ks ++ [k]).Nodup := by
  refine List.nodup_append.2 ⟨h, by simp, ?_⟩
  rintro a ha b hb rfl
  exact hk (List.mem_singleton.1 hb ▸ ha)

theorem nodup_keys_filter {t : Table κ ν} {p : κ × ν → Bool} (h : (keys t).Nodup) :
    (keys (t.filter p)).Nodup :=
  h.sublist (List.filter_sublist.map _)

theorem nodup_keys_filterMap {α : Type w} {l : List α} {name : α → κ} (h : (l.map name).Nodup)
    {g : α → Option ν} :
    (keys (l.filterMap fun a => (g a).map fun v => (name a, v))).Nodup := by
  refine h.sublist ?_
  induction l with
  | nil => exact List.Sublist.slnil
  | cons a l ih =>
    have ih := ih (List.nodup_cons.1 h).2
    cases hg : g a with
    | none => simpa [hg] using ih.cons _
    | some v => simpa [hg] using ih.cons_cons (name a)

variable [DecidableEq κ]

/-- The value of a key. -/
def get? : Table κ ν → κ → Option ν
  | [], _ => none
  | (k', v) :: t, k => if k' = k then some v else get? t k

/-- Whether the table has an entry for the key. -/
def contains (t : Table κ ν) (k : κ) : Bool := (get? t k).isSome

/-- A new key goes to the end; a known key keeps its place and takes the new value. -/
def insert : Table κ ν → κ → ν → Table κ ν
  | [], k, v => [(k, v)]
  | (k', v') :: t, k, v => if k' = k then (k', v) :: t else (k', v') :: insert t k v

/-- A new key goes to the end; a known key keeps its value. -/
def insertNew (t : Table κ ν) (k : κ) (v : ν) : Table κ ν :=
  if contains t k then t else t ++ [(k, v)]

/-- All entries of `u` inserted in order: values of `u` win. -/
def merge (t u : Table κ ν) : Table κ ν := u.foldl (fun t e => insert t e.1 e.2) t

/-- The entries of `u` with new keys added in order: values of `t` win. -/
def mergeNew (t u : Table κ ν) : Table κ ν := u.foldl (fun t e => insertNew t e.1 e.2) t

/-- The table of a list of entries: each key in the place of its first entry, with the value
of its last. -/
def ofList (entries : List (κ × ν)) : Table κ ν := merge [] entries

/-! ## Look-up -/

/-- A key has a value exactly if it is among the keys. -/
theorem contains_iff_mem_keys {t : Table κ ν} {k : κ} : contains t k = true ↔ k ∈ keys t := by
  induction t with
  | nil => simp [contains, get?]
  | cons e t ih =>
    simp only [contains, get?, keys_cons, List.mem_cons] at ih ⊢
    split
    · next h => simp [h]
    · next h => simp [ih, Ne.symm h]

theorem get?_eq_none_iff {t : Table κ ν} {k : κ} : get? t k = none ↔ k ∉ keys t := by
  rw [← contains_iff_mem_keys]
  simp [contains]

theorem mem_of_get?_eq_some {t : Table κ ν} {k : κ} {v : ν} (h : get? t k = some v) :
    (k, v) ∈ t := by
  fun_induction get? t k with
  | case1 => cases h
  | case2 v' t k =>
    cases h
    exact List.mem_cons_self
  | case3 k' v' t k hk ih => exact List.mem_cons_of_mem _ (ih h)

/-! ## Insertion -/

/-- An insertion changes the value of its key only. -/
@[simp] theorem get?_insert {t : Table κ ν} {k k' : κ} {v : ν} :
    get? (insert t k v) k' = if k = k' then some v else get? t k' := by
  fun_induction insert t k v with
  | case1 k v => simp [get?]
  | case2 k'' v' t v =>
    simp only [get?]
    split <;> rfl
  | case3 k'' v'' t k v hk ih =>
    simp only [get?, ih]
    split
    · next h => rw [if_neg (fun h' => hk (h.trans h'.symm))]
    · rfl

/-- A key that is known keeps its place, and any other goes to the end. -/
theorem keys_insert {t : Table κ ν} {k : κ} {v : ν} :
    keys (insert t k v) = if k ∈ keys t then keys t else keys t ++ [k] := by
  fun_induction insert t k v with
  | case1 k v => rfl
  | case2 v' t k v => simp
  | case3 k' v' t k v hk ih =>
    simp only [keys_cons, List.mem_cons, Ne.symm hk, false_or, ih]
    by_cases hm : k ∈ keys t
    · rw [if_pos hm, if_pos hm]
    · rw [if_neg hm, if_neg hm, List.cons_append]

theorem nodup_keys_insert {t : Table κ ν} {k : κ} {v : ν} (h : (keys t).Nodup) :
    (keys (insert t k v)).Nodup := by
  rw [keys_insert]
  split
  · exact h
  · next hk => exact nodup_concat h hk

theorem nodup_keys_merge {t u : Table κ ν} (h : (keys t).Nodup) : (keys (merge t u)).Nodup := by
  unfold merge
  induction u generalizing t with
  | nil => exact h
  | cons e u ih => exact ih (nodup_keys_insert h)

theorem nodup_keys_ofList {entries : List (κ × ν)} : (keys (ofList entries)).Nodup :=
  nodup_keys_merge List.nodup_nil

/-! ## Insertion of new keys -/

/-- An insertion of a new key changes no other value. -/
@[simp] theorem get?_insertNew {t : Table κ ν} {k k' : κ} {v : ν} :
    get? (insertNew t k v) k' = (get? t k').or (if k = k' then some v else none) := by
  unfold insertNew contains
  induction t with
  | nil => simp [get?]
  | cons e t ih =>
    obtain ⟨a, b⟩ := e
    simp only [get?]
    by_cases hk : a = k <;> by_cases hk' : a = k' <;> grind [get?]

theorem keys_insertNew {t : Table κ ν} {k : κ} {v : ν} :
    keys (insertNew t k v) = if k ∈ keys t then keys t else keys t ++ [k] := by
  unfold insertNew
  simp only [contains_iff_mem_keys]
  split
  · rfl
  · simp [keys]

/-! ## Many insertions -/

/-- The keys with a further one at the end, if it is new. -/
def addKey (ks : List κ) (k : κ) : List κ := if k ∈ ks then ks else ks ++ [k]

/-- Keys added one after the other: those that are new, each where it comes first. -/
theorem foldl_addKey {ks acc : List κ} :
    ks.foldl addKey acc = acc ++ (ks.filter fun k => k ∉ acc).eraseDups := by
  induction ks generalizing acc with
  | nil => simp
  | cons k ks ih =>
    rw [List.foldl_cons, ih, addKey]
    by_cases hk : k ∈ acc
    · simp [hk]
    · rw [if_neg hk, List.filter_cons_of_pos (by simpa using hk), List.eraseDups_cons,
        List.filter_filter, List.append_assoc, List.singleton_append]
      congr 3
      refine List.filter_congr fun x _ => ?_
      by_cases hx : x = k <;> simp [hx]

theorem foldl_addKey_nil {ks : List κ} : ks.foldl addKey [] = ks.eraseDups := by
  rw [foldl_addKey, List.nil_append, List.filter_eq_self.2 (by simp)]

/-- The keys of a table, and after them the new keys of the other. -/
theorem keys_merge {t u : Table κ ν} : keys (merge t u) = (keys u).foldl addKey (keys t) := by
  unfold merge
  induction u generalizing t with
  | nil => rfl
  | cons e u ih =>
    rw [List.foldl_cons, ih, keys_insert]
    rfl

/-- The keys of a table, and after them the new keys of the other. -/
theorem keys_mergeNew {t u : Table κ ν} :
    keys (mergeNew t u) = (keys u).foldl addKey (keys t) := by
  unfold mergeNew
  induction u generalizing t with
  | nil => rfl
  | cons e u ih =>
    rw [List.foldl_cons, ih, keys_insertNew]
    rfl

/-- Where both tables have a value, that of the first is kept. -/
theorem get?_mergeNew {t u : Table κ ν} {k : κ} :
    get? (mergeNew t u) k = (get? t k).or (get? u k) := by
  unfold mergeNew
  induction u generalizing t with
  | nil => simp [get?]
  | cons e u ih =>
    rw [List.foldl_cons, ih, get?_insertNew, get?, Option.or_assoc]
    split <;> rfl

/-- Where both tables have a value, that of the second wins. -/
theorem get?_merge {t u : Table κ ν} {k : κ} (h : (keys u).Nodup) :
    get? (merge t u) k = (get? u k).or (get? t k) := by
  unfold merge
  induction u generalizing t with
  | nil => simp [get?]
  | cons e u ih =>
    obtain ⟨hk, hu⟩ := List.nodup_cons.1 h
    rw [List.foldl_cons, ih hu, get?_insert, get?]
    split
    · next he => rw [get?_eq_none_iff.2 (he ▸ hk)]; rfl
    · rfl

theorem nodup_keys_mergeNew {t u : Table κ ν} (h : (keys t).Nodup) :
    (keys (mergeNew t u)).Nodup := by
  rw [keys_mergeNew, ← keys_merge]
  exact nodup_keys_merge h

theorem mem_insert {t : Table κ ν} {k : κ} {v : ν} {e : κ × ν} (h : e ∈ insert t k v) :
    e = (k, v) ∨ e ∈ t := by
  fun_induction insert t k v with
  | case1 k v => exact .inl (List.mem_singleton.1 h)
  | case2 v' t k v =>
    rcases List.mem_cons.1 h with h | h
    · exact .inl h
    · exact .inr (List.mem_cons_of_mem _ h)
  | case3 k' v' t k v hk ih =>
    rcases List.mem_cons.1 h with h | h
    · exact .inr (h ▸ List.mem_cons_self)
    · exact (ih h).imp_right (List.mem_cons_of_mem _)

/-- Every entry of merged tables is an entry of one of them. -/
theorem mem_merge {t u : Table κ ν} {e : κ × ν} (h : e ∈ merge t u) : e ∈ t ∨ e ∈ u := by
  unfold merge at h
  induction u generalizing t with
  | nil => exact .inl h
  | cons x u ih =>
    rcases ih h with h | h
    · rcases mem_insert h with rfl | h
      · exact .inr List.mem_cons_self
      · exact .inl h
    · exact .inr (List.mem_cons_of_mem _ h)

theorem mem_insertNew {t : Table κ ν} {k : κ} {v : ν} {e : κ × ν} (h : e ∈ insertNew t k v) :
    e = (k, v) ∨ e ∈ t := by
  unfold insertNew at h
  split at h
  · exact .inr h
  · exact (List.mem_append.1 h).symm.imp_left List.mem_singleton.1

theorem mem_mergeNew {t u : Table κ ν} {e : κ × ν} (h : e ∈ mergeNew t u) : e ∈ t ∨ e ∈ u := by
  unfold mergeNew at h
  induction u generalizing t with
  | nil => exact .inl h
  | cons x u ih =>
    rcases ih h with h | h
    · rcases mem_insertNew h with rfl | h
      · exact .inr List.mem_cons_self
      · exact .inl h
    · exact .inr (List.mem_cons_of_mem _ h)

/-! ## Many tables -/

variable {α : Type w} {f : α → Table κ ν} {acc : Table κ ν} {l : List α}

/-- Tables merged one after the other: a key has the value of the first table that has it. -/
theorem get?_foldl_mergeNew {k : κ} :
    get? (l.foldl (fun t a => mergeNew t (f a)) acc) k =
      (get? acc k).or (l.findSome? fun a => get? (f a) k) := by
  induction l generalizing acc with
  | nil => simp
  | cons a l ih =>
    rw [List.foldl_cons, ih, get?_mergeNew, List.findSome?_cons, Option.or_assoc]
    cases get? (f a) k <;> rfl

theorem keys_foldl_mergeNew :
    keys (l.foldl (fun t a => mergeNew t (f a)) acc) =
      (l.flatMap fun a => keys (f a)).foldl addKey (keys acc) := by
  induction l generalizing acc with
  | nil => rfl
  | cons a l ih => rw [List.foldl_cons, ih, keys_mergeNew, List.flatMap_cons, List.foldl_append]

theorem mem_foldl_mergeNew {e : κ × ν}
    (h : e ∈ l.foldl (fun t a => mergeNew t (f a)) acc) : e ∈ acc ∨ ∃ a ∈ l, e ∈ f a := by
  induction l generalizing acc with
  | nil => exact .inl h
  | cons a l ih =>
    rcases ih h with h | ⟨b, hb, h⟩
    · exact (mem_mergeNew h).imp_right fun h => ⟨a, List.mem_cons_self, h⟩
    · exact .inr ⟨b, List.mem_cons_of_mem _ hb, h⟩

theorem nodup_keys_foldl_mergeNew (h : (keys acc).Nodup) :
    (keys (l.foldl (fun t a => mergeNew t (f a)) acc)).Nodup := by
  induction l generalizing acc with
  | nil => exact h
  | cons a l ih => exact ih (nodup_keys_mergeNew h)

/-! ## Tables with distinct keys -/

theorem get?_append {t u : Table κ ν} {k : κ} : get? (t ++ u) k = (get? t k).or (get? u k) := by
  induction t with
  | nil => rfl
  | cons e t ih =>
    simp only [List.cons_append, get?, ih]
    split <;> rfl

/-- With distinct keys, every entry is found under its key. -/
theorem get?_eq_some_iff {t : Table κ ν} {k : κ} {v : ν} (h : (keys t).Nodup) :
    get? t k = some v ↔ (k, v) ∈ t := by
  refine ⟨mem_of_get?_eq_some, fun hm => ?_⟩
  induction t with
  | nil => cases hm
  | cons e t ih =>
    obtain ⟨he, ht⟩ := List.nodup_cons.1 h
    rcases List.mem_cons.1 hm with rfl | hm
    · simp [get?]
    · have hne : e.1 ≠ k := by
        rintro rfl
        exact he (List.mem_map.2 ⟨_, hm, rfl⟩)
      rw [get?, if_neg hne, ih ht hm]

theorem insert_of_notMem {t : Table κ ν} {k : κ} {v : ν} (h : k ∉ keys t) :
    insert t k v = t ++ [(k, v)] := by
  fun_induction insert t k v with
  | case1 k v => rfl
  | case2 v' t k v => simp at h
  | case3 k' v' t k v hk ih =>
    rw [ih fun hm => h (List.mem_cons_of_mem _ hm), List.cons_append]

/-- A key that is added and then takes another value might as well be inserted with it. -/
theorem insert_insertNew {t : Table κ ν} {k : κ} {u v : ν} :
    insert (insertNew t k u) k v = insert t k v := by
  by_cases hk : k ∈ keys t
  · rw [insertNew, if_pos (contains_iff_mem_keys.2 hk)]
  · rw [insertNew, if_neg (mt contains_iff_mem_keys.1 hk), insert_of_notMem hk]
    induction t with
    | nil => simp [insert]
    | cons e t ih => grind [insert, keys_cons]

theorem merge_of_disjoint {t u : Table κ ν} (h : (keys (t ++ u)).Nodup) : merge t u = t ++ u := by
  unfold merge
  induction u generalizing t with
  | nil => simp
  | cons e u ih =>
    have he : e.1 ∉ keys t := fun hm => by
      rw [keys_append] at h
      exact (List.nodup_append.1 h).2.2 _ hm _ (List.mem_cons_self) rfl
    rw [List.foldl_cons, insert_of_notMem he, ih (by simpa using h), List.append_assoc,
      List.singleton_append]

/-- Entries with distinct keys are a table as they are. -/
theorem ofList_eq_self {t : Table κ ν} (h : (keys t).Nodup) : ofList t = t :=
  merge_of_disjoint (t := []) h

/-! ## Tables from lists -/

theorem keys_ofList {entries : List (κ × ν)} :
    keys (ofList entries) = (keys entries).eraseDups := by
  rw [ofList, keys_merge, keys_nil, foldl_addKey_nil]

theorem mem_keys_ofList {entries : List (κ × ν)} {k : κ} :
    k ∈ keys (ofList entries) ↔ k ∈ keys entries := by
  rw [keys_ofList, List.mem_eraseDups]

/-- The last entry of a key gives its value. -/
theorem get?_ofList_eq_reverse {entries : List (κ × ν)} {k : κ} :
    get? (ofList entries) k = get? entries.reverse k := by
  suffices h : ∀ t : Table κ ν, get? (merge t entries) k = (get? entries.reverse k).or (get? t k) by
    simpa [ofList, get?] using h []
  unfold merge
  induction entries with
  | nil => simp [get?]
  | cons e entries ih =>
    intro t
    rw [List.foldl_cons, ih, get?_insert, List.reverse_cons, get?_append, Option.or_assoc]
    congr 1
    grind [get?]

/-- A key whose entries all have one value has that value. -/
theorem get?_ofList {entries : List (κ × ν)} {k : κ} {v : ν} (hk : k ∈ keys entries)
    (hv : ∀ e ∈ entries, e.1 = k → e.2 = v) : get? (ofList entries) k = some v := by
  cases hget : get? (ofList entries) k with
  | none => exact absurd (mem_keys_ofList.2 hk) (get?_eq_none_iff.1 hget)
  | some w =>
    rcases mem_merge (mem_of_get?_eq_some hget) with hmem | hmem
    · cases hmem
    · exact congrArg some (hv _ hmem rfl)

theorem get?_ofList_eq_none {entries : List (κ × ν)} {k : κ} (hk : k ∉ keys entries) :
    get? (ofList entries) k = none :=
  get?_eq_none_iff.2 (mt mem_keys_ofList.1 hk)

/-- The value under a key of a table whose values are changed one by one. -/
theorem get?_map {t : Table κ ν} {μ : Type w} {g : ν → μ} {k : κ} :
    get? (t.map fun e => (e.1, g e.2)) k = (get? t k).map g := by
  induction t with
  | nil => rfl
  | cons e t ih =>
    simp only [List.map_cons, get?, ih]
    split <;> rfl

/-- The value under a key of a table of which some keys are kept. -/
theorem get?_filter {t : Table κ ν} {p : κ → Bool} {k : κ} :
    get? (t.filter fun e => p e.1) k = if p k then get? t k else none := by
  induction t with
  | nil => simp [get?]
  | cons e t ih =>
    by_cases he : e.1 = k
    · subst he
      cases hp : p e.1 <;> simp [get?, hp, ih]
    · cases hp : p e.1 <;> simp [get?, hp, ih, he]

/-- Among members with distinct names, each is the first of its name. -/
theorem find?_of_mem {name : α → κ} (h : (l.map name).Nodup) {a : α} (ha : a ∈ l) :
    (l.find? fun b => name b == name a) = some a := by
  induction l with
  | nil => cases ha
  | cons b l ih =>
    obtain ⟨hb, hl⟩ := List.nodup_cons.1 h
    rcases List.mem_cons.1 ha with rfl | ha
    · simp
    · have hne : name b ≠ name a := fun he => hb (List.mem_map.2 ⟨a, ha, he.symm⟩)
      rw [List.find?_cons, beq_eq_false_iff_ne.2 hne]
      exact ih hl ha

/-- The value under a name in the table that some members of a list with distinct names make
up. -/
theorem get?_filterMap {name : α → κ} (h : (l.map name).Nodup)
    {g : α → Option ν} {k : κ} :
    get? (l.filterMap fun a => (g a).map fun v => (name a, v)) k =
      (l.find? fun a => name a == k).bind g := by
  induction l with
  | nil => rfl
  | cons a l ih =>
    obtain ⟨ha, hl⟩ := List.nodup_cons.1 h
    have ih := ih hl
    by_cases hk : name a = k
    · subst hk
      have hnone : (l.find? fun b => name b == name a) = none :=
        List.find?_eq_none.2 fun b hb he => ha (List.mem_map.2 ⟨b, hb, by simpa using he⟩)
      rw [hnone] at ih
      cases hg : g a <;> simp_all [get?]
    · cases hg : g a <;> simp_all [get?]

end Table

end GraphSchema
