import GraphSchema.Proofs.Arguments

/-!
# Coerced arguments

What a field is passed: of its arguments exactly those that are given or have a default, in order of
declaration. What is passed can be coerced again and comes out as it went in, unless some argument
that is not null has null for a default: null is refused where it is given, but not where it is the
default.

## Main definitions

* `Argument.passed`, `Field.passed` — what is passed for one argument, and for all.

## Main statements

* `Field.coerce_eq_ok_iff` — coercion yields what is passed, for accepted arguments.
* `Field.accepts_passed_iff` — whether what is passed is accepted again.
* `Field.coerce_bindings` — the bindings that coercion yields.
* `Field.isDeclared_of_declare` — the arguments of declared fields are declared.
-/

namespace GraphSchema

/-! ## One argument -/

namespace Argument

variable {a : Argument} {args : Arguments} {v : Option Value}

/-- What is passed for an argument: what is given, or else the default. -/
def passed (a : Argument) (args : Arguments) : Option Value :=
  (Table.get? args a.name).or a.defaultValue

theorem coerceArgument_eq_passed (h : Field.coerceArgument a args = .ok v) :
    v = a.passed args := by
  unfold Field.coerceArgument at h
  unfold passed
  cases hg : Table.get? args a.name with
  | none =>
    rw [hg] at h
    cases hdefault : a.defaultValue with
    | none =>
      simp only [hdefault] at h
      split at h
      · cases h
      · exact (Except.ok.inj h).symm
    | some w =>
      simp only [hdefault] at h
      exact (Except.ok.inj h).symm
  | some w =>
    rw [hg] at h
    cases w with
    | null =>
      dsimp only at h
      split at h
      · cases h
      · exact (Except.ok.inj h).symm
    | _ => exact (Except.ok.inj h).symm

/-- An argument that is not null is always passed, with null only by default. -/
theorem IsDeclared.exists_passed (hdeclared : a.IsDeclared) (hadmits : a.Admits args)
    (hnonNull : a.type.isNonNull = true) :
    ∃ v, a.passed args = some v ∧
      (v = .null ↔ Table.get? args a.name = none ∧ a.defaultValue = some .null) := by
  unfold passed
  cases hg : Table.get? args a.name with
  | some v =>
    refine ⟨v, rfl, fun hnull => ?_, by simp⟩
    have := hadmits.null (hnull ▸ hg)
    rw [hnonNull] at this
    cases this
  | none =>
    cases hdefault : a.defaultValue with
    | some v => exact ⟨v, rfl, by simp⟩
    | none =>
      have := hadmits.absent hg hdefault
      rw [hdeclared.required_eq, hnonNull, hdefault] at this
      cases this

end Argument

/-! ## All arguments -/

namespace Field

variable {f : Field} {a : Argument} {args r : Arguments} {type : String}

/-- What is passed for the arguments of a field, in order of declaration. -/
def passed (f : Field) (args : Arguments) : Arguments :=
  f.arguments.filterMap fun a => (a.passed args).map (a.name, ·)

/-- Arguments of new names are passed behind the others. -/
theorem coerceAll_eq_ok {arguments : List Argument} (hdistinct : (arguments.map (·.name)).Nodup) :
    ∀ {passed : Arguments}, (∀ a ∈ arguments, a.name ∉ Table.keys passed) →
      coerceAll args passed arguments = .ok r →
        r = passed ++ arguments.filterMap fun a => (a.passed args).map (a.name, ·) := by
  induction arguments with
  | nil =>
    intro passed _ h
    simpa using (Except.ok.inj h).symm
  | cons a arguments ih =>
    intro passed hnew h
    obtain ⟨ha, hdistinct⟩ := List.nodup_cons.1 hdistinct
    obtain ⟨hfresh, hnew⟩ := List.forall_mem_cons.1 hnew
    obtain ⟨v, hv, h⟩ := exists_of_bind_eq_ok h
    have hpassed := Argument.coerceArgument_eq_passed hv
    cases v with
    | none =>
      rw [List.filterMap_cons, ← hpassed]
      exact ih hdistinct hnew h
    | some v =>
      have hnew' : ∀ b ∈ arguments, b.name ∉ Table.keys (Table.insert passed a.name v) := by
        intro b hb hmem
        rw [Table.insert_of_notMem hfresh, Table.keys_append, List.mem_append] at hmem
        rcases hmem with hmem | hmem
        · exact hnew b hb hmem
        · rw [Table.keys_cons, Table.keys_nil, List.mem_singleton] at hmem
          exact ha (List.mem_map.2 ⟨b, hb, hmem⟩)
      have hr := ih hdistinct hnew' h
      rw [Table.insert_of_notMem hfresh, List.append_assoc] at hr
      rw [List.filterMap_cons, ← hpassed]
      exact hr

/-- Where the field has all that is given, coercion goes through its arguments. -/
theorem coerce_eq_coerceAll (h : ∀ name ∈ Table.keys args, (f.argument? name).isSome) :
    f.coerce type args = (coerceAll args [] f.arguments).mapError (.badArguments type f.name) := by
  have hunknown : f.unknownArguments args = [] :=
    unknownArguments_eq_nil_iff.2 fun name hname => Option.isSome_iff_exists.1 (h name hname)
  rw [coerce, hunknown]

/-- Coercion yields what is passed, if the field accepts what is given. -/
theorem coerce_eq_ok_iff (hdistinct : (f.arguments.map (·.name)).Nodup) :
    f.coerce type args = .ok r ↔ f.Accepts type args ∧ r = f.passed args := by
  have hpassed {r : Arguments} (h : f.coerce type args = .ok r) : r = f.passed args := by
    unfold coerce at h
    split at h
    · cases hall : coerceAll args [] f.arguments with
      | error fault =>
        rw [hall] at h
        cases h
      | ok r' =>
        rw [hall] at h
        obtain rfl := Except.ok.inj h
        exact coerceAll_eq_ok hdistinct (by simp) hall
    · cases h
  constructor
  · exact fun h => ⟨⟨r, h⟩, hpassed h⟩
  · rintro ⟨⟨r', hr'⟩, rfl⟩
    rw [hr', hpassed hr']

theorem get?_passed (hdistinct : (f.arguments.map (·.name)).Nodup) (ha : a ∈ f.arguments) :
    Table.get? (f.passed args) a.name = a.passed args := by
  rw [passed, Table.get?_filterMap hdistinct, Table.find?_of_mem hdistinct ha]
  rfl

/-- What is passed for what is passed is the same again. -/
theorem passed_passed (hdistinct : (f.arguments.map (·.name)).Nodup) :
    f.passed (f.passed args) = f.passed args := by
  unfold passed
  refine List.filterMap_congr fun a ha => ?_
  have hsame : a.passed (f.passed args) = a.passed args := by
    rw [Argument.passed, get?_passed hdistinct ha, Argument.passed, Option.or_assoc, Option.or_self]
  exact congrArg _ hsame

/-- What is passed is accepted again exactly if it has null only where null may stand. -/
theorem accepts_passed_iff (hdistinct : (f.arguments.map (·.name)).Nodup)
    (haccepts : f.Accepts type args) :
    f.Accepts type (f.passed args) ↔
      ∀ a ∈ f.arguments, a.type.isNonNull = true →
        Table.get? (f.passed args) a.name ≠ some .null := by
  obtain ⟨-, hadmits⟩ := accepts_iff.1 haccepts
  rw [accepts_iff]
  constructor
  · rintro ⟨-, hall⟩ a ha hnonNull hnull
    have := (hall a ha).null hnull
    rw [hnonNull] at this
    cases this
  · intro hall
    refine ⟨fun name hname => ?_, fun a ha => ⟨fun hnull => ?_, fun habsent hdefault => ?_⟩⟩
    · obtain ⟨e, he, rfl⟩ := List.mem_map.1 hname
      obtain ⟨a, ha, he⟩ := List.mem_filterMap.1 he
      obtain ⟨v, -, rfl⟩ := Option.map_eq_some_iff.1 he
      exact ⟨a, argument?_of_mem hdistinct ha⟩
    · rw [← Bool.not_eq_true]
      exact fun hnonNull => hall a ha hnonNull hnull
    · rw [get?_passed hdistinct ha, Argument.passed, Option.or_eq_none_iff] at habsent
      exact (hadmits a ha).absent habsent.1 hdefault

/-- What coercion yields: the arguments that are given or have a default, in order of declaration.
All that are not null are among them, with null only if that is the default and nothing is given.
Coercing the bindings again yields them again, unless there is such a null. -/
theorem coerce_bindings (hdeclared : ∀ a ∈ f.arguments, a.IsDeclared)
    (hdistinct : (f.arguments.map (·.name)).Nodup) (h : f.coerce type args = .ok r) :
    r = f.arguments.filterMap (fun a =>
        ((Table.get? args a.name).or a.defaultValue).map (a.name, ·)) ∧
      (∀ a ∈ f.arguments, a.type.isNonNull = true → ∃ v, Table.get? r a.name = some v ∧
        (v = .null ↔ Table.get? args a.name = none ∧ a.defaultValue = some .null)) ∧
      (f.coerce type r = .ok r ↔
        ∀ a ∈ f.arguments, a.type.isNonNull = true → Table.get? r a.name ≠ some .null) := by
  obtain ⟨haccepts, rfl⟩ := (coerce_eq_ok_iff hdistinct).1 h
  refine ⟨rfl, fun a ha hnonNull => ?_, ?_⟩
  · rw [get?_passed hdistinct ha]
    exact (hdeclared a ha).exists_passed ((accepts_iff.1 haccepts).2 a ha) hnonNull
  · rw [coerce_eq_ok_iff hdistinct, passed_passed hdistinct, and_iff_left rfl]
    exact accepts_passed_iff hdistinct haccepts

/-! ## Declared fields -/

theorem isDeclared_connectionArguments : ∀ a ∈ connectionArguments, a.IsDeclared := by
  have hisDeclared (name type : String) (description : Option String) :
      Argument.IsDeclared { name, type := .named type, description } :=
    ⟨name, .ref (.named type), false, none, description, rfl⟩
  simp [connectionArguments, hisDeclared]

/-- The arguments of a declared field are declared, those of a connection among them. -/
theorem isDeclared_of_declare {name : String} {spec : Spec} {o : Options}
    (h : declare name spec o = .ok f) (ho : ∀ a ∈ o.arguments, a.IsDeclared) :
    ∀ a ∈ f.arguments, a.IsDeclared := by
  obtain ⟨ref, -, h⟩ := exists_of_bind_eq_ok h
  obtain rfl := Except.ok.inj h
  intro a ha
  dsimp only at ha
  split at ha
  · rcases List.mem_append.1 ha with ha | ha
    · exact ho a ha
    · exact isDeclared_connectionArguments a (List.mem_filter.1 ha).1
  · exact ho a ha

/-- The field of a connection with two more arguments: how many items are listed, ten unless told
otherwise, and the one to start from. -/
def listing : Field where
  name := "items"
  type := .list (.named "Item")
  arguments := addConnectionArguments [
    { name := "size", type := .nonNull (.named "Int"), defaultValue := some (.int 10) },
    { name := "start", type := .nonNull (.named "ID"), required := true }]
  connection := true

theorem isDeclared_listing : ∀ a ∈ listing.arguments, a.IsDeclared := by
  have hdeclare : declare "items" (.ref (.list (.named "Item")))
      { arguments := listing.arguments.take 2, connection := true } = .ok listing := rfl
  refine isDeclared_of_declare hdeclare ?_
  have hsize : listing.arguments[0].IsDeclared :=
    ⟨"size", .ref (.nonNull (.named "Int")), false, some (.int 10), none, rfl⟩
  have hstart : listing.arguments[1].IsDeclared :=
    ⟨"start", .ref (.named "ID"), true, none, none, rfl⟩
  exact List.forall_mem_cons.2 ⟨hsize, List.forall_mem_singleton.2 hstart⟩

/-- The default comes first, null may be given for an argument of the connection, and the bindings
come out again as they are. -/
theorem listing_bindings :
    (∀ a ∈ listing.arguments, a.IsDeclared) ∧ (listing.arguments.map (·.name)).Nodup ∧
      ∃ r, listing.coerce "Query" [("last", .null), ("start", .str "a")] = .ok r ∧
        r = [("size", .int 10), ("start", .str "a"), ("last", .null)] ∧
        listing.coerce "Query" r = .ok r := by
  have hdistinct : (listing.arguments.map (·.name)).Nodup := by decide
  have hr : listing.coerce "Query" [("last", .null), ("start", .str "a")] =
      .ok [("size", .int 10), ("start", .str "a"), ("last", .null)] := by
    rw [coerce_eq_coerceAll (by decide)]
    rfl
  refine ⟨isDeclared_listing, hdistinct, _, hr, rfl, ?_⟩
  rw [(coerce_bindings isDeclared_listing hdistinct hr).2.2]
  simp [listing, addConnectionArguments, connectionArguments, TypeRef.isNonNull, Table.get?]

/-- Null is passed for an argument that is not null if it is the default, and what is passed is
refused when it is given. -/
theorem null_by_default :
    ∃ a f, Argument.declare "first" (.ref (.nonNull (.named "Int"))) false (some .null) none =
        .ok a ∧
      declare "items" (.ref (.named "Int")) { arguments := [a] } = .ok f ∧
      (f.arguments.map (·.name)).Nodup ∧ a.type.isNonNull = true ∧
      f.coerce "Query" [] = .ok [("first", .null)] ∧
      f.coerce "Query" [("first", .null)] =
        .error (.badArguments "Query" "items" (.null "first")) := by
  refine ⟨_, _, rfl, rfl, by decide, rfl, ?_, ?_⟩
  · rw [coerce_eq_coerceAll (by decide)]
    rfl
  · rw [coerce_eq_coerceAll (by decide)]
    rfl

end Field

end GraphSchema
