import GraphSchema.GlobalId
import GraphSchema.Proofs.Encoding.Base64
import GraphSchema.Proofs.Encoding.Utf8
import GraphSchema.Proofs.Name

/-!
# Global IDs round trip

A global ID is parted at the first separator. It gives back the name of the type and the identifier
exactly if the name is not empty and the separator does not start inside it. Whatever text is given
as an ID is refused, or decoded to parts whose ID is decoded to them again.

## Main definitions

* `GlobalId.Unambiguous` — a separator that starts nowhere inside a name.

## Main statements

* `GlobalId.splitFirst_eq_some_iff` — where a text is parted.
* `GlobalId.decode_encode_iff` — when a global ID is decoded to what it was made from.
* `GlobalId.encode_inj` — unambiguous global IDs differ if they are made from different parts.
* `GlobalId.decode_encode_display_iff` — when the ID of a value tells its type and the value.
* `GlobalId.decode_exact` — which texts are decoded, and what the ID of the parts is.
-/

namespace GraphSchema.GlobalId

/-- Whether a name is not empty, and a separator after it starts nowhere inside it. -/
def Unambiguous (separator typeName : String) : Prop :=
  typeName ≠ "" ∧ ∀ i < typeName.toList.length,
    ¬ separator.toList <+: (typeName.toList ++ separator.toList).drop i

instance {separator typeName : String} : Decidable (Unambiguous separator typeName) :=
  inferInstanceAs (Decidable (_ ∧ _))

/-! ## Parting -/

section Parting

variable {separator text before after typeName objectId : List Char}

/-- A text is parted at the first place where the separator starts. -/
theorem splitFirst_eq_some_iff (hs : separator ≠ []) :
    splitFirst separator text = some (before, after) ↔
      text = before ++ separator ++ after ∧
        ∀ i < before.length, ¬ separator <+: text.drop i := by
  induction text generalizing before with
  | nil => simp [splitFirst, hs]
  | cons c cs ih =>
    unfold splitFirst
    split
    · next hp =>
      have hp : separator <+: c :: cs := List.isPrefixOf_iff_prefix.1 hp
      constructor
      · rintro ⟨⟩
        refine ⟨?_, by simp⟩
        simpa using (List.prefix_iff_eq_append.1 hp).symm
      · rintro ⟨htext, hfirst⟩
        cases before with
        | cons b before => exact absurd hp (hfirst 0 (by simp))
        | nil => simp [htext]
    · next hp =>
      have hp : ¬ separator <+: c :: cs := mt List.isPrefixOf_iff_prefix.2 hp
      constructor
      · intro h
        obtain ⟨⟨b, a⟩, hsplit, heq⟩ := Option.map_eq_some_iff.1 h
        obtain ⟨rfl, rfl⟩ := Prod.mk.inj heq
        obtain ⟨htext, hfirst⟩ := ih.1 hsplit
        refine ⟨by simp [htext], fun i hi => ?_⟩
        cases i with
        | zero => exact hp
        | succ i => simpa using hfirst i (by simpa using hi)
      · rintro ⟨htext, hfirst⟩
        cases before with
        | nil => exact absurd ⟨after, by simpa using htext.symm⟩ hp
        | cons b before =>
          obtain ⟨rfl, hcs⟩ := List.cons.inj htext
          have hsplit := ih.2 ⟨hcs, fun i hi => hfirst (i + 1) (by simpa using hi)⟩
          rw [hsplit]
          rfl

/-- A separator that starts inside a name does so no matter what comes after. -/
theorem prefix_drop_iff {i : Nat} (hi : i < typeName.length) :
    separator <+: (typeName ++ separator ++ objectId).drop i ↔
      separator <+: (typeName ++ separator).drop i := by
  rw [List.drop_append_of_le_length (by simp; omega)]
  constructor
  · intro h
    exact List.prefix_of_prefix_length_le h (List.prefix_append _ _) (by simp; omega)
  · exact fun h => h.trans (List.prefix_append _ _)

/-- A separator inside a text parts it. -/
theorem exists_splitFirst (hs : separator ≠ []) (h : separator <:+: text) :
    ∃ before after, splitFirst separator text = some (before, after) := by
  induction text with
  | nil => exact absurd (List.infix_nil.1 h) hs
  | cons c cs ih =>
    unfold splitFirst
    split
    · exact ⟨_, _, rfl⟩
    · next hp =>
      have hp : ¬ separator <+: c :: cs := mt List.isPrefixOf_iff_prefix.2 hp
      obtain ⟨before, after, hsplit⟩ := ih ((List.infix_cons_iff.1 h).resolve_left hp)
      exact ⟨c :: before, after, by rw [hsplit]; rfl⟩

end Parting

/-! ## Decoding -/

variable {typeName typeName' objectId objectId' separator : String}

/-- The text behind a global ID. -/
theorem decodeText_encode :
    decodeText (encode typeName objectId separator) =
      .ok (typeName.toList ++ separator.toList ++ objectId.toList) := by
  have hascii : (Base64.encode (Utf8.encode (typeName ++ separator ++ objectId).toList)).all
      (fun c => decide (c.toNat < 0x80)) = true := by
    simpa using Base64.ascii_encode _
  rw [decodeText, encode, String.toList_ofList, if_pos hascii, Base64.decode_encode]
  simp only [Utf8.decode_encode, String.toList_append]

/-- A text is decoded to the parts that it is parted into, unless the first is empty. -/
theorem decode_eq_ok_iff {input : String} {text : List Char} (hs : separator ≠ "")
    (htext : decodeText input = .ok text) :
    decode input separator = .ok (typeName, objectId) ↔
      typeName ≠ "" ∧
        splitFirst separator.toList text = some (typeName.toList, objectId.toList) := by
  have hof {cs : List Char} {t : String} : String.ofList cs = t ↔ cs = t.toList := by
    rw [← String.toList_inj, String.toList_ofList]
  simp only [decode, htext, bind, Except.bind, if_neg hs]
  rcases splitFirst separator.toList text with _ | ⟨_ | ⟨c, before⟩, after⟩
  · simp [throw, throwThe, MonadExceptOf.throw]
  · have hnil : typeName ≠ "" → ¬ [] = typeName.toList := fun h he => h (by simpa using he.symm)
    simp only [throw, throwThe, MonadExceptOf.throw, reduceCtorEq, false_iff, not_and,
      Option.some.injEq, Prod.mk.injEq]
    exact fun h he => absurd he (hnil h)
  · simp only [pure, Except.pure, Except.ok.injEq, Prod.mk.injEq, hof, Option.some.injEq]
    constructor
    · rintro ⟨hname, hid⟩
      refine ⟨fun he => ?_, hname, hid⟩
      simp [he] at hname
    · exact fun h => h.2

/-- A global ID is decoded to the type name and the identifier that it was made from exactly if the
separator is unambiguous. -/
theorem decode_encode_iff (hs : separator ≠ "") :
    decode (encode typeName objectId separator) separator = .ok (typeName, objectId) ↔
      Unambiguous separator typeName := by
  have hne : separator.toList ≠ [] := by simpa using hs
  rw [decode_eq_ok_iff hs decodeText_encode, splitFirst_eq_some_iff hne, Unambiguous]
  refine and_congr_right fun _ => ?_
  rw [and_iff_right rfl]
  exact forall₂_congr fun i hi => not_congr (prefix_drop_iff hi)

/-- Unambiguous global IDs that are equal are made from the same parts. -/
theorem encode_inj (hs : separator ≠ "") (h : Unambiguous separator typeName)
    (h' : Unambiguous separator typeName') :
    encode typeName objectId separator = encode typeName' objectId' separator ↔
      typeName = typeName' ∧ objectId = objectId' := by
  constructor
  · intro heq
    have hdecode : decode (encode typeName objectId separator) separator =
        .ok (typeName, objectId) := (decode_encode_iff hs).2 h
    rw [heq, (decode_encode_iff hs).2 h'] at hdecode
    simpa [eq_comm] using hdecode
  · rintro ⟨rfl, rfl⟩
    rfl

/-- A separator whose first character stands in no name starts inside no name. -/
theorem unambiguous_of_isName (hname : Name.isName typeName.toList = true)
    (hs : ∃ c ∈ separator.toList.head?, Name.isContinue c = false) :
    Unambiguous separator typeName := by
  obtain ⟨c, hhead, hc⟩ := hs
  refine ⟨?_, fun i hi hstart => ?_⟩
  · rintro rfl
    cases hname
  · -- the separator would start with a character of the name
    obtain ⟨rest, hrest⟩ : ∃ rest, separator.toList = c :: rest := List.head?_eq_some_iff.1 hhead
    have hdrop : (typeName.toList ++ separator.toList).drop i =
        typeName.toList[i] :: (typeName.toList ++ separator.toList).drop (i + 1) := by
      rw [List.drop_eq_getElem_cons (by simp; omega), List.getElem_append_left hi]
    rw [hdrop, hrest, List.cons_prefix_cons] at hstart
    have hcontinue := Name.isContinue_of_isName hname c (hstart.1 ▸ List.getElem_mem hi)
    rw [hc] at hcontinue
    cases hcontinue

/-- A value is identified under a type name exactly if the separator is unambiguous after the name,
whatever the value is. After a proper name it is if it starts with a character of no name. -/
theorem decode_encode_display_iff (hs : separator ≠ "") (typeName : String) (x : Value) :
    (decode (encode typeName x.display separator) separator = .ok (typeName, x.display) ↔
      typeName ≠ "" ∧ ∀ i < typeName.toList.length,
        ¬ separator.toList <+: (typeName.toList ++ separator.toList).drop i) ∧
    (Name.isName typeName.toList = true →
      (∃ c ∈ separator.toList.head?, Name.isContinue c = false) →
        decode (encode typeName x.display separator) separator = .ok (typeName, x.display)) := by
  refine ⟨decode_encode_iff hs, fun hname hfirst => ?_⟩
  rw [decode_encode_iff hs]
  exact unambiguous_of_isName hname hfirst

/-- A separator of underscores after a name that it does not start in, and another separator after a
name that ends with an underscore; the value has the first one in it. -/
theorem underscores_decoded :
    decode (encode "User" (Value.list [.str "__id"]).display "__") "__" = .ok ("User", "['__id']") ∧
      decode (encode "User_" (Value.list [.str "__id"]).display "::") "::" =
        .ok ("User_", "['__id']") := by
  have hdisplay : (Value.list [.str "__id"]).display = "['__id']" := by decide +kernel
  have hlow : "__" ≠ "" := by decide
  have hcolons : "::" ≠ "" := by decide
  have hfirst := (decode_encode_display_iff hlow "User" (.list [.str "__id"])).1.2 (by decide)
  have hsecond := (decode_encode_display_iff hcolons "User_" (.list [.str "__id"])).2 (by decide)
    ⟨':', rfl, by decide⟩
  rw [hdisplay] at hfirst hsecond
  exact ⟨hfirst, hsecond⟩

/-! ## Whatever is given -/

section Given

variable {input : String} {text : List Char}

/-- The text behind a global ID, in terms of the octets that it is made of. -/
theorem decodeText_eq_ok_iff {octets : List UInt8} (h : input.toList = Base64.encode octets) :
    decodeText input = .ok text ↔ octets = Utf8.encode text := by
  have hascii : input.toList.all (fun c => decide (c.toNat < 0x80)) = true := by
    rw [h]
    simpa using Base64.ascii_encode octets
  rw [decodeText, if_pos hascii, h, Base64.decode_encode, ← Utf8.decode_eq_ok_iff]
  dsimp only
  cases Utf8.decode octets with
  | error refusal => simp
  | ok text' => simp

theorem category_of_decodeText {e : Error} (h : decodeText input = .error e) :
    e.category = .badValue := by
  unfold decodeText at h
  split at h
  · split at h
    · cases h
      rfl
    · split at h
      · cases h
        rfl
      · cases h
  · cases h
    rfl

/-- Decoding ends with a type name and an identifier, or with a bad value. -/
theorem exists_decode_or_badValue (input separator : String) :
    (∃ typeName objectId, decode input separator = .ok (typeName, objectId)) ∨
      ∃ e, decode input separator = .error e ∧ e.category = .badValue := by
  unfold decode
  cases htext : decodeText input with
  | error e => exact .inr ⟨e, rfl, category_of_decodeText htext⟩
  | ok text =>
    simp only [bind, Except.bind]
    split
    · exact .inr ⟨_, rfl, rfl⟩
    split
    · exact .inl ⟨_, _, rfl⟩
    · exact .inr ⟨_, rfl, rfl⟩

/-- The parts that are decoded make up the text. -/
theorem text_of_decode (hs : separator ≠ "")
    (h : decode input separator = .ok (typeName, objectId)) :
    decodeText input = .ok (typeName ++ separator ++ objectId).toList ∧
      Unambiguous separator typeName := by
  have hne : separator.toList ≠ [] := by simpa using hs
  cases htext : decodeText input with
  | error e =>
    rw [decode, htext] at h
    cases h
  | ok text =>
    obtain ⟨hname, hsplit⟩ := (decode_eq_ok_iff hs htext).1 h
    obtain ⟨rfl, hfirst⟩ := (splitFirst_eq_some_iff hne).1 hsplit
    exact ⟨by simp, hname, fun i hi => mt (prefix_drop_iff hi).2 (hfirst i hi)⟩

/-- A separator inside a text parts it, after something if it is not at the start. -/
theorem exists_decode_iff (hs : separator ≠ "") (htext : decodeText input = .ok text) :
    (∃ typeName objectId, decode input separator = .ok (typeName, objectId)) ↔
      separator.toList <:+: text ∧ ¬ separator.toList <+: text := by
  have hne : separator.toList ≠ [] := by simpa using hs
  constructor
  · rintro ⟨typeName, objectId, h⟩
    obtain ⟨hname, hsplit⟩ := (decode_eq_ok_iff hs htext).1 h
    obtain ⟨htext, hfirst⟩ := (splitFirst_eq_some_iff hne).1 hsplit
    refine ⟨⟨_, _, htext.symm⟩, hfirst 0 ?_⟩
    exact List.length_pos_iff.2 (by simpa using hname)
  · rintro ⟨hinside, hstart⟩
    obtain ⟨before, after, hsplit⟩ := exists_splitFirst hne hinside
    have hbefore : before ≠ [] := by
      rintro rfl
      exact hstart ⟨after, ((splitFirst_eq_some_iff hne).1 hsplit).1.symm⟩
    refine ⟨String.ofList before, String.ofList after, (decode_eq_ok_iff hs htext).2 ?_⟩
    simpa using ⟨hbefore, hsplit⟩

/-- The Base64 form of octets that is decoded is the ID of what it is decoded to. -/
theorem encode_of_decode {octets : List UInt8} (hs : separator ≠ "")
    (hinput : input.toList = Base64.encode octets)
    (h : decode input separator = .ok (typeName, objectId)) :
    encode typeName objectId separator = input := by
  obtain ⟨htext, -⟩ := text_of_decode hs h
  rw [encode, ← (decodeText_eq_ok_iff hinput).1 htext, ← hinput, String.ofList_toList]

/-- The Base64 form of octets is decoded exactly if they are those of a text that has the separator
inside, but not at its start. -/
theorem exists_decode_octets_iff {octets : List UInt8} (hs : separator ≠ "")
    (hinput : input.toList = Base64.encode octets) :
    (∃ typeName objectId, decode input separator = .ok (typeName, objectId)) ↔
      ∃ text : String, octets.toByteArray = text.toUTF8 ∧
        separator.toList <:+: text.toList ∧ ¬ separator.toList <+: text.toList := by
  constructor
  · intro hdecode
    obtain ⟨typeName, objectId, h⟩ := id hdecode
    obtain ⟨htext, -⟩ := text_of_decode hs h
    refine ⟨typeName ++ separator ++ objectId, ?_, (exists_decode_iff hs htext).1 hdecode⟩
    rw [(decodeText_eq_ok_iff hinput).1 htext, Utf8.toByteArray_encode]
  · rintro ⟨text, hoctets, hinside⟩
    rw [← Utf8.toByteArray_encode, List.toByteArray_inj] at hoctets
    exact (exists_decode_iff hs ((decodeText_eq_ok_iff hinput).2 hoctets)).2 hinside

/-- Decoding ends with a type name and an identifier or with a bad value. A type name that is
decoded is not empty, and the ID of what is decoded is decoded to it again; it is the ID that was
given if that is the Base64 form of any octets. Such an ID is decoded exactly if the octets are
those of a text that has the separator inside, but not at its start. -/
theorem decode_exact (hs : separator ≠ "") (input : String) :
    ((∃ typeName objectId, decode input separator = .ok (typeName, objectId)) ∨
      ∃ e, decode input separator = .error e ∧ e.category = .badValue) ∧
    (∀ typeName objectId, decode input separator = .ok (typeName, objectId) →
      typeName ≠ "" ∧
      decode (encode typeName objectId separator) separator = .ok (typeName, objectId) ∧
      ∀ octets, input.toList = Base64.encode octets →
        encode typeName objectId separator = input) ∧
    ∀ octets, input.toList = Base64.encode octets →
      ((∃ typeName objectId, decode input separator = .ok (typeName, objectId)) ↔
        ∃ text : String, octets.toByteArray = text.toUTF8 ∧
          separator.toList <:+: text.toList ∧ ¬ separator.toList <+: text.toList) := by
  refine ⟨exists_decode_or_badValue input separator, fun typeName objectId h => ?_,
    fun octets hinput => exists_decode_octets_iff hs hinput⟩
  obtain ⟨-, hunambiguous⟩ := text_of_decode hs h
  exact ⟨hunambiguous.1, (decode_encode_iff hs).2 hunambiguous,
    fun octets hinput => encode_of_decode hs hinput h⟩

/-- Of two IDs for one object, the second with a padding too many, both are decoded, and the first
is the one that the object has. -/
theorem gist_decoded :
    decode "R2lzdC0x" "-" = .ok ("Gist", "1") ∧ decode "R2lzdC0x=" "-" = .ok ("Gist", "1") ∧
      encode "Gist" "1" "-" = "R2lzdC0x" := by
  have hne : "-" ≠ "" := by decide
  have hinput : "R2lzdC0x".toList = Base64.encode "Gist-1".toUTF8.data.toList := by
    decide +kernel
  have hdecode : decode "R2lzdC0x" "-" = .ok ("Gist", "1") := rfl
  exact ⟨hdecode, rfl, ((decode_exact hne "R2lzdC0x").2.1 _ _ hdecode).2.2 _ hinput⟩

end Given

end GraphSchema.GlobalId
