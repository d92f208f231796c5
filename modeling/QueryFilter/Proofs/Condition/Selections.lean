import QueryFilter.Proofs.Condition.Core
import QueryFilter.Proofs.Condition.Meaning
import QueryFilter.Proofs.Json.Equality

/-! # Conditions that select members

A condition that lists members, excludes some, or does both. It is supported for every data type,
and holds of the values that are listed, if any are, and not excluded.
-/

namespace QueryFilter.Condition

open Json (Fields)
open Reading (excludedFields)

variable {datatype : DataType} {fields : Fields} {others : List String} {value : Json}

/-- The fields list members as texts and numbers, or stand under one of the other keys. -/
structure Listing (others : List String) (fields : Fields) : Prop where
  key : ∀ field ∈ fields, field.1 = "members" ∨ field.1 ∈ others
  items : ∀ value, fields.get? "members" = some value →
    ∃ items, value = .array items ∧ ∀ item ∈ items, item.asOperandText?.isSome

/-- The condition lists members or excludes some, and says nothing else of values. -/
structure Selection (fields : Fields) : Prop
    extends Listing ["exclude", "explicit", "multiSelection"] fields where
  excludes : ∀ value, fields.get? "exclude" = some value →
    ∃ inner, value = .object inner ∧ Listing ["turnedOff"] inner

/-- The texts that are listed; none without a list. -/
def listed (fields : Fields) : List String := (listedTexts? fields).getD []

/-- Excluded members are switched off. -/
def switchesOff (fields : Fields) : Bool :=
  ((excludedFields fields).flag? "turnedOff").getD false

section Listings

theorem listed_eq {names : List String} (h : listedTexts? fields = some names) :
    listed fields = names := by
  rw [listed, h, Option.getD_some]

theorem listed_eq_nil (h : listedTexts? fields = none) : listed fields = [] := by
  rw [listed, h, Option.getD_none]

theorem listing_cons {items : List Json} {rest : Fields}
    (hi : ∀ item ∈ items, item.asOperandText?.isSome) (hr : ∀ field ∈ rest, field.1 ∈ others) :
    Listing others (("members", .array items) :: rest) where
  key := List.forall_mem_cons.mpr ⟨.inl rfl, fun field hf => .inr (hr field hf)⟩
  items _ hv := ⟨items, (Option.some.inj ((Fields.get?_cons_self ..).symm.trans hv)).symm, hi⟩

theorem Listing.get?_eq_none (h : Listing others fields) {key : String} (hm : key ≠ "members")
    (ho : key ∉ others) : fields.get? key = none := by
  rw [Fields.get?_eq_none_iff]
  rintro field hf rfl
  exact (h.key field hf).elim hm ho

theorem Listing.listedMembers_eq (h : Listing others fields) :
    Reading.listedMembers fields = .ok (listedTexts? fields) := by
  cases hg : fields.get? "members" with
  | none => rw [listedTexts?, hg, Reading.listedMembers_eq_ok_none_iff.mpr hg, Option.bind_none]
  | some value =>
    obtain ⟨items, rfl, hs⟩ := h.items value hg
    rw [listedTexts?, hg, Reading.listedMembers_eq_ok_some_iff.mpr
      ⟨_, hg, Reading.memberList_eq_ok_iff.mpr ⟨items, rfl, hs, rfl⟩⟩]
    rfl

/-- Of fields with distinct keys, only those under the given keys matter if all others pass. -/
theorem all_fields_eq {p : String → Json → Bool} {keys : List String} (hd : fields.keys.Nodup)
    (h : ∀ field ∈ fields, field.1 ∈ keys ∨ p field.1 field.2) :
    (fields.all fun field => p field.1 field.2) =
      keys.all fun key => (fields.get? key).all (p key) := by
  rw [Bool.eq_iff_iff, List.all_eq_true, List.all_eq_true]
  simp only [Option.all_eq_true]
  constructor
  · intro hp key _ x hx
    exact hp (key, x) (Fields.mem_of_get? hx)
  · intro hp field hf
    rcases h field hf with hk | hk
    · exact hp field.1 hk field.2 (Fields.get?_of_mem hd hf)
    · exact hk

theorem Listing.all_vacuousField (h : Listing others fields) :
    (fields.get? "members").all (vacuousField "members") = (listed fields).isEmpty := by
  cases hg : fields.get? "members" with
  | none => simp [listed, listedTexts?, hg]
  | some value =>
    obtain ⟨items, rfl, hs⟩ := h.items value hg
    rw [Option.all_some, vacuousField_members, listed, listedTexts?, hg]
    exact (isEmpty_filterMap_asOperandText? hs).symm

theorem Listing.all_fieldHolds (h : Listing others fields) (value : Json) :
    (fields.get? "members").all (fieldHolds datatype value "members") =
      ((listed fields).isEmpty || isMember datatype (listed fields) value) := by
  cases hg : fields.get? "members" with
  | none => simp [listed, listedTexts?, hg]
  | some found =>
    obtain ⟨items, rfl, hs⟩ := h.items found hg
    rw [Option.all_some, fieldHolds_members, listed, listedTexts?, hg]
    exact congrArg (· || _) (isEmpty_filterMap_asOperandText? hs).symm

theorem Listing.supportedField (h : Listing others fields)
    (hg : fields.get? "members" = some value) : SupportedField datatype "members" value := by
  obtain ⟨items, rfl, hs⟩ := h.items value hg
  exact .members hs

variable {inner : Fields}

theorem Listing.supported (h : Listing ["turnedOff"] inner) (hd : inner.keys.Nodup) :
    Supported datatype (.object inner) := by
  refine .object fun ⟨key, operand⟩ hf => ?_
  rcases h.key _ hf with rfl | hk
  · exact h.supportedField (Fields.get?_of_mem hd hf)
  · obtain rfl := List.mem_singleton.mp hk
    exact .presentation (show "turnedOff" ∈ presentationKeys by decide)

theorem Listing.vacuous_eq (h : Listing ["turnedOff"] inner) (hd : inner.keys.Nodup) :
    vacuous (.object inner) = (listed inner).isEmpty := by
  have hk : ∀ field ∈ inner, field.1 ∈ ["members"] ∨ vacuousField field.1 field.2 := by
    intro field hf
    rcases h.key field hf with hk | hk
    · exact .inl (by simp [hk])
    · obtain he := List.mem_singleton.mp hk
      exact .inr (vacuousField_of_isIdle (by rw [he]; decide) _)
  rw [vacuous_object, all_fields_eq hd hk, List.all_cons, List.all_nil, Bool.and_true,
    h.all_vacuousField]

theorem Listing.holds_eq (h : Listing ["turnedOff"] inner) (hd : inner.keys.Nodup)
    (value : Json) :
    holds datatype value (.object inner) =
      ((listed inner).isEmpty || isMember datatype (listed inner) value) := by
  have hk : ∀ field ∈ inner,
      field.1 ∈ ["members"] ∨ fieldHolds datatype value field.1 field.2 := by
    intro field hf
    rcases h.key field hf with hk | hk
    · exact .inl (by simp [hk])
    · obtain he := List.mem_singleton.mp hk
      exact .inr (fieldHolds_of_isIdle (by rw [he]; decide) _)
  rw [holds_object, all_fields_eq hd hk, List.all_cons, List.all_nil, Bool.and_true,
    h.all_fieldHolds]

end Listings

section Selections

theorem Selection.listing_excludedFields (h : Selection fields) :
    Listing ["turnedOff"] (excludedFields fields) := by
  cases hg : fields.get? "exclude" with
  | none =>
    rw [excludedFields, hg]
    exact ⟨by simp, by simp⟩
  | some value =>
    obtain ⟨inner, rfl, hi⟩ := h.excludes value hg
    rwa [excludedFields, hg]

theorem Selection.supported (h : Selection fields) (hd : (Json.object fields).Distinct) :
    Supported datatype (.object fields) := by
  obtain ⟨hn, hv⟩ := Json.distinct_object_iff.mp hd
  refine .object fun ⟨key, operand⟩ hf => ?_
  have hg := Fields.get?_of_mem hn hf
  rcases h.key _ hf with rfl | hk
  · exact h.supportedField hg
  · simp only [List.mem_cons, List.not_mem_nil, or_false] at hk
    rcases hk with rfl | rfl | rfl
    · obtain ⟨inner, rfl, hi⟩ := h.excludes operand hg
      exact .exclude (hi.supported (Json.distinct_object_iff.mp (hv _ hf)).1)
    · exact .presentation (show "explicit" ∈ presentationKeys by decide)
    · exact .presentation (show "multiSelection" ∈ presentationKeys by decide)

theorem Selection.all_fieldHolds_exclude (h : Selection fields)
    (hd : (Json.object fields).Distinct) (value : Json) :
    (fields.get? "exclude").all (fieldHolds datatype value "exclude") =
      ((listed (excludedFields fields)).isEmpty ||
        !isMember datatype (listed (excludedFields fields)) value) := by
  cases hg : fields.get? "exclude" with
  | none =>
    rw [excludedFields, hg]
    rfl
  | some found =>
    obtain ⟨inner, rfl, hi⟩ := h.excludes found hg
    have hn := (Json.distinct_object_iff.mp (hd.get? hg)).1
    rw [excludedFields, hg, Option.all_some, fieldHolds_exclude, hi.vacuous_eq hn, hi.holds_eq hn]
    change _ = ((listed inner).isEmpty || !isMember datatype (listed inner) value)
    cases (listed inner).isEmpty <;> simp

theorem Selection.holds_eq (h : Selection fields) (hd : (Json.object fields).Distinct)
    (value : Json) :
    holds datatype value (.object fields) =
      (((listed fields).isEmpty || isMember datatype (listed fields) value) &&
        ((listed (excludedFields fields)).isEmpty ||
          !isMember datatype (listed (excludedFields fields)) value)) := by
  have hk : ∀ field ∈ fields,
      field.1 ∈ ["members", "exclude"] ∨ fieldHolds datatype value field.1 field.2 := by
    intro field hf
    rcases h.key field hf with hk | hk
    · exact .inl (by simp [hk])
    · simp only [List.mem_cons, List.not_mem_nil, or_false] at hk
      rcases hk with hk | hk | hk
      · exact .inl (by simp [hk])
      · exact .inr (fieldHolds_of_isIdle (by rw [hk]; decide) _)
      · exact .inr (fieldHolds_of_isIdle (by rw [hk]; decide) _)
  rw [holds_object, all_fields_eq (Json.distinct_object_iff.mp hd).1 hk, List.all_cons,
    List.all_cons, List.all_nil, Bool.and_true, h.all_fieldHolds, h.all_fieldHolds_exclude hd]

end Selections

end QueryFilter.Condition
