import QueryFilter.Filter.Condition
import QueryFilter.Proofs.Condition.Core
import QueryFilter.Proofs.Condition.Meaning
import QueryFilter.Proofs.Lists

/-! # Conditions about members

What a list of members and an exclusion say of values, and what the condition of a members filter
says, whichever way it is written.
-/

namespace QueryFilter

/-- Whether a list of members selects the value. Inactive members are not selected, and count as a
list if there is no other; a list of exclusions has none. -/
def Settings.selectsMember (settings : Settings) (datatype : DataType) (names : List String)
    (value : Json) : Bool :=
  if settings.excludeMembers then names.isEmpty || !isMember datatype names value
  else
    (names.isEmpty && settings.deactivated.isEmpty || isMember datatype names value) &&
      !isMember datatype settings.deactivated value

namespace Condition

open Json (Fields)

variable {datatype : DataType} {names others : List String} {settings : Settings}

section Membership

theorem isMember_congr (h : ∀ name, name ∈ names ↔ name ∈ others) (value : Json) :
    isMember datatype names value = isMember datatype others value := by
  have ha (p : String → Bool) : names.any p = others.any p := by
    rw [Bool.eq_iff_iff, List.any_eq_true, List.any_eq_true]
    simp only [h]
  cases datatype with
  | text =>
    have hc : ∀ text, names.contains text = others.contains text := fun text => by
      rw [Bool.eq_iff_iff, List.contains_iff_mem, List.contains_iff_mem, h]
    simp only [isMember, hc]
  | numeric => simp only [isMember, ha]
  | datetime => cases value <;> simp only [isMember, ha]

theorem isMember_append (names others : List String) (value : Json) :
    isMember datatype (names ++ others) value =
      (isMember datatype names value || isMember datatype others value) := by
  cases datatype with
  | text => cases h : value.asText? <;> simp [isMember, h]
  | numeric => cases h : value.asNumber? <;> simp [isMember, h]
  | datetime => cases value <;> simp [isMember]

theorem isMember_null (names : List String) : isMember datatype names .null = false := by
  cases datatype <;> rfl

end Membership

section Lists

theorem filterMap_strings (names : List String) :
    (names.map Json.string).filterMap Json.asOperandText? = names := by
  induction names with
  | nil => rfl
  | cons name names ih => simpa [Json.asOperandText?] using ih

theorem holds_membersField (names : List String) (value : Json) :
    fieldHolds datatype value (membersField names).1 (membersField names).2 =
      (names.isEmpty || isMember datatype names value) := by
  rw [membersField, Json.strings, fieldHolds_members, filterMap_strings]
  cases names <;> rfl

theorem supported_membersField (names : List String) :
    SupportedField datatype (membersField names).1 (membersField names).2 := by
  apply SupportedField.members
  intro item hi
  obtain ⟨name, -, rfl⟩ := List.mem_map.mp hi
  rfl

theorem supported_members (names : List String) :
    Supported datatype (.object [membersField names]) :=
  .object (by simpa using supported_membersField names)

theorem vacuous_members (names : List String) (rest : Fields) :
    vacuous (.object (membersField names :: rest)) =
      (names.isEmpty && vacuous (.object rest)) := by
  rw [vacuous_object, vacuous_object, List.all_cons]
  cases names <;> rfl

theorem vacuous_members_eq_false (hn : names ≠ []) {rest : Fields} :
    vacuous (.object (membersField names :: rest)) = false := by
  rw [vacuous_members, List.isEmpty_eq_false_iff.mpr hn, Bool.false_and]

theorem holds_members (names : List String) (rest : Fields) (value : Json) :
    holds datatype value (.object (membersField names :: rest)) =
      ((names.isEmpty || isMember datatype names value) &&
        holds datatype value (.object rest)) := by
  rw [holds_object, holds_object, List.all_cons, holds_membersField]

theorem holds_exclude (inner rest : Fields) (value : Json) :
    holds datatype value (.object (("exclude", .object inner) :: rest)) =
      ((vacuous (.object inner) || !holds datatype value (.object inner)) &&
        holds datatype value (.object rest)) := by
  rw [holds_object, List.all_cons, fieldHolds_exclude, holds_object rest]

theorem holds_nil (value : Json) : holds datatype value (.object []) = true := rfl

theorem holds_flag (b : Bool) (value : Json) :
    holds datatype value (.object [("turnedOff", .bool b)]) = true := rfl

theorem holds_listed_members (names : List String) (value : Json) :
    holds datatype value (.object [membersField names]) =
      (names.isEmpty || isMember datatype names value) := by
  rw [holds_members, holds_nil, Bool.and_true]

end Lists

section Written

theorem supported_exclude {inner : Json} (h : Supported datatype inner) :
    Supported datatype (.object [("exclude", inner)]) :=
  .object (by simpa using .exclude h)

theorem supported_switchedOff (names : List String) :
    Supported datatype (.object [membersField names, ("turnedOff", .bool true)]) := by
  refine .object (List.forall_mem_cons.mpr ⟨supported_membersField names, ?_⟩)
  simpa using .presentation (by decide)

theorem ofMembers_cases (names : List String) (settings : Settings) :
    (settings.excludeMembers = true ∧
      ofMembers names settings = [("exclude", .object [membersField names])]) ∨
    (settings.excludeMembers = false ∧ settings.deactivated = [] ∧
      ofMembers names settings = [membersField names]) ∨
    (settings.excludeMembers = false ∧ settings.deactivated ≠ [] ∧
      ofMembers names settings =
        [membersField (names ++ settings.deactivated), ("exclude",
          .object [membersField settings.deactivated, ("turnedOff", .bool true)])]) := by
  cases hx : settings.excludeMembers with
  | true => exact .inl ⟨rfl, by simp [ofMembers, hx, membersField]⟩
  | false =>
    by_cases hd : settings.deactivated = []
    · exact .inr (.inl ⟨rfl, hd, by simp [ofMembers, hx, hd, membersField]⟩)
    · exact .inr (.inr ⟨rfl, hd, by simp [ofMembers, hx, hd, membersField]⟩)

theorem supported_ofMembers (names : List String) (settings : Settings) :
    Supported datatype (.object (ofMembers names settings)) := by
  rcases ofMembers_cases names settings with ⟨-, he⟩ | ⟨-, -, he⟩ | ⟨-, -, he⟩
  · exact he ▸ supported_exclude (supported_members names)
  · exact he ▸ supported_members names
  · rw [he]
    refine .object (List.forall_mem_cons.mpr ⟨supported_membersField _, ?_⟩)
    simpa using .exclude (supported_switchedOff settings.deactivated)

theorem vacuous_ofMembers (names : List String) (settings : Settings) :
    vacuous (.object (ofMembers names settings)) =
      (names.isEmpty && (settings.excludeMembers || settings.deactivated.isEmpty)) := by
  rcases ofMembers_cases names settings with ⟨hx, he⟩ | ⟨hx, hd, he⟩ | ⟨hx, hd, he⟩
  · rw [he, hx, vacuous_object, List.all_cons, vacuousField_exclude, vacuous_members]
    cases names <;> rfl
  · rw [he, hx, hd, vacuous_members]
    cases names <;> rfl
  · rw [he, hx, vacuous_members_eq_false (List.append_ne_nil_of_right_ne_nil _ hd),
      List.isEmpty_eq_false_iff.mpr hd, Bool.or_self, Bool.and_false]

theorem holds_ofMembers (names : List String) (settings : Settings) (value : Json) :
    holds datatype value (.object (ofMembers names settings)) =
      settings.selectsMember datatype names value := by
  rcases ofMembers_cases names settings with ⟨hx, he⟩ | ⟨hx, hd, he⟩ | ⟨hx, hd, he⟩
  · rw [he, Settings.selectsMember, if_pos hx, holds_exclude, vacuous_members, holds_members,
      holds_nil]
    cases names <;> simp [vacuous, vacuousFields]
  · rw [he, Settings.selectsMember, hx, hd, holds_members, holds_nil, isMember_nil]
    simp
  · -- A value that is listed and not switched off is one of the active members.
    have hs : settings.deactivated.isEmpty = false := List.isEmpty_eq_false_iff.mpr hd
    have hl : (names ++ settings.deactivated).isEmpty = false :=
      List.isEmpty_eq_false_iff.mpr (List.append_ne_nil_of_right_ne_nil _ hd)
    rw [he, Settings.selectsMember, hx, holds_members, holds_exclude, vacuous_members_eq_false hd,
      holds_members, holds_flag, holds_nil, hs, hl, isMember_append]
    cases isMember datatype names value <;> cases isMember datatype settings.deactivated value <;>
      simp

/-- The members that are made inactive count once each, which does not change what is selected. -/
theorem holds_ofMembers_withDeactivated (hx : settings.excludeMembers = false)
    (names excluded : List String) (value : Json) :
    holds datatype value (.object (ofMembers names (settings.withDeactivated excluded))) =
      ((names.isEmpty && excluded.isEmpty || isMember datatype names value) &&
        !isMember datatype excluded value) := by
  have hx : (settings.withDeactivated excluded).excludeMembers = false := hx
  have hm : isMember datatype (firstOccurrences excluded) value =
      isMember datatype excluded value := isMember_congr (fun name => mem_firstOccurrences) value
  rw [holds_ofMembers, Settings.selectsMember, hx, Settings.withDeactivated, hm,
    isEmpty_firstOccurrences]
  rfl

end Written

end Condition

end QueryFilter
