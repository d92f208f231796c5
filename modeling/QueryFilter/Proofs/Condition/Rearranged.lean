import QueryFilter.Proofs.Condition.Members
import QueryFilter.Proofs.Json.Rearranged

/-! # Conditions in another order

All keys of a condition must hold, the items of a combination are met all or some, and members are
a set. So the order of keys and items says nothing, at any depth. Main statement: both conditions
are refused, or both become predicates that accept the same values.
-/

namespace QueryFilter.Condition

open Json (Fields)

variable {datatype : DataType} {x y z : Json}

section Supported

variable {key : String} {fields : Fields} {items : List Json}

theorem supported_object_iff :
    Supported datatype (.object fields) ↔
      ∀ field ∈ fields, SupportedField datatype field.1 field.2 := by
  constructor
  · rintro ⟨h⟩
    exact h
  · exact .object

theorem supportedField_object_iff :
    SupportedField datatype key (.object fields) ↔
      isIdle key ∨ key = "exclude" ∧ Supported datatype (.object fields) := by
  rw [isIdle_iff]
  constructor
  · intro h
    cases h with
    | presentation h => exact .inl (.inl h)
    | all => exact .inl (.inr rfl)
    | exclude h => exact .inr ⟨rfl, h⟩
    | comparison h => rcases h.operand_cases with ⟨s, hs⟩ | ⟨n, hn⟩ <;> contradiction
  · rintro ((h | rfl) | ⟨rfl, h⟩)
    · exact .presentation h
    · exact .all
    · exact .exclude h

theorem supportedField_array_iff :
    SupportedField datatype key (.array items) ↔
      isIdle key ∨ (key = "members" ∧ ∀ item ∈ items, item.asOperandText?.isSome) ∨
        (∃ connective : Connective, key = connective.key) ∧
          ∀ item ∈ items, Supported datatype item := by
  rw [isIdle_iff]
  constructor
  · intro h
    cases h with
    | presentation h => exact .inl (.inl h)
    | all => exact .inl (.inr rfl)
    | members h => exact .inr (.inl ⟨rfl, h⟩)
    | exclude h => cases h
    | combination h => exact .inr (.inr ⟨⟨_, rfl⟩, h⟩)
    | comparison h => rcases h.operand_cases with ⟨s, hs⟩ | ⟨n, hn⟩ <;> contradiction
  · rintro ((h | rfl) | ⟨rfl, h⟩ | ⟨⟨connective, rfl⟩, h⟩)
    · exact .presentation h
    · exact .all
    · exact .members h
    · exact .combination h

end Supported

/-- The values say the same wherever they stand in a condition: as a member, as a condition, and as
the operand of any key. -/
structure Alike (datatype : DataType) (x y : Json) : Prop where
  operandText_eq : x.asOperandText? = y.asOperandText?
  supported_iff : Supported datatype x ↔ Supported datatype y
  holds_eq : ∀ value, holds datatype value x = holds datatype value y
  supportedField_iff : ∀ key, SupportedField datatype key x ↔ SupportedField datatype key y
  vacuousField_eq : ∀ key, vacuousField key x = vacuousField key y
  fieldHolds_eq : ∀ key value, fieldHolds datatype value key x = fieldHolds datatype value key y

namespace Alike

theorem refl (x : Json) : Alike datatype x x :=
  ⟨rfl, .rfl, fun _ => rfl, fun _ => .rfl, fun _ => rfl, fun _ _ => rfl⟩

theorem trans (h : Alike datatype x y) (h' : Alike datatype y z) : Alike datatype x z where
  operandText_eq := h.operandText_eq.trans h'.operandText_eq
  supported_iff := h.supported_iff.trans h'.supported_iff
  holds_eq value := (h.holds_eq value).trans (h'.holds_eq value)
  supportedField_iff key := (h.supportedField_iff key).trans (h'.supportedField_iff key)
  vacuousField_eq key := (h.vacuousField_eq key).trans (h'.vacuousField_eq key)
  fieldHolds_eq key value := (h.fieldHolds_eq key value).trans (h'.fieldHolds_eq key value)

theorem object {xs ys : Fields}
    (hs : Supported datatype (.object xs) ↔ Supported datatype (.object ys))
    (hv : vacuous (.object xs) = vacuous (.object ys))
    (hh : ∀ value, holds datatype value (.object xs) = holds datatype value (.object ys)) :
    Alike datatype (.object xs) (.object ys) where
  operandText_eq := rfl
  supported_iff := hs
  holds_eq := hh
  supportedField_iff key := by
    rw [supportedField_object_iff, supportedField_object_iff, hs]
  vacuousField_eq key := by
    rw [vacuous, vacuous] at hv
    rw [vacuousField, vacuousField, hv]
  fieldHolds_eq key value := by
    have hh := hh value
    rw [vacuous, vacuous] at hv
    rw [holds, holds] at hh
    rw [fieldHolds, fieldHolds, hv, hh]

section Items

variable {xs ys : List Json}

theorem array (he : xs.isEmpty = ys.isEmpty)
    (hn : (∀ x ∈ xs, x.asOperandText?.isSome) ↔ ∀ y ∈ ys, y.asOperandText?.isSome)
    (hm : ∀ name, name ∈ xs.filterMap Json.asOperandText? ↔
      name ∈ ys.filterMap Json.asOperandText?)
    (hs : (∀ x ∈ xs, Supported datatype x) ↔ ∀ y ∈ ys, Supported datatype y)
    (hall : ∀ value, xs.all (holds datatype value) = ys.all (holds datatype value))
    (hany : ∀ value, xs.any (holds datatype value) = ys.any (holds datatype value)) :
    Alike datatype (.array xs) (.array ys) where
  operandText_eq := rfl
  supported_iff := by constructor <;> rintro ⟨⟩
  holds_eq _ := rfl
  supportedField_iff key := by
    rw [supportedField_array_iff, supportedField_array_iff, hn, hs]
  vacuousField_eq key := by rw [vacuousField, vacuousField, he]
  fieldHolds_eq key value := by
    rw [fieldHolds, fieldHolds, he, isMember_congr hm, allHold_eq_all, allHold_eq_all, hall,
      anyHolds_eq_any, anyHolds_eq_any, hany]

theorem items (h : xs.Perm ys) : Alike datatype (.array xs) (.array ys) := by
  refine array ?_ ?_ (fun name => (h.filterMap _).mem_iff) ?_ (fun value => h.all_eq)
    fun value => h.any_eq
  · rw [Bool.eq_iff_iff, List.isEmpty_iff, List.isEmpty_iff]
    exact ⟨fun he => (he ▸ h).nil_eq.symm, fun he => (he ▸ h).eq_nil⟩
  · exact forall_congr' fun item => imp_congr_left h.mem_iff
  · exact forall_congr' fun item => imp_congr_left h.mem_iff

theorem item (before after : List Json) (h : Alike datatype x y) :
    Alike datatype (.array (before ++ x :: after)) (.array (before ++ y :: after)) := by
  refine array ?_ ?_ (fun name => ?_) ?_ (fun value => ?_) fun value => ?_
  · cases before <;> rfl
  · simp only [List.forall_mem_append, List.forall_mem_cons, h.operandText_eq]
  · simp only [List.filterMap_append, List.filterMap_cons, h.operandText_eq]
  · simp only [List.forall_mem_append, List.forall_mem_cons, h.supported_iff]
  · simp only [List.all_append, List.all_cons, h.holds_eq]
  · simp only [List.any_append, List.any_cons, h.holds_eq]

end Items

section Fields

variable {xs ys : Fields}

theorem keys (h : xs.Perm ys) : Alike datatype (.object xs) (.object ys) := by
  refine object ?_ ?_ fun value => ?_
  · rw [supported_object_iff, supported_object_iff]
    exact forall_congr' fun field => imp_congr_left h.mem_iff
  · rw [vacuous_object, vacuous_object, h.all_eq]
  · rw [holds_object, holds_object, h.all_eq]

theorem field (before after : Fields) (key : String) (h : Alike datatype x y) :
    Alike datatype (.object (before ++ (key, x) :: after))
      (.object (before ++ (key, y) :: after)) := by
  refine object ?_ ?_ fun value => ?_
  · simp only [supported_object_iff, List.forall_mem_append, List.forall_mem_cons,
      h.supportedField_iff]
  · simp only [vacuous_object, List.all_append, List.all_cons, h.vacuousField_eq]
  · simp only [holds_object, List.all_append, List.all_cons, h.fieldHolds_eq]

end Fields

end Alike

theorem alike_of_rearranged (h : x.Rearranged y) (datatype : DataType) : Alike datatype x y := by
  induction h with
  | refl x => exact .refl x
  | trans _ _ ih ih' => exact ih.trans ih'
  | keys h => exact .keys h
  | items h => exact .items h
  | field before key after _ ih => exact .field before after key ih
  | item before after _ ih => exact .item before after ih

end QueryFilter.Condition

namespace QueryFilter.Predicate

open Condition

variable {datatype : DataType} {x y : Json}

theorem agree_of_alike (h : Alike datatype x y) {p q : Predicate}
    (hp : ofCondition datatype x = .ok p) (hq : ofCondition datatype y = .ok q) (value : Json) :
    p.accepts value = q.accepts value := by
  rw [accepts_of_ofCondition hp, accepts_of_ofCondition hq, h.holds_eq]

theorem exists_ofCondition_iff_of_alike (h : Alike datatype x y) :
    (∃ p, ofCondition datatype x = .ok p) ↔ ∃ q, ofCondition datatype y = .ok q := by
  rw [exists_ofCondition_iff, exists_ofCondition_iff, h.supported_iff]

theorem alike_of_reordered (h : x.Reordered y) (datatype : DataType) :
    ((∃ p, ofCondition datatype x = .ok p) ↔ ∃ q, ofCondition datatype y = .ok q) ∧
      ∀ p q, ofCondition datatype x = .ok p → ofCondition datatype y = .ok q →
        ∀ value, p.accepts value = q.accepts value := by
  have ha := Condition.alike_of_rearranged h.rearranged datatype
  exact ⟨exists_ofCondition_iff_of_alike ha, fun p q => agree_of_alike ha⟩

/-- Two conditions that differ in the order of keys, of the items of combinations and of members,
at any depth, are both refused, or both become predicates, and these accept the same values. -/
theorem ofCondition_of_rearranged (h : x.Rearranged y) (datatype : DataType) :
    (∃ cause cause', ofCondition datatype x = .error cause ∧
        ofCondition datatype y = .error cause') ∨
      ∃ p q, ofCondition datatype x = .ok p ∧ ofCondition datatype y = .ok q ∧
        ∀ value, p.accepts value = q.accepts value := by
  have ha := Condition.alike_of_rearranged h datatype
  have he := exists_ofCondition_iff_of_alike ha
  cases hp : ofCondition datatype x with
  | ok p =>
    obtain ⟨q, hq⟩ := he.mp ⟨p, hp⟩
    exact .inr ⟨p, q, rfl, hq, agree_of_alike ha hp hq⟩
  | error cause =>
    cases hq : ofCondition datatype y with
    | ok q =>
      obtain ⟨p, hp'⟩ := he.mpr ⟨q, hq⟩
      rw [hp] at hp'
      cases hp'
    | error cause' => exact .inl ⟨cause, cause', rfl, rfl⟩

/-- A combination with its items exchanged, and within one of them the members. -/
theorem ofCondition_of_rearranged_nested :
    let names (x y : String) : Json := .object [("members", .array [.string x, .string y])]
    let other : Json := .object [("contains", .string "c")]
    let x : Json := .object [("turnedOff", .bool true), ("or", .array [names "a" "b", other])]
    let y : Json := .object [("or", .array [other, names "b" "a"]), ("turnedOff", .bool true)]
    x.Rearranged y ∧ ∃ p q, ofCondition .text x = .ok p ∧ ofCondition .text y = .ok q ∧
      ∀ value, p.accepts value = q.accepts value := by
  intro names other x y
  have hn : (names "a" "b").Rearranged (names "b" "a") :=
    .field [] "members" [] (.items (.swap _ _ _))
  have hi : (Json.array [names "a" "b", other]).Rearranged (.array [other, names "b" "a"]) :=
    (Json.Rearranged.item [] [other] hn).trans (.items (.swap _ _ _))
  have h : x.Rearranged y :=
    (Json.Rearranged.field [("turnedOff", .bool true)] "or" [] hi).trans (.keys (.swap _ _ _))
  refine ⟨h, (ofCondition_of_rearranged h .text).resolve_left ?_⟩
  rintro ⟨cause, -, hc, -⟩
  cases hc

end QueryFilter.Predicate
