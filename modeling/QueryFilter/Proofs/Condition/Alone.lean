import QueryFilter.Proofs.Condition.Members

/-! # One condition in a combination

A condition means the same alone in a combination, but a combination always asks something. Main
statement: excluding the combination and excluding the condition accept the same values exactly
when the condition asks something itself.
-/

namespace QueryFilter

theorem Connective.combine_singleton (connective : Connective) (b : Bool) :
    connective.combine [b] = b := by
  cases connective <;> simp [combine]

namespace Condition

variable {datatype : DataType} {condition operand : Json} {key : String}

def alone (connective : Connective) (condition : Json) : Json :=
  .object [(connective.key, .array [condition])]

def excluding (condition : Json) : Json := .object [("exclude", condition)]

section Alone

variable (connective : Connective)

theorem supported_alone (h : Supported datatype condition) :
    Supported datatype (alone connective condition) :=
  supported_combination connective (by simpa using h)

@[simp] theorem holds_alone (condition value : Json) :
    holds datatype value (alone connective condition) = holds datatype value condition := by
  rw [alone, holds_combination, List.map_singleton, Connective.combine_singleton]

@[simp] theorem vacuous_alone (condition : Json) :
    vacuous (alone connective condition) = false := by
  rw [alone, vacuous_object, List.all_cons, vacuousField_connective, Bool.false_and]

end Alone

theorem holds_excluding (h : Supported datatype condition) (value : Json) :
    holds datatype value (excluding condition) =
      (vacuous condition || !holds datatype value condition) := by
  obtain ⟨fields, rfl⟩ := h.exists_object
  rw [excluding, holds_exclude, holds_nil, Bool.and_true]

theorem fieldHolds_of_vacuousField (h : vacuousField key operand) (value : Json) :
    fieldHolds datatype value key operand := by
  cases operand with
  | object | array => grind [vacuousField, fieldHolds]
  | _ => exact fieldHolds_of_isIdle h _

theorem holds_of_vacuous (h : vacuous condition) (value : Json) :
    holds datatype value condition := by
  cases condition with
  | object fields =>
    rw [vacuous_object, List.all_eq_true] at h
    rw [holds_object, List.all_eq_true]
    exact fun field hf => fieldHolds_of_vacuousField (h field hf) value
  | _ => cases h

end Condition

namespace Predicate

open Condition

variable {datatype : DataType} {condition : Json} {p : Predicate}

/-- A condition that becomes a predicate does so alone in a combination and as an exclusion. The
combination accepts what the condition accepts, and its exclusion accepts all other values. The
exclusion of the condition does the same unless the condition asks nothing: then it accepts every
value, as the condition does. -/
theorem excluding_alone_agrees_iff (connective : Connective)
    (h : ofCondition datatype condition = .ok p) :
    ∃ combined excluded excludedCombined,
      ofCondition datatype (alone connective condition) = .ok combined ∧
      ofCondition datatype (excluding condition) = .ok excluded ∧
      ofCondition datatype (excluding (alone connective condition)) = .ok excludedCombined ∧
      (∀ value, combined.accepts value = p.accepts value) ∧
      (∀ value, excludedCombined.accepts value = !p.accepts value) ∧
      (∀ value, excluded.accepts value = (vacuous condition || !p.accepts value)) ∧
      ((∀ value, excludedCombined.accepts value = excluded.accepts value) ↔
        ¬vacuous condition) := by
  have hs : Supported datatype condition := exists_ofCondition_iff.mp ⟨p, h⟩
  have hsa : Supported datatype (alone connective condition) := supported_alone connective hs
  obtain ⟨combined, hc⟩ := exists_ofCondition_iff.mpr hsa
  obtain ⟨excluded, hx⟩ := exists_ofCondition_iff.mpr (supported_exclude hs)
  obtain ⟨excludedCombined, hxc⟩ := exists_ofCondition_iff.mpr (supported_exclude hsa)
  have hp (value : Json) : p.accepts value = holds datatype value condition :=
    accepts_of_ofCondition h value
  have hcombined (value : Json) : combined.accepts value = p.accepts value := by
    rw [accepts_of_ofCondition hc, holds_alone, hp]
  have hexcludedCombined (value : Json) : excludedCombined.accepts value = !p.accepts value := by
    rw [accepts_of_ofCondition hxc, ← excluding, holds_excluding hsa, vacuous_alone, holds_alone,
      hp, Bool.false_or]
  have hexcluded (value : Json) :
      excluded.accepts value = (vacuous condition || !p.accepts value) := by
    rw [accepts_of_ofCondition hx, ← excluding, holds_excluding hs, hp]
  refine ⟨combined, excluded, excludedCombined, hc, hx, hxc, hcombined, hexcludedCombined,
    hexcluded, ?_⟩
  constructor
  · intro hagree hv
    have hnull := hagree .null
    rw [hexcludedCombined, hexcluded, hv, Bool.true_or, hp, holds_of_vacuous hv] at hnull
    cases hnull
  · intro hv value
    rw [hexcludedCombined, hexcluded, Bool.eq_false_iff.mpr hv, Bool.false_or]

/-- A list of members beside a key of presentation. -/
theorem excluding_alone_agrees_iff_members :
    let condition : Json := .object [("members", .strings ["a"]), ("explicit", .bool true)]
    (∃ p, ofCondition .text condition = .ok p) ∧
      ∃ excluded excludedCombined,
        ofCondition .text (excluding condition) = .ok excluded ∧
        ofCondition .text (excluding (alone .or condition)) = .ok excludedCombined ∧
        ∀ value, excludedCombined.accepts value = excluded.accepts value := by
  intro condition
  have h : ofCondition .text condition = .ok ⟨.text, .members ["a"]⟩ := rfl
  obtain ⟨-, excluded, excludedCombined, -, hx, hxc, -, -, -, hiff⟩ :=
    excluding_alone_agrees_iff .or h
  exact ⟨⟨_, h⟩, excluded, excludedCombined, hx, hxc, hiff.mpr (by decide)⟩

/-- A selection of all members excludes nothing, and alone in a combination everything. -/
theorem excluding_alone_refuses_all :
    let condition : Json := .object [("members", .strings [])]
    ∃ p excluded excludedCombined,
      ofCondition .text condition = .ok p ∧
      ofCondition .text (excluding condition) = .ok excluded ∧
      ofCondition .text (excluding (alone .and condition)) = .ok excludedCombined ∧
      excluded.accepts (.string "a") = true ∧ excludedCombined.accepts (.string "a") = false :=
  ⟨_, _, _, rfl, rfl, rfl, rfl, rfl⟩

end Predicate

end QueryFilter
