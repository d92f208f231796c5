import QueryFilter.Proofs.Condition.Members

/-! # Conditions that ask something throughout

An object that asks nothing holds of every value, and so does an empty conjunction. Main statement:
a condition for numbers in which neither occurs refuses every value that is not a number.
-/

namespace QueryFilter.Condition

open Json (Fields)

/-- A field that asks something of a value, if its operand is of the right shape: a comparison, a
list of members that is not empty, or a combination. -/
inductive Asks : String → Json → Prop
  | comparison (c : Comparison) (operand : Json) : Asks c.key operand
  | members {items : List Json} : items ≠ [] → Asks "members" (.array items)
  | combination (connective : Connective) (operand : Json) : Asks connective.key operand

/-- Each object of the condition asks something, and no conjunction is empty. What such an object
excludes does not matter: it can only be false of more values. -/
inductive AsksThroughout : Json → Prop
  | object {fields : Fields} :
      (∃ field ∈ fields, Asks field.1 field.2) →
      (∀ items, (Connective.and.key, Json.array items) ∈ fields → items ≠ []) →
      (∀ (connective : Connective) items, (connective.key, Json.array items) ∈ fields →
        ∀ item ∈ items, AsksThroughout item) →
      AsksThroughout (.object fields)

section AsksThroughout

theorem asksThroughout_field {key : String} {operand : Json} (h : Asks key operand)
    (hk : ∀ connective : Connective, key ≠ connective.key) :
    AsksThroughout (.object [(key, operand)]) := by
  refine .object ⟨_, List.mem_cons_self, h⟩ ?_ ?_
  · intro items hf
    exact absurd (congrArg Prod.fst (List.mem_singleton.mp hf)).symm (hk .and)
  · intro connective items hf
    exact absurd (congrArg Prod.fst (List.mem_singleton.mp hf)).symm (hk connective)

theorem asksThroughout_combination (connective : Connective) {items : List Json}
    (hn : items ≠ []) (hi : ∀ item ∈ items, AsksThroughout item) :
    AsksThroughout (.object [(connective.key, .array items)]) := by
  refine .object ⟨_, List.mem_cons_self, .combination connective _⟩ ?_ ?_
  · intro others hf
    cases congrArg Prod.snd (List.mem_singleton.mp hf)
    exact hn
  · intro other others hf
    cases congrArg Prod.snd (List.mem_singleton.mp hf)
    exact hi

end AsksThroughout

variable {value : Json}

section NotNumber

variable {key : String} {operand : Json} {items : List Json}

/-- No operator accepts what is not a number, `doesntEqual` included. -/
theorem comparisonHolds_eq_false_of_not_number (hv : value.asNumber? = none) (key : String)
    (operand : Json) : comparisonHolds .numeric value key operand = false := by
  cases hk : Comparison.ofKey? key <;> cases hx : operand.asNumber? <;>
    simp [comparisonHolds, hk, hx, Comparison.acceptsNumber_eq_false hv]

theorem isMember_eq_false_of_not_number (hv : value.asNumber? = none) (names : List String) :
    isMember .numeric names value = false := by
  simp [isMember, hv]

theorem combine_eq_false (connective : Connective) {values : List Bool}
    (hv : ∀ b ∈ values, b = false) (hn : connective = .and → values ≠ []) :
    connective.combine values = false := by
  cases connective with
  | and =>
    obtain ⟨b, hb⟩ := List.exists_mem_of_ne_nil values (hn rfl)
    exact List.all_eq_false.mpr ⟨b, hb, by simp [hv b hb]⟩
  | or => exact List.any_eq_false.mpr fun b hb => by simp [hv b hb]

theorem fieldHolds_eq_false_of_asks (hv : value.asNumber? = none)
    (hs : SupportedField .numeric key operand) (ha : Asks key operand)
    (hn : ∀ items, key = Connective.and.key → operand = .array items → items ≠ [])
    (hi : ∀ (connective : Connective) items, key = connective.key → operand = .array items →
      ∀ item ∈ items, holds .numeric value item = false) :
    fieldHolds .numeric value key operand = false := by
  cases ha with
  | comparison c =>
    rw [(hs.compares (comparisonKey_not_reserved c)).fieldHolds_eq]
    exact comparisonHolds_eq_false_of_not_number hv _ _
  | members hne =>
    rw [fieldHolds_members, isMember_eq_false_of_not_number hv, Bool.or_false]
    exact List.isEmpty_eq_false_iff.mpr hne
  | combination connective =>
    obtain ⟨items, rfl, -⟩ := hs.exists_items rfl
    rw [fieldHolds_connective]
    apply combine_eq_false
    · intro b hb
      obtain ⟨item, hm, rfl⟩ := List.mem_map.mp hb
      exact hi connective items rfl rfl item hm
    · rintro rfl
      exact mt List.map_eq_nil_iff.mp (hn items rfl rfl)

end NotNumber

/-- By induction on the condition: one of its fields asks something, and is false. -/
theorem AsksThroughout.holds_eq_false {condition : Json} (h : AsksThroughout condition)
    (hs : Supported .numeric condition) (hv : value.asNumber? = none) :
    holds .numeric value condition = false := by
  induction h with
  | @object fields ha hn _ ih =>
    obtain ⟨hs⟩ := hs
    obtain ⟨⟨key, operand⟩, hf, ha⟩ := ha
    rw [holds_object, List.all_eq_false]
    refine ⟨(key, operand), hf, ?_⟩
    rw [Bool.not_eq_true]
    apply fieldHolds_eq_false_of_asks hv (hs _ hf) ha
    · rintro items rfl rfl
      exact hn items hf
    · rintro connective items rfl rfl item hi
      exact ih connective items hf item hi ((hs _ hf).items rfl item hi)

end QueryFilter.Condition

namespace QueryFilter.Predicate

open Condition

/-- A condition for numbers that asks something throughout refuses every value that is not a number,
whatever it combines. -/
theorem asking_throughout_refuses_all_but_numbers {condition value : Json} {p : Predicate}
    (h : ofCondition .numeric condition = .ok p) (ha : AsksThroughout condition)
    (hv : value.asNumber? = none) : p.accepts value = false := by
  rw [accepts_of_ofCondition h]
  exact ha.holds_eq_false (exists_ofCondition_iff.mp ⟨p, h⟩) hv

/-- Members, or different from one number and nothing else: the text of an infinity is neither. -/
theorem asking_throughout_refuses_infinity :
    let one : Json := .number (.integer ⟨1, by decide, by decide⟩)
    let members : Json := .object [("members", .strings ["1"])]
    let different : Json := .object [("doesntEqual", one)]
    let condition : Json :=
      .object [("or", .array [members, .object [("and", .array [different])]])]
    let value : Json := .string "inf"
    AsksThroughout condition ∧ value.asNumber? = none ∧
      ∃ p, ofCondition .numeric condition = .ok p ∧ p.accepts value = false := by
  intro one members different condition value
  have hv : value.asNumber? = none := by decide +kernel
  have hone : one.asNumber? = some ⟨false, 0x3FF0000000000000, by decide⟩ := by decide +kernel
  have hm : AsksThroughout members :=
    asksThroughout_field (.members (by decide)) (by rintro ⟨⟩ <;> decide)
  have hd : AsksThroughout different :=
    asksThroughout_field (.comparison .doesntEqual one) (by rintro ⟨⟩ <;> decide)
  have hand : AsksThroughout (.object [("and", .array [different])]) :=
    asksThroughout_combination .and (by simp) (by simpa using hd)
  have ha : AsksThroughout condition :=
    asksThroughout_combination .or (by simp) (by simpa using ⟨hm, hand⟩)
  have hsd : Supported .numeric different :=
    .object (by simpa using .comparison (.number .doesntEqual hone))
  have hsand : Supported .numeric (.object [("and", .array [different])]) :=
    supported_combination .and (by simpa using hsd)
  have hs : Supported .numeric condition :=
    supported_combination .or (by simpa using ⟨supported_members ["1"], hsand⟩)
  obtain ⟨p, hp⟩ := exists_ofCondition_iff.mpr hs
  exact ⟨ha, hv, p, hp, asking_throughout_refuses_all_but_numbers hp ha hv⟩

end QueryFilter.Predicate
