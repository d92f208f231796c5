import QueryFilter.Condition.Rule
import QueryFilter.Proofs.Json.Parts
import QueryFilter.Proofs.Outcome

/-! # The meaning of conditions

Which conditions are supported for a data type, and of which values a condition holds, both said on
the condition itself. Compiling a condition succeeds exactly for the supported ones, and the rule
accepts exactly the values of which the condition holds.
-/

namespace QueryFilter

/-- Whether all of the truth values, or some of them, are true. -/
def Connective.combine : Connective → List Bool → Bool
  | .and, values => values.all id
  | .or, values => values.any id

end QueryFilter

namespace QueryFilter.Condition

/-- The key and its operand compare values of the data type. -/
inductive Compares : DataType → String → Json → Prop
  | text (operator : TextOperator) {operand : Json} {text : String} :
      operand.asOperandText? = some text → Compares .text operator.key operand
  | number (operator : Comparison) {operand : Json} {x : Binary64} :
      operand.asNumber? = some x → Compares .numeric operator.key operand
  | date (operator : Comparison) {operand : Json} {x : Instant} :
      operand.asInstant? = some x → Compares .datetime operator.key operand

mutual

/-- A condition that values of the data type can be tested against. -/
inductive Supported (datatype : DataType) : Json → Prop
  | object {fields : Json.Fields} :
      (∀ field ∈ fields, SupportedField datatype field.1 field.2) →
      Supported datatype (.object fields)

inductive SupportedField (datatype : DataType) : String → Json → Prop
  | presentation {key : String} {operand : Json} : key ∈ presentationKeys →
      SupportedField datatype key operand
  | all {operand : Json} : SupportedField datatype "all" operand
  | members {items : List Json} : (∀ item ∈ items, item.asOperandText?.isSome) →
      SupportedField datatype "members" (.array items)
  | exclude {condition : Json} : Supported datatype condition →
      SupportedField datatype "exclude" condition
  | combination {connective : Connective} {items : List Json} :
      (∀ item ∈ items, Supported datatype item) →
      SupportedField datatype connective.key (.array items)
  | comparison {key : String} {operand : Json} : Compares datatype key operand →
      SupportedField datatype key operand

end

/-- The key says nothing about values, whatever its operand. -/
def isIdle (key : String) : Bool := presentationKeys.contains key || key == "all"

mutual

/-- The condition asks nothing: all of its fields are idle, list no members, or exclude a condition
that itself asks nothing. -/
def vacuous : Json → Bool
  | .object fields => vacuousFields fields
  | _ => false

def vacuousFields : Json.Fields → Bool
  | [] => true
  | (key, operand) :: fields => vacuousField key operand && vacuousFields fields

def vacuousField (key : String) : Json → Bool
  | .object fields => isIdle key || key == "exclude" && vacuousFields fields
  | .array items => isIdle key || key == "members" && items.isEmpty
  | _ => isIdle key

end

def comparisonHolds (datatype : DataType) (value : Json) (key : String) (operand : Json) : Bool :=
  match datatype with
  | .text => (TextOperator.ofKey? key).any fun operator =>
      operand.asOperandText?.any fun text => operator.accepts text value
  | .numeric => (Comparison.ofKey? key).any fun operator =>
      operand.asNumber?.any fun x => operator.acceptsNumber x value
  | .datetime => (Comparison.ofKey? key).any fun operator =>
      operand.asInstant?.any fun x => operator.acceptsInstant x value

mutual

/-- Whether the condition holds of the value: every field does. -/
def holds (datatype : DataType) (value : Json) : Json → Bool
  | .object fields => fieldsHold datatype value fields
  | _ => false

def fieldsHold (datatype : DataType) (value : Json) : Json.Fields → Bool
  | [] => true
  | (key, operand) :: fields =>
    fieldHolds datatype value key operand && fieldsHold datatype value fields

/-- Whether a field holds of the value. An exclusion that asks nothing holds of every value. -/
def fieldHolds (datatype : DataType) (value : Json) (key : String) : Json → Bool
  | .object fields => isIdle key ||
      key == "exclude" && (vacuousFields fields || !fieldsHold datatype value fields)
  | .array items => isIdle key ||
      key == "members" &&
        (items.isEmpty || isMember datatype (items.filterMap Json.asOperandText?) value) ||
      key == Connective.and.key && allHold datatype value items ||
      key == Connective.or.key && anyHolds datatype value items
  | operand => isIdle key || comparisonHolds datatype value key operand

def allHold (datatype : DataType) (value : Json) : List Json → Bool
  | [] => true
  | item :: items => holds datatype value item && allHold datatype value items

def anyHolds (datatype : DataType) (value : Json) : List Json → Bool
  | [] => false
  | item :: items => holds datatype value item || anyHolds datatype value items

end

variable {datatype : DataType} {value : Json}

theorem vacuousFields_eq_all (fields : Json.Fields) :
    vacuousFields fields = fields.all fun field => vacuousField field.1 field.2 := by
  induction fields with
  | nil => rfl
  | cons field fields ih => rw [vacuousFields, List.all_cons, ih]

theorem fieldsHold_eq_all (fields : Json.Fields) :
    fieldsHold datatype value fields =
      fields.all fun field => fieldHolds datatype value field.1 field.2 := by
  induction fields with
  | nil => rfl
  | cons field fields ih => rw [fieldsHold, List.all_cons, ih]

theorem allHold_eq_all (items : List Json) :
    allHold datatype value items = items.all (holds datatype value) := by
  induction items with
  | nil => rfl
  | cons item items ih => rw [allHold, List.all_cons, ih]

theorem anyHolds_eq_any (items : List Json) :
    anyHolds datatype value items = items.any (holds datatype value) := by
  induction items with
  | nil => rfl
  | cons item items ih => rw [anyHolds, List.any_cons, ih]

theorem holds_object (fields : Json.Fields) :
    holds datatype value (.object fields) =
      fields.all fun field => fieldHolds datatype value field.1 field.2 := by
  rw [holds, fieldsHold_eq_all]

theorem vacuous_object (fields : Json.Fields) :
    vacuous (.object fields) = fields.all fun field => vacuousField field.1 field.2 := by
  rw [vacuous, vacuousFields_eq_all]

section Fields

variable {key : String}

theorem isIdle_iff : isIdle key ↔ key ∈ presentationKeys ∨ key = "all" := by
  simp [isIdle]

theorem vacuousField_of_isIdle (h : isIdle key) (operand : Json) : vacuousField key operand := by
  cases operand <;> simp [vacuousField, h]

theorem fieldHolds_of_isIdle (h : isIdle key) (operand : Json) :
    fieldHolds datatype value key operand := by
  cases operand <;> simp [fieldHolds, h]

theorem supportedField_of_isIdle (h : isIdle key) (operand : Json) :
    SupportedField datatype key operand := by
  rcases isIdle_iff.mp h with h | rfl
  · exact .presentation h
  · exact .all

theorem vacuousField_members (items : List Json) :
    vacuousField "members" (.array items) = items.isEmpty := rfl

theorem fieldHolds_members (items : List Json) :
    fieldHolds datatype value "members" (.array items) =
      (items.isEmpty || isMember datatype (items.filterMap Json.asOperandText?) value) := by
  simp [fieldHolds, isIdle, presentationKeys, Connective.key]

theorem vacuousField_exclude (condition : Json) :
    vacuousField "exclude" condition = vacuous condition := by
  cases condition <;> rfl

theorem fieldHolds_exclude (fields : Json.Fields) :
    fieldHolds datatype value "exclude" (.object fields) =
      (vacuous (.object fields) || !holds datatype value (.object fields)) := rfl

theorem vacuousField_connective (connective : Connective) (items : List Json) :
    vacuousField connective.key (.array items) = false := by
  cases connective <;> rfl

theorem fieldHolds_and (items : List Json) :
    fieldHolds datatype value Connective.and.key (.array items) =
      items.all (holds datatype value) := by
  simp [fieldHolds, isIdle, presentationKeys, Connective.key, allHold_eq_all]

theorem fieldHolds_or (items : List Json) :
    fieldHolds datatype value Connective.or.key (.array items) =
      items.any (holds datatype value) := by
  simp [fieldHolds, isIdle, presentationKeys, Connective.key, anyHolds_eq_any]

theorem fieldHolds_connective (connective : Connective) (items : List Json) :
    fieldHolds datatype value connective.key (.array items) =
      connective.combine (items.map (holds datatype value)) := by
  cases connective with
  | and => rw [fieldHolds_and, Connective.combine, List.all_map]; rfl
  | or => rw [fieldHolds_or, Connective.combine, List.any_map]; rfl

theorem supported_combination (connective : Connective) {items : List Json}
    (h : ∀ item ∈ items, Supported datatype item) :
    Supported datatype (.object [(connective.key, .array items)]) :=
  .object (by simpa using .combination h)

theorem holds_combination (connective : Connective) (items : List Json) :
    holds datatype value (.object [(connective.key, .array items)]) =
      connective.combine (items.map (holds datatype value)) := by
  rw [holds_object, List.all_cons, List.all_nil, Bool.and_true, fieldHolds_connective]

end Fields

section Comparisons

variable {key : String} {operand : Json}

/-- The keys that no comparison operator has. -/
def reservedKeys : List String :=
  presentationKeys ++ ["all", "members", "exclude", Connective.and.key, Connective.or.key]

theorem textKey_not_reserved (operator : TextOperator) : operator.key ∉ reservedKeys := by
  obtain ⟨test, negated⟩ := operator
  cases test <;> cases negated <;> decide

theorem comparisonKey_not_reserved (operator : Comparison) : operator.key ∉ reservedKeys := by
  cases operator <;> decide

theorem connectiveKey_reserved (connective : Connective) : connective.key ∈ reservedKeys := by
  cases connective <;> decide

theorem Compares.key_not_reserved (h : Compares datatype key operand) : key ∉ reservedKeys := by
  cases h with
  | text operator => exact textKey_not_reserved operator
  | number operator | date operator => exact comparisonKey_not_reserved operator

theorem Compares.isIdle_eq_false (h : Compares datatype key operand) : isIdle key = false := by
  have := h.key_not_reserved
  rw [Bool.eq_false_iff, ne_eq, isIdle_iff]
  rintro (hp | rfl)
  · exact this (List.mem_append_left _ hp)
  · exact this (by decide)

theorem Compares.operand_cases (h : Compares datatype key operand) :
    (∃ s, operand = .string s) ∨ ∃ n, operand = .number n := by
  cases h with
  | text operator h | number operator h | date operator h =>
    cases operand <;> simp [Json.asOperandText?, Json.asNumber?, Json.asInstant?] at h ⊢

theorem Compares.vacuousField_eq_false (h : Compares datatype key operand) :
    vacuousField key operand = false := by
  rcases h.operand_cases with ⟨s, rfl⟩ | ⟨n, rfl⟩ <;> exact h.isIdle_eq_false

theorem Compares.fieldHolds_eq (h : Compares datatype key operand) :
    fieldHolds datatype value key operand = comparisonHolds datatype value key operand := by
  rcases h.operand_cases with ⟨s, rfl⟩ | ⟨n, rfl⟩ <;> simp [fieldHolds, h.isIdle_eq_false]

theorem comparison_eq_ok {rule : Rule} (h : comparison datatype key operand = .ok rule) :
    Compares datatype key operand ∧ rule ≠ .always ∧
      ∀ value, rule.accepts datatype value = comparisonHolds datatype value key operand := by
  cases datatype with
  | text =>
    cases hk : TextOperator.ofKey? key <;> cases ht : operand.asOperandText? <;>
      simp only [comparison, hk, ht, reduceCtorEq] at h
    cases h
    refine ⟨TextOperator.key_of_ofKey? hk ▸ .text _ ht, (by rintro ⟨⟩), fun value => ?_⟩
    simp [Rule.accepts, comparisonHolds, hk, ht]
  | numeric =>
    cases hk : Comparison.ofKey? key <;> cases hx : operand.asNumber? <;>
      simp only [comparison, hk, hx, reduceCtorEq] at h
    cases h
    refine ⟨Comparison.key_of_ofKey? hk ▸ .number _ hx, (by rintro ⟨⟩), fun value => ?_⟩
    simp [Rule.accepts, comparisonHolds, hk, hx]
  | datetime =>
    cases hk : Comparison.ofKey? key <;> cases hx : operand.asInstant? <;>
      simp only [comparison, hk, hx, reduceCtorEq] at h
    cases h
    refine ⟨Comparison.key_of_ofKey? hk ▸ .date _ hx, (by rintro ⟨⟩), fun value => ?_⟩
    simp [Rule.accepts, comparisonHolds, hk, hx]

theorem Compares.exists_comparison (h : Compares datatype key operand) :
    ∃ rule, comparison datatype key operand = .ok rule := by
  cases h with
  | text operator h => exact ⟨_, by simp only [comparison, TextOperator.ofKey?_key, h]; rfl⟩
  | number operator h => exact ⟨_, by simp only [comparison, Comparison.ofKey?_key, h]; rfl⟩
  | date operator h => exact ⟨_, by simp only [comparison, Comparison.ofKey?_key, h]; rfl⟩

end Comparisons

section Supported

variable {key : String} {operand : Json} {fields : Json.Fields}

theorem Supported.exists_object {condition : Json} (h : Supported datatype condition) :
    ∃ fields, condition = .object fields := by
  obtain ⟨-⟩ := h
  exact ⟨_, rfl⟩

theorem Supported.field (h : Supported datatype (.object fields))
    (hk : fields.get? key = some operand) : SupportedField datatype key operand := by
  obtain ⟨h⟩ := h
  exact h _ (Json.Fields.mem_of_get? hk)

theorem SupportedField.compares (h : SupportedField datatype key operand)
    (hk : key ∉ reservedKeys) : Compares datatype key operand := by
  cases h with
  | presentation hp => exact absurd (List.mem_append_left _ hp) hk
  | comparison h => exact h
  | @combination connective => exact absurd (connectiveKey_reserved connective) hk
  | _ => exact absurd (by decide) hk

theorem SupportedField.exists_items {connective : Connective}
    (h : SupportedField datatype key operand) (hk : key = connective.key) :
    ∃ items, operand = .array items ∧ ∀ item ∈ items, Supported datatype item := by
  have hr := connectiveKey_reserved connective
  cases h with
  | presentation hp => subst hk; exact absurd hp (by cases connective <;> decide)
  | combination h => exact ⟨_, rfl, h⟩
  | comparison h => exact absurd (hk ▸ hr) h.key_not_reserved
  | _ => exact absurd hk (by cases connective <;> decide)

theorem SupportedField.items {connective : Connective} {items : List Json}
    (h : SupportedField datatype key (.array items)) (hk : key = connective.key) :
    ∀ item ∈ items, Supported datatype item := by
  obtain ⟨items, he, h⟩ := h.exists_items hk
  cases he
  exact h

theorem SupportedField.excluded (h : SupportedField datatype key operand)
    (hk : key = "exclude") : Supported datatype operand := by
  cases h with
  | presentation hp => subst hk; exact absurd hp (by decide)
  | exclude h => exact h
  | @combination connective => exact absurd hk (by cases connective <;> decide)
  | comparison h => exact absurd (hk ▸ by decide : key ∈ reservedKeys) h.key_not_reserved
  | _ => exact absurd hk (by decide)

end Supported

section Compilation

/-- The rule is the compiled form of the condition: it accepts what the condition lets pass, and it
is the rule that accepts everything just when the condition asks nothing. -/
structure Means (datatype : DataType) (condition : Json) (rule : Rule) : Prop where
  supported : Supported datatype condition
  always_iff : rule = .always ↔ vacuous condition
  accepts_eq : ∀ value, rule.accepts datatype value = holds datatype value condition

/-- The same of a field and the rule that it adds. -/
structure FieldMeans (datatype : DataType) (key : String) (operand : Json) (rule? : Option Rule) :
    Prop where
  supported : SupportedField datatype key operand
  none_iff : rule? = none ↔ vacuousField key operand
  ne_always : rule? ≠ some .always
  accepts_eq : ∀ value,
    rule?.all (·.accepts datatype value) = fieldHolds datatype value key operand

theorem memberList_eq_ok_iff {key : String} {operand : Json} {names : List String} :
    memberList key operand = .ok names ↔
      ∃ items, operand = .array items ∧ (∀ item ∈ items, item.asOperandText?.isSome) ∧
        items.filterMap Json.asOperandText? = names := by
  cases operand with
  | array items =>
    simp only [memberList, Json.array.injEq, exists_eq_left']
    rw [← mapM_eq_some_iff_filterMap]
    cases h : items.mapM Json.asOperandText? <;> simp
  | _ => simp [memberList]

theorem exclusion?_ne_always (rule : Rule) : exclusion? rule ≠ some .always := by
  cases rule <;> simp [exclusion?]

theorem exclusion?_eq_none_iff {rule : Rule} : exclusion? rule = none ↔ rule = .always := by
  cases rule <;> simp [exclusion?]

theorem all_accepts_exclusion? {rule : Rule} {vacuous : Bool} (h : rule = .always ↔ vacuous)
    (value : Json) :
    (exclusion? rule).all (·.accepts datatype value) =
      (vacuous || !rule.accepts datatype value) := by
  by_cases hr : rule = .always
  · simp [hr, exclusion?, ← h]
  · have hv : vacuous = false := Bool.eq_false_iff.mpr fun hv => hr (h.mpr hv)
    cases rule <;> simp_all [exclusion?, Rule.accepts]

theorem compileField_of_mem_presentationKeys {key : String} (h : key ∈ presentationKeys)
    (operand : Json) : compileField datatype key operand = .ok none := by
  cases operand <;> simp [compileField, h]

theorem compileField_all (operand : Json) : compileField datatype "all" operand = .ok none := by
  cases operand <;> simp [compileField]

theorem compileField_members (operand : Json) :
    compileField datatype "members" operand = (memberList "members" operand).map fun names =>
      if names.isEmpty then none else some (.members names) := by
  cases operand <;> simp [compileField, presentationKeys]

theorem compileField_and (items : List Json) :
    compileField datatype Connective.and.key (.array items) =
      (compileItems datatype items).map fun rules => some (.all rules) := by
  simp [compileField, presentationKeys, Connective.key]

theorem compileField_or (items : List Json) :
    compileField datatype Connective.or.key (.array items) =
      (compileItems datatype items).map fun rules => some (.any rules) := by
  simp [compileField, presentationKeys, Connective.key]

theorem compileField_comparison {key : String} (h : key ∉ reservedKeys) (operand : Json) :
    compileField datatype key operand = (comparison datatype key operand).map some := by
  simp only [reservedKeys, List.mem_append, List.mem_cons, Connective.key, not_or] at h
  cases operand <;> simp [compileField, h]

theorem compileFields_cons_eq_ok_iff {key : String} {operand : Json} {fields : Json.Fields}
    {rules : List Rule} :
    compileFields datatype ((key, operand) :: fields) = .ok rules ↔
      ∃ rule? rest, compileField datatype key operand = .ok rule? ∧
        compileFields datatype fields = .ok rest ∧ rule?.toList ++ rest = rules := by
  simp [compileFields, bind_eq_ok_iff, pure, Except.pure]

/-- Every rule that the condition compiles to has its meaning. -/
def Faithful (datatype : DataType) (condition : Json) : Prop :=
  ∀ rule, compile datatype condition = .ok rule → Means datatype condition rule

theorem compileItems_means {items : List Json} {rules : List Rule}
    (hf : ∀ item ∈ items, Faithful datatype item) (h : compileItems datatype items = .ok rules) :
    List.Forall₂ (Means datatype) items rules := by
  induction items generalizing rules with
  | nil => cases h; exact .nil
  | cons item items ih =>
    simp only [compileItems, bind_eq_ok_iff, pure, Except.pure, Except.ok.injEq] at h
    obtain ⟨rule, hr, rest, hrest, rfl⟩ := h
    exact .cons (hf item (by simp) rule hr) (ih (fun i hi => hf i (by simp [hi])) hrest)

theorem all_accepts_eq {items : List Json} {rules : List Rule}
    (h : List.Forall₂ (Means datatype) items rules) (value : Json) :
    rules.all (·.accepts datatype value) = items.all (holds datatype value) := by
  induction h with
  | nil => rfl
  | cons hm _ ih => rw [List.all_cons, List.all_cons, ih, hm.accepts_eq]

theorem any_accepts_eq {items : List Json} {rules : List Rule}
    (h : List.Forall₂ (Means datatype) items rules) (value : Json) :
    rules.any (·.accepts datatype value) = items.any (holds datatype value) := by
  induction h with
  | nil => rfl
  | cons hm _ ih => rw [List.any_cons, List.any_cons, ih, hm.accepts_eq]

theorem supported_of_forall₂ {items : List Json} {rules : List Rule}
    (h : List.Forall₂ (Means datatype) items rules) : ∀ item ∈ items, Supported datatype item := by
  induction h with
  | nil => simp
  | cons hm _ ih => simpa using ⟨hm.supported, ih⟩

/-- The parts of an operand that are compiled are compiled faithfully. -/
structure FaithfulParts (datatype : DataType) (operand : Json) : Prop where
  inner : Faithful datatype operand
  items : ∀ items, operand = .array items → ∀ item ∈ items, Faithful datatype item

theorem isEmpty_filterMap_asOperandText? {items : List Json}
    (hs : ∀ item ∈ items, item.asOperandText?.isSome) :
    (items.filterMap Json.asOperandText?).isEmpty = items.isEmpty := by
  cases items with
  | nil => rfl
  | cons item items =>
    obtain ⟨text, ht⟩ := Option.isSome_iff_exists.mp (hs item (by simp))
    simp [ht]

section FieldMeaning

variable {key : String} {operand : Json} {rule? : Option Rule}

theorem fieldMeans_idle (hk : isIdle key) (hs : SupportedField datatype key operand) :
    FieldMeans datatype key operand none where
  supported := hs
  none_iff := by simp [vacuousField_of_isIdle hk]
  ne_always := by rintro ⟨⟩
  accepts_eq value := by simp [fieldHolds_of_isIdle hk]

theorem fieldMeans_members
    (h : compileField datatype "members" operand = .ok rule?) :
    FieldMeans datatype "members" operand rule? := by
  simp only [compileField_members, map_eq_ok_iff, memberList_eq_ok_iff] at h
  obtain ⟨_, ⟨items, rfl, hs, rfl⟩, rfl⟩ := h
  have he := isEmpty_filterMap_asOperandText? hs
  refine ⟨.members hs, ?_, ?_, fun value => ?_⟩
  · rw [vacuousField_members, ← he]; split <;> simp_all
  · split <;> simp
  · rw [fieldHolds_members, ← he]; split <;> simp_all [Rule.accepts]

theorem fieldMeans_exclude (hf : Faithful datatype operand)
    (h : compileField datatype "exclude" operand = .ok rule?) :
    FieldMeans datatype "exclude" operand rule? := by
  simp only [compileField_exclude, map_eq_ok_iff] at h
  obtain ⟨rule, hr, rfl⟩ := h
  have hm := hf rule hr
  refine ⟨.exclude hm.supported, ?_, exclusion?_ne_always rule, fun value => ?_⟩
  · rw [exclusion?_eq_none_iff, vacuousField_exclude, hm.always_iff]
  · rw [all_accepts_exclusion? hm.always_iff, hm.accepts_eq]
    cases hm.supported with
    | object _ => rw [fieldHolds_exclude]

theorem fieldMeans_connective {connective : Connective} (hp : FaithfulParts datatype operand)
    (h : compileField datatype connective.key operand = .ok rule?) :
    FieldMeans datatype connective.key operand rule? := by
  cases operand with
  | array items =>
    cases connective with
    | and =>
      simp only [compileField_and, map_eq_ok_iff] at h
      obtain ⟨rules, hr, rfl⟩ := h
      have hm := compileItems_means (hp.items items rfl) hr
      refine ⟨.combination (supported_of_forall₂ hm), ?_, (by rintro ⟨⟩), fun value => ?_⟩
      · simp [vacuousField_connective]
      · rw [fieldHolds_and, ← all_accepts_eq hm]
        simp [Rule.accepts, Rule.allAccept_eq_all]
    | or =>
      simp only [compileField_or, map_eq_ok_iff] at h
      obtain ⟨rules, hr, rfl⟩ := h
      have hm := compileItems_means (hp.items items rfl) hr
      refine ⟨.combination (supported_of_forall₂ hm), ?_, (by rintro ⟨⟩), fun value => ?_⟩
      · simp [vacuousField_connective]
      · rw [fieldHolds_or, ← any_accepts_eq hm]
        simp [Rule.accepts, Rule.anyAccepts_eq_any]
  | _ => cases connective <;> simp [compileField, presentationKeys, Connective.key] at h

theorem fieldMeans_comparison (hk : key ∉ reservedKeys)
    (h : compileField datatype key operand = .ok rule?) :
    FieldMeans datatype key operand rule? := by
  simp only [compileField_comparison hk, map_eq_ok_iff] at h
  obtain ⟨rule, hr, rfl⟩ := h
  obtain ⟨hc, hn, ha⟩ := comparison_eq_ok hr
  refine ⟨.comparison hc, ?_, by simpa using hn, fun value => ?_⟩
  · simp [hc.vacuousField_eq_false]
  · rw [hc.fieldHolds_eq, ← ha, Option.all_some]

theorem compileField_means (hp : FaithfulParts datatype operand)
    (h : compileField datatype key operand = .ok rule?) :
    FieldMeans datatype key operand rule? := by
  by_cases hk : key ∈ reservedKeys
  · simp only [reservedKeys, List.mem_append, List.mem_cons, List.not_mem_nil, or_false] at hk
    rcases hk with hk | rfl | rfl | rfl | rfl | rfl
    · obtain rfl : none = rule? := by simpa [compileField_of_mem_presentationKeys hk] using h
      exact fieldMeans_idle (isIdle_iff.mpr (.inl hk)) (.presentation hk)
    · obtain rfl : none = rule? := by simpa [compileField_all] using h
      exact fieldMeans_idle (isIdle_iff.mpr (.inr rfl)) .all
    · exact fieldMeans_members h
    · exact fieldMeans_exclude hp.inner h
    · exact fieldMeans_connective hp h
    · exact fieldMeans_connective hp h
  · exact fieldMeans_comparison hk h

end FieldMeaning

theorem means_ofList {fields : Json.Fields} {rules : List Rule}
    (hs : ∀ field ∈ fields, SupportedField datatype field.1 field.2)
    (hn : rules = [] ↔ vacuousFields fields) (ha : .always ∉ rules)
    (hv : ∀ value, rules.all (·.accepts datatype value) = fieldsHold datatype value fields) :
    Means datatype (.object fields) (Rule.ofList rules) where
  supported := .object hs
  always_iff := by
    rw [vacuous, ← hn]
    match rules with
    | [] => simp [Rule.ofList]
    | [rule] => simpa [Rule.ofList, eq_comm] using ha
    | _ :: _ :: _ => simp [Rule.ofList]
  accepts_eq value := by rw [Rule.accepts_ofList, hv, holds]

theorem compileFields_means {fields : Json.Fields} {rules : List Rule}
    (hp : ∀ field ∈ fields, FaithfulParts datatype field.2)
    (h : compileFields datatype fields = .ok rules) :
    (∀ field ∈ fields, SupportedField datatype field.1 field.2) ∧
      (rules = [] ↔ vacuousFields fields) ∧ .always ∉ rules ∧
      ∀ value, rules.all (·.accepts datatype value) = fieldsHold datatype value fields := by
  induction fields generalizing rules with
  | nil => cases h; simp [vacuousFields, fieldsHold]
  | cons field fields ih =>
    obtain ⟨key, operand⟩ := field
    obtain ⟨rule?, rest, hr, hrest, rfl⟩ := compileFields_cons_eq_ok_iff.mp h
    have hm := compileField_means (hp (key, operand) (by simp)) hr
    obtain ⟨hs, hn, ha, hv⟩ := ih (fun field hf => hp field (by simp [hf])) hrest
    refine ⟨?_, ?_, ?_, fun value => ?_⟩
    · exact List.forall_mem_cons.mpr ⟨hm.supported, hs⟩
    · rw [vacuousFields, Bool.and_eq_true, ← hm.none_iff, ← hn]
      cases rule? <;> simp
    · rw [List.mem_append, Option.mem_toList]
      exact not_or.mpr ⟨hm.ne_always, ha⟩
    · rw [fieldsHold, ← hm.accepts_eq, ← hv]
      cases rule? <;> simp

theorem compile_faithful (datatype : DataType) (condition : Json) :
    Faithful datatype condition := by
  induction condition using Json.condition_induction with
  | other condition h =>
    intro rule hr
    cases condition <;> simp [compile, Json.asObject?] at hr h
  | object fields ih =>
    intro rule hr
    simp only [compile, map_eq_ok_iff] at hr
    obtain ⟨rules, hrules, rfl⟩ := hr
    obtain ⟨hs, hn, ha, hv⟩ := compileFields_means (fun field hf =>
      ⟨ih _ (Json.part_of_mem hf), fun _ he _ hi => ih _ (Json.part_of_mem_array hf he hi)⟩) hrules
    exact means_ofList hs hn ha hv

end Compilation

section Completeness

def Compiles (datatype : DataType) (condition : Json) : Prop :=
  Supported datatype condition → ∃ rule, compile datatype condition = .ok rule

theorem compileItems_ok {items : List Json} (hc : ∀ item ∈ items, Compiles datatype item)
    (hs : ∀ item ∈ items, Supported datatype item) :
    ∃ rules, compileItems datatype items = .ok rules := by
  induction items with
  | nil => exact ⟨[], rfl⟩
  | cons item items ih =>
    obtain ⟨rule, hr⟩ := hc item (by simp) (hs item (by simp))
    obtain ⟨rules, hrules⟩ := ih (fun i hi => hc i (by simp [hi])) (fun i hi => hs i (by simp [hi]))
    exact ⟨rule :: rules, by simp [compileItems, hr, hrules, bind, Except.bind, pure, Except.pure]⟩

theorem compileField_ok {key : String} {operand : Json} (hc : Compiles datatype operand)
    (hi : ∀ items, operand = .array items → ∀ item ∈ items, Compiles datatype item)
    (hs : SupportedField datatype key operand) :
    ∃ rule?, compileField datatype key operand = .ok rule? := by
  cases hs with
  | presentation hk => exact ⟨none, compileField_of_mem_presentationKeys hk _⟩
  | all => exact ⟨none, compileField_all _⟩
  | members h =>
    exact ⟨_, by rw [compileField_members, memberList_eq_ok_iff.mpr ⟨_, rfl, h, rfl⟩]; rfl⟩
  | exclude h =>
    obtain ⟨rule, hr⟩ := hc h
    exact ⟨exclusion? rule, by rw [compileField_exclude, hr]; rfl⟩
  | @combination connective items h =>
    obtain ⟨rules, hr⟩ := compileItems_ok (hi items rfl) h
    cases connective with
    | and => exact ⟨_, by rw [compileField_and, hr]; rfl⟩
    | or => exact ⟨_, by rw [compileField_or, hr]; rfl⟩
  | comparison h =>
    obtain ⟨rule, hr⟩ := h.exists_comparison
    exact ⟨some rule, by rw [compileField_comparison h.key_not_reserved, hr]; rfl⟩

theorem compileFields_ok {fields : Json.Fields}
    (hf : ∀ field ∈ fields, ∃ rule?, compileField datatype field.1 field.2 = .ok rule?) :
    ∃ rules, compileFields datatype fields = .ok rules := by
  induction fields with
  | nil => exact ⟨[], rfl⟩
  | cons field fields ih =>
    obtain ⟨rule?, hr⟩ := hf field (by simp)
    obtain ⟨rest, hrest⟩ := ih fun field h => hf field (by simp [h])
    exact ⟨_, compileFields_cons_eq_ok_iff.mpr ⟨rule?, rest, hr, hrest, rfl⟩⟩

theorem compiles (datatype : DataType) (condition : Json) : Compiles datatype condition := by
  induction condition using Json.condition_induction with
  | other condition h =>
    rintro ⟨⟩
    simp [Json.asObject?] at h
  | object fields ih =>
    rintro ⟨hs⟩
    obtain ⟨rules, hr⟩ := compileFields_ok fun field hf =>
      compileField_ok (ih _ (Json.part_of_mem hf))
        (fun _ he _ hi => ih _ (Json.part_of_mem_array hf he hi)) (hs field hf)
    exact ⟨Rule.ofList rules, by rw [compile, hr]; rfl⟩

end Completeness

theorem exists_compile_iff (datatype : DataType) (condition : Json) :
    (∃ rule, compile datatype condition = .ok rule) ↔ Supported datatype condition :=
  ⟨fun ⟨rule, h⟩ => (compile_faithful datatype condition rule h).supported,
    compiles datatype condition⟩

end QueryFilter.Condition

namespace QueryFilter.Predicate

open Condition

variable {datatype : DataType} {condition : Json} {p : Predicate}

theorem ofCondition_eq_ok_iff :
    ofCondition datatype condition = .ok p ↔
      p.datatype = datatype ∧ compile datatype condition = .ok p.rule := by
  rw [ofCondition, map_eq_ok_iff]
  constructor
  · rintro ⟨rule, hr, rfl⟩
    exact ⟨rfl, hr⟩
  · rintro ⟨rfl, hr⟩
    exact ⟨p.rule, hr, rfl⟩

theorem exists_ofCondition_iff :
    (∃ p, ofCondition datatype condition = .ok p) ↔ Supported datatype condition := by
  rw [← exists_compile_iff]
  constructor
  · rintro ⟨p, hp⟩
    exact ⟨p.rule, (ofCondition_eq_ok_iff.mp hp).2⟩
  · rintro ⟨rule, hr⟩
    exact ⟨⟨datatype, rule⟩, ofCondition_eq_ok_iff.mpr ⟨rfl, hr⟩⟩

theorem accepts_of_ofCondition (h : ofCondition datatype condition = .ok p) (value : Json) :
    p.accepts value = holds datatype value condition := by
  obtain ⟨rfl, hr⟩ := ofCondition_eq_ok_iff.mp h
  exact (compile_faithful _ _ _ hr).accepts_eq value

/-- A condition becomes a predicate exactly when it is supported for the data type, and the
predicate accepts exactly the values of which the condition holds. -/
theorem ofCondition_iff_supported_and_accepts_iff_holds (datatype : DataType) (condition : Json) :
    ((∃ p, ofCondition datatype condition = .ok p) ↔ Supported datatype condition) ∧
      ∀ p, ofCondition datatype condition = .ok p →
        ∀ value, p.accepts value = holds datatype value condition :=
  ⟨exists_ofCondition_iff, fun _ => accepts_of_ofCondition⟩

end QueryFilter.Predicate
