import QueryFilter.Proofs.Condition.Comparisons
import QueryFilter.Proofs.Condition.Members

/-! # Membership and equality

A name that reads as a value of the data type is equal to the values of which it is the only member.
Main statement: a list of such names accepts the values that equal one of them, and its exclusion
accepts all others.
-/

namespace QueryFilter

theorem Binary64.equals_holds_compare (x y : Binary64) :
    Comparison.equals.holds (compare x y) = x.same y := by
  rw [Bool.eq_iff_iff, same_iff]
  exact Comparison.equals.holds_compare_iff x y

theorem Instant.equals_holds_compare (x y : Instant) :
    Comparison.equals.holds (compare x y) = decide (x = y) := by
  obtain ⟨seconds, nanos⟩ := x
  obtain ⟨seconds', nanos'⟩ := y
  change ((compare seconds seconds').then (compare nanos nanos') == .eq) = _
  rw [Bool.eq_iff_iff, beq_iff_eq, Ordering.then_eq_eq]
  simp

namespace Condition

variable {datatype : DataType} {name : String} {names : List String}

def equalTo (name : String) : Json := .object [(Comparison.equals.key, .string name)]

section Names

theorem isMember_eq_any (names : List String) (value : Json) :
    isMember datatype names value = names.any fun name => isMember datatype [name] value := by
  induction names with
  | nil => rw [isMember_nil, List.any_nil]
  | cons name names ih =>
    rw [List.any_cons, ← ih, ← isMember_append, List.singleton_append]

theorem isMember_text (name : String) (value : Json) :
    isMember .text [name] value =
      comparisonHolds .text value Comparison.equals.key (.string name) := by
  have hk : TextOperator.ofKey? Comparison.equals.key = some ⟨.equals, false⟩ := by decide
  have hc (text : String) : [name].contains text = (name == text) := by
    rw [List.contains_cons, List.contains_nil, Bool.or_false, BEq.comm]
  simp only [isMember, hc, comparisonHolds, hk, Json.asOperandText?, Option.any_some,
    TextOperator.accepts, Bool.false_xor]
  rfl

theorem isMember_numeric {x : Binary64} (h : Binary64.ofText? name = some x) (value : Json) :
    isMember .numeric [name] value =
      comparisonHolds .numeric value Comparison.equals.key (.string name) := by
  simp only [isMember, comparisonHolds, Comparison.ofKey?_key, Json.asNumber?, h, Option.any_some,
    Comparison.acceptsNumber, Binary64.equals_holds_compare, List.any_cons, List.any_nil,
    Bool.or_false]

theorem isMember_datetime {x : Instant} (h : Instant.ofText? name = some x) (value : Json) :
    isMember .datetime [name] value =
      comparisonHolds .datetime value Comparison.equals.key (.string name) := by
  have hc : comparisonHolds .datetime value Comparison.equals.key (.string name) =
      value.asInstant?.any fun y => decide (y = x) := by
    simp only [comparisonHolds, Comparison.ofKey?_key, Json.asInstant?, h, Option.any_some,
      Comparison.acceptsInstant, Instant.equals_holds_compare]
  rw [hc]
  cases value with
  | string text =>
    rw [isMember, List.any_cons, List.any_nil, Bool.or_false, h, Json.asInstant?]
    cases ht : Instant.ofText? text with
    | none =>
      have hne : name ≠ text := by
        rintro rfl
        rw [h] at ht
        cases ht
      simp [hne]
    | some y =>
      rw [Bool.eq_iff_iff]
      simp only [Bool.or_eq_true, beq_iff_eq, Option.isSome_some, Bool.true_and, Option.some.injEq,
        Option.any_some, decide_eq_true_eq]
      constructor
      · rintro (rfl | rfl)
        · exact Option.some.inj (ht.symm.trans h)
        · rfl
      · rintro rfl
        exact .inr rfl
  | _ => rfl

theorem isMember_eq_comparisonHolds (h : Compares datatype Comparison.equals.key (.string name))
    (value : Json) :
    isMember datatype [name] value =
      comparisonHolds datatype value Comparison.equals.key (.string name) := by
  generalize hk : Comparison.equals.key = key at h ⊢
  cases h with
  | text => exact hk ▸ isMember_text name value
  | number _ hx => exact hk ▸ isMember_numeric hx value
  | date _ hx => exact hk ▸ isMember_datetime hx value

end Names

theorem holds_equalTo (h : Supported datatype (equalTo name)) (value : Json) :
    holds datatype value (equalTo name) = isMember datatype [name] value := by
  obtain ⟨h⟩ := h
  have hc : Compares datatype Comparison.equals.key (.string name) :=
    (h _ List.mem_cons_self).compares (comparisonKey_not_reserved .equals)
  rw [equalTo, holds_object, List.all_cons, List.all_nil, Bool.and_true, hc.fieldHolds_eq,
    isMember_eq_comparisonHolds hc]

theorem holds_alternatives (h : ∀ name ∈ names, Supported datatype (equalTo name)) (value : Json) :
    holds datatype value (.object [(Connective.or.key, .array (names.map equalTo))]) =
      isMember datatype names value := by
  rw [holds_combination, Connective.combine, List.map_map, List.any_map, isMember_eq_any,
    Bool.eq_iff_iff, List.any_eq_true, List.any_eq_true]
  refine exists_congr fun name => and_congr_right fun hn => ?_
  rw [← holds_equalTo (h name hn)]
  rfl

end Condition

namespace Predicate

open Condition

/-- Names that values can be equal to, as a list, as alternatives and as an exclusion: all three are
predicates, the first two accept the same values, and the third accepts all others. -/
theorem membership_agrees_with_equality (datatype : DataType) (names : List String)
    (hn : names ≠ [])
    (he : ∀ name ∈ names, ∃ p, ofCondition datatype (equalTo name) = .ok p) :
    ∃ listed alternatives excluded,
      ofCondition datatype (.object [("members", .strings names)]) = .ok listed ∧
      ofCondition datatype (.object [("or", .array (names.map equalTo))]) = .ok alternatives ∧
      ofCondition datatype (.object [("exclude", .object [("members", .strings names)])]) =
        .ok excluded ∧
      ∀ value, listed.accepts value = alternatives.accepts value ∧
        excluded.accepts value = !listed.accepts value := by
  have hs : ∀ name ∈ names, Supported datatype (equalTo name) :=
    fun name hm => exists_ofCondition_iff.mp (he name hm)
  have hmembers : Supported datatype (.object [membersField names]) := supported_members names
  obtain ⟨listed, hl⟩ := exists_ofCondition_iff.mpr hmembers
  obtain ⟨alternatives, ha⟩ := exists_ofCondition_iff.mpr
    (supported_combination .or (List.forall_mem_map.mpr hs))
  obtain ⟨excluded, hx⟩ := exists_ofCondition_iff.mpr (supported_exclude hmembers)
  refine ⟨listed, alternatives, excluded, hl, ha, hx, fun value => ?_⟩
  have hne : names.isEmpty = false := List.isEmpty_eq_false_iff.mpr hn
  have hlisted : listed.accepts value = isMember datatype names value := by
    rw [accepts_of_ofCondition hl, holds_listed_members, hne, Bool.false_or]
  constructor
  · rw [hlisted, accepts_of_ofCondition ha, holds_alternatives hs]
  · rw [hlisted, accepts_of_ofCondition hx, holds_exclude, vacuous_members_eq_false hn,
      holds_listed_members, holds_nil, hne, Bool.false_or, Bool.false_or, Bool.and_true]

/-- A day and an hour of it, of which another spelling is accepted. -/
theorem membership_agrees_with_equality_dates :
    let names : List String := ["2024-03-01", "2024-03-02T10:00:00"]
    let value : Json := .string "2024-03-02T12:00:00+02:00"
    names ≠ [] ∧ (∀ name ∈ names, ∃ p, ofCondition .datetime (equalTo name) = .ok p) ∧
      ∃ listed alternatives excluded,
        ofCondition .datetime (.object [("members", .strings names)]) = .ok listed ∧
        ofCondition .datetime (.object [("or", .array (names.map equalTo))]) = .ok alternatives ∧
        ofCondition .datetime (.object [("exclude", .object [("members", .strings names)])]) =
          .ok excluded ∧
        listed.accepts value = true ∧ alternatives.accepts value = true ∧
        excluded.accepts value = false := by
  intro names value
  have hn : names ≠ [] := by decide
  have he : ∀ name ∈ names, ∃ p, ofCondition .datetime (equalTo name) = .ok p := by
    refine List.forall_mem_cons.mpr ⟨⟨_, rfl⟩, List.forall_mem_cons.mpr ⟨⟨_, rfl⟩, by simp⟩⟩
  obtain ⟨listed, alternatives, excluded, hl, ha, hx, h⟩ :=
    membership_agrees_with_equality .datetime names hn he
  obtain rfl : _ = listed := Except.ok.inj hl
  have hv : (⟨.datetime, .members names⟩ : Predicate).accepts value = true := by decide +kernel
  exact ⟨hn, he, _, alternatives, excluded, hl, ha, hx, hv, (h value).1.symm.trans hv,
    by rw [(h value).2]; exact congrArg (!·) hv⟩

end Predicate

end QueryFilter
