import QueryFilter.Filter.Describe
import QueryFilter.Proofs.Filter.Selects

/-! # The bounds of numeric filters

Bounds are written by the keys of their operators, so of two bounds with one operator the second is
written over the first. Main statement: the predicate of a numeric filter accepts what passes all of
its bounds, unless such a second bound lets values pass that the first one does not.
-/

namespace QueryFilter

namespace Comparison

/-- Of two bounds with the operator, whether the one whose number stands in the given order to the
other's lets no other values pass. -/
def narrows : Comparison → Ordering → Bool
  | .equals, o | .doesntEqual, o => o == .eq
  | .atLeast, o | .greater, o => o != .lt
  | .atMost, o | .less, o => o != .gt

variable (c : Comparison) (x y : Binary64)

theorem narrows_compare_iff :
    c.narrows (compare x y) ↔
      match c with
      | .equals | .doesntEqual => x.place = y.place
      | .atLeast | .greater => y.place ≤ x.place
      | .atMost | .less => x.place ≤ y.place := by
  rw [Binary64.compare_eq]
  cases c <;> simp [narrows, Int.compare_eq_lt, Int.compare_eq_gt]

theorem narrows_compare_iff_acceptsNumber :
    c.narrows (compare x y) ↔ ∀ value, c.acceptsNumber x value → c.acceptsNumber y value := by
  constructor
  · intro h value
    simp only [acceptsNumber, Option.any_eq_true]
    rintro ⟨z, hz, hx⟩
    refine ⟨z, hz, ?_⟩
    rw [narrows_compare_iff] at h
    rw [holds_compare_iff] at hx ⊢
    cases c <;> simp only at h hx ⊢ <;> omega
  · intro h
    have ha (z : Binary64) : c.holds (compare z x) → c.holds (compare z y) :=
      h (.number (.real z))
    have hx := ha x
    have hy := ha y
    rw [holds_compare_iff, holds_compare_iff] at hx hy
    rw [narrows_compare_iff]
    cases c with
    | equals => exact hx rfl
    | doesntEqual => exact (not_imp_not.mp hy rfl).symm
    | atLeast | atMost => exact hx (Int.le_refl _)
    | greater | less => exact Int.not_lt.mp fun hlt => Int.lt_irrefl _ (hy hlt)

end Comparison

namespace Condition

variable {first : Bound} {second : Option Bound}

/-- The bounds that are left when both are written. -/
def keptBounds (first : Bound) (second : Option Bound) : List Bound :=
  if second.any (·.operator == first.operator) then second.toList else first :: second.toList

theorem ofBounds_eq_map_keptBounds (first : Bound) (second : Option Bound) :
    ofBounds first second = (keptBounds first second).map ofBound := by
  cases second with
  | none => rfl
  | some b =>
    by_cases hb : b.operator = first.operator
    · simp [keptBounds, ofBounds, Json.Fields.insertAll, Json.Fields.insert, ofBound, hb]
    · have hd : ∀ b' ∈ some b, b'.operator ≠ first.operator := by simpa using hb
      rw [Reading.ofBounds_eq hd]
      simp [keptBounds, hb]

/-- Nothing is lost just when a second bound of the same operator is at least as narrow. -/
theorem all_keptBounds_iff :
    (∀ value, ((keptBounds first second).all fun b => b.operator.acceptsNumber b.value value) =
        (first :: second.toList).all fun b => b.operator.acceptsNumber b.value value) ↔
      ∀ b ∈ second, b.operator = first.operator →
        first.operator.narrows (compare b.value first.value) := by
  cases second with
  | none => simp [keptBounds]
  | some b =>
    by_cases hb : b.operator = first.operator
    · have hk : keptBounds first (some b) = [b] := by simp [keptBounds, hb]
      simp only [hk, Option.mem_some_iff, forall_eq', Option.toList_some, List.all_cons,
        List.all_nil, Bool.and_true, hb, forall_const, Comparison.narrows_compare_iff_acceptsNumber]
      refine forall_congr' fun value => ?_
      cases first.operator.acceptsNumber b.value value <;>
        cases first.operator.acceptsNumber first.value value <;> decide
    · simp [keptBounds, hb]

end Condition

namespace Filter

open Condition

theorem exists_predicate_of_numeric {target : Target} (first : Bound) (second : Option Bound)
    {settings : Settings} (ht : target.datatype = .numeric) (hs : settings.source = none)
    (hb : settings.background = none) :
    ∃ p, predicate ⟨.numeric target first second, settings⟩ = .ok p ∧
      ∀ value, p.accepts value =
        (keptBounds first second).all fun b => b.operator.acceptsNumber b.value value := by
  have hc : fullCondition ⟨.numeric target first second, settings⟩ =
      .object ((keptBounds first second).map ofBound) := by
    rw [fullCondition_eq_ownCondition hb, ownCondition_eq_condition hs,
      ← ofBounds_eq_map_keptBounds]
    rfl
  obtain ⟨p, hp, ha⟩ := exists_predicate_of_supported hc ht
    (supported_of_compares (compares_map_ofBound (keptBounds first second)))
  exact ⟨p, hp, fun value => by rw [ha, holds_map_ofBound]⟩

/-- A numeric filter has a predicate. It accepts the values that pass all bounds that the filter
has and shows, unless a second bound of the first one's operator is less narrow: the first is then
overwritten. -/
theorem predicate_of_bounds (target : Target) (first : Bound) (second : Option Bound)
    (settings : Settings) (ht : target.datatype = .numeric) (hs : settings.source = none)
    (hb : settings.background = none) :
    let f : Filter := ⟨.numeric target first second, settings⟩
    f.describe =
        target.describe ++ " " ++ " and ".intercalate (f.kind.bounds.map Bound.describe) ∧
      ∃ p, f.predicate = .ok p ∧
        (∀ value, p.accepts value =
          (keptBounds first second).all fun b => b.operator.acceptsNumber b.value value) ∧
        ((∀ value, p.accepts value =
            f.kind.bounds.all fun b => b.operator.acceptsNumber b.value value) ↔
          ∀ b ∈ second, b.operator = first.operator →
            first.operator.narrows (compare b.value first.value)) := by
  obtain ⟨p, hp, ha⟩ := exists_predicate_of_numeric first second ht hs hb
  refine ⟨rfl, p, hp, ha, ?_⟩
  simp only [ha]
  exact all_keptBounds_iff

/-- A range with both of its bounds, for a measure. -/
theorem predicate_of_bounds_between :
    let column : Column := { expression := "[T.N]", title := "N", datatype := .text }
    let target : Target := .measure { column, aggregation := "sum", title := "N" }
    let low : Bound := ⟨.atLeast, .zero⟩
    let high : Bound := ⟨.atMost, ⟨false, 0x4014000000000000, by decide⟩⟩
    let f : Filter := .ofKind (.numeric target low (some high)) "g"
    target.datatype = .numeric ∧ f.settings.source = none ∧ f.settings.background = none ∧
      ∃ p, f.predicate = .ok p ∧ ∀ value, p.accepts value =
        f.kind.bounds.all fun b => b.operator.acceptsNumber b.value value := by
  intro column target low high f
  obtain ⟨-, p, hp, -, hiff⟩ := predicate_of_bounds target low (some high) f.settings rfl rfl rfl
  have hn : ∀ b ∈ some high, b.operator = low.operator →
      low.operator.narrows (compare b.value low.value) := by
    rintro b ⟨⟩ ho
    cases ho
  exact ⟨rfl, rfl, rfl, p, hp, hiff.mpr hn⟩

/-- At least ten and at least five: seven is accepted. -/
theorem predicate_loses_bound :
    let column : Column := { expression := "[T.N]", title := "N", datatype := .numeric }
    let ten : Binary64 := ⟨false, 0x4024000000000000, by decide⟩
    let five : Binary64 := ⟨false, 0x4014000000000000, by decide⟩
    let seven : Json := .number (.integer ⟨7, by decide, by decide⟩)
    let bounds : Kind := .numeric (.column column) ⟨.atLeast, ten⟩ (some ⟨.atLeast, five⟩)
    let f : Filter := .ofKind bounds "f"
    ten.toInt? = some 10 ∧ five.toInt? = some 5 ∧
      (f.kind.bounds.all fun b => b.operator.acceptsNumber b.value seven) = false ∧
      ∃ p, f.predicate = .ok p ∧ p.accepts seven = true := by
  intro column ten five seven bounds f
  have hseven : seven.asNumber? = some ⟨false, 0x401C000000000000, by decide⟩ := by decide +kernel
  have ht : (Target.column column).datatype = .numeric := rfl
  have hs : f.settings.source = none := rfl
  obtain ⟨p, hp, ha⟩ :=
    exists_predicate_of_numeric ⟨.atLeast, ten⟩ (some ⟨.atLeast, five⟩) ht hs rfl
  refine ⟨by decide +kernel, by decide +kernel, ?_, p, hp, ?_⟩
  · simp only [f, bounds, ofKind, Kind.bounds, Option.toList_some, List.all_cons,
      Comparison.acceptsNumber, hseven]
    decide
  · rw [ha]
    simp only [keptBounds, Option.any_some, BEq.rfl, if_true, Option.toList_some, List.all_cons,
      List.all_nil, Comparison.acceptsNumber, hseven]
    decide

end Filter

end QueryFilter
