import QueryFilter.Filter.Condition
import QueryFilter.Proofs.Binary64.Exact
import QueryFilter.Proofs.Condition.Meaning

/-! # Conditions made of comparisons

A condition whose fields all compare is supported, and holds of the values that pass every one of
them. The bounds of numbers and dates, as they are written, are such fields.
-/

namespace QueryFilter

theorem Comparison.holds_compare_iff (c : Comparison) (x y : Binary64) :
    c.holds (compare x y) ↔
      match c with
      | .equals => x.place = y.place
      | .doesntEqual => x.place ≠ y.place
      | .atLeast => y.place ≤ x.place
      | .atMost => x.place ≤ y.place
      | .greater => y.place < x.place
      | .less => x.place < y.place := by
  rw [Binary64.compare_eq]
  cases c <;> simp [holds, Int.compare_eq_lt, Int.compare_eq_gt]

/-- Whether the value passes the bound of a date range, if there is one. -/
def Comparison.admitsDate (c : Comparison) (bound : Option String) (value : Json) : Bool :=
  bound.all fun date => (Instant.ofText? date).any fun x => c.acceptsInstant x value

namespace Condition

open Json (Fields)

variable {datatype : DataType} {fields : Fields}

theorem supported_of_compares (h : ∀ field ∈ fields, Compares datatype field.1 field.2) :
    Supported datatype (.object fields) :=
  .object fun field hf => .comparison (h field hf)

theorem vacuous_of_compares (h : ∀ field ∈ fields, Compares datatype field.1 field.2) :
    vacuous (.object fields) = fields.isEmpty := by
  rw [vacuous_object]
  cases fields with
  | nil => rfl
  | cons field fields => rw [List.all_cons, (h field (by simp)).vacuousField_eq_false]; rfl

theorem holds_of_compares (h : ∀ field ∈ fields, Compares datatype field.1 field.2)
    (value : Json) :
    holds datatype value (.object fields) =
      fields.all fun field => comparisonHolds datatype value field.1 field.2 := by
  rw [holds_object, Bool.eq_iff_iff, List.all_eq_true, List.all_eq_true]
  exact forall₂_congr fun field hf => by rw [(h field hf).fieldHolds_eq]

theorem compares_ofBound (b : Bound) : Compares .numeric (ofBound b).1 (ofBound b).2 :=
  .number b.operator (Number.toBinary64?_ofBinary64 b.value)

theorem comparisonHolds_ofBound (b : Bound) (value : Json) :
    comparisonHolds .numeric value (ofBound b).1 (ofBound b).2 =
      b.operator.acceptsNumber b.value value := by
  have hw : (ofBound b).2.asNumber? = some b.value.withoutZeroSign :=
    Number.toBinary64?_ofBinary64 b.value
  simp only [comparisonHolds, hw]
  simp only [ofBound, Comparison.ofKey?_key, Option.any_some, Comparison.acceptsNumber,
    Binary64.compare_withoutZeroSign]

theorem compares_map_ofBound (bounds : List Bound) :
    ∀ field ∈ bounds.map ofBound, Compares .numeric field.1 field.2 := by
  intro field hf
  obtain ⟨b, -, rfl⟩ := List.mem_map.mp hf
  exact compares_ofBound b

theorem holds_map_ofBound (bounds : List Bound) (value : Json) :
    holds .numeric value (.object (bounds.map ofBound)) =
      bounds.all fun b => b.operator.acceptsNumber b.value value := by
  rw [holds_of_compares (compares_map_ofBound bounds), List.all_map]
  exact congrArg (List.all _) (funext fun b => comparisonHolds_ofBound b value)

theorem compares_optionalText (operator : Comparison) {date : Option String}
    (h : ∀ d ∈ date, (Instant.ofText? d).isSome) :
    ∀ field ∈ optionalText operator.key date, Compares .datetime field.1 field.2 := by
  cases date with
  | none => simp [optionalText]
  | some d =>
    obtain ⟨x, hx⟩ := Option.isSome_iff_exists.mp (h d rfl)
    simpa [optionalText] using .date operator hx

theorem compares_dates {start finish : Option String}
    (hs : ∀ date ∈ start, (Instant.ofText? date).isSome)
    (hf : ∀ date ∈ finish, (Instant.ofText? date).isSome) :
    ∀ field ∈ optionalText Comparison.atLeast.key start ++
      optionalText Comparison.atMost.key finish, Compares .datetime field.1 field.2 := by
  intro field h
  rcases List.mem_append.mp h with h | h
  · exact compares_optionalText .atLeast hs field h
  · exact compares_optionalText .atMost hf field h

theorem all_comparisonHolds_optionalText (operator : Comparison) (date : Option String)
    (value : Json) :
    ((optionalText operator.key date).all fun field =>
      comparisonHolds .datetime value field.1 field.2) = operator.admitsDate date value := by
  cases date with
  | none => rfl
  | some d => simp [optionalText, comparisonHolds, Comparison.admitsDate, Json.asInstant?]

end Condition

end QueryFilter
