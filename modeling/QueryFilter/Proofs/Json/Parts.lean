import QueryFilter.Proofs.Json.Fields

/-! # Parts of a JSON value

Induction over conditions: a condition is an object, and the conditions inside it are the values of
its fields and the items of lists among those values.
-/

namespace QueryFilter.Json

/-- The value stands under a field, or in a list under a field. -/
inductive Part (fields : Fields) : Json → Prop
  | field {key : String} {value : Json} : (key, value) ∈ fields → Part fields value
  | item {key : String} {items : List Json} {value : Json} :
      (key, .array items) ∈ fields → value ∈ items → Part fields value

theorem part_of_mem {fields : Fields} {field : String × Json} (h : field ∈ fields) :
    Part fields field.2 := .field h

theorem part_of_mem_array {fields : Fields} {field : String × Json} {items : List Json}
    {value : Json} (h : field ∈ fields) (he : field.2 = .array items) (hv : value ∈ items) :
    Part fields value := by
  obtain ⟨key, _⟩ := field
  subst he
  exact .item h hv

theorem sizeOf_field_lt {fields : Fields} {key : String} {value : Json}
    (h : (key, value) ∈ fields) : sizeOf value < sizeOf (Json.object fields) := by
  have := List.sizeOf_lt_of_mem h
  simp only [Prod.mk.sizeOf_spec, Json.object.sizeOf_spec] at this ⊢
  omega

theorem Part.sizeOf_lt {fields : Fields} {value : Json} (h : Part fields value) :
    sizeOf value < sizeOf (Json.object fields) := by
  cases h with
  | field h => exact sizeOf_field_lt h
  | item h hv =>
    have h₁ := sizeOf_field_lt h
    have h₂ := List.sizeOf_lt_of_mem hv
    simp only [Json.array.sizeOf_spec] at h₁
    omega

/-- What holds of every value that is no object, and of an object whenever it holds of its parts,
holds of every value. -/
theorem condition_induction {motive : Json → Prop}
    (other : ∀ value : Json, value.asObject? = none → motive value)
    (object : ∀ fields, (∀ value, Part fields value → motive value) → motive (.object fields)) :
    ∀ value : Json, motive value
  | .object fields => object fields fun value _ => condition_induction other object value
  | .null => other _ rfl
  | .bool _ => other _ rfl
  | .number _ => other _ rfl
  | .string _ => other _ rfl
  | .array _ => other _ rfl
termination_by value => sizeOf value
decreasing_by exact Part.sizeOf_lt ‹_›

end QueryFilter.Json
