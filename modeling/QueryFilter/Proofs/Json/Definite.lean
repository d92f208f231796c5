import QueryFilter.Proofs.Binary64.Exact
import QueryFilter.Proofs.Json.Reordered

/-! # Values that equality determines

Equal values may still be worded differently: both zeros are one number, and an object that has a
key twice is looked at by the first one only. Main statement: what is equal to a value without
either differs from it in the order of keys alone.
-/

namespace QueryFilter

namespace Json

/-- No object has a key twice, and no real number is a zero. -/
inductive Definite : Json → Prop
  | null : Definite .null
  | bool (b : Bool) : Definite (.bool b)
  | integer (n : WordInt) : Definite (.number (.integer n))
  | real {x : Binary64} : x.rank ≠ 0 → Definite (.number (.real x))
  | string (s : String) : Definite (.string s)
  | array {items : List Json} : (∀ item ∈ items, Definite item) → Definite (.array items)
  | object {fields : Fields} :
      fields.keys.Nodup → (∀ field ∈ fields, Definite field.2) → Definite (.object fields)

namespace Definite

variable {x y : Json}

theorem ofBinary64 (x : Binary64) : Definite (.number (.ofBinary64 x)) := by
  by_cases h : x.rank = 0
  · rw [Number.ofBinary64_of_rank_eq_zero h]
    exact .integer _
  · unfold Number.ofBinary64
    split
    · split
      · exact .integer _
      · exact .real h
    · exact .real h

theorem distinct (h : x.Definite) : x.Distinct := by
  induction h with
  | null | bool | integer | real | string => simp
  | array _ ih => exact .array ih
  | object hd _ ih => exact .object hd ih

theorem reordered_of_same (hx : x.Definite) (h : x.same y) : x.Reordered y := by
  induction hx generalizing y with
  | null =>
    cases y with
    | null => exact .null
    | _ => cases h
  | bool b =>
    cases y with
    | bool b' => exact beq_iff_eq.mp h ▸ .bool b
    | _ => cases h
  | string s =>
    cases y with
    | string s' => exact beq_iff_eq.mp h ▸ .string s
    | _ => cases h
  | integer n =>
    obtain ⟨m, rfl, hs⟩ := exists_number_of_same h
    cases m with
    | integer m => exact of_decide_eq_true hs ▸ .number _
    | real => cases hs
  | real hr =>
    obtain ⟨m, rfl, hs⟩ := exists_number_of_same h
    cases m with
    | integer => cases hs
    | real y =>
      rcases Binary64.eq_or_rank_eq_zero (Binary64.same_iff.mp hs) with rfl | ⟨hz, -⟩
      · exact .number _
      · exact absurd hz hr
  | array _ ih =>
    obtain ⟨ys, rfl, hs⟩ := exists_array_of_same h
    obtain ⟨hl, hg⟩ := List.forall₂_iff_get.mp hs
    refine .of_forall₂ (List.forall₂_iff_get.mpr ⟨hl, fun i hi hi' => ?_⟩)
    exact ih _ (List.get_mem ..) (hg i hi hi')
  | @object xs hd _ ih =>
    obtain ⟨ys, rfl⟩ := exists_object_of_same h
    obtain ⟨hl, hw⟩ := (same_object_iff hd).mp h
    have hk : xs.keys.Perm (Fields.keys ys) := by
      refine (List.subperm_of_subset hd hw.keys_subset).perm_of_length_le ?_
      simp [Fields.keys, hl]
    refine .object hd hk fun key x y hx hy => ?_
    obtain ⟨y', hy', hs⟩ := hw key x hx
    obtain rfl := Option.some.inj (hy.symm.trans hy')
    exact ih (key, x) (Fields.mem_of_get? hx) hs

end Definite

end Json

end QueryFilter
