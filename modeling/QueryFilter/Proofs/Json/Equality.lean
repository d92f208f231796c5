import Mathlib.Data.List.Forall2
import Mathlib.Data.List.Nodup
import Mathlib.Data.List.Perm.Subperm
import QueryFilter.Proofs.Json.Fields

/-! # Equality of values

Equality of values looks at fields by key. On values whose objects have no key twice it is an
equivalence, and an object whose fields are all in another one is equal to it if it has as many.
-/

namespace QueryFilter

theorem Number.same_symm {m n : Number} (h : m.same n) : n.same m := by
  cases m <;> cases n <;> simp_all [same, Binary64.same, eq_comm]

theorem Number.same_trans {k m n : Number} (h : k.same m) (h' : m.same n) : k.same n := by
  cases k <;> cases m <;> cases n <;> simp_all [same, Binary64.same]

namespace Json

/-- No object in the value has a key twice. -/
inductive Distinct : Json → Prop
  | null : Distinct .null
  | bool (b : Bool) : Distinct (.bool b)
  | number (n : Number) : Distinct (.number n)
  | string (s : String) : Distinct (.string s)
  | array {items : List Json} : (∀ item ∈ items, Distinct item) → Distinct (.array items)
  | object {fields : Fields} :
      fields.keys.Nodup → (∀ field ∈ fields, Distinct field.2) → Distinct (.object fields)

variable {x y z : Json} {xs ys : Fields}

section Distinct

@[simp] theorem distinct_null : Json.null.Distinct := .null

@[simp] theorem distinct_bool (b : Bool) : (Json.bool b).Distinct := .bool b

@[simp] theorem distinct_number (n : Number) : (Json.number n).Distinct := .number n

@[simp] theorem distinct_string (s : String) : (Json.string s).Distinct := .string s

@[simp] theorem distinct_array_iff {items : List Json} :
    (Json.array items).Distinct ↔ ∀ item ∈ items, item.Distinct :=
  ⟨fun | .array h => h, .array⟩

@[simp] theorem distinct_object_iff :
    (Json.object xs).Distinct ↔ xs.keys.Nodup ∧ ∀ field ∈ xs, field.2.Distinct :=
  ⟨fun | .object hd hf => ⟨hd, hf⟩, fun h => .object h.1 h.2⟩

theorem Distinct.get? (h : x.Distinct) {key : String} {value : Json}
    (hg : x.get? key = some value) : value.Distinct := by
  cases x with
  | object fields => exact (distinct_object_iff.mp h).2 _ (Fields.mem_of_get? hg)
  | _ => cases hg

end Distinct

theorem sameItems_iff {xs ys : List Json} :
    sameItems xs ys ↔ List.Forall₂ (fun x y : Json => x.same y) xs ys := by
  induction xs generalizing ys with
  | nil => cases ys <;> simp [sameItems]
  | cons x xs ih => cases ys <;> simp [sameItems, ih]

section Kinds

/-! What is equal to a value is of its kind. -/

variable {items : List Json}

theorem exists_number_of_same {m : Number} (h : (Json.number m).same y) :
    ∃ n, y = .number n ∧ m.same n := by
  cases y with
  | number n => exact ⟨n, rfl, h⟩
  | _ => cases h

theorem exists_array_of_same (h : (Json.array items).same y) :
    ∃ ys, y = .array ys ∧ List.Forall₂ (fun x y : Json => x.same y) items ys := by
  cases y with
  | array ys => exact ⟨ys, rfl, sameItems_iff.mp h⟩
  | _ => cases h

theorem exists_object_of_same (h : (Json.object xs).same y) : ∃ ys, y = .object ys := by
  cases y with
  | object ys => exact ⟨ys, rfl⟩
  | _ => cases h

end Kinds

/-- Every field of the first has an equal value in the second. -/
def Fields.Within (xs ys : Fields) : Prop :=
  ∀ key x, xs.get? key = some x → ∃ y, ys.get? key = some y ∧ x.same y

theorem sameFields_iff : sameFields xs ys ↔
    ∀ field ∈ xs, ∃ y, ys.get? field.1 = some y ∧ field.2.same y := by
  induction xs with
  | nil => simp [sameFields]
  | cons field xs ih =>
    obtain ⟨key, x⟩ := field
    rw [sameFields, Bool.and_eq_true, ih, List.forall_mem_cons]
    refine and_congr_left fun _ => ?_
    cases ys.get? key <;> simp

theorem within_iff (hd : xs.keys.Nodup) : xs.Within ys ↔
    ∀ field ∈ xs, ∃ y, ys.get? field.1 = some y ∧ field.2.same y := by
  constructor
  · intro h field hf
    exact h field.1 field.2 (Fields.get?_of_mem hd hf)
  · intro h key x hg
    exact h (key, x) (Fields.mem_of_get? hg)

theorem same_object_iff (hd : xs.keys.Nodup) :
    (Json.object xs).same (.object ys) ↔ xs.length = ys.length ∧ xs.Within ys := by
  rw [same, Bool.and_eq_true, beq_iff_eq, sameFields_iff, within_iff hd]

namespace Fields

theorem hasKey_iff_mem_keys {key : String} : xs.hasKey key ↔ key ∈ xs.keys := by
  rw [← Bool.not_eq_false, hasKey_eq_false_iff, get?_eq_none_iff, keys, List.mem_map]
  simp

theorem Within.keys_subset (h : xs.Within ys) : xs.keys ⊆ ys.keys := by
  intro key hk
  rw [← hasKey_iff_mem_keys] at hk ⊢
  obtain ⟨x, hx⟩ := Option.isSome_iff_exists.mp hk
  obtain ⟨y, hy, -⟩ := h key x hx
  rw [hasKey, hy]
  rfl

/-- Fields within others are all of them if they are as many. -/
theorem Within.length_eq_iff (h : xs.Within ys) (hx : xs.keys.Nodup) (hy : ys.keys.Nodup) :
    xs.length = ys.length ↔ ys.keys ⊆ xs.keys := by
  have hl : xs.keys.length = xs.length := List.length_map ..
  have hl' : ys.keys.length = ys.length := List.length_map ..
  have hp := List.subperm_of_subset hx h.keys_subset
  constructor
  · intro he key hk
    exact (hp.perm_of_length_le (by omega)).mem_iff.mpr hk
  · intro hs
    have := hp.length_le
    have := (List.subperm_of_subset hy hs).length_le
    omega

end Fields

theorem Distinct.same_refl (h : x.Distinct) : x.same x := by
  induction h with
  | null => rfl
  | bool b => simp [same]
  | number n => exact n.same_refl
  | string s => simp [same]
  | array _ ih => exact sameItems_iff.mpr (List.forall₂_same.mpr ih)
  | object hd _ ih =>
    refine (same_object_iff hd).mpr ⟨rfl, fun key x hg => ⟨x, hg, ?_⟩⟩
    exact ih (key, x) (Fields.mem_of_get? hg)

theorem Distinct.same_symm (hx : x.Distinct) (hy : y.Distinct) (h : x.same y) : y.same x := by
  induction hx generalizing y with
  | null | bool | string => cases y <;> simp_all [same]
  | number =>
    obtain ⟨n, rfl, hs⟩ := exists_number_of_same h
    exact Number.same_symm hs
  | array _ ih =>
    obtain ⟨ys, rfl, hs⟩ := exists_array_of_same h
    obtain ⟨hl, hg⟩ := List.forall₂_iff_get.mp hs
    refine sameItems_iff.mpr (List.forall₂_iff_get.mpr ⟨hl.symm, fun i hi hi' => ?_⟩)
    have hd := distinct_array_iff.mp hy _ (ys.get_mem ⟨i, hi⟩)
    exact ih _ (List.get_mem ..) hd (hg i hi' hi)
  | @object xs hd _ ih =>
    obtain ⟨ys, rfl⟩ := exists_object_of_same h
    obtain ⟨hd', hf⟩ := distinct_object_iff.mp hy
    obtain ⟨hl, hw⟩ := (same_object_iff hd).mp h
    refine (same_object_iff hd').mpr ⟨hl.symm, fun key y hg => ?_⟩
    have hk : key ∈ xs.keys :=
      (hw.length_eq_iff hd hd').mp hl (List.mem_map_of_mem (Fields.mem_of_get? hg))
    obtain ⟨x, hx⟩ := Option.isSome_iff_exists.mp (Fields.hasKey_iff_mem_keys.mpr hk)
    obtain ⟨_, hy, hs⟩ := hw key x hx
    obtain rfl := Option.some.inj (hg.symm.trans hy)
    exact ⟨x, hx, ih (key, x) (Fields.mem_of_get? hx) (hf _ (Fields.mem_of_get? hg)) hs⟩

theorem Distinct.same_trans (hx : x.Distinct) (h : x.same y) (h' : y.same z) : x.same z := by
  induction hx generalizing y z with
  | null | bool | string => cases y <;> cases z <;> simp_all [same]
  | number =>
    obtain ⟨n, rfl, hs⟩ := exists_number_of_same h
    obtain ⟨n', rfl, hs'⟩ := exists_number_of_same h'
    exact Number.same_trans hs hs'
  | array _ ih =>
    obtain ⟨ys, rfl, hs⟩ := exists_array_of_same h
    obtain ⟨zs, rfl, hs'⟩ := exists_array_of_same h'
    obtain ⟨hl, hg⟩ := List.forall₂_iff_get.mp hs
    obtain ⟨hl', hg'⟩ := List.forall₂_iff_get.mp hs'
    refine sameItems_iff.mpr (List.forall₂_iff_get.mpr ⟨hl.trans hl', fun i hi hi' => ?_⟩)
    exact ih _ (List.get_mem ..) (hg i hi (hl ▸ hi)) (hg' i (hl ▸ hi) hi')
  | @object xs hd _ ih =>
    obtain ⟨ys, rfl⟩ := exists_object_of_same h
    obtain ⟨zs, rfl⟩ := exists_object_of_same h'
    obtain ⟨hl, hw⟩ := (same_object_iff hd).mp h
    rw [same, Bool.and_eq_true, beq_iff_eq, sameFields_iff] at h'
    obtain ⟨hl', hw'⟩ := h'
    refine (same_object_iff hd).mpr ⟨hl.trans hl', fun key x hg => ?_⟩
    obtain ⟨y, hy, hs⟩ := hw key x hg
    obtain ⟨z, hz, hs'⟩ := hw' (key, y) (Fields.mem_of_get? hy)
    exact ⟨z, hz, ih (key, x) (Fields.mem_of_get? hg) hs hs'⟩

end Json

end QueryFilter
