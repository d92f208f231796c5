import QueryFilter.Json.Record
import QueryFilter.Proofs.Json.Equality
import QueryFilter.Proofs.Lists

/-! # Values with their keys in another order

Two values that differ only in the order in which objects have their keys, at any depth. Looking up
a key in both gives two such values again, so that whatever is told by look-ups, by the set of keys,
or of texts, numbers and flags is the same. Main statement: the values are equal.
-/

namespace QueryFilter.Json

/-- The values differ only in the order of keys, and no object has a key twice, as is so of all that
is parsed. -/
inductive Reordered : Json → Json → Prop
  | null : Reordered .null .null
  | bool (b : Bool) : Reordered (.bool b) (.bool b)
  | number (n : Number) : Reordered (.number n) (.number n)
  | string (s : String) : Reordered (.string s) (.string s)
  | array {xs ys : List Json} : xs.length = ys.length →
      (∀ (i : Nat) x y, xs[i]? = some x → ys[i]? = some y → Reordered x y) →
      Reordered (.array xs) (.array ys)
  | object {xs ys : Fields} : xs.keys.Nodup → xs.keys.Perm ys.keys →
      (∀ key x y, xs.get? key = some x → ys.get? key = some y → Reordered x y) →
      Reordered (.object xs) (.object ys)

variable {x y : Json} {xs ys : Fields}

theorem Fields.exists_get?_of_mem_keys {key : String} (h : key ∈ xs.keys) :
    ∃ x, xs.get? key = some x :=
  Option.isSome_iff_exists.mp (Fields.hasKey_iff_mem_keys.mpr h)

theorem Fields.mem_keys_of_get? {key : String} (h : xs.get? key = some x) : key ∈ xs.keys :=
  List.mem_map_of_mem (Fields.mem_of_get? h)

namespace Reordered

theorem symm (h : x.Reordered y) : y.Reordered x := by
  induction h with
  | null => exact .null
  | bool b => exact .bool b
  | number n => exact .number n
  | string s => exact .string s
  | array hl _ ih => exact .array hl.symm fun i y x hy hx => ih i x y hx hy
  | object hd hp _ ih =>
    exact .object (hp.nodup_iff.mp hd) hp.symm fun key y x hy hx => ih key x y hx hy

theorem distinct (h : x.Reordered y) : x.Distinct := by
  induction h with
  | null | bool | number | string => simp
  | @array xs ys hl _ ih =>
    refine distinct_array_iff.mpr fun x hx => ?_
    obtain ⟨i, hi, rfl⟩ := List.getElem_of_mem hx
    exact ih i _ _ (List.getElem?_eq_getElem hi) (List.getElem?_eq_getElem (hl ▸ hi))
  | object hd hp _ ih =>
    refine distinct_object_iff.mpr ⟨hd, fun field hf => ?_⟩
    obtain ⟨y, hy⟩ := Fields.exists_get?_of_mem_keys (hp.mem_iff.mp (List.mem_map_of_mem hf))
    exact ih field.1 field.2 y (Fields.get?_of_mem hd hf) hy

theorem of_forall₂ {xs ys : List Json} (h : List.Forall₂ Reordered xs ys) :
    (Json.array xs).Reordered (Json.array ys) := by
  obtain ⟨hl, hg⟩ := List.forall₂_iff_get.mp h
  refine .array hl fun i x y hx hy => ?_
  obtain ⟨hi, rfl⟩ := List.getElem?_eq_some_iff.mp hx
  obtain ⟨hi', rfl⟩ := List.getElem?_eq_some_iff.mp hy
  exact hg i hi hi'

theorem forall₂ {xs ys : List Json} (h : (Json.array xs).Reordered (Json.array ys)) :
    List.Forall₂ Reordered xs ys := by
  cases h with
  | array hl hg => exact forall₂_of_getElem? hl hg

section Objects

theorem exists_object (h : (Json.object xs).Reordered y) : ∃ ys, y = .object ys := by
  cases h
  exact ⟨_, rfl⟩

theorem nodup_keys (h : (Json.object xs).Reordered (Json.object ys)) : xs.keys.Nodup := by
  cases h with
  | object hd => exact hd

theorem keys_perm (h : (Json.object xs).Reordered (Json.object ys)) : xs.keys.Perm ys.keys := by
  cases h with
  | object _ hp => exact hp

theorem get? (h : x.Reordered y) (key : String) :
    Option.Rel Reordered (x.get? key) (y.get? key) := by
  cases h with
  | @object xs ys hd hp h =>
    show Option.Rel Reordered (xs.get? key) (ys.get? key)
    cases hx : xs.get? key with
    | some x =>
      obtain ⟨y, hy⟩ := Fields.exists_get?_of_mem_keys (hp.mem_iff.mp (Fields.mem_keys_of_get? hx))
      rw [hy]
      exact .some (h key x y hx hy)
    | none =>
      cases hy : ys.get? key with
      | some y =>
        obtain ⟨x, hx'⟩ :=
          Fields.exists_get?_of_mem_keys (hp.mem_iff.mpr (Fields.mem_keys_of_get? hy))
        rw [hx] at hx'
        cases hx'
      | none => exact .none
  | _ => exact .none

theorem of_get? (hx : xs.keys.Nodup) (hy : ys.keys.Nodup)
    (h : ∀ key, Option.Rel Reordered (xs.get? key) (ys.get? key)) :
    (Json.object xs).Reordered (Json.object ys) := by
  refine .object hx ((List.perm_ext_iff_of_nodup hx hy).mpr fun key => ?_) fun key x y hx hy => ?_
  · rw [← Fields.hasKey_iff_mem_keys, ← Fields.hasKey_iff_mem_keys, Fields.hasKey, Fields.hasKey,
      isSome_eq_of_rel (h key)]
  · obtain ⟨b, hb, hr⟩ := exists_of_rel_some (hx ▸ h key)
    exact Option.some.inj (hb.symm.trans hy) ▸ hr

theorem exists_of_get?_eq_some (h : x.Reordered y) {key : String} {a : Json}
    (ha : x.get? key = some a) : ∃ b, y.get? key = some b ∧ a.Reordered b :=
  exists_of_rel_some (ha ▸ h.get? key)

theorem get?_eq_none (h : x.Reordered y) {key : String} (hn : x.get? key = none) :
    y.get? key = none :=
  eq_none_of_rel (hn ▸ h.get? key)

theorem exists_of_mem (h : (Json.object xs).Reordered (Json.object ys)) {key : String}
    (hx : (key, x) ∈ xs) : ∃ y, (key, y) ∈ ys ∧ x.Reordered y := by
  obtain ⟨y, hy, hr⟩ := h.exists_of_get?_eq_some (Fields.get?_of_mem h.nodup_keys hx)
  exact ⟨y, Fields.mem_of_get? hy, hr⟩

theorem hasKey_eq (h : (Json.object xs).Reordered (Json.object ys)) (key : String) :
    xs.hasKey key = ys.hasKey key :=
  isSome_eq_of_rel (h.get? key)

end Objects

end Reordered

theorem Distinct.reordered (h : x.Distinct) : x.Reordered x := by
  induction h with
  | null => exact .null
  | bool b => exact .bool b
  | number n => exact .number n
  | string s => exact .string s
  | array _ ih => exact .of_forall₂ (List.forall₂_same.mpr ih)
  | object hd _ ih =>
    refine .object hd .rfl fun key x y hx hy => ?_
    obtain rfl := Option.some.inj (hx.symm.trans hy)
    exact ih _ (Fields.mem_of_get? hx)

theorem reordered_of_perm (h : xs.Perm ys) (hd : (Json.object xs).Distinct) :
    (Json.object xs).Reordered (Json.object ys) := by
  obtain ⟨hn, hf⟩ := distinct_object_iff.mp hd
  have hp : xs.keys.Perm ys.keys := h.map Prod.fst
  refine .object hn hp fun key x y hx hy => ?_
  have hm := h.mem_iff.mp (Fields.mem_of_get? hx)
  obtain rfl := Option.some.inj ((Fields.get?_of_mem (hp.nodup_iff.mp hn) hm).symm.trans hy)
  exact (hf _ (Fields.mem_of_get? hx)).reordered

namespace Reordered

theorem same (h : x.Reordered y) : x.same y := by
  induction h with
  | null => rfl
  | bool b => simp [Json.same]
  | number n => exact n.same_refl
  | string s => simp [Json.same]
  | array hl _ ih => exact sameItems_iff.mpr (forall₂_of_getElem? hl ih)
  | @object xs ys hd hp h ih =>
    refine (same_object_iff hd).mpr ⟨?_, fun key x hx => ?_⟩
    · simpa [Fields.keys] using hp.length_eq
    · obtain ⟨y, hy, -⟩ := exists_of_get?_eq_some (.object hd hp h) hx
      exact ⟨y, hy, ih key x y hx hy⟩

section Readers

variable {β : Type} {f : Json → Option β}

theorem scalar_eq (h : x.Reordered y) (ha : ∀ items, f (Json.array items) = none)
    (ho : ∀ fields, f (Json.object fields) = none) : f x = f y := by
  cases h with
  | array => rw [ha, ha]
  | object => rw [ho, ho]
  | _ => rfl

theorem eq_of_scalar (h : x.Reordered y) (ha : ∀ items, f (Json.array items) = none)
    (ho : ∀ fields, f (Json.object fields) = none) {b : β} (hb : f x = some b) : y = x := by
  cases h with
  | array => rw [ha] at hb; cases hb
  | object => rw [ho] at hb; cases hb
  | _ => rfl

theorem text?_eq (h : (Json.object xs).Reordered (Json.object ys)) (key : String) :
    Fields.text? xs key = Fields.text? ys key :=
  bind_eq_of_rel (h.get? key) fun _ _ h => h.scalar_eq (fun _ => rfl) fun _ => rfl

theorem flag?_eq (h : (Json.object xs).Reordered (Json.object ys)) (key : String) :
    Fields.flag? xs key = Fields.flag? ys key :=
  bind_eq_of_rel (h.get? key) fun _ _ h => h.scalar_eq (fun _ => rfl) fun _ => rfl

theorem value? (h : (Json.object xs).Reordered (Json.object ys)) (key : String) :
    Option.Rel Reordered (Fields.value? xs key) (Fields.value? ys key) := by
  have := h.get? key
  simp only [Json.get?] at this
  rw [Fields.value?, Fields.value?]
  generalize Fields.get? xs key = a, Fields.get? ys key = b at this ⊢
  cases this with
  | none => exact .none
  | some h =>
    cases h with
    | null => exact .none
    | bool b => exact .some (.bool b)
    | number n => exact .some (.number n)
    | string s => exact .some (.string s)
    | array hl h => exact .some (.array hl h)
    | object hd hp h => exact .some (.object hd hp h)

theorem map_eq {xs ys : List Json} (h : (Json.array xs).Reordered (Json.array ys))
    (ha : ∀ items, f (Json.array items) = none) (ho : ∀ fields, f (Json.object fields) = none) :
    xs.map f = ys.map f := by
  cases h with
  | array hl h =>
    exact map_eq_map_of_getElem? hl fun i x y hx hy => (h i x y hx hy).scalar_eq ha ho

theorem filterMap_eq {xs ys : List Json} (h : (Json.array xs).Reordered (Json.array ys))
    (ha : ∀ items, f (Json.array items) = none) (ho : ∀ fields, f (Json.object fields) = none) :
    xs.filterMap f = ys.filterMap f := by
  simpa [List.filterMap_map] using congrArg (List.filterMap id) (h.map_eq ha ho)

theorem asObject? {a b : Option Json} (h : Option.Rel Reordered a b) :
    Option.Rel (fun xs ys => (Json.object xs).Reordered (Json.object ys))
      (a.bind Json.asObject?) (b.bind Json.asObject?) := by
  cases h with
  | none => exact .none
  | some h =>
    cases h with
    | object hd hp h => exact .some (.object hd hp h)
    | _ => exact .none

theorem getD_nil {a b : Option Fields}
    (h : Option.Rel (fun xs ys => (Json.object xs).Reordered (Json.object ys)) a b) :
    (Json.object (a.getD [])).Reordered (Json.object (b.getD [])) := by
  cases h with
  | some h => exact h
  | none => exact Distinct.reordered (by simp [Fields.keys])

end Readers

theorem filter (h : (Json.object xs).Reordered (Json.object ys)) (p : String → Bool) :
    (Json.object (xs.filter fun field => p field.1)).Reordered
      (Json.object (ys.filter fun field => p field.1)) := by
  have hn {zs : Fields} (hd : zs.keys.Nodup) :
      (Fields.keys (zs.filter fun field => p field.1)).Nodup :=
    hd.sublist (List.filter_sublist.map _)
  refine of_get? (hn h.nodup_keys) (hn h.symm.nodup_keys) fun key => ?_
  rw [Fields.get?_filter, Fields.get?_filter]
  split
  · exact h.get? key
  · exact .none

theorem insertAll (h : (Json.object xs).Reordered (Json.object ys)) {added added' : Fields}
    (ha : (Json.object added).Reordered (Json.object added')) :
    (Json.object (xs.insertAll added)).Reordered (Json.object (ys.insertAll added')) := by
  refine of_get? (Fields.nodup_keys_insertAll h.nodup_keys)
    (Fields.nodup_keys_insertAll h.symm.nodup_keys) fun key => ?_
  rw [Fields.get?_insertAll ha.nodup_keys, Fields.get?_insertAll ha.symm.nodup_keys]
  exact rel_or (ha.get? key) (h.get? key)

theorem of_forall₂_fields (hd : xs.keys.Nodup)
    (h : List.Forall₂ (fun a b : String × Json => a.1 = b.1 ∧ a.2.Reordered b.2) xs ys) :
    (Json.object xs).Reordered (Json.object ys) := by
  have hk : xs.keys = ys.keys := by
    have he : List.Forall₂ (· = ·) (xs.map Prod.fst) (ys.map Prod.fst) := by
      rw [List.forall₂_map_left_iff, List.forall₂_map_right_iff]
      exact h.imp fun _ _ h => h.1
    rwa [List.forall₂_eq_eq_eq] at he
  refine of_get? hd (hk ▸ hd) fun key => ?_
  clear hd hk
  induction h with
  | nil => exact .none
  | @cons a b xs ys hab _ ih =>
    obtain ⟨k, x⟩ := a
    obtain ⟨k', y⟩ := b
    obtain ⟨rfl, hr⟩ := hab
    rw [Fields.get?_cons, Fields.get?_cons]
    split
    · exact .some hr
    · exact ih

theorem single (h : x.Reordered y) (key : String) :
    (Json.object [(key, x)]).Reordered (Json.object [(key, y)]) :=
  of_forall₂_fields (List.nodup_singleton key) (.cons ⟨rfl, h⟩ .nil)

end Reordered

end QueryFilter.Json
