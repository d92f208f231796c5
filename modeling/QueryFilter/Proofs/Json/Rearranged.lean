import QueryFilter.Proofs.Json.Reordered

/-! # Values in another order

Two values that differ in the order in which objects have their keys and lists their items, at any
depth. One step changes the order at one place, and keys may be repeated. Values that differ in the
order of keys alone are a case of it.
-/

namespace QueryFilter.Json

inductive Rearranged : Json → Json → Prop
  | refl (x : Json) : Rearranged x x
  | trans {x y z : Json} : Rearranged x y → Rearranged y z → Rearranged x z
  | keys {xs ys : Fields} : xs.Perm ys → Rearranged (.object xs) (.object ys)
  | items {xs ys : List Json} : xs.Perm ys → Rearranged (.array xs) (.array ys)
  | field (before : Fields) (key : String) {x y : Json} (after : Fields) : Rearranged x y →
      Rearranged (.object (before ++ (key, x) :: after)) (.object (before ++ (key, y) :: after))
  | item (before : List Json) {x y : Json} (after : List Json) : Rearranged x y →
      Rearranged (.array (before ++ x :: after)) (.array (before ++ y :: after))

namespace Rearranged

variable {x y : Json}

theorem array {xs ys : List Json} (h : List.Forall₂ Rearranged xs ys) :
    (Json.array xs).Rearranged (.array ys) := by
  suffices hb : ∀ before, (Json.array (before ++ xs)).Rearranged (.array (before ++ ys)) from hb []
  induction h with
  | nil => exact fun before => .refl _
  | @cons x y xs ys hx _ ih =>
    intro before
    refine (item before xs hx).trans ?_
    rw [List.append_cons, List.append_cons before y ys]
    exact ih _

theorem object {xs ys : Fields}
    (h : List.Forall₂ (fun a b : String × Json => a.1 = b.1 ∧ a.2.Rearranged b.2) xs ys) :
    (Json.object xs).Rearranged (.object ys) := by
  suffices hb : ∀ before, (Json.object (before ++ xs)).Rearranged (.object (before ++ ys)) from
    hb []
  induction h with
  | nil => exact fun before => .refl _
  | @cons a b xs ys hab _ ih =>
    obtain ⟨key, x⟩ := a
    obtain ⟨key', y⟩ := b
    obtain ⟨rfl, hx⟩ := hab
    intro before
    refine (field before key xs hx).trans ?_
    rw [List.append_cons, List.append_cons before (key, y) ys]
    exact ih _

end Rearranged

theorem Reordered.rearranged {x y : Json} (h : x.Reordered y) : x.Rearranged y := by
  induction h with
  | null | bool | number | string => exact .refl _
  | array hl _ ih => exact .array (forall₂_of_getElem? hl ih)
  | @object xs ys hd hp h ih =>
    have hr : (Json.object xs).Reordered (.object ys) := .object hd hp h
    -- First every value is exchanged for its partner, then the fields are brought into order.
    let zs : Fields := xs.map fun field => (field.1, (ys.get? field.1).getD .null)
    have hz : zs.keys = xs.keys := by simp [zs, Fields.keys]
    have hzs : ∀ key y, (key, y) ∈ zs ↔ (key, y) ∈ ys := by
      intro key y
      constructor
      · intro hm
        obtain ⟨⟨k, x⟩, hx, he⟩ := List.mem_map.mp hm
        obtain ⟨rfl, rfl⟩ := Prod.mk.inj he
        obtain ⟨y, hy, -⟩ := hr.exists_of_mem hx
        have hg : ys.get? k = some y := Fields.get?_of_mem (hp.nodup_iff.mp hd) hy
        rwa [hg]
      · intro hm
        obtain ⟨x, hx, -⟩ := hr.symm.exists_of_mem hm
        have hg : ys.get? key = some y := Fields.get?_of_mem (hp.nodup_iff.mp hd) hm
        exact List.mem_map.mpr ⟨(key, x), hx, by rw [hg]; rfl⟩
    have hzd : zs.keys.Nodup := hz ▸ hd
    have hyd : ys.keys.Nodup := hp.nodup_iff.mp hd
    have hperm : zs.Perm ys :=
      (List.perm_ext_iff_of_nodup (hzd.of_map Prod.fst) (hyd.of_map Prod.fst)).mpr
        fun field => hzs field.1 field.2
    have hvalues : (Json.object xs).Rearranged (.object zs) := by
      refine .object ?_
      rw [List.forall₂_map_right_iff, List.forall₂_same]
      rintro ⟨key, x⟩ hx
      obtain ⟨y, hy, -⟩ := hr.exists_of_mem hx
      have hg : ys.get? key = some y := Fields.get?_of_mem (hp.nodup_iff.mp hd) hy
      refine ⟨rfl, ?_⟩
      rw [hg]
      exact ih key x y (Fields.get?_of_mem hd hx) hg
    exact hvalues.trans (.keys hperm)

end QueryFilter.Json
