import QueryFilter.Item.Shape
import QueryFilter.Proofs.Item.Record
import QueryFilter.Proofs.Json.Reordered

/-! # Items with their keys in another order

A record is read by the names of its fields, and the shape of a condition is told by its keys. So
both values make an item or none does, the items are about one target, and their conditions have one
shape.
-/

namespace QueryFilter

open Json (Fields)

namespace Json

variable {x y : Json}

/-- The check passes a value in every order of its keys. -/
def Check.IgnoresOrder (check : Check) : Prop :=
  ∀ x y : Json, x.Reordered y → check x = .ok () → check y = .ok ()

theorem ignoresOrder_checkText : Check.IgnoresOrder checkText := by
  intro x y h hx
  cases h with
  | string => rfl
  | _ => cases hx

theorem ignoresOrder_checkFlag : Check.IgnoresOrder checkFlag := by
  intro x y h hx
  cases h with
  | bool => rfl
  | _ => cases hx

theorem ignoresOrder_checkOptional {check : Check} (hc : check.IgnoresOrder) :
    (checkOptional check).IgnoresOrder := by
  intro x y h hx
  cases h with
  | null => rfl
  | bool | number | string => exact hx
  | array hl h => exact hc _ _ (.array hl h) hx
  | object hd hp h => exact hc _ _ (.object hd hp h) hx

end Json

namespace Item

variable {x y : Json} {xs ys : Fields} {a b : Item}

theorem reordered_unwrap (h : x.Reordered y) : (unwrap x).Reordered (unwrap y) := by
  unfold unwrap
  split
  · next inner hx =>
    obtain ⟨value, hy, hr⟩ := h.exists_of_get?_eq_some hx
    cases hr with
    | object hd hp hv => rw [hy]; exact .object hd hp hv
  · next hx =>
    split
    · next inner hy =>
      obtain ⟨value, hx', hr⟩ := h.symm.exists_of_get?_eq_some hy
      cases hr with
      | object => exact absurd hx' (hx _)
    · exact h

section Records

theorem ignoresOrder_of_lookup {key : String} {check : Json.Check}
    (h : recordShape.fields.lookup key = some check) : check.IgnoresOrder := by
  have hall : ∀ field ∈ recordShape.fields, field.2.IgnoresOrder := by
    have ht := Json.ignoresOrder_checkOptional Json.ignoresOrder_checkText
    have hf := Json.ignoresOrder_checkOptional Json.ignoresOrder_checkFlag
    have ha : Json.Check.IgnoresOrder Json.checkAny := fun _ _ _ _ => rfl
    simp only [recordShape, List.forall_mem_cons]
    exact ⟨ht, ht, ht, ht, ha, ht, ha, hf, by simp⟩
  obtain ⟨before, after, he, -⟩ := List.lookup_eq_some_iff.mp h
  exact hall (key, check) (by simp [he])

theorem checkField_of_reordered (h : x.Reordered y) {key : String}
    (hx : recordShape.checkField (key, x) = .ok ()) : recordShape.checkField (key, y) = .ok () := by
  rw [Json.RecordShape.checkField] at hx ⊢
  cases hl : recordShape.fields.lookup key with
  | none => rfl
  | some check =>
    rw [hl] at hx
    exact ignoresOrder_of_lookup hl x y h hx

/-- A list is read as the record of its items under the declared names. -/
theorem ofRecord_array_eq_ok_iff {items : List Json} :
    ofRecord (.array items) = .ok a ↔
      items.length = recordShape.fields.length ∧
        ofRecord (.object ((recordShape.fields.map Prod.fst).zip items)) = .ok a := by
  rw [ofRecord_object_eq_ok_iff, ← forM_eq_ok_iff]
  simp only [ofRecord, Json.RecordShape.read, map_eq_ok_iff, bind_eq_ok_iff, pure, Except.pure]
  constructor
  · rintro ⟨_, ⟨_, hc, h⟩, rfl⟩
    split at h
    · cases h
    split at h
    · cases h
    · cases h
      exact ⟨by omega, hc, rfl⟩
  · rintro ⟨hl, hc, rfl⟩
    refine ⟨_, ⟨(), hc, ?_⟩, rfl⟩
    rw [if_neg (by omega), if_neg (by omega)]

theorem reordered_zip {items items' : List Json}
    (h : (Json.array items).Reordered (.array items'))
    (hl : items.length = recordShape.fields.length) :
    (Json.object ((recordShape.fields.map Prod.fst).zip items)).Reordered
      (.object ((recordShape.fields.map Prod.fst).zip items')) := by
  refine .of_forall₂_fields ?_ ?_
  · rw [Fields.keys, List.map_fst_zip (by simp [hl])]
    decide
  · have hf := h.forall₂
    clear hl h
    generalize recordShape.fields.map Prod.fst = names
    induction hf generalizing names with
    | nil => simp
    | cons hr _ ih =>
      cases names with
      | nil => exact .nil
      | cons name names => exact .cons ⟨rfl, hr⟩ (ih names)

end Records

/-- The items differ only in the order of keys in their formulas and conditions. -/
structure Reordered (a b : Item) : Prop where
  dim_eq : a.dim = b.dim
  typeName_eq : a.typeName = b.typeName
  title_eq : a.title = b.title
  aggregation_eq : a.aggregation = b.aggregation
  formula : Option.Rel Json.Reordered a.formula b.formula
  level_eq : a.level = b.level
  condition : Option.Rel Json.Reordered a.condition b.condition
  multiSelection_eq : a.multiSelection = b.multiSelection

theorem reordered_ofFields (h : (Json.object xs).Reordered (.object ys)) :
    (ofFields xs).Reordered (ofFields ys) where
  dim_eq := h.text?_eq "dim"
  typeName_eq := h.text?_eq "datatype"
  title_eq := h.text?_eq "title"
  aggregation_eq := h.text?_eq "agg"
  formula := h.value? "formula"
  level_eq := h.text?_eq "level"
  condition := h.value? "filter"
  multiSelection_eq := h.flag?_eq "multiSelection"

theorem exists_reordered_of_ofRecord (h : x.Reordered y) (hx : ofRecord x = .ok a) :
    ∃ b, ofRecord y = .ok b ∧ a.Reordered b := by
  have object {xs ys : Fields} (h : (Json.object xs).Reordered (.object ys))
      (hx : ofRecord (.object xs) = .ok a) :
      ∃ b, ofRecord (.object ys) = .ok b ∧ a.Reordered b := by
    obtain ⟨hc, rfl⟩ := ofRecord_object_eq_ok_iff.mp hx
    refine ⟨ofFields ys, ofRecord_object_eq_ok_iff.mpr ⟨fun field hf => ?_, rfl⟩,
      reordered_ofFields h⟩
    obtain ⟨x, hx, hr⟩ := h.symm.exists_of_mem hf
    exact checkField_of_reordered hr.symm (hc _ hx)
  cases h with
  | object hd hp h => exact object (.object hd hp h) hx
  | array hl h =>
    obtain ⟨hn, hx⟩ := ofRecord_array_eq_ok_iff.mp hx
    obtain ⟨b, hy, hr⟩ := object (reordered_zip (.array hl h) hn) hx
    exact ⟨b, ofRecord_array_eq_ok_iff.mpr ⟨hl ▸ hn, hy⟩, hr⟩
  | _ => cases hx

theorem exists_reordered_of_ofPayload (h : x.Reordered y) (hx : ofPayload x = .ok a) :
    ∃ b, ofPayload y = .ok b ∧ a.Reordered b :=
  exists_reordered_of_ofRecord (reordered_unwrap h) hx

namespace Reordered

variable (h : a.Reordered b)

include h

theorem datatype_eq : a.datatype = b.datatype := by rw [datatype, datatype, h.typeName_eq]

theorem target?_eq : a.target? = b.target? := by
  simp only [target?, column?, h.dim_eq, h.title_eq, h.datatype_eq, h.level_eq, h.aggregation_eq]

theorem isSome_formula_eq : a.formula.isSome = b.formula.isSome := isSome_eq_of_rel h.formula

theorem conditionFields? :
    Option.Rel (fun xs ys => (Json.object xs).Reordered (.object ys))
      a.conditionFields? b.conditionFields? := Json.Reordered.asObject? h.condition

theorem hasFormula_eq : a.hasFormula = b.hasFormula := by
  rw [hasFormula, hasFormula, h.isSome_formula_eq,
    any_eq_of_rel h.conditionFields? fun _ _ h => h.hasKey_eq "formula"]

theorem allowsMultiSelection_eq : a.allowsMultiSelection = b.allowsMultiSelection := by
  rw [allowsMultiSelection, allowsMultiSelection, h.multiSelection_eq,
    bind_eq_of_rel h.conditionFields? fun _ _ h => h.flag?_eq "multiSelection"]

end Reordered

theorem nodup_keys_of_conditionFields? {payload : Json} {item : Item} {fields : Fields}
    (hd : payload.Distinct) (hi : ofPayload payload = .ok item)
    (hc : item.conditionFields? = some fields) : fields.keys.Nodup := by
  obtain ⟨other, ho, hr⟩ := exists_reordered_of_ofPayload hd.reordered hi
  obtain rfl : item = other := Except.ok.inj (hi.symm.trans ho)
  have hrel := hr.conditionFields?
  rw [hc] at hrel
  cases hrel with
  | some h => exact h.nodup_keys

end Item

namespace Shape

variable {xs ys : Fields} (h : (Json.object xs).Reordered (.object ys))

include h

theorem includesAll_eq_of_reordered : includesAll xs = includesAll ys := by
  have hk : xs.keys.all includeAllKeys.contains = ys.keys.all includeAllKeys.contains := by
    rw [Bool.eq_iff_iff, List.all_eq_true, List.all_eq_true]
    exact forall_congr' fun _ => by rw [h.keys_perm.mem_iff]
  have hm := h.get? "members"
  simp only [Json.get?] at hm
  rw [includesAll, includesAll, hk]
  generalize Fields.get? xs "members" = v, Fields.get? ys "members" = w at hm ⊢
  cases hm with
  | none => rfl
  | some hr =>
    cases hr with
    | @array items items' hl =>
      cases items <;> cases items' <;> first | rfl | cases hl
    | _ => rfl

theorem listsMembers_eq_of_reordered : listsMembers xs = listsMembers ys := by
  have hx := Json.Reordered.asObject? (h.get? "exclude")
  rw [listsMembers, listsMembers, h.hasKey_eq]
  exact congrArg _ (any_eq_of_rel hx fun _ _ h => h.hasKey_eq "members")

theorem hasRange_eq_of_reordered : hasRange xs = hasRange ys := by
  rw [hasRange, hasRange, h.hasKey_eq, h.hasKey_eq]

theorem any_keys_eq_of_reordered (p : String → Bool) : xs.keys.any p = ys.keys.any p := by
  rw [Bool.eq_iff_iff, List.any_eq_true, List.any_eq_true]
  exact exists_congr fun _ => by rw [h.keys_perm.mem_iff]

theorem ofFields_eq_of_reordered (d : DataType) : ofFields d xs = ofFields d ys := by
  have hc : isCondition d xs = isCondition d ys := by
    rw [isCondition, isCondition, any_keys_eq_of_reordered h, h.hasKey_eq,
      hasRange_eq_of_reordered h]
  simp only [ofFields, includesAll_eq_of_reordered h, listsMembers_eq_of_reordered h, hc,
    hasRange_eq_of_reordered h, h.hasKey_eq, any_keys_eq_of_reordered h]

end Shape

theorem Item.Reordered.shape?_eq {a b : Item} (h : a.Reordered b) : a.shape? = b.shape? := by
  have := h.conditionFields?
  rw [Item.shape?, Item.shape?, h.hasFormula_eq, h.datatype_eq]
  generalize a.conditionFields? = v, b.conditionFields? = w at this ⊢
  cases this with
  | some h => simp only [Shape.ofFields_eq_of_reordered h]
  | none => rfl

end QueryFilter
