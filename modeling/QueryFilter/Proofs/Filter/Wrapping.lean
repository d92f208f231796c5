import QueryFilter.Proofs.Filter.FixedPoint
import QueryFilter.Proofs.Filter.Shapes

/-! # Filters inside and outside a wrapper

An item reads back as one filter, bare or inside a wrapper, if it is an object that is no wrapper
itself. A filter that was read from a list of fields writes an object, which gives the filter back
unless it is a range without bounds; whatever else was read is told apart by its wrapper.
-/

namespace QueryFilter

open Json (Fields)
open Reading

/-- The value is an object that cannot be taken for a wrapper. -/
def Json.IsBare (value : Json) : Prop :=
  ∃ fields, value = .object fields ∧ ∀ inner, Fields.get? fields "jaql" ≠ some (.object inner)

namespace Item

variable {value : Json}

theorem unwrap_of_isBare (h : value.IsBare) : unwrap value = value := by
  obtain ⟨fields, rfl, hb⟩ := h
  exact unwrap_object hb

theorem unwrap_of_not_object (h : value.asObject? = none) : unwrap value = value := by
  cases value <;> first | rfl | cases h

theorem unwrap_cases (value : Json) :
    value.IsBare ∨ value.asObject? = none ∨
      ∃ inner, value.get? "jaql" = some (.object inner) ∧ unwrap value = .object inner := by
  cases value with
  | object fields =>
    by_cases h : ∃ inner, Fields.get? fields "jaql" = some (.object inner)
    · obtain ⟨inner, h⟩ := h
      exact .inr (.inr ⟨inner, h, by simp only [unwrap, Json.get?, h]⟩)
    · exact .inl ⟨fields, rfl, fun inner hi => h ⟨inner, hi⟩⟩
  | _ => exact .inr (.inl rfl)

end Item

namespace Filter

variable {payload payload' : Json} {guid : String} {f : Filter} {t : Target} {items : List Json}

theorem unwrap_payload_of_object {fields : Fields} (h : f.item = .object fields) :
    Item.unwrap f.payload = f.item := by
  rw [payload, h]
  rfl

theorem unwrap_payload_of_not_object (h : f.item.asObject? = none) :
    Item.unwrap f.payload = f.payload := by
  rw [payload]
  cases hi : f.item <;> simp_all [Item.unwrap, Json.get?, Json.asObject?]

theorem unwrap_payload_eq_iff : Item.unwrap f.payload = Item.unwrap f.item ↔ f.item.IsBare := by
  constructor
  · intro h
    rcases Item.unwrap_cases f.item with hb | ho | ⟨inner, hi, hu⟩
    · exact hb
    · rw [unwrap_payload_of_not_object ho, Item.unwrap_of_not_object ho] at h
      rw [← h] at ho
      cases ho
    · cases hv : f.item with
      | object fields =>
        rw [unwrap_payload_of_object hv, hu] at h
        rw [h] at hi
        exact absurd (Json.sizeOf_field_lt (Fields.mem_of_get? hi)) (by simp)
      | _ => simp [hv, Json.get?] at hi
  · rintro ⟨fields, hi, hb⟩
    rw [unwrap_payload_of_object hi, Item.unwrap_of_isBare ⟨fields, hi, hb⟩]

section Lists

theorem ownCondition_of_not_sourceCondition (hs : f.sourceCondition? = none) :
    f.ownCondition = f.condition := by
  rw [ownCondition, hs]

/-- The filter over an object without fields, which says as little of its condition as a list. -/
def overNothing (f : Filter) : Filter := f.withSource (.object [])

theorem target?_overNothing (f : Filter) : f.overNothing.target? = f.target? := by cases f; rfl

theorem condition_overNothing (f : Filter) : f.overNothing.condition = f.condition := by
  obtain ⟨kind, settings⟩ := f
  cases kind <;> rfl

theorem fullCondition_overNothing (hb : f.settings.background = none) :
    f.overNothing.fullCondition = f.condition := by
  rw [fullCondition_eq_ownCondition (f := f.overNothing) hb,
    ownCondition_of_not_sourceCondition rfl, condition_overNothing]

theorem mergedFields_nil (ht : f.target? = some t) : f.mergedFields [] = f.typedFields :=
  Fields.insertAll_nil (nodup_keys_typedFields ht)

theorem item_overNothing (ht : f.target? = some t) (hb : f.settings.background = none)
    (hs : f.settings.source = some (.array items)) : f.overNothing.item = f.item := by
  have ht' := (target?_overNothing f).trans ht
  have hf : f.fullCondition = f.condition := by
    rw [fullCondition_eq_ownCondition hb, ownCondition_of_not_sourceCondition]
    rw [sourceCondition?, hs]
    rfl
  have hx : f.overNothing.selectionField = f.selectionField := by
    obtain ⟨kind, settings⟩ := f
    cases kind <;> rfl
  rw [item_eq_mergedFields ht' rfl, mergedFields_nil ht', typedFields_eq ht',
    fullCondition_overNothing hb, hx, item_eq_typedItem ht, typedItem, hs, typedFields_eq ht, hf]

theorem carries_overNothing (ht : f.target? = some t) (hb : f.settings.background = none)
    {condition : Fields} (hc : f.condition = .object condition)
    (hn : condition.get? "formula" = none) :
    Item.Carries (f.overNothing.mergedFields []) t condition :=
  carries_mergedFields ((target?_overNothing f).trans ht)
    ((fullCondition_overNothing hb).trans hc) hn (by simp) (by simp) rfl

theorem ofMembers_ne_nil (names : List String) (settings : Settings) :
    Condition.ofMembers names settings ≠ [] := by
  unfold Condition.ofMembers
  split
  · simp
  · split <;> simp

theorem ofBounds_ne_nil (first : Bound) (second : Option Bound) :
    Condition.ofBounds first second ≠ [] := by
  cases second with
  | none => simp [Condition.ofBounds, Fields.insertAll, Fields.insert]
  | some b =>
    simp only [Condition.ofBounds, Fields.insertAll, Fields.insert, Option.toList, List.map_cons,
      List.map_nil, List.foldl_cons, List.foldl_nil]
    split <;> simp

theorem exists_openRange_of_condition (ht : f.target? = some t) (h : f.condition = .object []) :
    ∃ column, f.kind = .dateRange column none none := by
  obtain ⟨kind, settings⟩ := f
  cases kind with
  | dateRange column start finish =>
    cases start with
    | some _ => cases h
    | none =>
      cases finish with
      | some _ => cases h
      | none => exact ⟨column, rfl⟩
  | members column names => exact absurd (Json.object.inj h) (ofMembers_ne_nil names settings)
  | numeric _ first second => exact absurd (Json.object.inj h) (ofBounds_ne_nil first second)
  | custom => cases ht
  | _ => cases h

theorem item_of_members_array {item : Item} {shape : Shape}
    (hs : shape = .includeAll ∨ shape = .specificItems)
    (hl : shape = .specificItems → Shape.listsMembers (conditionOf item))
    (hf : shapedFilter item t (readSettings (.array items) guid) shape = .ok f) :
    (ofPayload f.item guid).item = f.item := by
  obtain ⟨hw, names, excludes, deactivated, he⟩ := exists_of_membersShape hs hl hf
  have ht : f.target? = some (.column t.base) := by rw [he]; rfl
  have hb : f.settings.background = none := by rw [he]
  have ht' := (target?_overNothing f).trans ht
  have hm : (f.overNothing.mergedFields []).get? "multiSelection" =
      some (.bool item.allowsMultiSelection) := by
    rw [mergedFields_nil ht', get?_typedFields_selection ht', he]
    rfl
  have hcar := carries_overNothing ht hb (by rw [he]; rfl) (formula_ofMembers _ _)
  have hp : ofPayload? f.overNothing.item guid =
      .ok (f.overNothing.withSource (.object (f.overNothing.mergedFields []))) := by
    rw [item_eq_mergedFields ht' rfl]
    rw [he] at hw hcar hm ⊢
    obtain ⟨_, hn, hd, hx⟩ := hw
    exact ofPayload?_of_members hcar hm hn hd hx
  rw [← item_overNothing ht hb (by rw [he]), ofPayload_of_ok hp]
  exact ((repeats_withSource (f := f.overNothing) hb).settled ht' hb rfl).item_eq

theorem item_of_condition_array {item : Item} {shape : Shape} (ht : t.reread = t)
    (hs : shape.readsCondition) (hc : Shape.ofFields t.base.datatype (conditionOf item) = shape)
    (ho : ∀ column, f.kind ≠ .dateRange column none none)
    (hf : shapedFilter item t (readSettings (.array items) guid) shape = .ok f) :
    (ofPayload f.item guid).item = f.item := by
  rw [shapedFilter_of_readsCondition hs] at hf
  obtain ⟨g, hg, rfl⟩ := map_eq_ok_iff.mp hf
  have hg := gives_of_conditionFilter hg
  have hm := name_ne_members_of_gives hg (hc ▸ hs)
  have htf := (target?_withSettings g (readSettings (.array items) guid)).trans hg.target?_eq
  obtain ⟨f', hr⟩ := exists_represents hg.targetOf
  obtain ⟨own, hown⟩ := hr.wellFormed.exists_condition
  have hown : (g.withSettings (readSettings (.array items) guid)).condition = .object own := by
    rw [condition_withSettings hm, ← hr.condition_eq, hown]
  have hne : own ≠ [] := by
    rintro rfl
    obtain ⟨column, hk⟩ := exists_openRange_of_condition htf hown
    exact ho column hk
  have hi := item_eq_mergedFields ((target?_overNothing _).trans htf) rfl
  rw [← item_overNothing htf rfl rfl, hi]
  refine (Settled.item_eq ?_).trans hi
  exact settled_of_ownCondition ht hg hm rfl ((condition_overNothing _).trans hown) hne
    (carries_overNothing htf rfl hown) ((fullCondition_overNothing rfl).trans hown)

/-- What a range without bounds writes is read as a selection of all members. -/
theorem item_ne_of_openRange {column : Column} (hk : f.kind = .dateRange column none none)
    (hb : f.settings.background = none) (hs : f.settings.source = some (.array items)) :
    (ofPayload f.item guid).item ≠ f.item := by
  obtain ⟨kind, settings⟩ := f
  cases hk
  let f : Filter := ⟨.dateRange column none none, settings⟩
  have ht : f.target? = some (.column column) := rfl
  have ht' := (target?_overNothing f).trans ht
  have hc : f.condition = .object [] := rfl
  have hcar := carries_overNothing ht hb hc rfl
  have hp := (hcar.ofPayload?_eq guid).trans (if_neg (show Shape.includeAll ≠ .invalid by decide))
  have hi := item_eq_mergedFields ht' rfl
  rw [← item_overNothing (f := f) ht hb hs, hi, ofPayload_of_ok hp]
  intro h
  rw [item_eq_mergedFields (t := .column column) rfl rfl] at h
  have hg := congrArg (Json.get? · "multiSelection") h
  simp only [Json.get?] at hg
  rw [get?_mergedFields (t := .column column) rfl, mergedFields_nil ht',
    get?_typedFields_selection ht', if_pos (by decide),
    get?_typedFields_selection (t := .column column) rfl] at hg
  cases hg

end Lists

section Payloads

theorem exists_target?_of_ofPayload? (hp : ofPayload? payload guid = .ok f)
    (hk : f.kind.name ≠ "custom") : ∃ t, f.target? = some t := by
  obtain ⟨item, t, shape, -, -, -, -, hf⟩ := readFrom?_eq_ok_iff.mp hp
  cases shape with
  | invalid => cases hf
  | advanced => exact absurd (by rw [← Except.ok.inj hf]; rfl) hk
  | includeAll =>
    obtain rfl := Except.ok.inj hf
    exact ⟨_, rfl⟩
  | specificItems => exact ⟨_, (target?_of_membersFilter hf).1⟩
  | condition | dateRange | numericRange | period =>
    obtain ⟨g, hg, rfl⟩ := map_eq_ok_iff.mp hf
    exact ⟨_, (target?_withSettings ..).trans (gives_of_conditionFilter hg).target?_eq⟩

theorem exists_ofPayload?_of_name (hk : (ofPayload payload guid).kind.name ≠ "custom") :
    ofPayload? payload guid = .ok (ofPayload payload guid) := by
  cases hp : ofPayload? payload guid with
  | ok f => rw [ofPayload_of_ok hp]
  | error => exact absurd (by rw [ofPayload_of_error hp]; rfl) hk

theorem source_ofPayload (payload : Json) (guid : String) :
    (ofPayload payload guid).settings.source = some (Item.unwrap payload) :=
  (carriedWith_ofPayload payload guid).source_eq

theorem isBare_item_iff {fields : Fields} (hu : Item.unwrap payload = .object fields) :
    (ofPayload payload guid).item.IsBare ↔ (Json.object fields).IsBare := by
  have hs := (source_ofPayload payload guid).trans (congrArg some hu)
  by_cases hk : (ofPayload payload guid).kind.name = "custom"
  · rw [item_of_custom hk hs]
  · obtain ⟨t, ht⟩ := exists_target?_of_ofPayload? (exists_ofPayload?_of_name hk) hk
    rw [item_eq_mergedFields ht hs]
    simp only [Json.IsBare, Json.object.injEq, exists_eq_left', get?_mergedFields ht,
      show "jaql" ∉ modelKeys by decide, if_false]

theorem item_ofPayload_of_object {fields : Fields}
    (hb : ∀ inner, fields.get? "jaql" ≠ some (.object inner)) :
    (ofPayload (ofPayload (.object fields) guid).item guid).item =
      (ofPayload (.object fields) guid).item := by
  have hs := source_of_ofPayload hb guid
  by_cases hk : (ofPayload (.object fields) guid).kind.name = "custom"
  · rw [item_of_custom hk hs, item_of_custom hk hs]
  · exact (settled_of_ok hb (exists_ofPayload?_of_name hk) hk).item_eq

theorem item_ofPayload_of_array
    (hk : (ofPayload (.array items) guid).kind.name ≠ "custom")
    (ho : ∀ column, (ofPayload (.array items) guid).kind ≠ .dateRange column none none) :
    (ofPayload (.array items) guid).item.IsBare ∧
      (ofPayload (ofPayload (.array items) guid).item guid).item =
        (ofPayload (.array items) guid).item := by
  have hp := exists_ofPayload?_of_name hk
  generalize ofPayload (.array items) guid = f at hk ho hp ⊢
  obtain ⟨t', ht'⟩ := exists_target?_of_ofPayload? hp hk
  have hs := (carriedWith_of_ofPayload? hp).source_eq
  refine ⟨?_, ?_⟩
  · rw [item_eq_typedItem ht', typedItem, hs]
    exact ⟨_, rfl, bare_typedFields ht'⟩
  obtain ⟨item, t, shape, -, ht, hsh, hi, hf⟩ := readFrom?_eq_ok_iff.mp hp
  have hd := Item.of_target?_eq_some ht
  have hc := Item.shape_eq_of_shape? hsh hi
  cases shape with
  | invalid => exact absurd rfl hi
  | advanced => exact absurd (by rw [← Except.ok.inj hf]; rfl) hk
  | includeAll => exact item_of_members_array (.inl rfl) (by rintro ⟨⟩) hf
  | specificItems =>
    exact item_of_members_array (.inr rfl) (fun _ => Shape.listsMembers_of_specificItems hc) hf
  | condition | dateRange | numericRange | period =>
    exact item_of_condition_array hd.2 rfl (hd.1 ▸ hc) ho hf

/-- The payload's item is an object that is no wrapper, or a list that is read as a filter whose
condition has a field. -/
def Rereadable (payload : Json) (guid : String) : Prop :=
  (Item.unwrap payload).IsBare ∨
    ∃ items, payload = .array items ∧ (ofPayload payload guid).kind.name ≠ "custom" ∧
      ∀ column, (ofPayload payload guid).kind ≠ .dateRange column none none

theorem Rereadable.item_eq (h : Rereadable payload guid) :
    (ofPayload payload guid).item.IsBare ∧
      (ofPayload (ofPayload payload guid).item guid).item = (ofPayload payload guid).item := by
  rcases h with ⟨fields, hu, hb⟩ | ⟨items, rfl, hk, ho⟩
  · refine ⟨(isBare_item_iff hu).mpr ⟨fields, rfl, hb⟩, ?_⟩
    rw [ofPayload_congr (hu.trans (Item.unwrap_object hb).symm)]
    exact item_ofPayload_of_object hb
  · exact item_ofPayload_of_array hk ho

theorem exists_array_of_ofPayload? (hp : ofPayload? payload guid = .ok f)
    (hn : payload.asObject? = none) : ∃ items, payload = .array items := by
  obtain ⟨item, -, -, hi, -⟩ := readFrom?_eq_ok_iff.mp hp
  rw [Item.unwrap_of_not_object hn, Item.ofPayload, Item.unwrap_of_not_object hn] at hi
  cases payload with
  | array items => exact ⟨items, rfl⟩
  | object => cases hn
  | _ => cases hi

theorem rereadable_of_item_eq (hb : (ofPayload payload guid).item.IsBare)
    (hi : (ofPayload (ofPayload payload guid).item guid).item = (ofPayload payload guid).item) :
    Rereadable payload guid := by
  rcases Item.unwrap_cases payload with hp | hn | ⟨inner, -, hu⟩
  · exact .inl ((Item.unwrap_of_isBare hp).symm ▸ hp)
  · have hs := source_ofPayload payload guid
    rw [Item.unwrap_of_not_object hn] at hs
    by_cases hk : (ofPayload payload guid).kind.name = "custom"
    · obtain ⟨fields, hf, -⟩ := hb
      rw [item_of_custom hk hs] at hf
      rw [hf] at hn
      cases hn
    · obtain ⟨items, rfl⟩ := exists_array_of_ofPayload? (exists_ofPayload?_of_name hk) hn
      refine .inr ⟨items, rfl, hk, fun column ho => ?_⟩
      exact item_ne_of_openRange ho (carriedWith_ofPayload ..).background_eq hs hi
  · exact .inl (hu ▸ (isBare_item_iff hu).mp hb)

/-- A filter that was read reads back as one filter, bare and wrapped, that writes the same item,
just if its payload can be read again. -/
theorem ofPayload_payload_iff (payload : Json) (guid : String) :
    let f := ofPayload payload guid
    let bare := ofPayload f.item guid
    let wrapped := ofPayload f.payload guid
    (wrapped.settings.source = bare.settings.source ∧ bare.item = f.item ∧ wrapped.item = f.item ↔
        Rereadable payload guid) ∧
      (Rereadable payload guid → wrapped = bare) := by
  intro f bare wrapped
  have hr (h : Rereadable payload guid) : wrapped = bare :=
    ofPayload_congr (unwrap_payload_eq_iff.mpr h.item_eq.1)
  refine ⟨⟨?_, fun h => ?_⟩, hr⟩
  · rintro ⟨hs, hi, -⟩
    rw [source_ofPayload, source_ofPayload, Option.some.injEq] at hs
    exact rereadable_of_item_eq (unwrap_payload_eq_iff.mp hs) hi
  · rw [hr h]
    exact ⟨rfl, h.item_eq.2, h.item_eq.2⟩

/-- A number is kept as it is, and so is its wrapper. -/
theorem source_ofPayload_payload_number :
    let f := ofPayload (.number (.integer ⟨42, by decide, by decide⟩)) "g"
    (ofPayload f.payload "g").settings.source ≠ (ofPayload f.item "g").settings.source ∧
      (ofPayload f.payload "g").item ≠ f.item := by
  intro f
  refine ⟨?_, ?_⟩
  · rintro ⟨⟩
  · rintro ⟨⟩

end Payloads

end Filter

end QueryFilter
