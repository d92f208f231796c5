import QueryFilter.Proofs.Filter.Image
import QueryFilter.Proofs.Filter.Settings

/-! # Items of filters

What is read from an item that names a target and holds a condition. The fields a filter decides
make such an item, on their own and over those of another item.
-/

namespace QueryFilter

open Json (Fields)
open Reading

namespace Item

/-- The fields are an item that names the target and holds the condition. -/
structure Carries (fields : Fields) (t : Target) (condition : Fields) : Prop where
  bare : ∀ inner, fields.get? "jaql" ≠ some (.object inner)
  checked : ∀ field ∈ fields, recordShape.checkField field = .ok ()
  target_eq : ∀ key ∈ Target.keys, fields.get? key = t.fields.get? key
  filter_eq : fields.get? "filter" = some (.object condition)
  formula_eq : fields.value? "formula" = none
  noFormula : condition.get? "formula" = none

namespace Carries

variable {fields condition : Fields} {t : Target}

theorem conditionFields?_eq (h : Carries fields t condition) :
    (ofFields fields).conditionFields? = some condition := by
  simp [conditionFields?, ofFields, Fields.value?, h.filter_eq, Json.isNull, Option.filter,
    Json.asObject?]

theorem conditionOf_eq (h : Carries fields t condition) :
    conditionOf (ofFields fields) = condition := by
  rw [conditionOf, h.conditionFields?_eq, Option.getD_some]

theorem datatype_eq (h : Carries fields t condition) :
    (ofFields fields).datatype = t.base.datatype := by
  have hd : fields.get? "datatype" = some (.string t.base.datatype.name) :=
    (h.target_eq _ (by decide)).trans t.get?_fields.2.1
  simp [datatype, ofFields, Fields.text?, hd, Json.asString?]

theorem shape?_eq (h : Carries fields t condition) :
    (ofFields fields).shape? = .ok (Shape.ofFields t.base.datatype condition) := by
  have hf : (ofFields fields).hasFormula = false := by
    have hn : (ofFields fields).formula = none := h.formula_eq
    simp [hasFormula, hn, h.conditionFields?_eq, Fields.hasKey, h.noFormula]
  simp only [shape?, hf, Bool.false_eq_true, if_false, h.conditionFields?_eq, h.datatype_eq]

theorem ofPayload?_eq (h : Carries fields t condition) (guid : String) :
    Filter.ofPayload? (.object fields) guid =
      if Shape.ofFields t.base.datatype condition = .invalid then .error .unknownShape
      else shapedFilter (ofFields fields) t.reread (Filter.readSettings (.object fields) guid)
        (Shape.ofFields t.base.datatype condition) := by
  have hi : ofPayload (.object fields) = .ok (ofFields fields) := by
    rw [ofPayload, unwrap_object h.bare, ofRecord_object_eq_ok_iff]
    exact ⟨h.checked, rfl⟩
  simp only [Filter.ofPayload?, Filter.readFrom?, unwrap_object h.bare, hi, h.shape?_eq, bind,
    Except.bind, target?_ofFields h.target_eq, shapedDraft_draftGuid]

end Carries

theorem exists_conditionFields_of_shape? {item : Item} {shape : Shape}
    (h : item.shape? = .ok shape) (hn : shape ≠ .invalid) :
    item.hasFormula = false ∧
      ∃ fields, item.conditionFields? = some fields ∧
        Shape.ofFields item.datatype fields = shape := by
  unfold shape? at h
  split at h
  · cases h
  next hf =>
  split at h
  · next fields hc => exact ⟨by simpa using hf, fields, hc, Except.ok.inj h⟩
  · exact absurd (Except.ok.inj h).symm hn

end Item

namespace Shape

/-- The shape leaves the filter to the condition alone. -/
def readsCondition : Shape → Bool
  | .condition | .dateRange | .numericRange | .period => true
  | _ => false

/-- Keys beside the operators by which a shape that leaves the filter to the condition is told. -/
def tellingKeys : List String := ["exclude", "from", "to", "last", "next"]

theorem readsCondition_of_hasKey {fields : Fields} (key : String) (hk : fields.hasKey key)
    (ht : isConditionKey key ∨ key ∈ tellingKeys) (hl : listsMembers fields = false)
    (d : DataType) : (ofFields d fields).readsCondition := by
  have hm : key ∈ fields.keys := by
    obtain ⟨value, hv⟩ := Option.isSome_iff_exists.mp hk
    exact List.mem_map_of_mem (Fields.mem_of_get? hv)
  have hi : includesAll fields = false := by
    have hn : key ∉ includeAllKeys := by
      intro hn
      simp only [includeAllKeys, List.mem_cons, List.not_mem_nil, or_false] at hn
      rcases hn with rfl | rfl | rfl | rfl <;> revert ht <;> decide
    have ha : fields.keys.all includeAllKeys.contains = false := by
      rw [List.all_eq_false]
      exact ⟨key, hm, by simpa using hn⟩
    rw [includesAll, ha, Bool.false_and]
  have hs : isCondition d fields ∨ hasRange fields ∨
      (fields.hasKey "last" || fields.hasKey "next") := by
    rcases ht with ht | ht
    · left
      have ha : fields.keys.any isConditionKey := List.any_eq_true.mpr ⟨key, hm, ht⟩
      rw [isCondition, ha, Bool.true_or, Bool.true_or]
    · simp only [tellingKeys, List.mem_cons, List.not_mem_nil, or_false] at ht
      rcases ht with rfl | rfl | rfl | rfl | rfl <;> simp [isCondition, hasRange, hk]
  rw [ofFields, hi, hl, if_neg Bool.false_ne_true, if_neg Bool.false_ne_true]
  split
  · rfl
  split
  · split <;> rfl
  · next hc hr => rw [if_pos ((hs.resolve_left hc).resolve_left hr)]; rfl

theorem listsMembers_of_specificItems {fields : Fields} {d : DataType}
    (h : ofFields d fields = .specificItems) : listsMembers fields := by
  unfold ofFields at h
  split at h
  · cases h
  split at h
  · assumption
  repeat' split at h
  all_goals cases h

theorem listsMembers_of_readsCondition {fields : Fields} {d : DataType}
    (h : (ofFields d fields).readsCondition) : listsMembers fields = false := by
  unfold ofFields at h
  split at h
  · cases h
  split at h
  · cases h
  · next hl => simpa using hl

end Shape

namespace Filter

section Written

variable {f : Filter} {target : Target}

theorem isConditionKey_textOperator (operator : TextOperator) :
    Shape.isConditionKey operator.key := by
  simp [Shape.isConditionKey]

theorem isConditionKey_comparison (operator : Comparison) :
    Shape.isConditionKey operator.key ∨ operator.key ∈ Shape.tellingKeys := by
  cases operator <;> decide

/-- The condition of a filter that is not about members only is read as a condition, unless it is
empty, and holds no formula. -/
theorem readsCondition_of_wellFormed (hw : f.WellFormed target) (hm : f.kind.name ≠ "members")
    (hn : f.condition ≠ .object []) :
    ∃ fields : Fields, f.condition = .object fields ∧ fields.get? "formula" = none ∧
      ∀ d, (Shape.ofFields d fields).readsCondition := by
  cases hw with
  | members => exact absurd rfl hm
  | @text _ _ operator operand =>
    have hc := comparing_ofText operator (.string operand)
    exact ⟨_, rfl, hc.get?_eq_none _ (by decide),
      Shape.readsCondition_of_hasKey _ (by simp [Fields.hasKey])
      (.inl (isConditionKey_textOperator operator)) hc.listsMembers_eq_false⟩
  | @numeric _ first second _ _ _ hd =>
    have hc := comparing_ofBounds hd
    have hk : (Condition.ofBounds first second).hasKey first.operator.key := by
      simp [ofBounds_eq hd, Condition.ofBound, Fields.hasKey]
    exact ⟨_, rfl, hc.get?_eq_none _ (by decide), Shape.readsCondition_of_hasKey _ hk
      (isConditionKey_comparison _) hc.listsMembers_eq_false⟩
  | @dateRange _ _ start finish =>
    have hc := comparing_ofDates start finish
    have hk : ∃ key ∈ ["from", "to"], (Condition.optionalText "from" start ++
        Condition.optionalText "to" finish).hasKey key := by
      cases start with
      | some _ => exact ⟨"from", by decide, rfl⟩
      | none =>
        cases finish with
        | some _ => exact ⟨"to", by decide, rfl⟩
        | none => exact absurd rfl hn
    obtain ⟨key, hm, hk⟩ := hk
    have ht : ∀ key ∈ ["from", "to"], key ∈ Shape.tellingKeys := by decide
    exact ⟨_, rfl, hc.get?_eq_none _ (by decide),
      Shape.readsCondition_of_hasKey _ hk (.inr (ht key hm))
      hc.listsMembers_eq_false⟩
  | @relativeDate _ period =>
    refine ⟨_, rfl, ?_, Shape.readsCondition_of_hasKey period.key ?_ ?_ ?_⟩ <;>
      cases period <;> first | rfl | decide
  | @ranking _ _ rank =>
    refine ⟨_, rfl, ?_, Shape.readsCondition_of_hasKey rank.key ?_ ?_ ?_⟩ <;>
      cases rank <;> first | rfl | decide
  | exclude hw hs =>
    exact ⟨_, rfl, rfl, Shape.readsCondition_of_hasKey "exclude" rfl (by decide)
      (hasKey_members_condition hw hs)⟩
  | @logical _ connective =>
    refine ⟨_, rfl, ?_, Shape.readsCondition_of_hasKey connective.key ?_ ?_ ?_⟩ <;>
      cases connective <;> first | rfl | decide

end Written

section Reads

variable {fields condition : Fields} {t : Target} {guid : String}

theorem shapedFilter_of_readsCondition {item : Item} {settings : Settings} {shape : Shape}
    (h : shape.readsCondition) :
    shapedFilter item t settings shape =
      (conditionFilter t settings.guid (.notObject "filter") (.object (conditionOf item))).map
        (·.withSettings settings) := by
  cases shape <;> first | rfl | cases h

theorem ofPayload_of_ok {payload : Json} {f : Filter} (h : ofPayload? payload guid = .ok f) :
    ofPayload payload guid = f := by
  rw [ofPayload_eq, h]

theorem ofPayload_of_error {payload : Json} {cause : ItemError}
    (h : ofPayload? payload guid = .error cause) :
    ofPayload payload guid = generic payload guid := by
  rw [ofPayload_eq, h]

theorem ofPayload?_of_gives {g : Filter} (h : Item.Carries fields t condition)
    (hs : (Shape.ofFields t.base.datatype condition).readsCondition)
    (hg : Gives t.reread guid (.object condition) g) :
    ofPayload? (.object fields) guid =
      .ok (g.withSettings (readSettings (.object fields) guid)) := by
  rw [h.ofPayload?_eq, if_neg (by rintro he; simp [he, Shape.readsCondition] at hs),
    shapedFilter_of_readsCondition hs, h.conditionOf_eq]
  exact map_eq_ok_iff.mpr ⟨g, conditionFilter_of_gives hg _, rfl⟩

theorem ofPayload_of_not_gives (h : Item.Carries fields t condition)
    (hs : (Shape.ofFields t.base.datatype condition).readsCondition)
    (hg : ∀ g, ¬Gives t.reread guid (.object condition) g) :
    ofPayload (.object fields) guid = generic (.object fields) guid := by
  have he : ∀ g, ofPayload? (.object fields) guid ≠ .ok g := by
    intro g hp
    rw [h.ofPayload?_eq, if_neg (by rintro he; simp [he, Shape.readsCondition] at hs),
      shapedFilter_of_readsCondition hs, h.conditionOf_eq, map_eq_ok_iff] at hp
    obtain ⟨f, hf, -⟩ := hp
    exact hg f (gives_of_conditionFilter hf)
  cases hp : ofPayload? (.object fields) guid with
  | ok f => exact absurd hp (he f)
  | error => exact ofPayload_of_error hp

theorem allowsMultiSelection_ofFields {selects : Bool}
    (h : fields.get? "multiSelection" = some (.bool selects)) :
    (Item.ofFields fields).allowsMultiSelection = selects := by
  simp [Item.allowsMultiSelection, Item.ofFields, Fields.flag?, h, Json.asBool?]

theorem formula_ofMembers (names : List String) (settings : Settings) :
    (Condition.ofMembers names settings).get? "formula" = none := by
  unfold Condition.ofMembers
  split
  · rfl
  · split <;> rfl

theorem shape_ofMembers (d : DataType) (names : List String) (settings : Settings) :
    Shape.ofFields d (Condition.ofMembers names settings) =
      if names.isEmpty && !settings.excludeMembers && settings.deactivated.isEmpty then .includeAll
      else .specificItems := by
  unfold Condition.ofMembers
  split
  · next hx =>
    rw [hx, Bool.not_true, Bool.and_false, Bool.false_and, if_neg (by decide)]
    rfl
  · next hx =>
    have hx : settings.excludeMembers = false := by simpa using hx
    split
    · next hz =>
      rw [hx, hz, Bool.not_false, Bool.and_true, Bool.and_true]
      cases names <;> rfl
    · next hz =>
      have hz : settings.deactivated.isEmpty = false := by simpa using hz
      rw [hz, Bool.and_false, if_neg (by decide)]
      rfl

theorem ofPayload?_of_members {column : Column} {names : List String} {settings : Settings}
    {selects : Bool}
    (h : Item.Carries fields (.column column) (Condition.ofMembers names settings))
    (hm : fields.get? "multiSelection" = some (.bool selects))
    (hn : settings.deactivated.Nodup) (hd : ∀ name ∈ settings.deactivated, name ∉ names)
    (he : settings.excludeMembers → settings.deactivated = []) :
    ofPayload? (.object fields) guid = .ok ⟨.members column names, {
      guid, excludeMembers := settings.excludeMembers, multiSelection := selects
      deactivated := settings.deactivated, source := some (.object fields) }⟩ := by
  rw [h.ofPayload?_eq, shape_ofMembers]
  split
  · next ha =>
    simp only [Bool.and_eq_true, Bool.not_eq_true', List.isEmpty_iff] at ha
    obtain ⟨⟨hns, hx⟩, hz⟩ := ha
    rw [if_neg (by decide), shapedFilter, allowsMultiSelection_ofFields hm, hns, hx, hz]
    rfl
  · rw [if_neg (by decide), shapedFilter, h.conditionOf_eq,
      membersFilter_ofMembers _ hn hd he rfl rfl, allowsMultiSelection_ofFields hm]
    rfl

/-- The fields were read as an item with the target and the condition. -/
structure ItemRead (fields : Fields) (t : Target) (condition : Fields) : Prop where
  bare : ∀ inner, fields.get? "jaql" ≠ some (.object inner)
  checked : ∀ field ∈ fields, Item.recordShape.checkField field = .ok ()
  target?_eq : (Item.ofFields fields).target? = some t
  condition_eq : (Item.ofFields fields).conditionFields? = some condition
  formula_eq : fields.value? "formula" = none
  noFormula : condition.get? "formula" = none

theorem itemRead_of_ofPayload? {f : Filter}
    (hb : ∀ inner, fields.get? "jaql" ≠ some (.object inner))
    (h : ofPayload? (.object fields) guid = .ok f) :
    ∃ t condition, ItemRead fields t condition ∧
      shapedFilter (Item.ofFields fields) t (readSettings (.object fields) guid)
        (Shape.ofFields t.base.datatype condition) = .ok f := by
  obtain ⟨item, t, shape, hi, ht, hs, hne, h⟩ := readFrom?_eq_ok_iff.mp h
  rw [Item.unwrap_object hb] at hi h
  rw [Item.ofPayload, Item.unwrap_object hb, Item.ofRecord_object_eq_ok_iff] at hi
  obtain ⟨hc, rfl⟩ := hi
  obtain ⟨hd, -⟩ := Item.of_target?_eq_some ht
  obtain ⟨hf, condition, hcond, rfl⟩ := Item.exists_conditionFields_of_shape? hs hne
  simp only [Item.hasFormula, hcond, Option.any_some, Bool.or_eq_false_iff] at hf
  refine ⟨t, condition, ⟨hb, hc, ht, hcond, ?_, Fields.hasKey_eq_false_iff.mp hf.2⟩, hd ▸ h⟩
  simpa [Item.ofFields] using hf.1

end Reads

section Fields

variable {f : Filter} {t : Target}

theorem selectionField_eq (f : Filter) :
    f.selectionField = [] ∨
      f.selectionField = [("multiSelection", .bool f.settings.multiSelection)] := by
  unfold selectionField
  split
  · exact .inr rfl
  · exact .inl rfl

theorem typedFields_eq (ht : f.target? = some t) :
    f.typedFields = t.fields ++ [("filter", f.fullCondition)] ++ f.selectionField := by
  rw [typedFields, (f.of_target?_eq_some ht).1]

theorem mem_modelKeys_typedFields (ht : f.target? = some t) :
    ∀ field ∈ f.typedFields, field.1 ∈ modelKeys := by
  have hk : ∀ key ∈ Target.keys, key ∈ modelKeys := by decide
  intro field hf
  rw [typedFields_eq ht, List.mem_append, List.mem_append, List.mem_singleton] at hf
  rcases hf with (hf | rfl) | hf
  · exact hk _ (t.text_of_mem_fields field hf).1
  · exact show "filter" ∈ modelKeys by decide
  · rcases f.selectionField_eq with hs | hs
    · simp [hs] at hf
    · obtain rfl : field = _ := by simpa [hs] using hf
      exact show "multiSelection" ∈ modelKeys by decide

theorem nodup_keys_typedFields (ht : f.target? = some t) : f.typedFields.keys.Nodup := by
  rw [typedFields_eq ht]
  rcases f.selectionField_eq with hs | hs <;>
  · rw [hs]
    rcases t with ⟨⟨_, _, _, _ | _⟩⟩ | ⟨⟨_, _, _, _ | _⟩, _, _⟩ <;>
      simp [Target.fields, Measure.fields, Column.fields, Fields.keys]

theorem get?_typedFields_target (ht : f.target? = some t) :
    ∀ key ∈ Target.keys, f.typedFields.get? key = t.fields.get? key := by
  intro key hk
  have hs : f.selectionField.get? key = none := by
    rcases f.selectionField_eq with hs | hs
    · rw [hs, Fields.get?_nil]
    · rw [hs, Fields.get?_cons, if_neg (by rintro rfl; exact absurd hk (by decide)),
        Fields.get?_nil]
  rw [typedFields_eq ht, Fields.get?_append, Fields.get?_append, hs, Option.or_none,
    Fields.get?_cons, if_neg (by rintro rfl; exact absurd hk (by decide)), Fields.get?_nil,
    Option.or_none]

theorem get?_typedFields_filter (ht : f.target? = some t) :
    f.typedFields.get? "filter" = some f.fullCondition := by
  rw [typedFields_eq ht, Fields.get?_append, Fields.get?_append,
    t.get?_fields_of_not_mem (by decide)]
  rfl

theorem get?_typedFields_selection (ht : f.target? = some t) :
    f.typedFields.get? "multiSelection" = f.selectionField.get? "multiSelection" := by
  rw [typedFields_eq ht, Fields.get?_append, Fields.get?_append,
    t.get?_fields_of_not_mem (by decide)]
  rfl

theorem checkField_typedFields (ht : f.target? = some t) :
    ∀ field ∈ f.typedFields, Item.recordShape.checkField field = .ok () := by
  intro field hf
  rw [typedFields_eq ht, List.mem_append, List.mem_append, List.mem_singleton] at hf
  rcases hf with (hf | rfl) | hf
  · exact t.checkField_fields field hf
  · rfl
  · rcases f.selectionField_eq with hs | hs
    · simp [hs] at hf
    · obtain rfl : field = _ := by simpa [hs] using hf
      rfl

theorem bare_typedFields (ht : f.target? = some t) (inner : Fields) :
    f.typedFields.get? "jaql" ≠ some (.object inner) := by
  intro h
  have hm : "jaql" ∈ modelKeys := mem_modelKeys_typedFields ht _ (Fields.mem_of_get? h)
  exact absurd hm (by decide)

theorem carries_typedFields (ht : f.target? = some t) {condition : Fields}
    (hc : f.fullCondition = .object condition) (hn : condition.get? "formula" = none) :
    Item.Carries f.typedFields t condition where
  bare := bare_typedFields ht
  checked := checkField_typedFields ht
  target_eq := get?_typedFields_target ht
  filter_eq := hc ▸ get?_typedFields_filter ht
  formula_eq := by
    have hf : f.typedFields.get? "formula" = none := by
      rw [Fields.get?_eq_none_iff]
      intro field hf he
      exact absurd (he ▸ mem_modelKeys_typedFields ht field hf) (by decide)
    simp [Fields.value?, hf]
  noFormula := hn

end Fields

section Conditions

variable {f g : Filter}

@[simp] theorem target?_withSettings (f : Filter) (settings : Settings) :
    (f.withSettings settings).target? = f.target? := by
  cases f; rfl

theorem condition_withSettings (hm : f.kind.name ≠ "members") (settings : Settings) :
    (f.withSettings settings).condition = f.condition := by
  obtain ⟨kind, _⟩ := f
  cases kind <;> first | rfl | exact absurd rfl hm

theorem selectionField_eq_nil (hm : f.kind.name ≠ "members") : f.selectionField = [] := by
  obtain ⟨kind, _⟩ := f
  cases kind <;> first | rfl | exact absurd rfl hm

theorem exists_members_of_name (hm : f.kind.name = "members") :
    ∃ column names settings, f = ⟨.members column names, settings⟩ := by
  obtain ⟨kind, settings⟩ := f
  cases kind with
  | members column names => exact ⟨column, names, settings, rfl⟩
  | _ => simp [Kind.name] at hm

theorem fullCondition_eq_ownCondition (hb : f.settings.background = none) :
    f.fullCondition = f.ownCondition := by
  rw [fullCondition, hb]

theorem ownCondition_eq_condition (hs : f.settings.source = none) :
    f.ownCondition = f.condition := by
  rw [ownCondition, sourceCondition?, hs, Option.bind_none]

/-- Over a source that already holds the condition to be written, that condition stays. -/
theorem ownCondition_eq_of_source (hc : g.condition = f.condition)
    (hs : g.sourceCondition? = some f.ownCondition) : g.ownCondition = f.ownCondition := by
  rw [ownCondition, hs, hc]
  unfold ownCondition
  generalize f.sourceCondition? = source, f.condition = condition
  cases condition with
  | object fields =>
    cases source with
    | none => exact ite_self _
    | some value =>
      cases value with
      | object source =>
        by_cases h : Fields.containedIn fields source
        · simp only [h, if_true]
        · simp only [h, Bool.false_eq_true, if_false, ite_self]
      | _ => exact ite_self _
  | _ =>
    cases source with
    | none => rfl
    | some value => cases value <;> rfl

end Conditions

section Merged

variable {f : Filter} {t : Target} {source : Fields}

theorem get?_mergedFields (ht : f.target? = some t) (key : String) :
    (f.mergedFields source).get? key =
      if key ∈ modelKeys then f.typedFields.get? key else source.get? key := by
  rw [mergedFields, Fields.get?_insertAll (nodup_keys_typedFields ht),
    Fields.get?_filter fun key => !modelKeys.contains key || f.typedFields.hasKey key]
  by_cases hk : key ∈ modelKeys
  · rw [if_pos hk]
    cases hv : f.typedFields.get? key with
    | some _ => rw [Option.some_or]
    | none => simp [hk, Fields.hasKey, hv]
  · have hn : f.typedFields.get? key = none := by
      rw [Fields.get?_eq_none_iff]
      rintro field hf rfl
      exact hk (mem_modelKeys_typedFields ht field hf)
    simp [hk, hn]

theorem mem_of_mem_mergedFields {field : String × Json} (h : field ∈ f.mergedFields source) :
    field ∈ source ∨ field ∈ f.typedFields :=
  (Fields.mem_of_mem_insertAll h).imp_left fun h => (List.mem_filter.mp h).1

theorem carries_mergedFields (ht : f.target? = some t) {condition : Fields}
    (hc : f.fullCondition = .object condition) (hn : condition.get? "formula" = none)
    (hb : ∀ inner, source.get? "jaql" ≠ some (.object inner))
    (hs : ∀ field ∈ source, Item.recordShape.checkField field = .ok ())
    (hf : source.value? "formula" = none) : Item.Carries (f.mergedFields source) t condition where
  bare inner := by
    rw [get?_mergedFields ht, if_neg (by decide)]
    exact hb inner
  checked field h := (mem_of_mem_mergedFields h).elim (hs field) (checkField_typedFields ht field)
  target_eq key hk := by
    have hm : ∀ key ∈ Target.keys, key ∈ modelKeys := by decide
    rw [get?_mergedFields ht, if_pos (hm key hk), get?_typedFields_target ht key hk]
  filter_eq := by
    rw [get?_mergedFields ht, if_pos (by decide), get?_typedFields_filter ht, hc]
  formula_eq := by
    rw [Fields.value?, get?_mergedFields ht, if_neg (by decide)]
    exact hf
  noFormula := hn

theorem mergedFields_mergedFields {g : Filter} (ht : f.target? = some t)
    (hg : g.typedFields = f.typedFields) :
    g.mergedFields (f.mergedFields source) = f.mergedFields source := by
  have hkept : ∀ field ∈ f.mergedFields source,
      (!modelKeys.contains field.1 || f.typedFields.hasKey field.1) = true := by
    intro field hm
    rcases Fields.mem_of_mem_insertAll hm with h | h
    · exact (List.mem_filter.mp h).2
    · simp [Fields.hasKey_of_mem h]
  rw [mergedFields, hg, List.filter_eq_self.mpr hkept]
  apply Fields.insertAll_eq_self
  intro field hm
  rw [get?_mergedFields ht, if_pos (mem_modelKeys_typedFields ht field hm)]
  exact Fields.get?_of_mem (nodup_keys_typedFields ht) hm

end Merged

end Filter

end QueryFilter
