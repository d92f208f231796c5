import QueryFilter.Filter.Writing
import QueryFilter.Proofs.Filter.Items
import QueryFilter.Proofs.Filter.Settings

/-! # Reading what was written

An item that is read and written again changes at most once: the filter of the written item writes
that item again, has the same full condition and accepts the same values.
-/

namespace QueryFilter

open Json (Fields)
open Reading

namespace Filter

variable {fields condition : Fields} {t : Target} {guid : String} {f g : Filter}

def withSource (f : Filter) (source : Json) : Filter :=
  { f with settings := { f.settings with source := some source } }

/-- The second filter is read from what the first writes over the fields, and has its target, its
condition and its kind of selection. -/
structure Repeats (fields : Fields) (f g : Filter) : Prop where
  target?_eq : g.target? = f.target?
  condition_eq : g.condition = f.condition
  selection_eq : g.selectionField = f.selectionField
  background_eq : g.settings.background = none
  source_eq : g.settings.source = some (.object (f.mergedFields fields))

/-- What writing and evaluating the filters gives is equal. -/
structure Settled (f g : Filter) : Prop where
  item_eq : g.item = f.item
  fullCondition_eq : g.fullCondition = f.fullCondition
  predicate_eq : g.predicate = f.predicate

theorem item_eq_typedItem (ht : f.target? = some t) : f.item = f.typedItem := by
  obtain ⟨kind, settings⟩ := f
  unfold item
  cases kind <;> first | rfl | cases ht

theorem item_eq_mergedFields (ht : f.target? = some t)
    (hs : f.settings.source = some (.object fields)) :
    f.item = .object (f.mergedFields fields) := by
  rw [item_eq_typedItem ht, typedItem, hs]

theorem Repeats.settled (h : Repeats fields f g) (ht : f.target? = some t)
    (hb : f.settings.background = none) (hs : f.settings.source = some (.object fields)) :
    Settled f g := by
  have htg := h.target?_eq.trans ht
  have hc : g.fullCondition = f.fullCondition := by
    rw [fullCondition_eq_ownCondition hb, fullCondition_eq_ownCondition h.background_eq]
    apply ownCondition_eq_of_source h.condition_eq
    rw [sourceCondition?, h.source_eq, Option.bind_some, Json.get?, get?_mergedFields ht,
      if_pos (by decide), get?_typedFields_filter ht, fullCondition_eq_ownCondition hb]
  have hf : g.typedFields = f.typedFields := by
    rw [typedFields_eq ht, typedFields_eq htg, hc, h.selection_eq]
  refine ⟨?_, hc, ?_⟩
  · rw [item_eq_mergedFields htg h.source_eq, item_eq_mergedFields ht hs,
      mergedFields_mergedFields ht hf]
  · rw [predicate, predicate, hc, (g.of_target?_eq_some htg).2.2, (f.of_target?_eq_some ht).2.2]

theorem repeats_withSource (hb : f.settings.background = none) :
    Repeats fields f (f.withSource (.object (f.mergedFields fields))) where
  target?_eq := by cases f; rfl
  condition_eq := by obtain ⟨kind, _⟩ := f; cases kind <;> rfl
  selection_eq := by obtain ⟨kind, _⟩ := f; cases kind <;> rfl
  background_eq := hb
  source_eq := rfl

theorem ItemRead.filter_eq (h : ItemRead fields t condition) :
    fields.get? "filter" = some (.object condition) := by
  have hc := h.condition_eq
  simp only [Item.conditionFields?, Item.ofFields, Fields.value?] at hc
  cases hf : fields.get? "filter" with
  | none => simp [hf] at hc
  | some value => cases value <;> simp_all [Option.filter, Json.isNull, Json.asObject?]

theorem ItemRead.carries (h : ItemRead fields t condition) {t' : Target} {condition' : Fields}
    (ht : f.target? = some t') (hc : f.fullCondition = .object condition')
    (hn : condition'.get? "formula" = none) :
    Item.Carries (f.mergedFields fields) t' condition' :=
  carries_mergedFields ht hc hn h.bare h.checked h.formula_eq

/-- A filter keeps the condition of its source, or has one of its own that is not empty. -/
theorem ownCondition_cases {source own : Fields} (hs : f.sourceCondition? = some (.object source))
    (hc : f.condition = .object own) :
    f.ownCondition = .object source ∨ f.ownCondition = .object own ∧ own ≠ [] := by
  rw [ownCondition, hs, hc]
  dsimp only
  split
  · exact .inl rfl
  · next h =>
    refine .inr ⟨rfl, ?_⟩
    rintro rfl
    exact h rfl

theorem ItemRead.fullCondition_cases (h : ItemRead fields t condition)
    (hb : f.settings.background = none) (hs : f.settings.source = some (.object fields))
    {own : Fields} (hc : f.condition = .object own) :
    f.fullCondition = .object condition ∨ f.fullCondition = .object own ∧ own ≠ [] := by
  rw [fullCondition_eq_ownCondition hb]
  refine ownCondition_cases ?_ hc
  rw [sourceCondition?, hs, Option.bind_some, Json.get?, h.filter_eq]

section Members

theorem membersFilter_withSource {column : Column} {settings : Settings}
    (h : membersFilter column fields settings = .ok f) (source : Json) :
    membersFilter column fields { settings with source := some source } =
      .ok (f.withSource source) := by
  obtain ⟨names, excluded, hn, he, rfl⟩ := membersFilter_eq_ok_iff.mp h
  refine membersFilter_eq_ok_iff.mpr ⟨names, excluded, hn, he, ?_⟩
  cases names <;> cases excluded <;> dsimp only <;> try split
  all_goals rfl

variable {item : Item} {shape : Shape}

theorem exists_of_membersShape (hs : shape = .includeAll ∨ shape = .specificItems)
    (hl : shape = .specificItems → Shape.listsMembers (conditionOf item)) {source : Json}
    (h : shapedFilter item t (readSettings source guid) shape = .ok f) :
    f.WellFormed t ∧ ∃ names excludes deactivated, f = ⟨.members t.base names, {
      guid
      excludeMembers := excludes
      multiSelection := item.allowsMultiSelection
      deactivated := deactivated
      source := some source }⟩ := by
  rcases hs with rfl | rfl
  · obtain rfl := Except.ok.inj h
    exact ⟨.members (Column.same_refl _) .nil (by simp [readSettings]) (by rintro ⟨⟩),
      [], false, [], rfl⟩
  · obtain ⟨names, excludes, deactivated, rfl⟩ := exists_of_membersFilter h
    exact ⟨(wellFormed_of_membersFilter rfl rfl (hl rfl) h).1, names, excludes, deactivated, rfl⟩

theorem shapedFilter_withSource (hs : shape = .includeAll ∨ shape = .specificItems)
    {source source' : Json} (h : shapedFilter item t (readSettings source guid) shape = .ok f)
    {item' : Item} (hc : conditionOf item' = conditionOf item)
    (hm : item'.allowsMultiSelection = item.allowsMultiSelection) :
    shapedFilter item' (.column t.base) (readSettings source' guid) shape =
      .ok (f.withSource source') := by
  rcases hs with rfl | rfl
  · obtain rfl := Except.ok.inj h
    rw [shapedFilter, hm]
    rfl
  · rw [shapedFilter, hc, hm]
    exact membersFilter_withSource h source'

theorem ofPayload?_mergedFields_of_members (h : ItemRead fields t condition)
    (hs : Shape.ofFields t.base.datatype condition = .includeAll ∨
      Shape.ofFields t.base.datatype condition = .specificItems)
    (hf : shapedFilter (Item.ofFields fields) t (readSettings (.object fields) guid)
      (Shape.ofFields t.base.datatype condition) = .ok f) :
    ofPayload? (.object (f.mergedFields fields)) guid =
      .ok (f.withSource (.object (f.mergedFields fields))) := by
  have hcond : conditionOf (Item.ofFields fields) = condition := by
    rw [conditionOf, h.condition_eq, Option.getD_some]
  obtain ⟨hw, names, excludes, deactivated, he⟩ := exists_of_membersShape hs
    (fun hsp => hcond ▸ Shape.listsMembers_of_specificItems hsp) hf
  have ht : f.target? = some (.column t.base) := by rw [he]; rfl
  have hm : (f.mergedFields fields).get? "multiSelection" =
      some (.bool (Item.ofFields fields).allowsMultiSelection) := by
    rw [get?_mergedFields ht, if_pos (by decide), get?_typedFields_selection ht, he]
    rfl
  have hbg : f.settings.background = none := by rw [he]
  have hsrc : f.settings.source = some (.object fields) := by rw [he]
  rcases h.fullCondition_cases hbg hsrc (by rw [he]; rfl) with hc | ⟨hc, -⟩
  · have hr := h.carries ht hc h.noFormula
    have hd : (Target.column t.base).base.datatype = t.base.datatype := rfl
    rw [hr.ofPayload?_eq, hd, if_neg (by rcases hs with hs | hs <;> rw [hs] <;> decide)]
    exact shapedFilter_withSource hs hf (hr.conditionOf_eq.trans hcond.symm)
      (allowsMultiSelection_ofFields hm)
  · have hr := h.carries ht hc (formula_ofMembers _ _)
    rw [he] at hw ⊢
    obtain ⟨_, hn, hd, hx⟩ := hw
    rw [he] at hr hm
    exact ofPayload?_of_members hr hm hn hd hx

end Members

section Conditions

theorem settled_generic {t' : Target} {own : Fields}
    (hr : Item.Carries (f.mergedFields fields) t' own)
    (ht : f.target? = some t') (hd : t'.base.datatype = t'.datatype)
    (hs : f.settings.source = some (.object fields)) (hc : f.fullCondition = .object own) :
    Settled f (generic (.object (f.mergedFields fields)) guid) := by
  obtain ⟨dimension, hg⟩ : ∃ dimension, generic (.object (f.mergedFields fields)) guid =
      ⟨.custom dimension (.object own), readSettings (.object (f.mergedFields fields)) guid⟩ := by
    simp only [generic_eq, Item.unwrap_object hr.bare, Json.get?, hr.filter_eq, Option.getD_some]
    exact ⟨_, rfl⟩
  rw [hg]
  have hfull : fullCondition ⟨.custom dimension (.object own),
      readSettings (.object (f.mergedFields fields)) guid⟩ = f.fullCondition := by
    have hsrc : sourceCondition? ⟨.custom dimension (.object own),
        readSettings (.object (f.mergedFields fields)) guid⟩ = some (.object own) := hr.filter_eq
    rw [fullCondition_eq_ownCondition rfl, hc]
    rcases ownCondition_cases hsrc rfl with ho | ⟨ho, -⟩
    · exact ho
    · exact ho
  have htype : declaredType (some (.object (f.mergedFields fields))) = f.datatype := by
    have hdt := (hr.target_eq "datatype" (by decide)).trans t'.get?_fields.2.1
    rw [(f.of_target?_eq_some ht).2.2, ← hd]
    simp [declaredType, Json.get?, hdt, Json.asString?]
  refine ⟨(item_eq_mergedFields ht hs).symm, hfull, ?_⟩
  rw [predicate, predicate, hfull]
  exact congrArg (Predicate.ofCondition · _) htype

theorem name_ne_members_of_gives {d : DataType} (hg : Gives t guid (.object condition) g)
    (hs : (Shape.ofFields d condition).readsCondition) : g.kind.name ≠ "members" := by
  intro hm
  obtain ⟨_, he, hl, -⟩ := hg.exists_membersFilter hm
  cases he
  exact absurd (Shape.listsMembers_of_readsCondition hs) (by simp [hl])

/-- A filter that was read from a condition and writes one of its own is read again as a settled
filter. -/
theorem settled_of_ownCondition {source : Json} {own : Fields} (htr : t.reread = t)
    (hg : Gives t guid source g) (hm : g.kind.name ≠ "members")
    (hf : f = g.withSettings (readSettings (.object fields) guid))
    (hown : f.condition = .object own) (hne : own ≠ [])
    (hcar : own.get? "formula" = none →
      Item.Carries (f.mergedFields fields) (targetOf t g) own)
    (hc : f.fullCondition = .object own) :
    Settled f (ofPayload (.object (f.mergedFields fields)) guid) := by
  have htr := reread_targetOf htr g
  have ht : f.target? = some (targetOf t g) := by rw [hf, target?_withSettings, hg.target?_eq]
  have hfc : f.condition = g.condition := hf ▸ condition_withSettings hm _
  have hsrc : f.settings.source = some (.object fields) := by rw [hf]; rfl
  have hbg : f.settings.background = none := by rw [hf]; rfl
  obtain ⟨f', hr⟩ := exists_represents hg.targetOf
  have ho : f'.condition = .object own := hr.condition_eq.trans (hfc.symm.trans hown)
  obtain ⟨own', ho', hn, hread⟩ := readsCondition_of_wellFormed hr.wellFormed
    (hr.name_eq ▸ hm) (by rw [ho]; simpa using hne)
  obtain rfl : own = own' := by simpa using ho.symm.trans ho'
  have hcar := hcar hn
  by_cases hopen : f'.HasOpenRange
  · rw [ofPayload_of_not_gives hcar (hread _)]
    · obtain ⟨base, hb, hd⟩ := datetime_of_hasOpenRange hr.wellFormed hopen
      exact settled_generic hcar ht (by rw [hb]; rfl) hsrc hc
    · intro g'
      rw [htr, ← ho]
      exact not_gives_of_hasOpenRange hr.wellFormed hopen
  · obtain ⟨g', hg'⟩ := exists_rereads hr.wellFormed hopen guid
    have hp := ofPayload?_of_gives hcar (hread _) (htr.symm ▸ ho ▸ hg'.gives)
    have hm' : g'.kind.name ≠ "members" := by rwa [hg'.same.name_eq, hr.name_eq]
    rw [ofPayload_of_ok hp]
    refine Repeats.settled ⟨?_, ?_, ?_, rfl, rfl⟩ ht hbg hsrc
    · rw [target?_withSettings, hg'.gives.target?_eq, ht,
        targetOf_targetOf t (hg'.same.onColumn_eq.trans hr.onColumn_eq)]
    · rw [condition_withSettings hm', hg'.condition_eq, hr.condition_eq, hfc]
    · rw [selectionField_eq_nil (f := g'.withSettings _) hm', selectionField_eq_nil (hf ▸ hm)]

theorem settled_of_gives (h : ItemRead fields t condition)
    (hs : (Shape.ofFields t.base.datatype condition).readsCondition)
    (hg : Gives t guid (.object condition) g)
    (hf : f = g.withSettings (readSettings (.object fields) guid)) :
    Settled f (ofPayload (.object (f.mergedFields fields)) guid) := by
  have hm := name_ne_members_of_gives hg hs
  have htr := (Item.of_target?_eq_some h.target?_eq).2
  have ht : f.target? = some (targetOf t g) := by rw [hf, target?_withSettings, hg.target?_eq]
  have hsrc : f.settings.source = some (.object fields) := by rw [hf]; rfl
  have hbg : f.settings.background = none := by rw [hf]; rfl
  obtain ⟨f', hr⟩ := exists_represents hg.targetOf
  obtain ⟨own, ho⟩ := hr.wellFormed.exists_condition
  have hown : f.condition = .object own := by
    rw [hf, condition_withSettings hm, ← hr.condition_eq, ho]
  rcases h.fullCondition_cases hbg hsrc hown with hc | ⟨hc, hne⟩
  · -- The condition of the item is written unchanged and gives the same filter again.
    have hcar := h.carries ht hc h.noFormula
    have hp := ofPayload?_of_gives hcar (by rwa [base_targetOf])
      ((reread_targetOf htr g).symm ▸ hg.targetOf)
    rw [ofPayload_of_ok hp]
    subst hf
    exact (repeats_withSource hbg).settled ht hbg hsrc
  · exact settled_of_ownCondition htr hg hm hf hown hne (h.carries ht hc) hc

end Conditions

theorem item_of_custom {source : Json} (hk : f.kind.name = "custom")
    (hs : f.settings.source = some source) : f.item = source := by
  obtain ⟨kind, settings⟩ := f
  cases kind with
  | custom => unfold item; rw [show settings.source = some source from hs]
  | _ => simp [Kind.name] at hk

theorem source_of_ofPayload (hb : ∀ inner, fields.get? "jaql" ≠ some (.object inner))
    (guid : String) :
    (ofPayload (.object fields) guid).settings.source = some (.object fields) := by
  rw [(carriedWith_ofPayload ..).source_eq, Item.unwrap_object hb, readSettings]

theorem settled_of_ok (hb : ∀ inner, fields.get? "jaql" ≠ some (.object inner))
    (hp : ofPayload? (.object fields) guid = .ok f) (hk : f.kind.name ≠ "custom") :
    Settled f (ofPayload f.item guid) := by
  obtain ⟨t, condition, hr, hs⟩ := itemRead_of_ofPayload? hb hp
  have hsrc := (carriedWith_of_shapedFilter hs).source_eq
  have hcond : conditionOf (Item.ofFields fields) = condition := by
    rw [conditionOf, hr.condition_eq, Option.getD_some]
  by_cases hm : Shape.ofFields t.base.datatype condition = .includeAll ∨
      Shape.ofFields t.base.datatype condition = .specificItems
  · obtain ⟨-, names, excludes, deactivated, he⟩ := exists_of_membersShape hm
      (fun hsp => hcond ▸ Shape.listsMembers_of_specificItems hsp) hs
    have ht : f.target? = some (.column t.base) := by rw [he]; rfl
    rw [item_eq_mergedFields ht hsrc,
      ofPayload_of_ok (ofPayload?_mergedFields_of_members hr hm hs)]
    exact (repeats_withSource (by rw [he])).settled ht (by rw [he]) hsrc
  by_cases hc : (Shape.ofFields t.base.datatype condition).readsCondition
  · rw [shapedFilter_of_readsCondition hc, hcond] at hs
    obtain ⟨g, hg, rfl⟩ := map_eq_ok_iff.mp hs
    have hg := gives_of_conditionFilter hg
    rw [item_eq_mergedFields ((target?_withSettings ..).trans hg.target?_eq) hsrc]
    exact settled_of_gives hr hc hg rfl
  · cases hsh : Shape.ofFields t.base.datatype condition with
    | invalid => rw [hsh] at hs; cases hs
    | advanced =>
      rw [hsh] at hs
      obtain rfl := Except.ok.inj hs
      exact absurd rfl hk
    | includeAll | specificItems => simp [hsh] at hm
    | condition | dateRange | numericRange | period => simp [hsh, Shape.readsCondition] at hc

/-- Reading and writing an object reaches a fixed point in one step, and objects of filters that
only carry their condition along are not changed at all. -/
theorem settled_ofPayload (fields : Fields)
    (hb : ∀ inner, fields.get? "jaql" ≠ some (.object inner)) (guid : String) :
    Settled (ofPayload (.object fields) guid)
        (ofPayload (ofPayload (.object fields) guid).item guid) ∧
      ((ofPayload (.object fields) guid).kind.name = "custom" →
        (ofPayload (.object fields) guid).item = .object fields) := by
  have hs := source_of_ofPayload hb guid
  refine ⟨?_, fun hk => item_of_custom hk hs⟩
  by_cases hk : (ofPayload (.object fields) guid).kind.name = "custom"
  · rw [item_of_custom hk hs]
    exact ⟨rfl, rfl, rfl⟩
  · cases hp : ofPayload? (.object fields) guid with
    | ok f =>
      rw [ofPayload_of_ok hp] at hk ⊢
      exact settled_of_ok hb hp hk
    | error => exact absurd (by rw [ofPayload_of_error hp]; rfl) hk

theorem settled_ofPayload_between :
    let fields : Fields := [("dim", .string "[T.A]"), ("agg", .string "sum"), ("datatype", .null),
      ("filter", .object [("to", .string "5"), ("from", .string "1")])]
    (∀ inner, fields.get? "jaql" ≠ some (.object inner)) ∧
      Settled (ofPayload (.object fields) "g")
        (ofPayload (ofPayload (.object fields) "g").item "g") ∧
      ((ofPayload (.object fields) "g").kind.name = "custom" →
        (ofPayload (.object fields) "g").item = .object fields) := by
  intro fields
  have hb : ∀ inner, fields.get? "jaql" ≠ some (.object inner) := by rintro inner ⟨⟩
  exact ⟨hb, settled_ofPayload fields hb "g"⟩

end Filter

end QueryFilter
