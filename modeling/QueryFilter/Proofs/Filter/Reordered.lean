import QueryFilter.Filter.Writing
import QueryFilter.Proofs.Condition.Rearranged
import QueryFilter.Proofs.Filter.Alike
import QueryFilter.Proofs.Filter.Changes
import QueryFilter.Proofs.Filter.Edited

/-! # Payloads with their keys in another order

Reading and writing look at objects by key. So payloads that differ only in the order of keys have
one shape or are refused alike, and the filters that they are read as are about one column, write
equal items and accept the same values.
-/

namespace QueryFilter

open Json (Fields)
open Reading

/-- Items are refused for one reason, whatever the details are. -/
inductive ItemError.SameReason : ItemError → ItemError → Prop
  | formula : SameReason .formula .formula
  | noDimension : SameReason .noDimension .noDimension
  | malformed (cause cause' : Json.DecodeError) : SameReason (.malformed cause) (.malformed cause')
  | condition (cause cause' : ConditionFault) : SameReason (.condition cause) (.condition cause')
  | unknownShape : SameReason .unknownShape .unknownShape

theorem ItemError.SameReason.refl (cause : ItemError) : cause.SameReason cause := by
  cases cause <;> constructor

theorem Json.ContainedIn.reordered {part part' whole whole' : Json} (h : part.ContainedIn whole)
    (hp : part.Reordered part') (hw : whole.Reordered whole') : part'.ContainedIn whole' := by
  obtain ⟨xs, ys, rfl, rfl, hin⟩ := h
  cases hp with
  | @object _ xs' hd hk hx =>
    cases hw with
    | @object _ ys' hd' hk' hy =>
      refine ⟨xs', ys', rfl, rfl, fun key x' hx' => ?_⟩
      have hp := Json.Reordered.object hd hk hx
      have hw := Json.Reordered.object hd' hk' hy
      obtain ⟨x, hx, hr⟩ := hp.symm.exists_of_get?_eq_some hx'
      obtain ⟨y, hy, hs⟩ := hin key x hx
      obtain ⟨y', hy', hr'⟩ := hw.exists_of_get?_eq_some hy
      exact ⟨y', hy', hr.distinct.same_trans hr.same (hr.symm.distinct.same_trans hs hr'.same)⟩

theorem declaredType_eq_of_reordered {source source' : Option Json}
    (h : Option.Rel Json.Reordered source source') :
    declaredType source = declaredType source' := by
  rw [declaredType, declaredType]
  cases h with
  | none => rfl
  | some h =>
    have ht := bind_eq_of_rel (h.get? "datatype") fun _ _ h =>
      h.scalar_eq (f := Json.asString?) (fun _ => rfl) fun _ => rfl
    simp only [Option.bind_some, ht]

namespace Filter

/-- The filters have one kind and name one target, and what they hold besides differs only in the
order of keys. -/
structure Reordered (f g : Filter) : Prop where
  name_eq : f.kind.name = g.kind.name
  targetFields_eq : f.targetFields = g.targetFields
  dimension_eq : f.dimension = g.dimension
  datatype_eq : f.datatype = g.datatype
  condition : f.condition.Reordered g.condition
  selection_eq : f.selectionField = g.selectionField
  source : Option.Rel Json.Reordered f.settings.source g.settings.source
  background_eq : f.settings.background = none
  background_eq' : g.settings.background = none

variable {f g : Filter} {t : Target} {guid : String}

theorem Reordered.of_target? (hf : f.target? = some t) (hg : g.target? = some t)
    (hn : f.kind.name = g.kind.name) (hc : f.condition.Reordered g.condition)
    (hx : f.selectionField = g.selectionField)
    (hs : Option.Rel Json.Reordered f.settings.source g.settings.source)
    (hb : f.settings.background = none) (hb' : g.settings.background = none) : f.Reordered g := by
  obtain ⟨htf, hdim, hd⟩ := f.of_target?_eq_some hf
  obtain ⟨htg, hdim', hd'⟩ := g.of_target?_eq_some hg
  exact ⟨hn, htf.trans htg.symm, hdim.trans hdim'.symm, hd.trans hd'.symm, hc, hx, hs, hb, hb'⟩

section Written

variable (h : f.Reordered g)

include h

theorem Reordered.sourceCondition? :
    Option.Rel Json.Reordered f.sourceCondition? g.sourceCondition? := by
  have hs := h.source
  rw [Filter.sourceCondition?, Filter.sourceCondition?]
  generalize f.settings.source = v, g.settings.source = w at hs ⊢
  cases hs with
  | some hr => exact hr.get? "filter"
  | none => exact .none

theorem Reordered.symm : g.Reordered f where
  name_eq := h.name_eq.symm
  targetFields_eq := h.targetFields_eq.symm
  dimension_eq := h.dimension_eq.symm
  datatype_eq := h.datatype_eq.symm
  condition := h.condition.symm
  selection_eq := h.selection_eq.symm
  source := by
    have hs := h.source
    generalize f.settings.source = v, g.settings.source = w at hs ⊢
    cases hs with
    | some hr => exact .some hr.symm
    | none => exact .none
  background_eq := h.background_eq'
  background_eq' := h.background_eq

theorem Reordered.exists_whole {whole : Json} (hw : f.sourceCondition? = some whole)
    (hc : f.condition.ContainedIn whole) :
    ∃ whole', g.sourceCondition? = some whole' ∧ whole.Reordered whole' ∧
      g.condition.ContainedIn whole' := by
  obtain ⟨whole', hw', hr⟩ := exists_of_rel_some (hw ▸ h.sourceCondition?)
  exact ⟨whole', hw', hr, hc.reordered h.condition hr⟩

theorem Reordered.fullCondition : f.fullCondition.Reordered g.fullCondition := by
  have hd := h.condition.distinct
  have hd' := h.condition.symm.distinct
  rw [fullCondition_eq_ownCondition h.background_eq, fullCondition_eq_ownCondition h.background_eq']
  by_cases hc : ∃ whole, f.sourceCondition? = some whole ∧ f.condition.ContainedIn whole
  · obtain ⟨whole, hw, hc⟩ := hc
    obtain ⟨whole', hw', hr, hc'⟩ := h.exists_whole hw hc
    rwa [ownCondition_of_containedIn hd hw hc, ownCondition_of_containedIn hd' hw' hc']
  · rw [ownCondition_of_not_containedIn hd fun whole hw hin => hc ⟨whole, hw, hin⟩,
      ownCondition_of_not_containedIn hd' fun whole hw hin => ?_]
    · exact h.condition
    · obtain ⟨whole', hw', -, hin'⟩ := h.symm.exists_whole hw hin
      exact hc ⟨whole', hw', hin'⟩

theorem Reordered.typedFields : (Json.object f.typedFields).Reordered (.object g.typedFields) := by
  have same {fields : Fields} (hf : ∀ field ∈ fields, field.2.Distinct) :
      List.Forall₂ (fun a b : String × Json => a.1 = b.1 ∧ a.2.Reordered b.2) fields fields :=
    List.forall₂_same.mpr fun field hm => ⟨rfl, (hf field hm).reordered⟩
  have target : ∀ field ∈ f.targetFields, field.2.Distinct := by
    intro field hf
    rcases targetFields_cases f with ⟨t, ht⟩ | ht
    · rw [(f.of_target?_eq_some ht).1] at hf
      obtain ⟨-, text, ht⟩ := t.text_of_mem_fields field hf
      exact ht ▸ .string text
    · rw [ht, List.mem_singleton] at hf
      exact hf ▸ .string _
  have selection : ∀ field ∈ f.selectionField, field.2.Distinct := by
    rcases f.selectionField_eq with hs | hs <;> simp [hs]
  have condition : List.Forall₂ (fun a b : String × Json => a.1 = b.1 ∧ a.2.Reordered b.2)
      [("filter", f.fullCondition)] [("filter", g.fullCondition)] :=
    .cons ⟨rfl, h.fullCondition⟩ .nil
  refine .of_forall₂_fields (nodup_and_get?_typedFields f).1 ?_
  rw [Filter.typedFields, Filter.typedFields, ← h.targetFields_eq, ← h.selection_eq]
  exact List.rel_append (List.rel_append (same target) condition) (same selection)

theorem Reordered.typedItem : f.typedItem.Reordered g.typedItem := by
  have ht := h.typedFields
  have hs := h.source
  unfold Filter.typedItem
  generalize f.settings.source = v, g.settings.source = w at hs ⊢
  cases hs with
  | none => exact ht
  | some hr =>
    cases hr with
    | object hd hp hv =>
      simp only [mergedFields, ← ht.hasKey_eq]
      refine .insertAll ?_ ht
      exact Json.Reordered.filter (.object hd hp hv) fun key =>
        !modelKeys.contains key || f.typedFields.hasKey key
    | _ => exact ht

theorem Reordered.item : f.item.Reordered g.item := by
  rcases item_cases f with hf | ⟨hk, hs⟩
  · rcases item_cases g with hg | ⟨hk', hs'⟩
    · rw [hf, hg]
      exact h.typedItem
    · obtain ⟨source, hs, hr⟩ := exists_of_rel_some (hs' ▸ h.symm.source)
      rw [item_of_custom (h.name_eq.trans hk') hs]
      exact hr.symm
  · obtain ⟨source, hs', hr⟩ := exists_of_rel_some (hs ▸ h.source)
    rwa [item_of_custom (h.name_eq.symm.trans hk) hs']

end Written

section Read

variable {x y source source' : Json} {a b : Item} {shape : Shape}

theorem reordered_of_alike (ha : f.Alike g) (ht : f.target? = some t)
    (hm : f.kind.name ≠ "members") (hs : source.Reordered source') :
    (f.withSettings (readSettings source guid)).Reordered
      (g.withSettings (readSettings source' guid)) := by
  have hm' : g.kind.name ≠ "members" := ha.name_eq ▸ hm
  refine .of_target? ((target?_withSettings f _).trans ht)
    ((target?_withSettings g _).trans (ha.target?_eq ▸ ht)) ha.name_eq ?_ ?_ (.some hs) rfl rfl
  · rw [condition_withSettings hm, condition_withSettings hm']
    exact ha.condition
  · rw [selectionField_eq_nil (f := f.withSettings _) hm,
      selectionField_eq_nil (f := g.withSettings _) hm']

theorem exists_reordered_of_shapedFilter (h : a.Reordered b) (hs : source.Reordered source')
    (hc : Shape.ofFields a.datatype (conditionOf a) = shape)
    (hx : shapedFilter a t (readSettings source guid) shape = .ok f) :
    ∃ g, shapedFilter b t (readSettings source' guid) shape = .ok g ∧ f.Reordered g := by
  have hcond : (Json.object (conditionOf a)).Reordered (.object (conditionOf b)) :=
    Json.Reordered.getD_nil h.conditionFields?
  cases shape with
  | invalid => cases hx
  | includeAll =>
    obtain rfl := Except.ok.inj hx
    refine ⟨_, rfl, .of_target? rfl rfl rfl ?_ ?_ (.some hs) rfl rfl⟩
    · exact (Condition.distinct_ofMembers ..).reordered
    · rw [selectionField, selectionField, h.allowsMultiSelection_eq]
  | specificItems =>
    rw [shapedFilter] at hx ⊢
    have hy := membersFilter_withSource (membersFilter_of_reordered hcond hx) source'
    refine ⟨_, h.allowsMultiSelection_eq ▸ hy, ?_⟩
    obtain ⟨names, excludes, deactivated, rfl⟩ := exists_of_membersFilter hx
    exact .of_target? rfl rfl rfl (Condition.distinct_ofMembers ..).reordered rfl (.some hs) rfl rfl
  | advanced =>
    obtain rfl := Except.ok.inj hx
    have hd := declaredType_eq_of_reordered (.some hs)
    exact ⟨_, rfl, rfl, rfl, rfl, hd, hcond, rfl, .some hs, rfl, rfl⟩
  | condition | dateRange | numericRange | period =>
    obtain ⟨f, hf, rfl⟩ := map_eq_ok_iff.mp hx
    have hf := gives_of_conditionFilter hf
    have hm := name_ne_members_of_gives hf (by rw [hc]; rfl)
    obtain ⟨g, hg, ha⟩ := hf.exists_alike hcond
    exact ⟨_, map_eq_ok_iff.mpr ⟨g, conditionFilter_of_gives hg _, rfl⟩,
      reordered_of_alike ha hf.target?_eq hm hs⟩

theorem exists_reordered_of_ofPayload? (h : x.Reordered y) (hx : ofPayload? x guid = .ok f) :
    ∃ g, ofPayload? y guid = .ok g ∧ f.Reordered g := by
  obtain ⟨a, t, shape, hi, ht, hs, hn, hx⟩ := readFrom?_eq_ok_iff.mp hx
  have hu := Item.reordered_unwrap h
  obtain ⟨b, hi', hr⟩ := Item.exists_reordered_of_ofPayload hu hi
  obtain ⟨g, hy, hg⟩ :=
    exists_reordered_of_shapedFilter hr hu (Item.shape_eq_of_shape? hs hn) hx
  exact ⟨g, readFrom?_eq_ok_iff.mpr
    ⟨b, t, shape, hi', hr.target?_eq ▸ ht, hr.shape?_eq ▸ hs, hn, hy⟩, hg⟩

theorem reordered_generic (h : x.Reordered y) : (generic x guid).Reordered (generic y guid) := by
  have hu := Item.reordered_unwrap h
  have hd := bind_eq_of_rel (hu.get? "dim") fun _ _ h =>
    h.scalar_eq (f := Json.asString?) (fun _ => rfl) fun _ => rfl
  have hc : (((Item.unwrap x).get? "filter").getD .null).Reordered
      (((Item.unwrap y).get? "filter").getD .null) := by
    have hf := hu.get? "filter"
    generalize (Item.unwrap x).get? "filter" = v, (Item.unwrap y).get? "filter" = w at hf ⊢
    cases hf with
    | some hr => exact hr
    | none => exact .null
  simp only [generic_eq, hd]
  exact ⟨rfl, rfl, rfl, declaredType_eq_of_reordered (.some hu), hc, rfl, .some hu, rfl, rfl⟩

theorem reordered_ofPayload (h : x.Reordered y) (guid : String) :
    (ofPayload x guid).Reordered (ofPayload y guid) := by
  cases hx : ofPayload? x guid with
  | ok f =>
    obtain ⟨g, hy, hr⟩ := exists_reordered_of_ofPayload? h hx
    rwa [ofPayload_of_ok hx, ofPayload_of_ok hy]
  | error =>
    cases hy : ofPayload? y guid with
    | ok g =>
      obtain ⟨f, hf, -⟩ := exists_reordered_of_ofPayload? h.symm hy
      rw [hx] at hf
      cases hf
    | error =>
      rw [ofPayload_of_error hx, ofPayload_of_error hy]
      exact reordered_generic h

end Read

end Filter

namespace Shape

variable {x y : Json}

theorem ofPayload?_of_reordered (h : x.Reordered y) :
    (∃ shape, ofPayload? x = .ok shape ∧ ofPayload? y = .ok shape) ∨
      ∃ cause cause', ofPayload? x = .error cause ∧ ofPayload? y = .error cause' ∧
        cause.SameReason cause' := by
  have hu := Item.reordered_unwrap h
  unfold ofPayload?
  cases hx : Item.ofPayload (Item.unwrap x) with
  | ok a =>
    obtain ⟨b, hy, hr⟩ := Item.exists_reordered_of_ofPayload hu hx
    simp only [hy, hr.shape?_eq]
    cases b.shape? with
    | ok shape => exact .inl ⟨shape, rfl, rfl⟩
    | error cause => exact .inr ⟨cause, cause, rfl, rfl, .refl cause⟩
  | error cause =>
    cases hy : Item.ofPayload (Item.unwrap y) with
    | ok b =>
      obtain ⟨a, ha, -⟩ := Item.exists_reordered_of_ofPayload hu.symm hy
      rw [hx] at ha
      cases ha
    | error cause' => exact .inr ⟨_, _, rfl, rfl, .malformed cause cause'⟩

end Shape

namespace Filter

/-- The order of keys in a payload decides nothing: neither the shape or the reason to refuse it,
nor whether there is a filter, nor what that selects and writes. -/
theorem ofPayload_of_reordered {payload payload' : Json} (h : payload.Reordered payload')
    (guid : String) :
    let f := ofPayload payload guid
    let f' := ofPayload payload' guid
    ((∃ shape, Shape.ofPayload? payload = .ok shape ∧ Shape.ofPayload? payload' = .ok shape) ∨
        ∃ cause cause', Shape.ofPayload? payload = .error cause ∧
          Shape.ofPayload? payload' = .error cause' ∧ cause.SameReason cause') ∧
      ((∃ g, ofPayload? payload guid = .ok g) ↔ ∃ g, ofPayload? payload' guid = .ok g) ∧
      f.kind.name = f'.kind.name ∧ f.dimension = f'.dimension ∧ f.datatype = f'.datatype ∧
      f.item.same f'.item ∧
      ((∃ p, f.predicate = .ok p) ↔ ∃ p, f'.predicate = .ok p) ∧
      ∀ p p', f.predicate = .ok p → f'.predicate = .ok p' →
        ∀ value, p.accepts value = p'.accepts value := by
  intro f f'
  have hr : f.Reordered f' := reordered_ofPayload h guid
  have hp := Predicate.alike_of_reordered hr.fullCondition f.datatype
  refine ⟨Shape.ofPayload?_of_reordered h, ⟨?_, ?_⟩, hr.name_eq, hr.dimension_eq, hr.datatype_eq,
    hr.item.same, ?_⟩
  · rintro ⟨g, hg⟩
    obtain ⟨g', hg', -⟩ := exists_reordered_of_ofPayload? h hg
    exact ⟨g', hg'⟩
  · rintro ⟨g, hg⟩
    obtain ⟨g', hg', -⟩ := exists_reordered_of_ofPayload? h.symm hg
    exact ⟨g', hg'⟩
  · rw [predicate, predicate, ← hr.datatype_eq]
    exact hp

/-- Two bounds in either order. -/
theorem ofPayload_of_reordered_bounds :
    let low : String × Json := ("from", .number (.integer ⟨1, by decide, by decide⟩))
    let high : String × Json := ("to", .number (.integer ⟨5, by decide, by decide⟩))
    let payload (condition : Fields) : Json := .object
      [("dim", .string "[T.A]"), ("datatype", .string "numeric"), ("filter", .object condition)]
    let f := ofPayload (payload [low, high]) "g"
    let f' := ofPayload (payload [high, low]) "g"
    (payload [low, high]).Reordered (payload [high, low]) ∧
      Shape.ofPayload? (payload [low, high]) = .ok .numericRange ∧ f.kind.name = f'.kind.name ∧
      f.item.same f'.item := by
  intro low high payload f f'
  have hc : (Json.object [low, high]).Reordered (.object [high, low]) :=
    Json.reordered_of_perm (.swap high low []) (by simp [low, high, Fields.keys])
  have h : (payload [low, high]).Reordered (payload [high, low]) :=
    .of_forall₂_fields (by decide)
      (.cons ⟨rfl, .string _⟩ (.cons ⟨rfl, .string _⟩ (.cons ⟨rfl, hc⟩ .nil)))
  obtain ⟨-, -, hn, -, -, hs, -⟩ := ofPayload_of_reordered h "g"
  exact ⟨h, rfl, hn, hs⟩

end Filter

end QueryFilter
