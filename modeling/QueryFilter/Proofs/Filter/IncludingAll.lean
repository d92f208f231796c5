import QueryFilter.Proofs.Filter.Selections

/-! # Filters that include all members

A members filter without members, excluded or switched off, says that it includes everything. It is
evaluated by the item that it was read from if that lists no members either, with all that this item
asks besides. Main statement: such a filter lets every value pass just if each field of that
condition restricts nothing on its own.
-/

namespace QueryFilter

open Json (Fields)

namespace Condition

/-- Values can be tested against the field, and all of them pass. -/
def RestrictsNothing (datatype : DataType) (key : String) (operand : Json) : Prop :=
  SupportedField datatype key operand ∧ ∀ value, fieldHolds datatype value key operand

variable {datatype : DataType} {fields : Fields} {key : String}

theorem restrictsNothing_of_isIdle (hk : isIdle key) (operand : Json) :
    RestrictsNothing datatype key operand :=
  ⟨supportedField_of_isIdle hk operand, fun _ => fieldHolds_of_isIdle hk operand⟩

theorem restrictsNothing_noMembers :
    RestrictsNothing datatype (membersField []).1 (membersField []).2 :=
  ⟨supported_membersField [], holds_membersField []⟩

theorem restrictsNothing_exclude {inner : Fields} (hs : Supported datatype (.object inner))
    (hv : vacuous (.object inner)) : RestrictsNothing datatype "exclude" (.object inner) := by
  refine ⟨.exclude hs, fun value => ?_⟩
  rw [fieldHolds_exclude, hv, Bool.true_or]

theorem restrictsNothing_of_includesAll (hd : fields.keys.Nodup) (h : Shape.includesAll fields) :
    ∀ field ∈ fields, RestrictsNothing datatype field.1 field.2 := by
  have hkeys : ∀ key ∈ Shape.includeAllKeys, key = "members" ∨ isIdle key := by decide
  rw [Shape.includesAll, Bool.and_eq_true, List.all_eq_true] at h
  obtain ⟨hk, hm⟩ := h
  rintro ⟨key, operand⟩ hf
  rcases hkeys key (List.contains_iff_mem.mp (hk key (List.mem_map_of_mem hf))) with rfl | hi
  · rw [Fields.get?_of_mem hd hf] at hm
    cases operand with
    | array items =>
      obtain rfl := List.isEmpty_iff.mp hm
      exact restrictsNothing_noMembers
    | _ => cases hm
  · exact restrictsNothing_of_isIdle hi operand

theorem forall_restrictsNothing_iff :
    (∀ field ∈ fields, RestrictsNothing datatype field.1 field.2) ↔
      Supported datatype (.object fields) ∧ ∀ value, holds datatype value (.object fields) := by
  simp only [RestrictsNothing, forall_and, holds_object, List.all_eq_true]
  constructor
  · rintro ⟨hs, hh⟩
    exact ⟨.object hs, fun value field hf => hh field hf value⟩
  · rintro ⟨⟨hs⟩, hh⟩
    exact ⟨hs, fun field hf value => hh value field hf⟩

end Condition

namespace Filter

open Condition Reading

/-- The filter has a predicate, and that accepts every value. -/
def Unrestricted (f : Filter) : Prop := ∃ p, f.predicate = .ok p ∧ ∀ value, p.accepts value

variable {f : Filter} {payload : Json} {guid : String}

theorem unrestricted_iff :
    f.Unrestricted ↔ Supported f.datatype f.fullCondition ∧
      ∀ value, holds f.datatype value f.fullCondition := by
  rw [← Predicate.exists_ofCondition_iff]
  constructor
  · rintro ⟨p, hp, ha⟩
    exact ⟨⟨p, hp⟩, fun value => Predicate.accepts_of_ofCondition hp value ▸ ha value⟩
  · rintro ⟨⟨p, hp⟩, hh⟩
    exact ⟨p, hp, fun value => (Predicate.accepts_of_ofCondition hp value).trans (hh value)⟩

theorem condition_of_isIncludeAll (h : f.isIncludeAll) :
    f.condition = .object [membersField []] := by
  obtain ⟨kind, settings⟩ := f
  cases kind with
  | members column names =>
    simp only [isIncludeAll, Bool.and_eq_true, Bool.not_eq_true', List.isEmpty_iff] at h
    obtain ⟨⟨rfl, hx⟩, hz⟩ := h
    exact congrArg Json.object (ofMembers_of_listed hx hz)
  | _ => cases h

theorem ownCondition_cases_of_listed {names : List String}
    (h : f.condition = .object [membersField names]) :
    (∃ fields : Fields, f.sourceCondition? = some (.object fields) ∧
        fields.get? "members" = some (.strings names) ∧ f.ownCondition = .object fields) ∨
      (∀ fields : Fields, f.sourceCondition? = some (.object fields) →
        fields.get? "members" ≠ some (.strings names)) ∧ f.ownCondition = f.condition := by
  have hd : f.condition.Distinct := by
    rw [h]
    simp [membersField, Fields.keys, distinct_strings]
  by_cases hc : ∃ whole, f.sourceCondition? = some whole ∧ f.condition.ContainedIn whole
  · obtain ⟨whole, hs, hc⟩ := hc
    have ho := ownCondition_of_containedIn hd hs hc
    obtain ⟨-, fields, -, rfl, -⟩ := id hc
    exact .inl ⟨fields, hs, get?_of_containedIn hc (by rw [h]; rfl), ho⟩
  · rw [not_exists] at hc
    refine .inr ⟨fun fields hs hg => hc _ ⟨hs, h ▸ containedIn_of_get? hg⟩, ?_⟩
    exact ownCondition_of_not_containedIn hd fun whole hs hw => hc whole ⟨hs, hw⟩

/-- A filter without members is evaluated by the fields of its source, if that lists none. -/
theorem unrestricted_iff_of_isIncludeAll (h : f.isIncludeAll)
    (hb : f.settings.background = none) :
    f.Unrestricted ↔ ∀ fields : Fields, f.sourceCondition? = some (.object fields) →
      fields.get? "members" = some (.array []) →
        ∀ field ∈ fields, RestrictsNothing f.datatype field.1 field.2 := by
  have hc := condition_of_isIncludeAll h
  rw [unrestricted_iff, fullCondition_eq_ownCondition hb]
  rcases ownCondition_cases_of_listed hc with ⟨fields, hs, hg, ho⟩ | ⟨hn, ho⟩
  · rw [ho, ← forall_restrictsNothing_iff]
    constructor
    · intro hr fields' hs' _
      obtain rfl := Json.object.inj (Option.some.inj (hs.symm.trans hs'))
      exact hr
    · exact fun hr => hr fields hs hg
  · rw [ho, hc, ← forall_restrictsNothing_iff]
    refine iff_of_true ?_ fun fields hs hg => absurd hg (hn fields hs)
    intro field hf
    obtain rfl := List.mem_singleton.mp hf
    exact restrictsNothing_noMembers

/-- A filter that was read and says that it includes everything lets every value pass unless the
condition of its item lists no members and has a field that restricts something. It always does if
the condition has no keys but those of including everything. -/
theorem ofPayload_unrestricted_iff (payload : Json) (guid : String)
    (h : (ofPayload payload guid).isIncludeAll) :
    ((ofPayload payload guid).Unrestricted ↔
      ∀ fields : Fields, (Item.unwrap payload).get? "filter" = some (.object fields) →
        fields.get? "members" = some (.array []) →
          ∀ field ∈ fields, RestrictsNothing (ofPayload payload guid).datatype field.1 field.2) ∧
      ∀ fields : Fields, (Item.unwrap payload).get? "filter" = some (.object fields) →
        fields.keys.Nodup → Shape.includesAll fields → (ofPayload payload guid).Unrestricted := by
  have hcarried := carriedWith_ofPayload payload guid
  have hsource :
      (ofPayload payload guid).sourceCondition? = (Item.unwrap payload).get? "filter" := by
    rw [sourceCondition?, hcarried.source_eq]
    rfl
  have hiff := unrestricted_iff_of_isIncludeAll h hcarried.background_eq
  rw [hsource] at hiff
  refine ⟨hiff, fun fields hf hd ha => hiff.mpr fun fields' hf' _ => ?_⟩
  obtain rfl := Json.object.inj (Option.some.inj (hf.symm.trans hf'))
  exact restrictsNothing_of_includesAll hd ha

theorem ofPayload_unrestricted_iff_excluded :
    let inner : Fields := [("members", .array [])]
    let condition : Fields :=
      [("members", .array []), ("exclude", .object inner), ("explicit", .bool true)]
    let payload : Json := .object
      [("dim", .string "[T.A]"), ("datatype", .string "text"), ("filter", .object condition)]
    (ofPayload payload "g").isIncludeAll ∧ (ofPayload payload "g").Unrestricted := by
  intro inner condition payload
  have h : (ofPayload payload "g").isIncludeAll := rfl
  refine ⟨h, (ofPayload_unrestricted_iff payload "g" h).1.mpr fun fields hf _ => ?_⟩
  obtain rfl : condition = fields := Json.object.inj (Option.some.inj hf)
  have hinner : Supported .text (.object inner) := by
    refine .object fun field hf => ?_
    obtain rfl := List.mem_singleton.mp hf
    exact restrictsNothing_noMembers.1
  simp only [condition, List.forall_mem_cons]
  exact ⟨restrictsNothing_noMembers, restrictsNothing_exclude hinner rfl,
    restrictsNothing_of_isIdle (by decide) _, List.forall_mem_nil _⟩

/-- Members that are excluded beside an empty list stay with the source: the filter says that it
includes everything, and refuses them. -/
theorem isIncludeAll_refuses_excluded :
    let inner : Fields := [("members", .array [.string "a"])]
    let condition : Fields := [("members", .array []), ("exclude", .object inner)]
    let payload : Json := .object
      [("dim", .string "[T.A]"), ("datatype", .string "text"), ("filter", .object condition)]
    (ofPayload payload "g").isIncludeAll ∧ ∃ p, (ofPayload payload "g").predicate = .ok p ∧
      p.accepts (.string "a") = false :=
  ⟨rfl, _, rfl, by decide⟩

end Filter

end QueryFilter
