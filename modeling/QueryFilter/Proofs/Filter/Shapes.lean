import QueryFilter.Command.Action
import QueryFilter.Proofs.Binary64.Exact
import QueryFilter.Proofs.Filter.Distinct
import QueryFilter.Proofs.Filter.Items

/-! # Shapes and kinds

The shape that is reported for a payload announces the kind of the filter that is read from it. A
range of dates is announced also for measures, which are read as numbers; ranges beside a period are
left out.
-/

namespace QueryFilter

open Json (Fields)
open Reading

namespace Shape

variable {fields : Fields} {d : DataType}

/-- What the shape of a condition says of the filter's kind, where it is known whether the item
aggregates. -/
def Announces (shape : Shape) (aggregates : Bool) (condition : Fields) (kind : Kind) : Prop :=
  match shape with
  | .includeAll | .specificItems => kind.name = "members"
  | .condition => kind.name ≠ "custom"
  | .dateRange =>
    condition.get? Period.last.key = none → condition.get? Period.next.key = none →
      kind.name = if aggregates then "numeric" else "dateRange"
  | .numericRange =>
    condition.get? Period.last.key = none → condition.get? Period.next.key = none →
      kind.name = "numeric"
  | .period => kind.name = "relativeDate"
  | .advanced => kind.name = "custom"
  | .invalid => False

theorem get?_eq_none_of_isConditionKey {key : String} (hk : isConditionKey key)
    (h : isCondition d fields = false) : fields.get? key = none := by
  rw [isCondition, Bool.or_assoc, Bool.or_eq_false_iff, List.any_eq_false] at h
  rw [Fields.get?_eq_none_iff]
  rintro field hf rfl
  exact h.1 field.1 (List.mem_map_of_mem hf) hk

/-- Nothing but a period or a comparison decides what the fields are. -/
structure OnlyCompares (fields : Fields) : Prop extends Undecided fields where
  noExclusion : fields.get? "exclude" = none

theorem onlyCompares_of_not_isCondition (hm : listsMembers fields = false)
    (h : isCondition d fields = false) : OnlyCompares fields where
  notJoined := ⟨get?_eq_none_of_isConditionKey (by decide) h,
    get?_eq_none_of_isConditionKey (by decide) h⟩
  notRanked := ⟨get?_eq_none_of_isConditionKey (by decide) h,
    get?_eq_none_of_isConditionKey (by decide) h⟩
  noMembers := hm
  noExclusion := by
    rw [isCondition, Bool.or_eq_false_iff, Bool.or_eq_false_iff] at h
    exact Fields.hasKey_eq_false_iff.mp h.1.2

theorem compares_of_ofFields
    (h : ofFields d fields ∈ [Shape.dateRange, Shape.numericRange, Shape.period]) :
    OnlyCompares fields ∧
      (hasRange fields ∧ d ≠ .text ∧
          ofFields d fields = (if d = .datetime then .dateRange else .numericRange) ∨
        (fields.hasKey Period.last.key ∨ fields.hasKey Period.next.key) ∧
          ofFields d fields = .period) := by
  unfold ofFields at h ⊢
  split at h
  · simp at h
  split at h
  · simp at h
  next hi hm =>
  split at h
  · simp at h
  next hc =>
  rw [if_neg hi, if_neg hm, if_neg hc]
  rw [Bool.not_eq_true] at hm hc
  refine ⟨onlyCompares_of_not_isCondition hm hc, ?_⟩
  split
  · next hr =>
    refine .inl ⟨hr, ?_, rfl⟩
    rintro rfl
    simp [isCondition, hr] at hc
  · next hr =>
    rw [if_neg hr] at h
    split at h
    · next hp => exact .inr ⟨Bool.or_eq_true .. ▸ hp, by rw [if_pos hp]⟩
    · split at h <;> simp at h

end Shape

namespace Reading

variable {target : Target} {guid : String} {fields : Fields} {kind : Kind} {f : Filter}

theorem simpleFilter_of_gives (h : Gives target guid (.object fields) f)
    (hc : Shape.OnlyCompares fields) : simpleFilter target guid fields = .ok f := by
  cases h with
  | @combination _ _ connective _ _ hk =>
    cases connective
    · simp [hc.notJoined.1] at hk
    · simp [hc.notJoined.2] at hk
  | @ranking _ _ rank _ _ _ hk =>
    cases rank
    · simp [hc.notRanked.1] at hk
    · simp [hc.notRanked.2] at hk
  | members _ _ hm => simp [hc.noMembers] at hm
  | exclusion _ he => simp [hc.noExclusion] at he
  | simple _ _ h => exact h

theorem name_of_simpleFilter_of_period (h : simpleFilter target guid fields = .ok f)
    (hp : fields.hasKey Period.last.key ∨ fields.hasKey Period.next.key) :
    f.kind.name = "relativeDate" := by
  rcases exists_kind_of_simpleFilter h with ⟨kind, rfl, ⟨period, value, -, hk⟩ | ⟨hl, hn, -⟩⟩
  · obtain ⟨offset, count, anchor, rfl⟩ := exists_relativeDate_of_relativeKind hk
    rfl
  · simp [Fields.hasKey, hl, hn] at hp

theorem name_of_numericKind (h : numericKind target fields = .ok kind) : kind.name = "numeric" := by
  obtain ⟨first, second, -, rfl⟩ := numericKind_eq_ok_iff.mp h
  rfl

/-- A range beside no period is one of numbers on numbers and on measures, and one of dates on other
dates. -/
theorem name_of_simpleFilter_of_range (h : simpleFilter target guid fields = .ok f)
    (hr : Shape.hasRange fields) (ht : target.base.datatype ≠ .text)
    (hl : fields.get? Period.last.key = none) (hn : fields.get? Period.next.key = none) :
    f.kind.name =
      if target.isMeasure || target.base.datatype == .numeric then "numeric" else "dateRange" := by
  simp only [simpleFilter, simpleKind, show fields.get? "last" = none from hl,
    show fields.get? "next" = none from hn, map_eq_ok_iff] at h
  obtain ⟨kind, hk, rfl⟩ := h
  cases target with
  | measure m => exact name_of_numericKind hk
  | column column =>
    rw [comparisonKind] at hk
    simp only [Target.base, Target.isMeasure, Bool.false_or] at ht ⊢
    cases hd : column.datatype with
    | text => exact absurd hd ht
    | numeric =>
      rw [hd] at hk
      exact name_of_numericKind hk
    | datetime =>
      simp only [hd, hr, if_true] at hk
      obtain ⟨start, finish, -, -, rfl⟩ := dateRangeKind_eq_ok_iff.mp hk
      rfl

end Reading

namespace Filter

variable {target : Target} {guid : String} {f : Filter}

theorem name_ne_custom_of_gives {condition : Json} (h : Gives target guid condition f) :
    f.kind.name ≠ "custom" := by
  intro hn
  obtain ⟨kind, settings⟩ := f
  cases kind with
  | custom => exact not_carriesAlong_of_gives h .custom
  | _ => simp [Kind.name] at hn

end Filter

namespace Item

variable {item : Item} {target : Target} {shape : Shape} {f : Filter} {settings : Settings}

theorem isMeasure_of_target? (h : item.target? = some target) :
    target.isMeasure = item.aggregation.isSome := by
  simp only [target?, Option.map_eq_some_iff] at h
  obtain ⟨column, -, rfl⟩ := h
  cases item.aggregation <;> rfl

theorem shape_eq_of_shape? (h : item.shape? = .ok shape) (hn : shape ≠ .invalid) :
    Shape.ofFields item.datatype (conditionOf item) = shape := by
  obtain ⟨-, fields, hc, hs⟩ := exists_conditionFields_of_shape? h hn
  rw [conditionOf, hc]
  exact hs

theorem announces_of_simpleFilter {guid : String} {fields : Fields}
    (hs : Shape.ofFields target.base.datatype fields = shape)
    (hk : shape ∈ [Shape.dateRange, Shape.numericRange, Shape.period])
    (h : simpleFilter target guid fields = .ok f) :
    shape.Announces target.isMeasure fields f.kind := by
  obtain ⟨-, ⟨hr, ht, he⟩ | ⟨hp, he⟩⟩ := Shape.compares_of_ofFields (hs ▸ hk)
  · have hn := name_of_simpleFilter_of_range h hr ht
    rw [← hs, he]
    cases hd : target.base.datatype with
    | text => exact absurd hd ht
    | numeric =>
      intro hl hx
      simpa [hd] using hn hl hx
    | datetime =>
      intro hl hx
      simpa [hd] using hn hl hx
  · rw [← hs, he]
    exact name_of_simpleFilter_of_period h hp

theorem announces_of_shapedFilter (ht : item.target? = some target) (hs : item.shape? = .ok shape)
    (h : shapedFilter item target settings shape = .ok f) :
    shape.Announces item.aggregation.isSome (conditionOf item) f.kind := by
  have hi : shape ≠ .invalid := by
    rintro rfl
    cases h
  cases shape with
  | invalid => exact absurd rfl hi
  | includeAll | advanced =>
    obtain rfl := Except.ok.inj h
    rfl
  | specificItems =>
    obtain ⟨names, excludes, deactivated, rfl⟩ := exists_of_membersFilter h
    rfl
  | condition =>
    obtain ⟨g, hg, rfl⟩ := map_eq_ok_iff.mp h
    exact Filter.name_ne_custom_of_gives (f := g) (gives_of_conditionFilter hg)
  | dateRange | numericRange | period =>
    obtain ⟨g, hg, rfl⟩ := map_eq_ok_iff.mp h
    have hf := shape_eq_of_shape? hs hi
    rw [← (of_target?_eq_some ht).1] at hf
    obtain ⟨hc, -⟩ := Shape.compares_of_ofFields (d := target.base.datatype) (by rw [hf]; simp)
    have hg := simpleFilter_of_gives (gives_of_conditionFilter hg) hc
    rw [← isMeasure_of_target? ht]
    exact announces_of_simpleFilter (f := g) hf (by simp) hg

end Item

namespace Command

/-- A payload that is read as a filter is reported with a shape that announces the filter's kind. -/
theorem announces_of_ofPayload? {payload : Json} {guid : String} {f : Filter}
    (h : Filter.ofPayload? payload guid = .ok f) :
    ∃ item shape, Item.ofPayload (Item.unwrap payload) = .ok item ∧
      Shape.ofPayload? payload = .ok shape ∧ translate payload guid = ⟨.ok shape, f⟩ ∧
      shape.Announces item.aggregation.isSome (conditionOf item) f.kind := by
  obtain ⟨item, t, shape, hi, ht, hs, -, hf⟩ := Filter.readFrom?_eq_ok_iff.mp h
  have hp : Shape.ofPayload? payload = .ok shape := by simp only [Shape.ofPayload?, hi, hs]
  refine ⟨item, shape, hi, hp, ?_, Item.announces_of_shapedFilter ht hs hf⟩
  simp only [translate, h, hp]

theorem announces_of_ofPayload?_dates :
    let payload : Json := .object
      [("dim", .string "[T.D]"), ("datatype", .string "datetime"),
       ("filter", .object [("explicit", .bool true), ("to", .string "2024-12-31")])]
    let f : Filter := ⟨.dateRange ⟨"[T.D]", "[T.D]", .datetime, none⟩ none (some "2024-12-31"),
      Filter.readSettings payload "g"⟩
    Filter.ofPayload? payload "g" = .ok f ∧
      ∃ item shape, Item.ofPayload (Item.unwrap payload) = .ok item ∧
        Shape.ofPayload? payload = .ok shape ∧ translate payload "g" = ⟨.ok shape, f⟩ ∧
        shape.Announces item.aggregation.isSome (conditionOf item) f.kind := by
  intro payload f
  have h : Filter.ofPayload? payload "g" = .ok f := by rfl
  exact ⟨h, announces_of_ofPayload? h⟩

/-- The greatest of some dates is announced as a range of dates and compared as a number. -/
theorem translate_measure_of_dates :
    let payload : Json := .object
      [("dim", .string "[T.D]"), ("datatype", .string "datetime"), ("agg", .string "max"),
       ("filter", .object [("from", .number (.integer ⟨0, by decide, by decide⟩))])]
    ∃ f, Filter.ofPayload? payload "g" = .ok f ∧ translate payload "g" = ⟨.ok .dateRange, f⟩ ∧
      f.kind.name = "numeric" := by
  have hz : (Json.number (.integer ⟨0, by decide, by decide⟩)).asNumber? = some _ :=
    Number.ofBinary64_of_rank_eq_zero (x := Binary64.zero) rfl ▸
      Number.toBinary64?_ofBinary64 Binary64.zero
  generalize Json.number (.integer ⟨0, by decide, by decide⟩) = value at hz ⊢
  intro payload
  let target : Target := .measure ⟨⟨"[T.D]", "[T.D]", .datetime, none⟩, "max", "[T.D]"⟩
  have hb : numericBound ("from", value) = .ok ⟨.atLeast, _⟩ :=
    numericBound_eq_ok_iff.mpr ⟨rfl, hz⟩
  have hn : numericKind target [("from", value)] = .ok (.numeric target ⟨.atLeast, _⟩ none) :=
    numericKind_eq_ok_iff.mpr ⟨_, none, mapM_eq_ok_iff.mpr (congrArg ([·]) hb), rfl⟩
  have hg : Gives target "g" (.object [("from", value)]) (.ofKind _ "g") :=
    .simple ⟨⟨rfl, rfl⟩, ⟨rfl, rfl⟩, rfl⟩ rfl (map_eq_ok_iff.mpr ⟨_, hn, rfl⟩)
  have h : Filter.ofPayload? payload "g" = .ok ⟨_, Filter.readSettings payload "g"⟩ :=
    Filter.readFrom?_eq_ok_iff.mpr ⟨_, target, .dateRange, rfl, rfl, rfl, by decide,
      map_eq_ok_iff.mpr ⟨_, conditionFilter_of_gives hg _, rfl⟩⟩
  exact ⟨_, h, by simp only [translate, h]; rfl, rfl⟩

end Command

end QueryFilter
