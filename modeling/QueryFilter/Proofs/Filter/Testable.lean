import QueryFilter.Proofs.Condition.Rearranged
import QueryFilter.Proofs.Filter.Bounds
import QueryFilter.Proofs.Filter.Edited
import QueryFilter.Proofs.Filter.Shapes

/-! # Which comparisons can be evaluated

A text, numeric or date range filter that was read is evaluated by its own condition or by the one
it was read from, and the second may hold more than the comparison. Main statement: there is a
predicate unless numbers are compared with dates, or a field of the condition that was read cannot
be tested; such a field is a custom one, or stands in a range of dates.
-/

namespace QueryFilter

open Json (Fields)

namespace Reading

open Condition

variable {target : Target} {guid : String} {fields : Fields} {kind : Kind} {f : Filter}

/-- The kinds of filters that compare values themselves. -/
def comparisonKinds : List String := ["text", "numeric", "dateRange"]

theorem comparisonKind_of_simpleFilter (h : simpleFilter target guid fields = .ok f)
    (hk : f.kind.name ∈ comparisonKinds) : comparisonKind target fields = .ok f.kind := by
  rcases exists_kind_of_simpleFilter h with ⟨kind, rfl, ⟨period, value, -, hp⟩ | ⟨-, -, hc⟩⟩
  · obtain ⟨offset, count, anchor, rfl⟩ := exists_relativeDate_of_relativeKind hp
    exact absurd hk (by simp [comparisonKinds, Filter.ofKind, Kind.name])
  · exact hc

theorem comparisonKind_of_gives (h : Gives target guid (.object fields) f)
    (hk : f.kind.name ∈ comparisonKinds) : comparisonKind target fields = .ok f.kind := by
  cases h with
  | combination | exclusion =>
    exact absurd hk (by simp [comparisonKinds, Filter.ofKind, Kind.name])
  | ranking _ _ _ hr =>
    obtain ⟨measure, n, rfl⟩ := exists_ranking_of_rankingKind hr
    exact absurd hk (by simp [comparisonKinds, Filter.ofKind, Kind.name])
  | members _ _ _ hm =>
    obtain ⟨names, excludes, deactivated, rfl⟩ := exists_of_membersFilter hm
    exact absurd hk (by simp [comparisonKinds, Kind.name])
  | simple _ _ hs => exact comparisonKind_of_simpleFilter hs hk

theorem datatype_of_comparisonKind (h : comparisonKind target fields = .ok f.kind) :
    f.datatype = target.datatype := by
  obtain ⟨kind, settings⟩ := f
  rcases kind_of_comparisonKind h with
    ⟨first, second, rfl⟩ | ⟨column, rfl, ⟨operator, operand, rfl⟩ | ⟨start, finish, rfl⟩⟩ <;> rfl

theorem supported_of_comparisonKind (h : comparisonKind target fields = .ok f.kind)
    (hn : f.kind.name = "numeric" → f.datatype ≠ .datetime) : Supported f.datatype f.condition := by
  rw [datatype_of_comparisonKind h] at hn ⊢
  obtain ⟨kind, settings⟩ := f
  rcases comparisonKind_eq_ok_iff.mp h with ⟨ht, hk⟩ | ⟨column, rfl, ⟨hd, hk⟩ | ⟨hd, -, hk⟩⟩
  · obtain ⟨first, second, -, rfl⟩ := numericKind_eq_ok_iff.mp hk
    rw [ht.resolve_right fun ht => hn rfl ht.1, Filter.condition, Kind.condition,
      ofBounds_eq_map_keptBounds]
    exact supported_of_compares (compares_map_ofBound _)
  · obtain ⟨operator, value, operand, -, -, rfl⟩ := textKind_eq_ok_iff.mp hk
    have ht : (Target.column column).datatype = .text := hd
    exact ht ▸ (Filter.tells_text column operator operand settings).supported
  · obtain ⟨start, finish, hs, hf, rfl⟩ := dateRangeKind_eq_ok_iff.mp hk
    have ht : (Target.column column).datatype = .datetime := hd
    exact ht ▸ (Filter.tells_dateRange column (dateBound?_eq_ok_iff.mp hs).2
      (dateBound?_eq_ok_iff.mp hf).2 settings).supported

section Fields

variable {key : String} {operand : Json}

theorem isIdle_of_mem_passiveKeys (h : key ∈ Shape.passiveKeys) (hc : key ≠ "custom") :
    isIdle key := by
  simp only [Shape.passiveKeys, List.mem_cons, List.not_mem_nil, or_false] at h
  rcases h with rfl | rfl | rfl | rfl | rfl <;> first | decide | contradiction

/-- Of the fields that were read as bounds, only a custom one cannot be tested. -/
theorem supportedField_of_numericKind (h : numericKind target fields = .ok kind)
    (hf : (key, operand) ∈ fields) (hc : key ≠ "custom") : SupportedField .numeric key operand := by
  obtain ⟨first, second, hm, -⟩ := numericKind_eq_ok_iff.mp h
  by_cases hp : key ∈ Shape.passiveKeys
  · exact supportedField_of_isIdle (isIdle_of_mem_passiveKeys hp hc) operand
  · obtain ⟨b, -, rfl, hx⟩ := bound_of_mapM_numericBound hm (mem_activeFields_iff.mpr ⟨hf, hp⟩)
    exact .comparison (.number b.operator hx)

theorem supportedField_of_textKind {column : Column} (h : textKind column fields = .ok kind)
    (hf : (key, operand) ∈ fields) (hc : key ≠ "custom") : SupportedField .text key operand := by
  obtain ⟨operator, value, text, ha, ht, -⟩ := textKind_eq_ok_iff.mp h
  by_cases hp : key ∈ Shape.passiveKeys
  · exact supportedField_of_isIdle (isIdle_of_mem_passiveKeys hp hc) operand
  · have hm := mem_activeFields_iff.mpr ⟨hf, hp⟩
    rw [ha, List.mem_singleton] at hm
    cases hm
    exact .comparison (.text operator ht)

theorem supportedField_of_dateRangeKind {column : Column}
    (h : dateRangeKind column fields = .ok kind) (hg : fields.get? key = some operand)
    (hk : key ∈ ["from", "to"]) (hn : operand ≠ .null) :
    SupportedField .datetime key operand := by
  obtain ⟨start, finish, hs, hf, -⟩ := dateRangeKind_eq_ok_iff.mp h
  have hv : fields.value? key = some operand := by
    rw [Fields.value?, hg]
    cases operand <;> first | rfl | contradiction
  have hb {date : Option String} (operator : Comparison)
      (hd : dateBound? fields operator.key = .ok date) (hk : key = operator.key) :
      SupportedField .datetime key operand := by
    obtain ⟨hdate, hi⟩ := dateBound?_eq_ok_iff.mp hd
    rw [← hk, hv] at hdate
    cases date with
    | none => cases hdate
    | some date =>
      obtain rfl := Option.some.inj hdate
      obtain ⟨x, hx⟩ := Option.isSome_iff_exists.mp (hi date rfl)
      exact hk ▸ .comparison (.date operator hx)
  simp only [List.mem_cons, List.not_mem_nil, or_false] at hk
  rcases hk with hk | hk
  · exact hb .atLeast hs hk
  · exact hb .atMost hf hk

end Fields

end Reading

namespace Filter

open Condition Reading

variable {payload : Json} {guid : String} {f : Filter}

/-- Why a comparison that was read has no predicate: it is one of numbers with dates, or a field of
the condition that it was read from, and still holds on to, cannot be tested. -/
inductive Untestable (f : Filter) : Prop
  | numbers : f.kind.name = "numeric" → f.datatype = .datetime → Untestable f
  | field {fields : Fields} {key : String} {operand : Json} :
      f.sourceCondition? = some (.object fields) → f.condition.ContainedIn (.object fields) →
      (key, operand) ∈ fields → ¬SupportedField f.datatype key operand → Untestable f

theorem exists_comparisonKind_of_ofPayload? (h : ofPayload? payload guid = .ok f)
    (hk : f.kind.name ∈ comparisonKinds) :
    ∃ item t fields, Item.ofPayload (Item.unwrap payload) = .ok item ∧
      item.conditionFields? = some fields ∧ comparisonKind t fields = .ok f.kind := by
  obtain ⟨item, t, shape, hi, -, hs, hn, hf⟩ := readFrom?_eq_ok_iff.mp h
  obtain ⟨-, fields, hc, -⟩ := Item.exists_conditionFields_of_shape? hs hn
  refine ⟨item, t, fields, hi, hc, ?_⟩
  have ho : conditionOf item = fields := by rw [conditionOf, hc, Option.getD_some]
  cases shape with
  | invalid => cases hf
  | includeAll | advanced =>
    obtain rfl := Except.ok.inj hf
    exact absurd hk (by simp [comparisonKinds, Kind.name])
  | specificItems =>
    obtain ⟨names, excludes, deactivated, rfl⟩ := exists_of_membersFilter hf
    exact absurd hk (by simp [comparisonKinds, Kind.name])
  | condition | dateRange | numericRange | period =>
    obtain ⟨g, hg, rfl⟩ := map_eq_ok_iff.mp hf
    rw [ho] at hg
    exact comparisonKind_of_gives (f := g) (gives_of_conditionFilter hg) hk

theorem exists_comparisonKind_of_ofPayload
    (hk : (ofPayload payload guid).kind.name ∈ comparisonKinds) :
    ∃ item t fields, Item.ofPayload (Item.unwrap payload) = .ok item ∧
      item.conditionFields? = some fields ∧
      comparisonKind t fields = .ok (ofPayload payload guid).kind := by
  cases h : ofPayload? payload guid with
  | ok f =>
    rw [ofPayload_of_ok h] at hk ⊢
    exact exists_comparisonKind_of_ofPayload? h hk
  | error cause =>
    rw [ofPayload_of_error h] at hk
    exact absurd hk (by simp [comparisonKinds, generic_eq, Kind.name])

theorem exists_numeric_of_name (hn : f.kind.name = "numeric") :
    ∃ target first second, f.kind = .numeric target first second := by
  obtain ⟨kind, settings⟩ := f
  cases kind with
  | numeric target first second => exact ⟨target, first, second, rfl⟩
  | _ => simp [Kind.name] at hn

/-- A number is no date, whether it is written by the filter or stands in its source. -/
theorem not_supported_of_numbers {target : Target} {first : Bound} {second : Option Bound}
    (hf : f.kind = .numeric target first second) (hd : f.condition.Distinct) :
    ¬Supported .datetime f.ownCondition := by
  obtain ⟨b, hb⟩ : ∃ b, f.condition.get? b.operator.key = some (ofBound b).2 := by
    obtain ⟨kind, settings⟩ := f
    obtain rfl := hf
    cases second with
    | none => exact ⟨first, Fields.get?_insert_self [] _ _⟩
    | some b => exact ⟨b, Fields.get?_insert_self _ _ _⟩
  obtain ⟨n, hn, -⟩ := exists_number_of_get?_condition hd hb
  intro hs
  obtain ⟨fields, ho⟩ := hs.exists_object
  rw [ho] at hs hn
  have hcompares := (hs.field hn).compares (comparisonKey_not_reserved b.operator)
  generalize b.operator.key = key at hcompares
  cases hcompares with
  | date operator hx => cases hx

theorem exists_predicate_iff_not_untestable
    (hk : (ofPayload payload guid).kind.name ∈ comparisonKinds) :
    (∃ p, (ofPayload payload guid).predicate = .ok p) ↔ ¬(ofPayload payload guid).Untestable := by
  obtain ⟨item, t, fields, -, -, hkind⟩ := exists_comparisonKind_of_ofPayload hk
  have hd : (ofPayload payload guid).condition.Distinct :=
    distinct_condition_ofPayload fun hn => by rw [hn] at hk; exact absurd hk (by decide)
  have hb := (carriedWith_ofPayload payload guid).background_eq
  generalize ofPayload payload guid = f at *
  rw [predicate, fullCondition_eq_ownCondition hb, Predicate.exists_ofCondition_iff]
  constructor
  · rintro hs (⟨hn, hdate⟩ | ⟨hw, hc, hm, hu⟩)
    · obtain ⟨target, first, second, hf⟩ := exists_numeric_of_name hn
      exact not_supported_of_numbers hf hd (hdate ▸ hs)
    · rw [ownCondition_of_containedIn hd hw hc, supported_object_iff] at hs
      exact hu (hs _ hm)
  · intro hn
    by_cases hc : ∃ whole, f.sourceCondition? = some whole ∧ f.condition.ContainedIn whole
    · obtain ⟨whole, hw, hc⟩ := hc
      rw [ownCondition_of_containedIn hd hw hc]
      obtain ⟨-, fields, -, rfl, -⟩ := id hc
      rw [supported_object_iff]
      rintro ⟨key, operand⟩ hm
      by_contra hu
      exact hn (.field hw hc hm hu)
    · rw [ownCondition_of_not_containedIn hd fun whole hw h => hc ⟨whole, hw, h⟩]
      exact supported_of_comparisonKind hkind fun hnum hdate => hn (.numbers hnum hdate)

/-- A text, numeric or date range filter that was read has a predicate unless it is untestable.
Where the numbers are not compared with dates, a field that cannot be tested is called custom, or
stands in a range of dates and is an open bound or no bound at all. -/
theorem predicate_of_comparison (payload : Json) (guid : String) :
    let f := ofPayload payload guid
    f.kind.name ∈ ["text", "numeric", "dateRange"] →
      ((∃ p, f.predicate = .ok p) ↔ ¬f.Untestable) ∧
        (Item.unwrap (Item.unwrap payload) = Item.unwrap payload →
          (f.kind.name = "numeric" → f.datatype ≠ .datetime) →
          ∀ (fields : Fields) (key : String) (operand : Json),
            f.sourceCondition? = some (.object fields) → fields.get? key = some operand →
            ¬SupportedField f.datatype key operand →
            if f.kind.name = "dateRange" then key ∉ ["from", "to"] ∨ operand = .null
            else key = "custom") := by
  intro f hk
  refine ⟨exists_predicate_iff_not_untestable hk, fun hu hnum fields key operand hw hg hn => ?_⟩
  obtain ⟨item, t, own, hi, hc, hkind⟩ : ∃ item t own,
      Item.ofPayload (Item.unwrap payload) = .ok item ∧ item.conditionFields? = some own ∧
        comparisonKind t own = .ok f.kind :=
    exists_comparisonKind_of_ofPayload hk
  obtain rfl : fields = own := by
    refine filter_of_conditionFields? hu hi hc ?_
    rw [← hw, sourceCondition?, (carriedWith_ofPayload payload guid).source_eq]
    rfl
  clear_value f
  rw [datatype_of_comparisonKind hkind] at hn hnum
  rcases comparisonKind_eq_ok_iff.mp hkind with ⟨hd, hk⟩ | ⟨column, rfl, ⟨hd, hk⟩ | ⟨hd, -, hk⟩⟩
  · have hname : f.kind.name = "numeric" := name_of_numericKind hk
    rw [if_neg (by rw [hname]; decide)]
    by_contra hne
    rw [hd.resolve_right fun h => hnum hname h.1] at hn
    exact hn (supportedField_of_numericKind hk (Fields.mem_of_get? hg) hne)
  · have hname : f.kind.name = "text" := by
      obtain ⟨operator, value, text, -, -, he⟩ := textKind_eq_ok_iff.mp hk
      rw [he]
      rfl
    rw [if_neg (by rw [hname]; decide)]
    by_contra hne
    have hd : (Target.column column).datatype = .text := hd
    rw [hd] at hn
    exact hn (supportedField_of_textKind hk (Fields.mem_of_get? hg) hne)
  · have hname : f.kind.name = "dateRange" := by
      obtain ⟨start, finish, -, -, he⟩ := dateRangeKind_eq_ok_iff.mp hk
      rw [he]
      rfl
    rw [if_pos hname]
    by_contra hne
    rw [not_or, not_not] at hne
    have hd : (Target.column column).datatype = .datetime := hd
    rw [hd] at hn
    exact hn (supportedField_of_dateRangeKind hk hg hne.1 hne.2)

/-- A comparison of texts beside a key of presentation. -/
theorem predicate_of_comparison_presented :
    let condition : Fields := [("explicit", .bool true), ("contains", .string "a")]
    let payload : Json := .object
      [("dim", .string "[T.A]"), ("datatype", .string "text"), ("filter", .object condition)]
    let f := ofPayload payload "g"
    f.kind.name = "text" ∧ f.sourceCondition? = some (.object condition) ∧
      ∃ p, f.predicate = .ok p := by
  intro condition payload f
  obtain ⟨h, hfields⟩ := predicate_of_comparison payload "g" (by decide)
  refine ⟨rfl, rfl, h.mpr ?_⟩
  rintro (⟨hn, -⟩ | ⟨hw, -, hm, hu⟩)
  · exact absurd hn (by decide)
  · obtain rfl := Json.object.inj (Option.some.inj hw)
    have hg := Fields.get?_of_mem (by decide : condition.keys.Nodup) hm
    have hk := hfields rfl (fun hn => absurd hn (by decide)) condition _ _ rfl hg hu
    rw [if_neg (by decide)] at hk
    subst hk
    cases hg

/-- The reader passes over a custom key, and the predicate refuses it as an operator. -/
theorem predicate_refuses_custom :
    let payload : Json := .object [("dim", .string "[T.A]"), ("datatype", .string "text"),
      ("filter", .object [("contains", .string "x"), ("custom", .bool true)])]
    let f := ofPayload payload "g"
    f.kind.name = "text" ∧ f.predicate = .error (.unsupportedOperator "custom" .text) :=
  ⟨rfl, rfl⟩

end Filter

end QueryFilter
