import QueryFilter.Filter.Condition
import QueryFilter.Proofs.Filter.Derivation
import QueryFilter.Proofs.Filter.Settings
import QueryFilter.Proofs.Json.Equality

/-! # What filters write

A condition is put together from texts, flags and numbers as filters write them, and a filter writes
every key of an object once. So a property that is handed on from parts to the whole holds of the
condition, unless it fails of one that is carried along as it is; a filter that was read from a
condition has none of those inside. Main instance: conditions without repeated keys.
-/

namespace QueryFilter

open Json (Fields)
open Reading

/-- The condition stands in the filter, or in one inside it, as it was given. -/
inductive Filter.CarriesAlong : Filter → Json → Prop
  | custom {dimension : String} {condition : Json} {settings : Settings} :
      CarriesAlong ⟨.custom dimension condition, settings⟩ condition
  | exclude {inner : Filter} {condition : Json} {settings : Settings} :
      CarriesAlong inner condition → CarriesAlong ⟨.exclude inner, settings⟩ condition
  | logical {target : Target} {connective : Connective} {filters : List Filter} {f : Filter}
      {condition : Json} {settings : Settings} :
      f ∈ filters → CarriesAlong f condition →
      CarriesAlong ⟨.logical target connective filters, settings⟩ condition

namespace Json

/-- The property is handed on from items and fields to lists and objects without repeated keys, and
texts, flags and numbers have it as they are written. -/
structure Inherited (P : Json → Prop) : Prop where
  bool : ∀ b : Bool, P (.bool b)
  string : ∀ s : String, P (.string s)
  ofInt64 : ∀ n : Int64, P (.ofInt64 n)
  ofBinary64 : ∀ x : Binary64, P (.number (.ofBinary64 x))
  array : ∀ {items : List Json}, (∀ item ∈ items, P item) → P (.array items)
  object : ∀ {fields : Fields}, fields.keys.Nodup → (∀ field ∈ fields, P field.2) →
    P (.object fields)

theorem inherited_distinct : Inherited Distinct where
  bool := .bool
  string := .string
  ofInt64 _ := .number _
  ofBinary64 _ := .number _
  array := .array
  object := .object

namespace Inherited

variable {P : Json → Prop} (hP : Inherited P)
include hP

theorem single (key : String) {x : Json} (hx : P x) : P (.object [(key, x)]) :=
  hP.object (List.nodup_singleton key) (List.forall_mem_singleton.mpr hx)

theorem strings (names : List String) : P (.strings names) := by
  refine hP.array fun item hi => ?_
  obtain ⟨name, -, rfl⟩ := List.mem_map.mp hi
  exact hP.string name

theorem ofMembers (names : List String) (settings : Settings) :
    P (.object (Condition.ofMembers names settings)) := by
  unfold Condition.ofMembers
  split
  · exact hP.single _ (hP.single _ (hP.strings names))
  · split
    · exact hP.single _ (hP.strings names)
    · have hx : P (.object [("members", .strings settings.deactivated),
          ("turnedOff", .bool true)]) :=
        hP.object (by simp [Fields.keys]) (by simp [hP.strings, hP.bool])
      exact hP.object (by simp [Fields.keys]) (by simp [hP.strings, hx])

theorem ofBounds (first : Bound) (second : Option Bound) :
    P (.object (Condition.ofBounds first second)) := by
  refine hP.object (Fields.nodup_keys_insertAll .nil) fun field hf => ?_
  rcases Fields.mem_of_mem_insertAll hf with hf | hf
  · cases hf
  · obtain ⟨b, -, rfl⟩ := List.mem_map.mp hf
    exact hP.ofBinary64 b.value

theorem ofPeriod (period : Period) (offset count : Int64) (anchor : Option String) :
    P (.object (Condition.ofPeriod period offset count anchor)) := by
  refine hP.single _ (hP.object ?_ ?_) <;> cases anchor <;>
    simp [Condition.optionalText, Fields.keys, hP.ofInt64, hP.string]

theorem dates (start finish : Option String) :
    P (.object (Condition.optionalText "from" start ++ Condition.optionalText "to" finish)) := by
  refine hP.object ?_ ?_ <;> cases start <;> cases finish <;>
    simp [Condition.optionalText, Fields.keys, hP.string]

theorem measure (measure : Measure) : P (.object measure.fields) := by
  obtain ⟨⟨_, _, _, _ | _⟩, _, _⟩ := measure <;> refine hP.object ?_ ?_ <;>
    simp [Measure.fields, Column.fields, Fields.keys, hP.string]

theorem ofRanking (measure : Measure) (rank : Rank) (count : Int64) :
    P (.object (Condition.ofRanking measure rank count)) := by
  refine hP.object ?_ ?_ <;> cases rank <;>
    simp [Condition.ofRanking, Fields.keys, Rank.key, hP.ofInt64, hP.measure]

end Inherited

end Json

mutual

theorem Filter.inherited_condition {P : Json → Prop} (hP : Json.Inherited P) : ∀ (f : Filter),
    (∀ condition, f.CarriesAlong condition → P condition) → P f.condition
  | ⟨kind, settings⟩, h => Kind.inherited_condition hP kind settings h

theorem Kind.inherited_condition {P : Json → Prop} (hP : Json.Inherited P) :
    ∀ (kind : Kind) (settings : Settings),
      (∀ condition, Filter.CarriesAlong ⟨kind, settings⟩ condition → P condition) →
        P (kind.condition settings)
  | .members _ names, settings, _ => hP.ofMembers names settings
  | .text _ operator operand, _, _ => hP.single operator.key (hP.string operand)
  | .numeric _ first second, _, _ => hP.ofBounds first second
  | .dateRange _ start finish, _, _ => hP.dates start finish
  | .relativeDate _ period offset count anchor, _, _ => hP.ofPeriod period offset count anchor
  | .ranking _ measure rank count, _, _ => hP.ofRanking measure rank count
  | .exclude inner, _, h =>
    hP.single "exclude" (inner.inherited_condition hP fun condition hc => h condition (.exclude hc))
  | .logical _ connective filters, _, h =>
    hP.single connective.key (hP.array (inherited_conditions hP filters fun _ hf condition hc =>
      h condition (.logical hf hc)))
  | .custom _ condition, _, h => h condition .custom

theorem inherited_conditions {P : Json → Prop} (hP : Json.Inherited P) :
    ∀ (filters : List Filter),
      (∀ f ∈ filters, ∀ condition, f.CarriesAlong condition → P condition) →
        ∀ condition ∈ conditions filters, P condition
  | [], _ => by simp [conditions]
  | f :: filters, h => by
    obtain ⟨hf, hfs⟩ := List.forall_mem_cons.mp h
    rw [conditions, List.forall_mem_cons]
    exact ⟨f.inherited_condition hP hf, inherited_conditions hP filters hfs⟩

end

namespace Condition

theorem distinct_strings (names : List String) : (Json.strings names).Distinct :=
  Json.inherited_distinct.strings names

theorem distinct_ofMembers (names : List String) (settings : Settings) :
    (Json.object (ofMembers names settings)).Distinct :=
  Json.inherited_distinct.ofMembers names settings

theorem distinct_ofBounds (first : Bound) (second : Option Bound) :
    (Json.object (ofBounds first second)).Distinct :=
  Json.inherited_distinct.ofBounds first second

theorem distinct_dates (start finish : Option String) :
    (Json.object (optionalText "from" start ++ optionalText "to" finish)).Distinct :=
  Json.inherited_distinct.dates start finish

theorem distinct_ofRanking (measure : Measure) (rank : Rank) (count : Int64) :
    (Json.object (ofRanking measure rank count)).Distinct :=
  Json.inherited_distinct.ofRanking measure rank count

end Condition

namespace Filter

variable {f : Filter} {target : Target} {payload condition : Json} {guid : String}

theorem not_carriesAlong_of_simpleFilter {fields : Fields}
    (h : simpleFilter target guid fields = .ok f) : ¬f.CarriesAlong condition := by
  rcases exists_kind_of_simpleFilter h with ⟨kind, rfl, ⟨period, value, -, hk⟩ | ⟨-, -, hk⟩⟩
  · obtain ⟨offset, count, anchor, rfl⟩ := exists_relativeDate_of_relativeKind hk
    rintro ⟨⟩
  rcases kind_of_comparisonKind hk with
    ⟨first, second, rfl⟩ | ⟨column, rfl, ⟨operator, operand, rfl⟩ | ⟨start, finish, rfl⟩⟩ <;>
  · rintro ⟨⟩

theorem not_carriesAlong_of_gives {source : Json} (h : Gives target guid source f) :
    ¬f.CarriesAlong condition := by
  induction h with
  | combination _ _ hl _ ih =>
    rintro (_ | _ | ⟨hf, hc⟩)
    obtain ⟨i, hi, rfl⟩ := List.getElem_of_mem hf
    exact ih i _ _ (List.getElem?_eq_getElem (hl ▸ hi)) (List.getElem?_eq_getElem hi) hc
  | ranking _ _ _ hr =>
    obtain ⟨measure, n, rfl⟩ := exists_ranking_of_rankingKind hr
    rintro ⟨⟩
  | members _ _ _ h =>
    obtain ⟨names, excludes, deactivated, rfl⟩ := exists_of_membersFilter h
    rintro ⟨⟩
  | exclusion _ _ _ ih =>
    rintro (_ | hc)
    exact ih hc
  | simple _ _ h => exact not_carriesAlong_of_simpleFilter h

theorem carriesAlong_withSettings_iff {settings : Settings} :
    (f.withSettings settings).CarriesAlong condition ↔ f.CarriesAlong condition := by
  obtain ⟨kind, _⟩ := f
  constructor <;>
  · rintro (_ | hc | ⟨hf, hc⟩)
    · exact .custom
    · exact .exclude hc
    · exact .logical hf hc

/-- A condition repeats a key only inside of what the filter carries along. -/
theorem distinct_condition (f : Filter)
    (h : ∀ condition, f.CarriesAlong condition → condition.Distinct) : f.condition.Distinct :=
  f.inherited_condition Json.inherited_distinct h

theorem inherited_condition_ofPayload {P : Json → Prop} (hP : Json.Inherited P)
    (hk : (ofPayload payload guid).kind.name ≠ "custom") :
    P (ofPayload payload guid).condition := by
  rw [ofPayload_eq] at hk ⊢
  split at hk
  · next f hp =>
    obtain ⟨item, t, shape, hs⟩ := exists_shapedFilter_of_ofPayload? hp
    cases shape with
    | invalid => cases hs
    | advanced => obtain rfl := Except.ok.inj hs; exact absurd rfl hk
    | includeAll => obtain rfl := Except.ok.inj hs; exact hP.ofMembers ..
    | specificItems =>
      obtain ⟨names, excludes, deactivated, rfl⟩ := exists_of_membersFilter hs
      exact hP.ofMembers ..
    | condition | dateRange | numericRange | period =>
      obtain ⟨g, hg, rfl⟩ := map_eq_ok_iff.mp hs
      refine inherited_condition hP _ fun condition hc => ?_
      rw [carriesAlong_withSettings_iff] at hc
      exact absurd hc (not_carriesAlong_of_gives (gives_of_conditionFilter hg))
  · exact absurd rfl hk

theorem distinct_condition_ofPayload (hk : (ofPayload payload guid).kind.name ≠ "custom") :
    (ofPayload payload guid).condition.Distinct :=
  inherited_condition_ofPayload Json.inherited_distinct hk

end Filter

end QueryFilter
