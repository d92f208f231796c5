import QueryFilter.Proofs.Filter.Wrapping

/-! # Changed filters

A filter can be changed step by step while it keeps the item it was read from. Its own item then
holds the condition that it is evaluated by, unless that item is carried along as it is: a custom
filter that was read neither writes its background nor a selection that it was given later.
-/

namespace QueryFilter

open Json (Fields)
open Reading

namespace Filter

/-- A change of a filter's settings or of its kind. -/
inductive Change where
  | disable (disabled : Bool)
  | lock (locked : Bool)
  | excludeMembers (excludes : Bool)
  | multiSelection (allowed : Bool)
  | deactivate (names : List String)
  | background (filter : Option Filter)
  | replace (kind : Kind)

def Change.apply (f : Filter) : Change → Filter
  | .disable disabled => { f with settings := { f.settings with disabled } }
  | .lock locked => { f with settings := { f.settings with locked } }
  | .excludeMembers excludes =>
    { f with settings := { f.settings with excludeMembers := excludes } }
  | .multiSelection allowed => { f with settings := { f.settings with multiSelection := allowed } }
  | .deactivate names => { f with settings := f.settings.withDeactivated names }
  | .background filter => { f with settings := { f.settings with background := filter } }
  | .replace kind => { f with kind }

def changed (f : Filter) (changes : List Change) : Filter := changes.foldl Change.apply f

/-- A filter as it is to begin with: built from a kind, or read from an item with a dimension. -/
inductive Fresh : Filter → Prop
  | built (kind : Kind) (guid : String) : Fresh (ofKind kind guid)
  | read {payload : Json} {dimension : String} (guid : String) :
      (Item.unwrap payload).get? "dim" = some (.string dimension) → Fresh (ofPayload payload guid)

/-- The item holds the condition that the filter is evaluated by, and names the filter's column. -/
structure Faithful (f : Filter) : Prop where
  condition_eq : (f.item.get? "filter").getD .null = f.fullCondition
  dimension_eq : f.item.get? "dim" = some (.string f.dimension)

variable {f : Filter} {changes : List Change}

@[simp] theorem source_apply (f : Filter) (change : Change) :
    (change.apply f).settings.source = f.settings.source := by
  cases change <;> rfl

theorem source_changed (f : Filter) (changes : List Change) :
    (f.changed changes).settings.source = f.settings.source := by
  induction changes generalizing f with
  | nil => rfl
  | cons change changes ih => rw [changed, List.foldl_cons, ← changed, ih, source_apply]

section Typed

/-- A custom filter, also inside of exclusions. -/
inductive WrapsCustom : Filter → Prop
  | custom (dimension : String) (condition : Json) (settings : Settings) :
      WrapsCustom ⟨.custom dimension condition, settings⟩
  | exclude {inner : Filter} (settings : Settings) :
      WrapsCustom inner → WrapsCustom ⟨.exclude inner, settings⟩

theorem wrapsCustom_of_target? : ∀ f : Filter, f.target? = none → f.WrapsCustom
  | ⟨.exclude inner, settings⟩, h => .exclude settings (wrapsCustom_of_target? inner h)
  | ⟨.custom dimension condition, settings⟩, _ => .custom dimension condition settings
  | ⟨.members .., _⟩, h | ⟨.text .., _⟩, h | ⟨.numeric .., _⟩, h | ⟨.dateRange .., _⟩, h
  | ⟨.relativeDate .., _⟩, h | ⟨.ranking .., _⟩, h | ⟨.logical .., _⟩, h =>
    absurd h (Option.some_ne_none _)

theorem target?_eq_none_iff {f : Filter} : f.target? = none ↔ f.WrapsCustom := by
  refine ⟨wrapsCustom_of_target? f, fun h => ?_⟩
  induction h with
  | custom => rfl
  | exclude settings _ ih => exact ih

theorem targetFields_cases (f : Filter) :
    (∃ t, f.target? = some t) ∨ f.targetFields = [("dim", .string f.dimension)] := by
  rw [← Option.ne_none_iff_exists', or_iff_not_imp_left, not_not, target?_eq_none_iff]
  intro h
  induction h with
  | custom => rfl
  | exclude settings _ ih => exact ih

theorem nodup_and_get?_typedFields (f : Filter) :
    f.typedFields.keys.Nodup ∧ f.typedFields.get? "dim" = some (.string f.dimension) ∧
      f.typedFields.get? "filter" = some f.fullCondition := by
  rcases targetFields_cases f with ⟨t, ht⟩ | hd
  · refine ⟨nodup_keys_typedFields ht, ?_, get?_typedFields_filter ht⟩
    rw [get?_typedFields_target ht _ (by decide), t.get?_fields.1, (f.of_target?_eq_some ht).2.1]
  · rw [typedFields, hd]
    rcases f.selectionField_eq with hs | hs <;>
    · rw [hs]
      exact ⟨by simp [Fields.keys], rfl, rfl⟩

theorem get?_typedItem {key : String} {value : Json} (h : f.typedFields.get? key = some value) :
    f.typedItem.get? key = some value := by
  unfold typedItem
  split
  · rw [Json.get?, mergedFields, Fields.get?_insertAll (nodup_and_get?_typedFields f).1, h]
    rfl
  · exact h

theorem faithful_of_typedItem (h : f.item = f.typedItem) : f.Faithful := by
  obtain ⟨-, hd, hc⟩ := nodup_and_get?_typedFields f
  refine ⟨?_, ?_⟩
  · rw [h, get?_typedItem hc]
    rfl
  · rw [h, get?_typedItem hd]

theorem item_cases (f : Filter) :
    f.item = f.typedItem ∨ f.kind.name = "custom" ∧ f.settings.source = some f.item := by
  cases hs : f.settings.source with
  | none =>
    left
    unfold item
    rw [hs]
    cases f.kind <;> rfl
  | some source =>
    by_cases hk : f.kind.name = "custom"
    · exact .inr ⟨hk, by rw [item_of_custom hk hs]⟩
    · left
      obtain ⟨kind, settings⟩ := f
      cases kind <;> first | rfl | exact absurd rfl hk

end Typed

/-- A filter is faithful unless it carries along a source that is not. -/
theorem faithful_iff :
    f.Faithful ↔ ∀ source, f.kind.name = "custom" → f.settings.source = some source →
      (source.get? "filter").getD .null = f.fullCondition ∧
        source.get? "dim" = some (.string f.dimension) := by
  constructor
  · rintro ⟨hc, hd⟩ source hk hs
    rw [item_of_custom hk hs] at hc hd
    exact ⟨hc, hd⟩
  · intro h
    rcases item_cases f with hi | ⟨hk, hs⟩
    · exact faithful_of_typedItem hi
    · obtain ⟨hc, hd⟩ := h _ hk hs
      exact ⟨hc, hd⟩

section Custom

variable {payload : Json} {guid : String}

theorem kind_of_shapedFilter_custom {item : Item} {t : Target} {settings : Settings} {shape : Shape}
    (h : shapedFilter item t settings shape = .ok f) (hk : f.kind.name = "custom") :
    f.kind = .custom t.base.expression (.object (conditionOf item)) := by
  cases shape with
  | invalid => cases h
  | advanced => rw [← Except.ok.inj h]
  | includeAll =>
    rw [← Except.ok.inj h] at hk
    simp [Kind.name] at hk
  | specificItems =>
    obtain ⟨names, excludes, deactivated, rfl⟩ := exists_of_membersFilter h
    simp [Kind.name] at hk
  | condition | dateRange | numericRange | period =>
    obtain ⟨g, hg, rfl⟩ := map_eq_ok_iff.mp h
    exact absurd hk (name_ne_custom_of_gives (f := g) (gives_of_conditionFilter hg))

theorem kind_ofPayload_custom (hb : (Item.unwrap payload).IsBare) {dimension : String}
    (hd : (Item.unwrap payload).get? "dim" = some (.string dimension))
    (hk : (ofPayload payload guid).kind.name = "custom") :
    (ofPayload payload guid).kind =
      .custom dimension (((Item.unwrap payload).get? "filter").getD .null) := by
  obtain ⟨fields, hu, hb⟩ := hb
  rw [ofPayload_congr (hu.trans (Item.unwrap_object hb).symm)] at hk ⊢
  rw [hu] at hd ⊢
  cases hp : ofPayload? (.object fields) guid with
  | error => simp [ofPayload_of_error hp, generic_eq, Item.unwrap_object hb, hd, Json.asString?]
  | ok f =>
    rw [ofPayload_of_ok hp] at hk ⊢
    obtain ⟨t, condition, hr, hs⟩ := itemRead_of_ofPayload? hb hp
    have ht : t.base.expression = dimension := by
      have hi : Fields.text? fields "dim" = _ := Item.dim_eq_of_target? hr.target?_eq
      rw [Fields.text?, show Fields.get? fields "dim" = _ from hd] at hi
      exact (Option.some.inj hi).symm
    rw [kind_of_shapedFilter_custom hs hk, ht, conditionOf, hr.condition_eq, Json.get?,
      hr.filter_eq]
    rfl

theorem ownCondition_eq_of_custom {dimension : String} {source : Json}
    (hk : f.kind = .custom dimension ((source.get? "filter").getD .null))
    (hs : f.settings.source = some source) :
    f.ownCondition = (source.get? "filter").getD .null := by
  have hc : f.condition = (source.get? "filter").getD .null := by
    obtain ⟨kind, settings⟩ := f
    rw [condition, show kind = _ from hk]
    rfl
  rw [ownCondition, hc, sourceCondition?, hs, Option.bind_some]
  cases source.get? "filter" with
  | none => rfl
  | some value =>
    cases value with
    | object fields => exact ite_self _
    | _ => rfl

theorem fullCondition_eq_ownCondition_iff :
    f.fullCondition = f.ownCondition ↔ f.settings.background = none := by
  constructor
  · intro h
    unfold fullCondition at h
    split at h
    · next background hb =>
      have hs := congrArg sizeOf h
      simp only [Json.object.sizeOf_spec, List.cons.sizeOf_spec, Prod.mk.sizeOf_spec,
        Json.array.sizeOf_spec] at hs
      omega
    · assumption
  · exact fullCondition_eq_ownCondition

theorem faithful_of_custom_iff {source : Json} {dimension : String}
    (hd : source.get? "dim" = some (.string dimension))
    (hk : f.kind = .custom dimension ((source.get? "filter").getD .null))
    (hs : f.settings.source = some source) :
    f.Faithful ↔ f.settings.background = none := by
  have hn : f.kind.name = "custom" := by rw [hk]; rfl
  have hdim : f.dimension = dimension := by
    obtain ⟨kind, settings⟩ := f
    rw [Filter.dimension, show kind = _ from hk]
    rfl
  rw [faithful_iff, ← fullCondition_eq_ownCondition_iff, ownCondition_eq_of_custom hk hs]
  constructor
  · intro h
    exact (h source hn hs).1.symm
  · intro h source' _ hs'
    obtain rfl := Option.some.inj (hs.symm.trans hs')
    exact ⟨h.symm, hdim ▸ hd⟩

end Custom

/-- What a changed filter writes is what it is evaluated by, unless it is a custom filter with a
source that holds another condition or dimension. One that keeps its kind is right as long as it has
no background, or was not read as a custom filter. -/
theorem faithful_changed_iff (h : f.Fresh) (changes : List Change) :
    ((f.changed changes).Faithful ↔ ∀ source, (f.changed changes).kind.name = "custom" →
        f.settings.source = some source →
        (source.get? "filter").getD .null = (f.changed changes).fullCondition ∧
          source.get? "dim" = some (.string (f.changed changes).dimension)) ∧
      ((∀ source, f.settings.source = some source → source.IsBare) →
        (f.changed changes).kind = f.kind →
        ((f.changed changes).Faithful ↔
          (f.kind.name = "custom" → f.settings.source.isSome →
            (f.changed changes).settings.background = none))) := by
  have hsource := source_changed f changes
  generalize f.changed changes = g at hsource ⊢
  refine ⟨by rw [faithful_iff, hsource], fun hb hk => ?_⟩
  cases h with
  | built kind guid =>
    refine iff_of_true (faithful_iff.mpr fun source _ hs => ?_) (by rintro - ⟨⟩)
    rw [hsource] at hs
    cases hs
  | @read payload dimension guid hd =>
    have hs := source_ofPayload payload guid
    by_cases hc : (ofPayload payload guid).kind.name = "custom"
    · have hkind := kind_ofPayload_custom (hb _ hs) hd hc
      rw [faithful_of_custom_iff hd (hk.trans hkind) (hsource.trans hs)]
      simp [hc, hs]
    · refine iff_of_true (faithful_iff.mpr fun source hn _ => ?_) fun hn => absurd hn hc
      exact absurd (hk ▸ hn) hc

/-- Two comparisons of texts are carried along, also through a background that is taken away. -/
theorem faithful_changed_iff_comparisons :
    let condition : Fields := [("contains", .string "a"), ("startsWith", .string "b")]
    let payload : Json := .object
      [("dim", .string "[T.A]"), ("datatype", .string "text"), ("filter", .object condition)]
    let f := ofPayload payload "g"
    let background := ofKind (.members ⟨"[T.A]", "[T.A]", .text, none⟩ ["bar"]) "h"
    let changes := [.lock true, .background (some background), .background none]
    f.Fresh ∧ (∀ source, f.settings.source = some source → source.IsBare) ∧
      (f.changed changes).kind = f.kind ∧ f.kind.name = "custom" ∧
      (f.changed changes).Faithful := by
  intro condition payload f background changes
  have hd : (Item.unwrap payload).get? "dim" = some (.string "[T.A]") := rfl
  have hf : f.Fresh := .read "g" hd
  have hb : ∀ source, f.settings.source = some source → source.IsBare := by
    rintro source hs
    obtain rfl : payload = source := Option.some.inj hs
    exact ⟨_, rfl, by rintro inner ⟨⟩⟩
  exact ⟨hf, hb, rfl, rfl, ((faithful_changed_iff hf changes).2 hb rfl).mpr fun _ _ => rfl⟩

/-- The item of a custom filter accepts a value that the filter refuses for its background. -/
theorem not_faithful_of_background :
    let condition : Fields := [("contains", .string "a"), ("startsWith", .string "b")]
    let payload : Json := .object
      [("dim", .string "[T.A]"), ("datatype", .string "text"), ("filter", .object condition)]
    let f := ofPayload payload "g"
    let background := ofKind (.members ⟨"[T.A]", "[T.A]", .text, none⟩ ["bar"]) "h"
    let g := f.changed [.background (some background)]
    f.Fresh ∧ (g.item.get? "filter").getD .null = .object condition ∧
      g.fullCondition ≠ .object condition ∧
      (∃ p, Predicate.ofCondition g.datatype (.object condition) = .ok p ∧
        p.accepts (.string "ba")) ∧
      ∃ p, g.predicate = .ok p ∧ p.accepts (.string "ba") = false := by
  intro condition payload f background g
  have hd : (Item.unwrap payload).get? "dim" = some (.string "[T.A]") := rfl
  have hf : f.Fresh := .read "g" hd
  have hne : g.fullCondition ≠ .object condition := by
    simp [fullCondition, condition, g, changed, Change.apply]
  exact ⟨hf, rfl, hne, ⟨_, rfl, by decide⟩, _, rfl, by decide⟩

end Filter

end QueryFilter
