import QueryFilter.Filter.Writing
import QueryFilter.Proofs.Filter.Items

/-! # Filters read from their own items

A well-formed filter is given back by the item that it writes, and by the payload around that item,
up to the titles of its columns and the guids inside it.
-/

namespace QueryFilter

open Json (Fields)
open Reading

theorem Target.same_reread_right {t target : Target} (h : t.same target) :
    t.same target.reread := by
  cases t <;> cases target <;> exact h

namespace Filter

variable {f g : Filter} {target : Target} {guid : String}

theorem WellFormed.reread (h : f.WellFormed target) : f.WellFormed target.reread := by
  cases target with
  | column _ => exact h
  | measure m =>
    induction h with
    | members hc hn hd he => exact .members hc hn hd he
    | text ht => cases ht
    | numeric hs _ hd => exact .numeric (Target.same_reread_right hs) trivial hd
    | dateRange ht => cases ht
    | relativeDate hc => exact .relativeDate hc
    | ranking hc => exact .ranking hc
    | exclude _ hs ih => exact .exclude ih hs
    | logical hs _ ih => exact .logical (Target.same_reread_right hs) ih

theorem SameSelection.withSettings (h : f.SameSelection g) (hm : f.kind.name ≠ "members")
    (settings : Settings) : f.SameSelection (g.withSettings settings) := by
  cases h with
  | members => exact absurd rfl hm
  | text hc => exact .text hc
  | numeric ht hf hs => exact .numeric ht hf hs
  | dateRange hc => exact .dateRange hc
  | relativeDate hc => exact .relativeDate hc
  | ranking hc hs => exact .ranking hc hs
  | exclude h => exact .exclude h
  | logical ht hf => exact .logical ht hf

theorem WellFormed.target?_of_onColumn (hw : f.WellFormed target) (h : f.onColumn) :
    ∃ column, f.target? = some (.column column) := by
  induction hw with
  | exclude _ _ ih => exact ih h
  | numeric => cases h
  | logical => cases h
  | _ => exact ⟨_, rfl⟩

/-- What the filter that was read has in common with the one that was written. -/
structure Recovered (f g : Filter) : Prop where
  guid_eq : g.guid = f.guid
  same : f.SameSelection g
  multiSelection_eq : f.kind.name = "members" →
    g.settings.multiSelection = f.settings.multiSelection
  dimension_eq : g.dimension = f.dimension
  datatype_eq : g.datatype = f.datatype
  condition_eq : g.condition = f.condition
  fullCondition_eq : g.fullCondition = f.fullCondition
  predicate_eq : g.predicate = f.predicate

theorem Recovered.of_target? (ht : f.target? = some target) (hg : g.guid = f.guid)
    (hs : f.SameSelection g)
    (hm : f.kind.name = "members" → g.settings.multiSelection = f.settings.multiSelection)
    (hgt : g.target? = some target.reread) (hc : g.condition = f.condition)
    (hf : g.fullCondition = f.fullCondition) : Recovered f g := by
  obtain ⟨-, hd, ht⟩ := f.of_target?_eq_some ht
  obtain ⟨-, hd', ht'⟩ := g.of_target?_eq_some hgt
  have ht : g.datatype = f.datatype := by rw [ht', ht, Target.datatype_reread]
  refine ⟨hg, hs, hm, ?_, ht, hc, hf, ?_⟩
  · rw [hd', hd, Target.expression_reread]
  · rw [predicate, predicate, ht, hf]

theorem target?_of_gives {condition : Json} (ht : f.target? = some target)
    (hw : f.WellFormed target) (hg : Gives target.reread guid condition g)
    (hc : g.onColumn = f.onColumn) :
    g.target? = some target.reread := by
  rw [hg.target?_eq, targetOf, hc]
  split
  · next h =>
    obtain ⟨column, he⟩ := hw.target?_of_onColumn h
    obtain rfl : target = .column column := Option.some.inj (ht.symm.trans he)
    rfl
  · rfl

theorem item_eq_typedFields (hs : f.settings.source = none) : f.item = .object f.typedFields := by
  have ht : f.typedItem = .object f.typedFields := by rw [typedItem, hs]
  rw [item, hs]
  cases f.kind <;> exact ht

theorem fullCondition_of_typedFields (ht : f.target? = some target)
    (hb : f.settings.background = none) (hg : g.settings.background = none)
    (hs : g.settings.source = some (.object f.typedFields)) (hc : g.condition = f.condition) :
    g.fullCondition = f.fullCondition := by
  rw [fullCondition_eq_ownCondition hb, fullCondition_eq_ownCondition hg]
  apply ownCondition_eq_of_source hc
  rw [sourceCondition?, hs, Option.bind_some, Json.get?, get?_typedFields_filter ht,
    fullCondition_eq_ownCondition hb]

section Item

variable (ht : f.target? = some target) (hw : f.WellFormed target)
  (hs : f.settings.source = none) (hb : f.settings.background = none)

include ht hw hs hb

theorem exists_recovered_of_members (hm : f.kind.name = "members") :
    ∃ g, ofPayload? f.item f.guid = .ok g ∧ Recovered f g := by
  obtain ⟨column, names, settings, rfl⟩ := exists_members_of_name hm
  obtain rfl : Target.column column = target := Option.some.inj ht
  obtain ⟨_, hn, hd, he⟩ := hw
  rw [item_eq_typedFields hs]
  have hf := (fullCondition_eq_ownCondition hb).trans (ownCondition_eq_condition hs)
  have hc := carries_typedFields ht hf (formula_ofMembers names settings)
  refine ⟨_, ofPayload?_of_members hc (get?_typedFields_selection ht) hn hd he, ?_⟩
  exact .of_target? ht rfl (.members (Column.same_refl _) rfl rfl) (fun _ => rfl) rfl rfl
    (fullCondition_of_typedFields ht hb rfl rfl rfl)

theorem exists_recovered_of_condition (ho : ¬f.HasOpenRange) (hm : f.kind.name ≠ "members") :
    ∃ g, ofPayload? f.item f.guid = .ok g ∧ Recovered f g := by
  obtain ⟨g, hg⟩ := exists_rereads hw.reread ho f.guid
  have hne : f.condition ≠ .object [] := fun he => not_gives_nil (he ▸ hg.gives)
  obtain ⟨fields, hf, hn, hr⟩ := readsCondition_of_wellFormed hw hm hne
  have hm' : g.kind.name ≠ "members" := hg.same.name_eq ▸ hm
  have hc' : ∀ settings, (g.withSettings settings).condition = f.condition := fun settings =>
    (condition_withSettings hm' settings).trans hg.condition_eq
  rw [item_eq_typedFields hs]
  have hfull := (fullCondition_eq_ownCondition hb).trans (ownCondition_eq_condition hs)
  have hc := carries_typedFields ht (hfull.trans hf) hn
  refine ⟨_, ofPayload?_of_gives hc (hr _) (hf ▸ hg.gives), ?_⟩
  refine .of_target? ht rfl (hg.same.withSettings hm _) (fun h => absurd h hm) ?_ (hc' _)
    (fullCondition_of_typedFields ht hb rfl rfl (hc' _))
  rw [target?_withSettings]
  exact target?_of_gives ht hw hg.gives hg.same.onColumn_eq

theorem exists_recovered (ho : ¬f.HasOpenRange) :
    ∃ g, ofPayload? f.item f.guid = .ok g ∧ Recovered f g := by
  by_cases hm : f.kind.name = "members"
  · exact exists_recovered_of_members ht hw hs hb hm
  · exact exists_recovered_of_condition ht hw hs hb ho hm

end Item

theorem ofPayload?_payload (ht : f.target? = some target) (hs : f.settings.source = none)
    (guid : String) : ofPayload? f.payload guid = ofPayload? f.item guid := by
  have hi := item_eq_typedFields hs
  have hu : Item.unwrap f.payload = Item.unwrap f.item := by
    rw [hi, Item.unwrap_object (bare_typedFields ht), payload, hi]
    rfl
  exact ofPayload?_congr hu

/-- A well-formed filter without a source or a background is read back from what it writes, bare or
inside a payload, with its guid, its selection and its predicate. -/
theorem ofPayload_of_wellFormed (ht : f.target? = some target) (hw : f.WellFormed target)
    (ho : ¬f.HasOpenRange) (hs : f.settings.source = none) (hb : f.settings.background = none)
    (written : Json) (hr : written = f.item ∨ written = f.payload) :
    (∃ g, ofPayload? written f.guid = .ok g) ∧ Recovered f (ofPayload written f.guid) := by
  obtain ⟨g, hg, hf⟩ := exists_recovered ht hw hs hb ho
  have hp : ofPayload? written f.guid = .ok g := by
    rcases hr with rfl | rfl
    · exact hg
    · rw [ofPayload?_payload ht hs, hg]
  refine ⟨⟨g, hp⟩, ?_⟩
  rwa [ofPayload_of_ok hp]

/-- A year of dates without the last three days of it. -/
theorem ofPayload_of_wellFormed_year :
    let date : Column := { expression := "[T.Date]", title := "Date", datatype := .datetime }
    let f : Filter := .ofKind (.logical (.column date) .and
      [.ofKind (.dateRange date (some "2024-01-01") (some "2024-12-31")) "a",
       .ofKind (.exclude (.ofKind (.relativeDate date .last 0 3 none) "b")) "c"]) "g"
    f.target? = some (.column date) ∧ f.WellFormed (.column date) ∧ ¬f.HasOpenRange ∧
      f.settings.source = none ∧ f.settings.background = none ∧
      (∃ g, ofPayload? f.payload f.guid = .ok g) ∧ Recovered f (ofPayload f.payload f.guid) := by
  intro date f
  have hw : f.WellFormed (.column date) := by
    apply WellFormed.logical rfl
    intro part hp
    simp only [List.mem_cons, List.not_mem_nil, or_false] at hp
    rcases hp with rfl | rfl
    · apply WellFormed.dateRange rfl rfl rfl
      · simpa using show (Instant.ofText? "2024-01-01").isSome by decide
      · simpa using show (Instant.ofText? "2024-12-31").isSome by decide
    · exact .exclude (.relativeDate rfl) rfl
  have ho : ¬f.HasOpenRange := by
    intro ho
    unfold f ofKind at ho
    cases ho with
    | logical hm ho =>
      simp only [List.mem_cons, List.not_mem_nil, or_false] at hm
      rcases hm with rfl | rfl
      · cases ho
      · cases ho with
        | exclude ho => cases ho
  exact ⟨rfl, hw, ho, rfl, rfl, ofPayload_of_wellFormed rfl hw ho rfl rfl f.payload (.inr rfl)⟩

end Filter

end QueryFilter
