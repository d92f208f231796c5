import QueryFilter.Proofs.Filter.Meaning

/-! # What filters select

Which values a filter selects, said on the filter itself. A filter is evaluated by way of the
condition that it is written as; main statement: for a filter without a source the predicate of the
condition selects just what the filter does.
-/

namespace QueryFilter

mutual

/-- The filter asks nothing of any value: it lists no members, bounds no dates, or excludes what
asks nothing itself. -/
def Filter.restrictsNothing : Filter → Bool
  | ⟨kind, settings⟩ => kind.restrictsNothing settings

def Kind.restrictsNothing : Kind → Settings → Bool
  | .members _ names, settings =>
    names.isEmpty && (settings.excludeMembers || settings.deactivated.isEmpty)
  | .dateRange _ start finish, _ => start.isNone && finish.isNone
  | .exclude inner, _ => inner.restrictsNothing
  | _, _ => false

end

mutual

/-- Whether the filter selects the value, which is read as of the data type. -/
def Filter.selects (datatype : DataType) (value : Json) : Filter → Bool
  | ⟨kind, settings⟩ => kind.selects datatype value settings

def Kind.selects (datatype : DataType) (value : Json) : Kind → Settings → Bool
  | .members _ names, settings => settings.selectsMember datatype names value
  | .text _ operator operand, _ => operator.accepts operand value
  | .numeric _ first second, _ =>
    (first :: second.toList).all fun b => b.operator.acceptsNumber b.value value
  | .dateRange _ start finish, _ =>
    Comparison.atLeast.admitsDate start value && Comparison.atMost.admitsDate finish value
  | .exclude inner, _ => inner.restrictsNothing || !inner.selects datatype value
  | .logical _ .and filters, _ => allSelect datatype value filters
  | .logical _ .or filters, _ => anySelects datatype value filters
  | _, _ => false

def allSelect (datatype : DataType) (value : Json) : List Filter → Bool
  | [] => true
  | f :: filters => f.selects datatype value && allSelect datatype value filters

def anySelects (datatype : DataType) (value : Json) : List Filter → Bool
  | [] => false
  | f :: filters => f.selects datatype value || anySelects datatype value filters

end

theorem allSelect_eq_all (datatype : DataType) (value : Json) (filters : List Filter) :
    allSelect datatype value filters = filters.all (Filter.selects datatype value) := by
  induction filters with
  | nil => rfl
  | cons f filters ih => rw [allSelect, List.all_cons, ih]

theorem anySelects_eq_any (datatype : DataType) (value : Json) (filters : List Filter) :
    anySelects datatype value filters = filters.any (Filter.selects datatype value) := by
  induction filters with
  | nil => rfl
  | cons f filters ih => rw [anySelects, List.any_cons, ih]

theorem Filter.selects_logical (datatype : DataType) (value : Json) (target : Target)
    (connective : Connective) (filters : List Filter) (settings : Settings) :
    Filter.selects datatype value ⟨.logical target connective filters, settings⟩ =
      connective.combine (filters.map (Filter.selects datatype value)) := by
  cases connective with
  | and =>
    rw [Filter.selects, Kind.selects, allSelect_eq_all, Connective.combine, List.all_map]
    rfl
  | or =>
    rw [Filter.selects, Kind.selects, anySelects_eq_any, Connective.combine, List.any_map]
    rfl

/-- Values of the data type can be told apart by the filter: texts are compared with text, numbers
with numbers and dates with dates. -/
inductive Filter.Evaluable (datatype : DataType) : Filter → Prop
  | members {column : Column} {names : List String} {settings : Settings} :
      Evaluable datatype ⟨.members column names, settings⟩
  | text {column : Column} {operator : TextOperator} {operand : String} {settings : Settings} :
      datatype = .text → Evaluable datatype ⟨.text column operator operand, settings⟩
  | numeric {target : Target} {first : Bound} {second : Option Bound} {settings : Settings} :
      datatype = .numeric → (∀ b ∈ second, b.operator ≠ first.operator) →
      Evaluable datatype ⟨.numeric target first second, settings⟩
  | dateRange {column : Column} {start finish : Option String} {settings : Settings} :
      datatype = .datetime → (∀ date ∈ start, (Instant.ofText? date).isSome) →
      (∀ date ∈ finish, (Instant.ofText? date).isSome) →
      Evaluable datatype ⟨.dateRange column start finish, settings⟩
  | exclude {inner : Filter} {settings : Settings} :
      Evaluable datatype inner → Evaluable datatype ⟨.exclude inner, settings⟩
  | logical {target : Target} {connective : Connective} {filters : List Filter}
      {settings : Settings} :
      (∀ f ∈ filters, Evaluable datatype f) →
      Evaluable datatype ⟨.logical target connective filters, settings⟩

namespace Filter

open Condition

variable {datatype : DataType}

/-- The condition that the filter is written as says what the filter selects. -/
structure Tells (datatype : DataType) (f : Filter) : Prop where
  supported : Supported datatype f.condition
  vacuous_eq : vacuous f.condition = f.restrictsNothing
  holds_eq : ∀ value, holds datatype value f.condition = f.selects datatype value

section Kinds

theorem tells_members (column : Column) (names : List String) (settings : Settings) :
    Tells datatype ⟨.members column names, settings⟩ :=
  ⟨supported_ofMembers names settings, vacuous_ofMembers names settings,
    holds_ofMembers names settings⟩

theorem tells_text (column : Column) (operator : TextOperator) (operand : String)
    (settings : Settings) : Tells .text ⟨.text column operator operand, settings⟩ := by
  have hc : ∀ field ∈ [(operator.key, Json.string operand)],
      Compares .text field.1 field.2 := by
    have ho : (Json.string operand).asOperandText? = some operand := rfl
    simpa using .text operator ho
  refine ⟨supported_of_compares hc, vacuous_of_compares hc, fun value => ?_⟩
  refine (holds_of_compares hc value).trans ?_
  simp [comparisonHolds, Json.asOperandText?, Filter.selects, Kind.selects]

theorem tells_numeric (target : Target) {first : Bound} {second : Option Bound}
    (hn : ∀ b ∈ second, b.operator ≠ first.operator) (settings : Settings) :
    Tells .numeric ⟨.numeric target first second, settings⟩ := by
  have he : Filter.condition ⟨.numeric target first second, settings⟩ =
      .object ((first :: second.toList).map ofBound) := congrArg _ (Reading.ofBounds_eq hn)
  have hc := compares_map_ofBound (first :: second.toList)
  refine ⟨he ▸ supported_of_compares hc, ?_, fun value => ?_⟩
  · rw [he, vacuous_of_compares hc]
    rfl
  · rw [he, holds_map_ofBound]
    rfl

theorem tells_dateRange (column : Column) {start finish : Option String}
    (hs : ∀ date ∈ start, (Instant.ofText? date).isSome)
    (hf : ∀ date ∈ finish, (Instant.ofText? date).isSome) (settings : Settings) :
    Tells .datetime ⟨.dateRange column start finish, settings⟩ := by
  have hc := compares_dates hs hf
  refine ⟨supported_of_compares hc, ?_, fun value => ?_⟩
  · refine (vacuous_of_compares hc).trans ?_
    cases start <;> cases finish <;> rfl
  · refine (holds_of_compares hc value).trans ?_
    rw [List.all_append, all_comparisonHolds_optionalText, all_comparisonHolds_optionalText]
    rfl

theorem Tells.exclude {inner : Filter} (h : Tells datatype inner) (settings : Settings) :
    Tells datatype ⟨.exclude inner, settings⟩ := by
  have hc : Filter.condition ⟨.exclude inner, settings⟩ =
      .object [("exclude", inner.condition)] := rfl
  obtain ⟨fields, hf⟩ := h.supported.exists_object
  refine ⟨supported_exclude h.supported, ?_, fun value => ?_⟩
  · rw [hc, vacuous_object, List.all_cons, vacuousField_exclude, h.vacuous_eq]
    exact Bool.and_true _
  · rw [hc, hf, holds_exclude, ← hf, h.vacuous_eq, h.holds_eq]
    exact Bool.and_true _

theorem tells_logical (target : Target) (connective : Connective) {filters : List Filter}
    (h : ∀ f ∈ filters, Tells datatype f) (settings : Settings) :
    Tells datatype ⟨.logical target connective filters, settings⟩ := by
  have hc : Filter.condition ⟨.logical target connective filters, settings⟩ =
      .object [(connective.key, .array (filters.map Filter.condition))] := by
    rw [← conditions_eq_map]
    rfl
  refine ⟨hc ▸ supported_combination connective ?_, ?_, fun value => ?_⟩
  · rw [List.forall_mem_map]
    exact fun f hf => (h f hf).supported
  · rw [hc, vacuous_object, List.all_cons, vacuousField_connective]
    rfl
  · rw [hc, holds_combination, List.map_map, selects_logical]
    exact congrArg _ (List.map_congr_left fun f hf => (h f hf).holds_eq value)

end Kinds

theorem Evaluable.tells {f : Filter} (h : f.Evaluable datatype) : Tells datatype f := by
  induction h with
  | members => exact tells_members ..
  | text hd => exact hd ▸ tells_text ..
  | numeric hd hn => exact hd ▸ tells_numeric _ hn _
  | dateRange hd hs hf => exact hd ▸ tells_dateRange _ hs hf _
  | exclude _ ih => exact ih.exclude _
  | logical _ ih => exact tells_logical _ _ ih _

/-- A filter that was not read from an item, and applies on its own, has a predicate, which accepts
just the values that the filter selects. -/
theorem predicate_selects {f : Filter} (hs : f.settings.source = none)
    (hb : f.settings.background = none) (h : f.Evaluable f.datatype) :
    ∃ p, f.predicate = .ok p ∧ ∀ value, p.accepts value = f.selects f.datatype value := by
  have hc : f.fullCondition = f.condition := by
    rw [fullCondition_eq_ownCondition hb, ownCondition_eq_condition hs]
  obtain ⟨p, hp⟩ := Predicate.exists_ofCondition_iff.mpr h.tells.supported
  refine ⟨p, by rw [predicate, hc, hp], fun value => ?_⟩
  rw [Predicate.accepts_of_ofCondition hp, h.tells.holds_eq]

theorem predicate_selects_nested :
    let column : Column := { expression := "[T.A]", title := "A", datatype := .text }
    let listed : Filter :=
      ⟨.members column ["a", "b"], { guid := "m", deactivated := ["c"] }⟩
    let unlisted : Filter := .ofKind (.exclude (.ofKind (.members column []) "n")) "x"
    let starts : Filter := .ofKind (.text column ⟨.startsWith, true⟩ "b") "t"
    let f : Filter := .ofKind (.logical (.column column) .and
      [unlisted, .ofKind (.logical (.column column) .or [listed, starts]) "o"]) "g"
    f.settings.source = none ∧ f.settings.background = none ∧ f.Evaluable f.datatype ∧
      ∃ p, f.predicate = .ok p ∧ ∀ value, p.accepts value = f.selects f.datatype value := by
  intro column listed unlisted starts f
  have hall : ∀ {inner : List Filter}, (∀ g ∈ inner, g.Evaluable .text) →
      ∀ connective guid, Evaluable .text
        (.ofKind (.logical (.column column) connective inner) guid) :=
    fun h _ _ => .logical h
  have h : f.Evaluable f.datatype := by
    refine hall (List.forall_mem_cons.mpr ⟨.exclude .members, ?_⟩) _ _
    refine List.forall_mem_singleton.mpr (hall ?_ _ _)
    exact List.forall_mem_cons.mpr ⟨.members, List.forall_mem_singleton.mpr (.text rfl)⟩
  exact ⟨rfl, rfl, h, predicate_selects rfl rfl h⟩

end Filter

end QueryFilter
