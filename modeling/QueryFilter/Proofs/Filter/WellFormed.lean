import Mathlib.Data.List.Forall2
import QueryFilter.Filter.Reading
import QueryFilter.Filter.Same
import QueryFilter.Filter.Writing

/-! # Well-formed filters

Filters that can be told from their condition, where it is known what the condition is about. Two
filters have the same selection if they differ only in what a condition does not say.
-/

namespace QueryFilter

mutual

/-- What the filter's item names, unless its selection is custom. -/
def Filter.target? : Filter → Option Target
  | ⟨kind, _⟩ => kind.target?

def Kind.target? : Kind → Option Target
  | .members column .. => some (.column column)
  | .text column .. => some (.column column)
  | .numeric target .. => some target
  | .dateRange column .. => some (.column column)
  | .relativeDate column .. => some (.column column)
  | .ranking column .. => some (.column column)
  | .exclude inner => inner.target?
  | .logical target .. => some target
  | .custom .. => none

end

mutual

theorem Filter.of_target?_eq_some : ∀ (f : Filter) {target : Target}, f.target? = some target →
    f.targetFields = target.fields ∧ f.dimension = target.base.expression ∧
      f.datatype = target.datatype
  | ⟨kind, settings⟩, _, h => Kind.of_target?_eq_some kind settings.source h

theorem Kind.of_target?_eq_some : ∀ (kind : Kind) (source : Option Json) {target : Target},
    kind.target? = some target →
      kind.targetFields = target.fields ∧ kind.dimension = target.base.expression ∧
        kind.datatype source = target.datatype
  | .members .., _, _, h | .text .., _, _, h | .numeric .., _, _, h | .dateRange .., _, _, h
  | .relativeDate .., _, _, h | .ranking .., _, _, h | .logical .., _, _, h => by
    cases h; exact ⟨rfl, rfl, rfl⟩
  | .exclude inner, _, _, h => Filter.of_target?_eq_some inner h

end

mutual

/-- The item names a column also where the condition is about a measure. -/
def Filter.onColumn : Filter → Bool
  | ⟨kind, _⟩ => kind.onColumn

def Kind.onColumn : Kind → Bool
  | .numeric .. | .logical .. | .custom .. => false
  | .exclude inner => inner.onColumn
  | _ => true

end

/-- Members listed as such, and not as an exclusion. -/
def Filter.showsMembers (f : Filter) : Bool :=
  match f.kind with
  | .members .. => !f.settings.excludeMembers
  | _ => false

theorem Filter.showsMembers_eq (f : Filter) :
    f.showsMembers = (f.kind.name == "members" && !f.settings.excludeMembers) := by
  obtain ⟨kind, settings⟩ := f
  cases kind <;> simp [showsMembers, Kind.name]

/-- Whether comparisons with numbers can be told: there is no other comparison for the target, or
the bounds are no date range. -/
def Target.ComparesNumbers (target : Target) (bounds : List Bound) : Prop :=
  match target with
  | .measure _ => True
  | .column base =>
    match base.datatype with
    | .text => False
    | .numeric => True
    | .datetime => ∀ b ∈ bounds, b.operator ≠ .atLeast ∧ b.operator ≠ .atMost

theorem Target.ComparesNumbers.mono {target : Target} {bounds bounds' : List Bound}
    (h : target.ComparesNumbers bounds) (hs : ∀ b ∈ bounds', b ∈ bounds) :
    target.ComparesNumbers bounds' := by
  cases target with
  | measure _ => trivial
  | column base =>
    simp only [ComparesNumbers] at h ⊢
    split at h
    · exact h
    · trivial
    · exact fun b hb => h b (hs b hb)

/-- The filter can be told from its condition, which is about the target. -/
inductive Filter.WellFormed (target : Target) : Filter → Prop
  | members {column : Column} {names : List String} {settings : Settings} :
      column.same target.base → settings.deactivated.Nodup →
      (∀ name ∈ settings.deactivated, name ∉ names) →
      (settings.excludeMembers → settings.deactivated = []) →
      WellFormed target ⟨.members column names, settings⟩
  | text {column base : Column} {operator : TextOperator} {operand : String}
      {settings : Settings} :
      target = .column base → base.datatype = .text → column.same base →
      WellFormed target ⟨.text column operator operand, settings⟩
  | numeric {subject : Target} {first : Bound} {second : Option Bound} {settings : Settings} :
      subject.same target → target.ComparesNumbers (first :: second.toList) →
      (∀ b ∈ second, b.operator ≠ first.operator) →
      WellFormed target ⟨.numeric subject first second, settings⟩
  | dateRange {column base : Column} {start finish : Option String} {settings : Settings} :
      target = .column base → base.datatype = .datetime → column.same base →
      (∀ date ∈ start, (Instant.ofText? date).isSome) →
      (∀ date ∈ finish, (Instant.ofText? date).isSome) →
      WellFormed target ⟨.dateRange column start finish, settings⟩
  | relativeDate {column : Column} {period : Period} {offset count : Int64}
      {anchor : Option String} {settings : Settings} :
      column.same target.base →
      WellFormed target ⟨.relativeDate column period offset count anchor, settings⟩
  | ranking {column : Column} {measure : Measure} {rank : Rank} {count : Int64}
      {settings : Settings} :
      column.same target.base →
      WellFormed target ⟨.ranking column measure rank count, settings⟩
  | exclude {inner : Filter} {settings : Settings} :
      WellFormed target inner → inner.showsMembers = false →
      WellFormed target ⟨.exclude inner, settings⟩
  | logical {subject : Target} {connective : Connective} {filters : List Filter}
      {settings : Settings} :
      subject.same target → (∀ f ∈ filters, WellFormed target f) →
      WellFormed target ⟨.logical subject connective filters, settings⟩

theorem Filter.WellFormed.exists_condition {f : Filter} {target : Target}
    (h : f.WellFormed target) : ∃ fields, f.condition = .object fields := by
  cases h <;> exact ⟨_, rfl⟩

/-- A date range without bounds is somewhere in the filter. -/
inductive Filter.HasOpenRange : Filter → Prop
  | dateRange {column : Column} {settings : Settings} :
      HasOpenRange ⟨.dateRange column none none, settings⟩
  | exclude {inner : Filter} {settings : Settings} :
      HasOpenRange inner → HasOpenRange ⟨.exclude inner, settings⟩
  | logical {target : Target} {connective : Connective} {filters : List Filter}
      {settings : Settings} {f : Filter} :
      f ∈ filters → HasOpenRange f → HasOpenRange ⟨.logical target connective filters, settings⟩

/-- Both filters select the same in the same way: what a condition tells of them is equal, with
columns compared by expression and numbers by value. -/
inductive Filter.SameSelection : Filter → Filter → Prop
  | members {column column' : Column} {names : List String} {settings settings' : Settings} :
      column.same column' → settings.excludeMembers = settings'.excludeMembers →
      settings.deactivated = settings'.deactivated →
      SameSelection ⟨.members column names, settings⟩ ⟨.members column' names, settings'⟩
  | text {column column' : Column} {operator : TextOperator} {operand : String}
      {settings settings' : Settings} :
      column.same column' →
      SameSelection ⟨.text column operator operand, settings⟩
        ⟨.text column' operator operand, settings'⟩
  | numeric {target target' : Target} {first first' : Bound} {second second' : Option Bound}
      {settings settings' : Settings} :
      target.same target' → first.same first' → sameOption Bound.same second second' →
      SameSelection ⟨.numeric target first second, settings⟩
        ⟨.numeric target' first' second', settings'⟩
  | dateRange {column column' : Column} {start finish : Option String}
      {settings settings' : Settings} :
      column.same column' →
      SameSelection ⟨.dateRange column start finish, settings⟩
        ⟨.dateRange column' start finish, settings'⟩
  | relativeDate {column column' : Column} {period : Period} {offset count : Int64}
      {anchor : Option String} {settings settings' : Settings} :
      column.same column' →
      SameSelection ⟨.relativeDate column period offset count anchor, settings⟩
        ⟨.relativeDate column' period offset count anchor, settings'⟩
  | ranking {column column' : Column} {measure measure' : Measure} {rank : Rank}
      {count : Int64} {settings settings' : Settings} :
      column.same column' → measure.same measure' →
      SameSelection ⟨.ranking column measure rank count, settings⟩
        ⟨.ranking column' measure' rank count, settings'⟩
  | exclude {inner inner' : Filter} {settings settings' : Settings} :
      SameSelection inner inner' →
      SameSelection ⟨.exclude inner, settings⟩ ⟨.exclude inner', settings'⟩
  | logical {target target' : Target} {connective : Connective}
      {filters filters' : List Filter} {settings settings' : Settings} :
      target.same target' → List.Forall₂ SameSelection filters filters' →
      SameSelection ⟨.logical target connective filters, settings⟩
        ⟨.logical target' connective filters', settings'⟩

end QueryFilter
