import QueryFilter.Operator
import QueryFilter.Column.Basic

/-! # Filters

A filter is a selection of one of nine kinds together with its settings. The guid in the settings
is the filter's identity; two filters of one content and different guids are different filters.
-/

namespace QueryFilter

mutual

structure Filter where
  kind : Kind
  settings : Settings

inductive Kind where
  /-- The members of a list; an empty list stands for no restriction. -/
  | members (column : Column) (names : List String)
  | text (column : Column) (operator : TextOperator) (operand : String)
  /-- One or two comparisons that must both hold. -/
  | numeric (target : Target) (first : Bound) (second : Option Bound)
  /-- Dates between two bounds, either of which may be open. -/
  | dateRange (column : Column) (start finish : Option String)
  /-- Dates of a period that lies before or after now or another anchor. -/
  | relativeDate (column : Column) (period : Period) (offset count : Int64) (anchor : Option String)
  /-- The first or last members in the order of a measure. -/
  | ranking (column : Column) (measure : Measure) (rank : Rank) (count : Int64)
  | exclude (inner : Filter)
  | logical (target : Target) (connective : Connective) (filters : List Filter)
  /-- A condition that is carried along as it is. -/
  | custom (dimension : String) (condition : Json)

/-- How a filter is carried besides its selection. Three of the settings concern members filters
only: whether the list is one of exclusions, whether several members may be selected, and which
members are shown but inactive. -/
structure Settings where
  guid : String
  disabled : Bool := false
  locked : Bool := false
  /-- A filter that applies together with this one. -/
  background : Option Filter := none
  excludeMembers : Bool := false
  multiSelection : Bool := true
  deactivated : List String := []
  /-- The item that the filter was read from. -/
  source : Option Json := none

end

instance : Inhabited Kind := ⟨.custom "" .null⟩

instance : Inhabited Settings := ⟨{ guid := "" }⟩

instance : Inhabited Filter := ⟨⟨default, default⟩⟩

def firstOccurrences (names : List String) : List String :=
  names.foldl (fun kept name => if kept.contains name then kept else kept ++ [name]) []

def Settings.withDeactivated (settings : Settings) (names : List String) : Settings :=
  { settings with deactivated := firstOccurrences names }

namespace Kind

def between (target : Target) (low high : Binary64) : Kind :=
  .numeric target ⟨.atLeast, low⟩ (some ⟨.atMost, high⟩)

def bounds : Kind → List Bound
  | .numeric _ first second => first :: second.toList
  | _ => []

def isBetween : Kind → Bool
  | .numeric _ first (some second) => first.operator == .atLeast && second.operator == .atMost
  | _ => false

theorem isBetween_iff {kind : Kind} :
    kind.isBetween ↔ ∃ target low high, kind = .between target low high := by
  constructor
  · intro h
    cases kind with
    | numeric target first second =>
      obtain ⟨operator, low⟩ := first
      cases second with
      | none => cases h
      | some second =>
        obtain ⟨operator', high⟩ := second
        obtain ⟨rfl, rfl⟩ : operator = .atLeast ∧ operator' = .atMost := by
          simpa [isBetween] using h
        exact ⟨target, low, high, rfl⟩
    | _ => cases h
  · rintro ⟨target, low, high, rfl⟩
    rfl

def name : Kind → String
  | .members .. => "members"
  | .text .. => "text"
  | .numeric .. => "numeric"
  | .dateRange .. => "dateRange"
  | .relativeDate .. => "relativeDate"
  | .ranking .. => "ranking"
  | .exclude .. => "exclude"
  | .logical .. => "logical"
  | .custom .. => "custom"

end Kind

namespace Filter

def ofKind (kind : Kind) (guid : String) : Filter := ⟨kind, { guid }⟩

def guid (f : Filter) : String := f.settings.guid

def withGuid (f : Filter) (guid : String) : Filter :=
  { f with settings := { f.settings with guid } }

def withSettings (f : Filter) (settings : Settings) : Filter := { f with settings }

@[simp] theorem guid_ofKind (kind : Kind) (guid : String) : (ofKind kind guid).guid = guid := rfl

@[simp] theorem guid_withSettings (f : Filter) (settings : Settings) :
    (f.withSettings settings).guid = settings.guid := rfl

end Filter

mutual

def Filter.column? : Filter → Option Column
  | ⟨kind, _⟩ => kind.column?

def Kind.column? : Kind → Option Column
  | .members column .. => some column
  | .text column .. => some column
  | .numeric target .. => some target.base
  | .dateRange column .. => some column
  | .relativeDate column .. => some column
  | .ranking column .. => some column
  | .exclude inner => inner.column?
  | .logical target .. => some target.base
  | .custom .. => none

end

mutual

def Filter.dimension : Filter → String
  | ⟨kind, _⟩ => kind.dimension

def Kind.dimension : Kind → String
  | .members column .. => column.expression
  | .text column .. => column.expression
  | .numeric target .. => target.base.expression
  | .dateRange column .. => column.expression
  | .relativeDate column .. => column.expression
  | .ranking column .. => column.expression
  | .exclude inner => inner.dimension
  | .logical target .. => target.base.expression
  | .custom dimension _ => dimension

end

/-- The data type that an item declares; text if it declares none that is known. -/
def declaredType (item : Option Json) : DataType :=
  (((item.bind (Json.get? · "datatype")).bind Json.asString?).bind DataType.ofName?).getD .text

mutual

def Filter.datatype : Filter → DataType
  | ⟨kind, settings⟩ => kind.datatype settings.source

def Kind.datatype : Kind → Option Json → DataType
  | .members column .., _ => column.datatype
  | .text column .., _ => column.datatype
  | .numeric target .., _ => target.datatype
  | .dateRange column .., _ => column.datatype
  | .relativeDate column .., _ => column.datatype
  | .ranking column .., _ => column.datatype
  | .exclude inner, _ => inner.datatype
  | .logical target .., _ => target.datatype
  | .custom .., source => declaredType source

end

/-- Whether the filter restricts nothing, as far as its members tell. -/
def Filter.isIncludeAll (f : Filter) : Bool :=
  match f.kind with
  | .members _ names =>
    names.isEmpty && !f.settings.excludeMembers && f.settings.deactivated.isEmpty
  | _ => false

end QueryFilter
