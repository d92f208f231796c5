import QueryFilter.Filter.Basic

/-! # Conditions of filters

The condition that says what a filter selects, written from its kind alone. Whole numbers are
written as integers.
-/

namespace QueryFilter

namespace Condition

/-- The condition of a members filter. Inactive members are listed with the active ones and then
switched off. -/
def ofMembers (names : List String) (settings : Settings) : Json.Fields :=
  if settings.excludeMembers then
    [("exclude", .object [("members", .strings names)])]
  else if settings.deactivated.isEmpty then
    [("members", .strings names)]
  else
    [("members", .strings (names ++ settings.deactivated)),
     ("exclude",
       .object [("members", .strings settings.deactivated), ("turnedOff", .bool true)])]

def ofBound (b : Bound) : String × Json := (b.operator.key, .number (.ofBinary64 b.value))

/-- Bounds by their keys; of two bounds with one operator the second counts. -/
def ofBounds (first : Bound) (second : Option Bound) : Json.Fields :=
  Json.Fields.insertAll [] ((first :: second.toList).map ofBound)

def optionalText (key : String) (text : Option String) : Json.Fields :=
  (text.map fun text => (key, Json.string text)).toList

def ofPeriod (period : Period) (offset count : Int64) (anchor : Option String) : Json.Fields :=
  [(period.key, .object ([("offset", .ofInt64 offset), ("count", .ofInt64 count)] ++
    optionalText "anchor" anchor))]

def ofRanking (measure : Measure) (rank : Rank) (count : Int64) : Json.Fields :=
  [(rank.key, .ofInt64 count), ("by", .object measure.fields)]

end Condition

mutual

/-- The condition of the filter's selection, without its background. -/
def Filter.condition : Filter → Json
  | ⟨kind, settings⟩ => kind.condition settings

def Kind.condition : Kind → Settings → Json
  | .members _ names, settings => .object (Condition.ofMembers names settings)
  | .text _ operator operand, _ => .object [(operator.key, .string operand)]
  | .numeric _ first second, _ => .object (Condition.ofBounds first second)
  | .dateRange _ start finish, _ =>
    .object (Condition.optionalText "from" start ++ Condition.optionalText "to" finish)
  | .relativeDate _ period offset count anchor, _ =>
    .object (Condition.ofPeriod period offset count anchor)
  | .ranking _ measure rank count, _ => .object (Condition.ofRanking measure rank count)
  | .exclude inner, _ => .object [("exclude", inner.condition)]
  | .logical _ connective filters, _ => .object [(connective.key, .array (conditions filters))]
  | .custom _ condition, _ => condition

def conditions : List Filter → List Json
  | [] => []
  | f :: filters => f.condition :: conditions filters

end

theorem conditions_eq_map (filters : List Filter) :
    conditions filters = filters.map Filter.condition := by
  induction filters with
  | nil => rfl
  | cons f filters ih => simp [conditions, ih]

end QueryFilter
