import QueryFilter.Condition.Rule
import QueryFilter.Filter.Condition

/-! # Filters as items

An item names a filter's target and holds its condition. A filter that was read from an item keeps
what the item holds besides: fields that filters do not have stay as they are, and so does the
item's condition as long as it contains the filter's own. The condition that the item holds is also
the one by which the filter is evaluated.
-/

namespace QueryFilter

/-- The fields of an item that a filter decides. -/
def modelKeys : List String :=
  ["dim", "datatype", "level", "title", "agg", "filter", "multiSelection"]

mutual

def Filter.targetFields : Filter → Json.Fields
  | ⟨kind, _⟩ => kind.targetFields

def Kind.targetFields : Kind → Json.Fields
  | .members column .. => column.fields
  | .text column .. => column.fields
  | .numeric target .. => target.fields
  | .dateRange column .. => column.fields
  | .relativeDate column .. => column.fields
  | .ranking column .. => column.fields
  | .exclude inner => inner.targetFields
  | .logical target .. => target.fields
  | .custom dimension _ => [("dim", .string dimension)]

end

/-- Every field of the first is in the second with an equal value. -/
def Json.Fields.containedIn (fields whole : Json.Fields) : Bool :=
  fields.all fun (key, value) => (whole.get? key).any value.same

namespace Filter

def sourceCondition? (f : Filter) : Option Json := f.settings.source.bind (Json.get? · "filter")

/-- The filter's condition, in the words of its source when that contains it unchanged. -/
def ownCondition (f : Filter) : Json :=
  match f.sourceCondition?, f.condition with
  | some (.object source), .object fields =>
    if Json.Fields.containedIn fields source then .object source else .object fields
  | _, condition => condition

/-- The condition that is evaluated: the filter's own, and that of its background. -/
def fullCondition (f : Filter) : Json :=
  match f.settings.background with
  | some background => .object [("and", .array [f.ownCondition, background.condition])]
  | none => f.ownCondition

def predicate (f : Filter) : Except ConditionError Predicate :=
  Predicate.ofCondition f.datatype f.fullCondition

def selectionField (f : Filter) : Json.Fields :=
  match f.kind with
  | .members .. => [("multiSelection", .bool f.settings.multiSelection)]
  | _ => []

def typedFields (f : Filter) : Json.Fields :=
  f.targetFields ++ [("filter", f.fullCondition)] ++ f.selectionField

/-- The typed fields over those of the source; source fields of the model that the filter does not
have are dropped. -/
def mergedFields (f : Filter) (source : Json.Fields) : Json.Fields :=
  Json.Fields.insertAll
    (source.filter fun (key, _) => !modelKeys.contains key || f.typedFields.hasKey key)
    f.typedFields

def typedItem (f : Filter) : Json :=
  match f.settings.source with
  | some (.object source) => .object (f.mergedFields source)
  | _ => .object f.typedFields

/-- The item of the filter. Custom filters give back the item they were read from. -/
def item (f : Filter) : Json :=
  match f.kind, f.settings.source with
  | .custom .., some source => source
  | _, _ => f.typedItem

def payload (f : Filter) : Json := .object [("jaql", f.item), ("panel", .string "scope")]

end Filter

end QueryFilter
