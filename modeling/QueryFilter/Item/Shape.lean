import QueryFilter.Item.Basic
import QueryFilter.Item.Error
import QueryFilter.Operator

/-! # Shapes of items

The shape of a condition is told by its keys, and by the data type where a range is concerned. The
tests are made in a fixed order; the first one that holds decides.
-/

namespace QueryFilter

inductive Shape where
  | includeAll
  | specificItems
  | condition
  | dateRange
  | numericRange
  | period
  | advanced
  | invalid
deriving DecidableEq

namespace Shape

def label : Shape → String
  | .includeAll => "INCLUDE_ALL"
  | .specificItems => "SPECIFIC_ITEMS"
  | .condition => "CONDITION"
  | .dateRange => "DATE_RANGE"
  | .numericRange => "NUMERIC_RANGE"
  | .period => "PERIOD"
  | .advanced => "ADVANCED"
  | .invalid => "INVALID"

def includeAllKeys : List String := ["members", "all", "explicit", "multiSelection"]

/-- Keys beside a condition that do not change what it matches. -/
def passiveKeys : List String :=
  ["explicit", "multiSelection", "isCondition", "rankingMessage", "custom"]

def includesAll (fields : Json.Fields) : Bool :=
  fields.keys.all includeAllKeys.contains &&
    match fields.get? "members" with
    | none => true
    | some (.array members) => members.isEmpty
    | some _ => false

def listsMembers (fields : Json.Fields) : Bool :=
  fields.hasKey "members" ||
    ((fields.get? "exclude").bind Json.asObject?).any fun inner => inner.hasKey "members"

/-- Keys that make a condition whatever the data type. -/
def isConditionKey (key : String) : Bool :=
  (TextOperator.ofKey? key).isSome || ["and", "or", "top", "bottom"].contains key ||
    [Comparison.greater.key, Comparison.less.key].contains key

def hasRange (fields : Json.Fields) : Bool := fields.hasKey "from" || fields.hasKey "to"

/-- A single bound on text is a comparison, as text has no ranges. -/
def isCondition (datatype : DataType) (fields : Json.Fields) : Bool :=
  fields.keys.any isConditionKey || fields.hasKey "exclude" ||
    (datatype == .text && hasRange fields)

def ofFields (datatype : DataType) (fields : Json.Fields) : Shape :=
  if includesAll fields then .includeAll
  else if listsMembers fields then .specificItems
  else if isCondition datatype fields then .condition
  else if hasRange fields then (if datatype = .datetime then .dateRange else .numericRange)
  else if fields.hasKey "last" || fields.hasKey "next" then .period
  else if fields.keys.any fun key => !passiveKeys.contains key then .advanced
  else .invalid

end Shape

/-- The shape of the item's condition; items with a formula have none. -/
def Item.shape? (item : Item) : Except ItemError Shape :=
  if item.hasFormula then .error .formula
  else
    match item.conditionFields? with
    | some fields => .ok (Shape.ofFields item.datatype fields)
    | none => .ok .invalid

end QueryFilter
