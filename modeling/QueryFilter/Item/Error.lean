import QueryFilter.Json.Record

/-! # Items that no typed filter holds

Why an item does not become a filter of a known kind, and the wording of each reason.
-/

namespace QueryFilter

inductive ConditionFault where
  | notList (key : String)
  | notObject (key : String)
  | itemsNotObjects (key : String)
  | notInteger (key : String)
  | noCount (key : String)
  | noMeasure
  | incompleteMeasure
  | notDate (key : String) (found : Json)
  | notTextOperator (key : String)
  | notText (key : String) (found : Json)
  | notNumericOperator (key : String)
  | notNumber (key : String) (found : Json)
  | manyTextComparisons
  | manyNumericComparisons
  | memberNotText (found : Json)

inductive ItemError where
  | formula
  | noDimension
  | malformed (cause : Json.DecodeError)
  | condition (cause : ConditionFault)
  | unknownShape

def ConditionFault.message : ConditionFault → String
  | .notList key => "'" ++ key ++ "' must be an array"
  | .notObject key => "'" ++ key ++ "' must be an object"
  | .itemsNotObjects key => "'" ++ key ++ "' items must be objects"
  | .notInteger key => "'" ++ key ++ "' must be an integer"
  | .noCount key => "'" ++ key ++ "' has no count"
  | .noMeasure => "ranking filter has no 'by' measure"
  | .incompleteMeasure => "ranking measure needs 'dim' and 'agg'"
  | .notDate key found => "'" ++ key ++ "' is not a date: " ++ found.compact
  | .notTextOperator key => "'" ++ key ++ "' is not a text operator"
  | .notText key found => "'" ++ key ++ "' needs a string, found " ++ found.compact
  | .notNumericOperator key => "'" ++ key ++ "' is not a numeric operator"
  | .notNumber key found => "'" ++ key ++ "' needs a number, found " ++ found.compact
  | .manyTextComparisons => "text filters hold a single comparison"
  | .manyNumericComparisons => "numeric filters hold at most two comparisons"
  | .memberNotText found => "member must be a string, found " ++ found.compact

def ItemError.message : ItemError → String
  | .formula => "Formula filters cannot be translated"
  | .noDimension => "JAQL item has no 'dim'"
  | .malformed cause => "Malformed JAQL: " ++ cause.message
  | .condition cause => "Invalid filter condition: " ++ cause.message
  | .unknownShape => "Filter does not match any known shape"

end QueryFilter
