import QueryFilter.Json.Printer
import QueryFilter.Column.Basic

/-! # Refused conditions

Why a condition cannot be evaluated, and the wording of each reason.
-/

namespace QueryFilter

/-- What an operator would have accepted as its operand. -/
inductive OperandKind where
  | text
  | number
  | date
  | list
  | textList
deriving DecidableEq

def OperandKind.phrase : OperandKind → String
  | .text => "a string"
  | .number => "a number"
  | .date => "a date string"
  | .list => "an array"
  | .textList => "an array of strings"

inductive ConditionError where
  | unsupportedOperator (key : String) (datatype : DataType)
  | invalidOperand (key : String) (expected : OperandKind)
  | notObject (found : Json)
  | notList (key : String)

def ConditionError.message : ConditionError → String
  | .unsupportedOperator key datatype =>
    "Cannot evaluate '" ++ key ++ "' locally on " ++ datatype.name ++ " values"
  | .invalidOperand key expected => "Operand of '" ++ key ++ "' must be " ++ expected.phrase
  | .notObject found => "Invalid condition: expected an object, found " ++ found.compact
  | .notList key => "Invalid condition: '" ++ key ++ "' must be an array"

end QueryFilter
