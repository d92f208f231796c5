import QueryFilter.Json.Printer
import QueryFilter.Text.Basic
import QueryFilter.Instant.Reading
import QueryFilter.Operator
import QueryFilter.Column.Basic

/-! # Matching values

A value is matched as text, as a number or as an instant. A value without text passes only negated
text operators; a value that is no number or no date passes no comparison at all.
-/

namespace QueryFilter

namespace Json

def asText? : Json → Option String
  | .string s => some s
  | .number n => some n.text
  | .bool b => some (if b then "true" else "false")
  | _ => none

def asOperandText? : Json → Option String
  | .string s => some s
  | .number n => some n.text
  | _ => none

def asNumber? : Json → Option Binary64
  | .number n => n.toBinary64?
  | .string s => Binary64.ofText? s
  | _ => none

def asInstant? : Json → Option Instant
  | .string s => Instant.ofText? s
  | _ => none

end Json

namespace TextTest

def accepts (test : TextTest) (operand text : String) : Bool :=
  match test with
  | .startsWith => Text.opens operand.toList text.toList
  | .endsWith => Text.closes operand.toList text.toList
  | .contains => Text.occurs operand.toList text.toList
  | .equals => operand == text

end TextTest

/-- The test on the value's text, which a value without text fails, and its negation. -/
def TextOperator.accepts (operator : TextOperator) (operand : String) (value : Json) : Bool :=
  operator.negated ^^ value.asText?.any (operator.test.accepts operand)

/-- A negated operator accepts just what its positive form refuses, values without text included. -/
theorem TextOperator.accepts_eq_not_positive {operator : TextOperator} (h : operator.negated)
    (operand : String) (value : Json) :
    operator.accepts operand value = !operator.positive.accepts operand value := by
  simp [accepts, positive, h]

namespace Comparison

def acceptsNumber (c : Comparison) (operand : Binary64) (value : Json) : Bool :=
  value.asNumber?.any fun x => c.holds (compare x operand)

def acceptsInstant (c : Comparison) (operand : Instant) (value : Json) : Bool :=
  value.asInstant?.any fun x => c.holds (compare x operand)

theorem acceptsNumber_eq_false {value : Json} (h : value.asNumber? = none) (c : Comparison)
    (operand : Binary64) : c.acceptsNumber operand value = false := by simp [acceptsNumber, h]

end Comparison

/-- Whether a member written as text is the value, read as the column's data type. Dates are also
members by their very text. -/
def isMember (datatype : DataType) (members : List String) (value : Json) : Bool :=
  match datatype with
  | .text => value.asText?.any fun text => members.contains text
  | .numeric =>
    value.asNumber?.any fun x => members.any fun member => (Binary64.ofText? member).any x.same
  | .datetime =>
    match value with
    | .string text =>
      members.any fun member =>
        member == text ||
          ((Instant.ofText? text).isSome && Instant.ofText? member == Instant.ofText? text)
    | _ => false

@[simp] theorem isMember_nil (datatype : DataType) (value : Json) :
    isMember datatype [] value = false := by
  cases datatype <;> cases value <;> simp [isMember, Option.any] <;> split <;> rfl

end QueryFilter
