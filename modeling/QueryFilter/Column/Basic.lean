import QueryFilter.Json.Basic

/-! # Columns and measures

A column refers to an attribute of the data model, a measure aggregates one. Columns are told apart
by their expression alone; the title is for display.
-/

namespace QueryFilter

inductive DataType where
  | text
  | numeric
  | datetime
deriving DecidableEq, Inhabited

namespace DataType

def name : DataType → String
  | .text => "text"
  | .numeric => "numeric"
  | .datetime => "datetime"

def ofName? (name : String) : Option DataType :=
  if name = "text" then some .text
  else if name = "numeric" then some .numeric
  else if name = "datetime" then some .datetime
  else none

@[simp] theorem ofName?_name (d : DataType) : ofName? d.name = some d := by cases d <;> decide

end DataType

structure Column where
  expression : String
  title : String
  datatype : DataType
  level : Option String := none
deriving DecidableEq

structure Measure where
  column : Column
  aggregation : String
  title : String
deriving DecidableEq

inductive Target where
  | column (column : Column)
  | measure (measure : Measure)
deriving DecidableEq

namespace Column

/-- Columns with one expression are the same column. -/
def same (a b : Column) : Bool := a.expression == b.expression

def displayName (a : Column) : String := if a.title = "" then a.expression else a.title

def fields (a : Column) : Json.Fields :=
  [("dim", .string a.expression), ("datatype", .string a.datatype.name)] ++
    (a.level.map fun level => ("level", Json.string level)).toList ++
    [("title", .string a.title)]

@[simp] theorem same_refl (a : Column) : a.same a := by simp [same]

end Column

namespace Measure

def same (m n : Measure) : Bool :=
  m.column.same n.column && m.aggregation == n.aggregation && m.title == n.title

/-- The column's fields under the measure's title, and the aggregation. -/
def fields (m : Measure) : Json.Fields :=
  Column.fields { m.column with title := m.title } ++ [("agg", .string m.aggregation)]

@[simp] theorem same_refl (m : Measure) : m.same m := by simp [same]

end Measure

namespace Target

def base : Target → Column
  | .column a => a
  | .measure m => m.column

def isMeasure : Target → Bool
  | .column _ => false
  | .measure _ => true

def same : Target → Target → Bool
  | .column a, .column b => a.same b
  | .measure m, .measure n => m.same n
  | _, _ => false

def fields : Target → Json.Fields
  | .column a => a.fields
  | .measure m => m.fields

def describe : Target → String
  | .column a => a.expression
  | .measure m => m.aggregation ++ "(" ++ m.column.expression ++ ")"

/-- Measures are numbers, whatever they count. -/
def datatype : Target → DataType
  | .column a => a.datatype
  | .measure _ => .numeric

@[simp] theorem same_refl (t : Target) : t.same t := by cases t <;> simp [same]

end Target

end QueryFilter
