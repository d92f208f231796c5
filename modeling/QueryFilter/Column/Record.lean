import QueryFilter.Column.Basic
import QueryFilter.Json.Record

/-! # Records of columns and measures

Data types, columns and measures as JSON values of their own, written with all their fields and
read by the rules of records.
-/

namespace QueryFilter

open Json (DecodeError RecordShape Check)

namespace DataType

def names : List String := [DataType.text.name, DataType.numeric.name, DataType.datetime.name]

def ofRecordName (name : String) : Except DecodeError DataType :=
  match ofName? name with
  | some d => .ok d
  | none => .error (.unknownName name names)

/-- A data type is its name, or an object with the name as its only key and null as the value. -/
def ofRecord : Json → Except DecodeError DataType
  | .string name => ofRecordName name
  | .object [(name, content)] => do
    let d ← ofRecordName name
    if content.isNull then return d else .error (.wrongType content .nothing)
  | .object _ => .error .notSingleKey
  | found => .error (.wrongType found .textOrMap)

def toRecord (d : DataType) : Json := .string d.name

def check : Check := fun value => (ofRecord value).map fun _ => ()

@[simp] theorem ofRecord_toRecord (d : DataType) : ofRecord d.toRecord = .ok d := by
  simp [ofRecord, toRecord, ofRecordName]

end DataType

namespace Column

def recordShape : RecordShape where
  name := "Attribute"
  fields :=
    [("expression", Json.checkText), ("title", Json.checkText), ("datatype", DataType.check),
     ("level", Json.checkOptional Json.checkText)]

def ofRecord (value : Json) : Except DecodeError Column := do
  let fields ← recordShape.read value
  let expression ← fields.required "expression"
  let title ← fields.required "title"
  let datatype ← DataType.ofRecord (← fields.required "datatype")
  return {
    expression := expression.asString?.getD ""
    title := title.asString?.getD ""
    datatype
    level := fields.text? "level" }

def toRecord (a : Column) : Json :=
  .object
    [("expression", .string a.expression), ("title", .string a.title),
     ("datatype", a.datatype.toRecord), ("level", (a.level.map Json.string).getD .null)]

def check : Check := fun value => (ofRecord value).map fun _ => ()

end Column

namespace Measure

def recordShape : RecordShape where
  name := "Measure"
  fields :=
    [("attribute", Column.check), ("aggregation", Json.checkText), ("title", Json.checkText)]

def ofRecord (value : Json) : Except DecodeError Measure := do
  let fields ← recordShape.read value
  let column ← Column.ofRecord (← fields.required "attribute")
  let aggregation ← fields.required "aggregation"
  let title ← fields.required "title"
  return {
    column
    aggregation := aggregation.asString?.getD ""
    title := title.asString?.getD "" }

def toRecord (m : Measure) : Json :=
  .object
    [("attribute", m.column.toRecord), ("aggregation", .string m.aggregation),
     ("title", .string m.title)]

end Measure

end QueryFilter
