import QueryFilter.Column.Basic
import QueryFilter.Json.Record

/-! # Items

The part of a metadata item that filters are read from. All fields may be left out. A payload is an
item, bare or inside a wrapper.
-/

namespace QueryFilter

structure Item where
  dim : Option String := none
  typeName : Option String := none
  title : Option String := none
  aggregation : Option String := none
  formula : Option Json := none
  level : Option String := none
  condition : Option Json := none
  multiSelection : Option Bool := none

namespace Item

/-- The item inside a wrapper, or the payload itself. -/
def unwrap (payload : Json) : Json :=
  match payload.get? "jaql" with
  | some (.object inner) => .object inner
  | _ => payload

def recordShape : Json.RecordShape where
  name := "Jaql"
  fields :=
    [("dim", Json.checkOptional Json.checkText), ("datatype", Json.checkOptional Json.checkText),
     ("title", Json.checkOptional Json.checkText), ("agg", Json.checkOptional Json.checkText),
     ("formula", Json.checkAny), ("level", Json.checkOptional Json.checkText),
     ("filter", Json.checkAny), ("multiSelection", Json.checkOptional Json.checkFlag)]

def ofFields (fields : Json.Fields) : Item where
  dim := fields.text? "dim"
  typeName := fields.text? "datatype"
  title := fields.text? "title"
  aggregation := fields.text? "agg"
  formula := fields.value? "formula"
  level := fields.text? "level"
  condition := fields.value? "filter"
  multiSelection := fields.flag? "multiSelection"

def ofRecord (value : Json) : Except Json.DecodeError Item := (recordShape.read value).map ofFields

def ofPayload (payload : Json) : Except Json.DecodeError Item := ofRecord (unwrap payload)

def datatype (item : Item) : DataType := (item.typeName.bind DataType.ofName?).getD .text

def conditionFields? (item : Item) : Option Json.Fields := item.condition.bind Json.asObject?

def hasFormula (item : Item) : Bool :=
  item.formula.isSome || item.conditionFields?.any fun fields => fields.hasKey "formula"

/-- Whether several members may be selected: as the item says, else its condition, else yes. -/
def allowsMultiSelection (item : Item) : Bool :=
  (item.multiSelection <|>
    item.conditionFields?.bind fun fields => fields.flag? "multiSelection").getD true

def column? (item : Item) : Option Column :=
  item.dim.map fun dim =>
    { expression := dim, title := item.title.getD dim, datatype := item.datatype,
      level := item.level }

def target? (item : Item) : Option Target :=
  item.column?.map fun column =>
    match item.aggregation with
    | some aggregation => .measure { column, aggregation, title := column.title }
    | none => .column column

end Item

end QueryFilter
