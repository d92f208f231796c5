import QueryFilter.Json.Printer
import QueryFilter.Text.Printable

/-! # Records read from JSON

A record of named fields is an object with those fields, in any order and among others, or a list
of them in declared order. A field is checked before it is used, the first bad one decides.
-/

namespace QueryFilter.Json

inductive Expectation where
  | text
  | flag
  | nothing
  | textOrMap
  | record (name : String)
deriving DecidableEq

inductive DecodeError where
  | wrongType (found : Json) (expected : Expectation)
  | tooFewItems (found : Nat) (name : String) (size : Nat)
  | tooManyItems (found : Nat)
  | notSingleKey
  | unknownName (name : String) (known : List String)
  | missingField (field : String)

def Expectation.phrase : Expectation → String
  | .text => "a string"
  | .flag => "a boolean"
  | .nothing => "unit"
  | .textOrMap => "string or map"
  | .record name => "struct " ++ name

def describe : Json → String
  | .null => "null"
  | .bool b => "boolean `" ++ (if b then "true" else "false") ++ "`"
  | .number (.integer n) => "integer `" ++ toString n.val ++ "`"
  | .number (.real x) => "floating point `" ++ x.text Number.layout ++ "`"
  | .string s => "string " ++ Text.quoted s
  | .array _ => "sequence"
  | .object _ => "map"

def DecodeError.message : DecodeError → String
  | .wrongType found expected =>
    "invalid type: " ++ found.describe ++ ", expected " ++ expected.phrase
  | .tooFewItems found name size =>
    "invalid length " ++ toString found ++ ", expected struct " ++ name ++ " with " ++
      toString size ++ " elements"
  | .tooManyItems found =>
    "invalid length " ++ toString found ++ ", expected fewer elements in array"
  | .notSingleKey => "invalid value: map, expected map with a single key"
  | .unknownName name known =>
    "unknown variant `" ++ name ++ "`, expected one of " ++
      ", ".intercalate (known.map fun k => "`" ++ k ++ "`")
  | .missingField field => "missing field `" ++ field ++ "`"

/-- A check of one value; a value that passes has the type that is read. -/
abbrev Check := Json → Except DecodeError Unit

def checkText : Check
  | .string _ => .ok ()
  | found => .error (.wrongType found .text)

def checkFlag : Check
  | .bool _ => .ok ()
  | found => .error (.wrongType found .flag)

/-- Null stands for a field that is left out. -/
def checkOptional (check : Check) : Check
  | .null => .ok ()
  | found => check found

def checkAny : Check := fun _ => .ok ()

structure RecordShape where
  name : String
  fields : List (String × Check)

namespace RecordShape

/-- Checks a field that is declared; others are left alone. -/
def checkField (shape : RecordShape) (field : String × Json) : Except DecodeError Unit :=
  match shape.fields.lookup field.1 with
  | some check => check field.2
  | none => .ok ()

/-- The fields of a record by name, once every declared one is checked. -/
def read (shape : RecordShape) : Json → Except DecodeError Fields
  | .object fields => do
    fields.forM shape.checkField
    return fields
  | .array items => do
    let fields := (shape.fields.map Prod.fst).zip items
    fields.forM shape.checkField
    if items.length < shape.fields.length then
      .error (.tooFewItems items.length shape.name shape.fields.length)
    else if shape.fields.length < items.length then
      .error (.tooManyItems items.length)
    else return fields
  | found => .error (.wrongType found (.record shape.name))

end RecordShape

namespace Fields

def text? (fields : Fields) (key : String) : Option String := (fields.get? key).bind asString?

def flag? (fields : Fields) (key : String) : Option Bool := (fields.get? key).bind asBool?

/-- A field that may be left out; null counts as left out. -/
def value? (fields : Fields) (key : String) : Option Json :=
  (fields.get? key).filter fun value => !value.isNull

def required (fields : Fields) (key : String) : Except DecodeError Json :=
  match fields.get? key with
  | some value => .ok value
  | none => .error (.missingField key)

end Fields

end QueryFilter.Json
