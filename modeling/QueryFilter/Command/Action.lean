import QueryFilter.Command.Error
import QueryFilter.Dashboard
import QueryFilter.Filter.Writing
import QueryFilter.Relations.Edit

/-! # What the commands do

Reading a payload as a filter, testing values against its condition, and removing filters from a
dashboard document, without any output.
-/

namespace QueryFilter.Command

/-- A payload as read: its shape or why the filter is generic, and the filter. -/
structure Interpretation where
  shape : Except ItemError Shape
  filter : Filter

def translate (payload : Json) (guid : String) : Interpretation :=
  match Filter.ofPayload? payload guid with
  | .ok filter => ⟨Shape.ofPayload? payload, filter⟩
  | .error cause => ⟨.error cause, Filter.generic payload guid⟩

def testGuid : String := "cli"

/-- A value to test: JSON, or else the text itself. -/
def testValue (text : String) : Json :=
  match Json.parse text with
  | .ok value => value
  | .error _ => .string text

/-- The values and whether the payload's condition accepts them, as its data type or the given
one. -/
def testValues (payload : Json) (texts : List String) (datatype : Option DataType) :
    Except ConditionError (List (Json × Bool)) := do
  let filter := Filter.ofPayload payload testGuid
  let predicate ← Predicate.ofCondition (datatype.getD filter.datatype) filter.fullCondition
  return texts.map fun text => (testValue text, predicate.accepts (testValue text))

/-- The filters of a document without those that have the given guids. -/
def editRelations (supply : Nat → String) (document : Json) (remove : List String) :
    Except CommandError Collection :=
  match Dashboard.read supply document with
  | .error cause => .error (.relations cause)
  | .ok filters => (filters.removeGuids remove).mapError .unknownFilter

end QueryFilter.Command
