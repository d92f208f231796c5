import QueryFilter.Filter.Basic
import QueryFilter.Item.Shape
import QueryFilter.Condition.Matching

/-! # Filters read from items

An item whose shape is known becomes a filter of the matching kind, any other a custom filter that
carries the item along. A new filter takes a fresh guid from a supply; whoever asked for it replaces
that guid, inside a condition by the outer guid and the position.
-/

namespace QueryFilter

namespace Reading

abbrev Result (α : Type) := Except ItemError α

def fault {α : Type} (cause : ConditionFault) : Result α := .error (.condition cause)

def partGuid (guid : String) (position : Nat) : String := guid ++ "-" ++ toString position

def memberOf (value : Json) : Result String :=
  match value.asOperandText? with
  | some name => .ok name
  | none => fault (.memberNotText value)

def memberList : Json → Result (List String)
  | .array items => items.mapM memberOf
  | _ => fault (.notList "members")

def listedMembers (fields : Json.Fields) : Result (Option (List String)) :=
  match fields.get? "members" with
  | some value => (memberList value).map some
  | none => .ok none

/-- The members of a filter and its settings. Members that are excluded and turned off are inactive;
excluded members alone make an exclusion list; excluded members beside listed ones are left to the
source. -/
def memberSelection (condition : Json.Fields) (settings : Settings) :
    Result (List String × Settings) := do
  let names ← listedMembers condition
  let exclusion : Json.Fields := ((condition.get? "exclude").bind Json.asObject?).getD []
  let excluded ← listedMembers exclusion
  let turnedOff := (exclusion.flag? "turnedOff").getD false
  return match names, excluded with
    | some names, some excluded =>
      if turnedOff then
        (names.filter fun name => !excluded.contains name, settings.withDeactivated excluded)
      else (names, settings)
    | none, some excluded => (excluded, { settings with excludeMembers := true })
    | some names, none => (names, settings)
    | none, none => ([], settings)

def rankingKind (column : Column) (rank : Rank) (count : Json) (source? : Option Json) :
    Result Kind :=
  match count.asInt64?, source? with
  | none, _ => fault (.notInteger rank.key)
  | some _, none => fault .noMeasure
  | some count, some value =>
    match Item.ofPayload value with
    | .error cause => .error (.malformed cause)
    | .ok item =>
      if item.formula.isSome then .error .formula
      else
        match item.target? with
        | some (.measure measure) => .ok (.ranking column measure rank count)
        | _ => fault .incompleteMeasure

def integer? (fields : Json.Fields) (key : String) : Result (Option Int64) :=
  match fields.value? key with
  | none => .ok none
  | some value =>
    match value.asInt64? with
    | some n => .ok (some n)
    | none => fault (.notInteger key)

def relativeKind (column : Column) (period : Period) : Json → Result Kind
  | .object fields => do
    let offset ← integer? fields "offset"
    match ← integer? fields "count" with
    | some count =>
      return .relativeDate column period (offset.getD 0) count (Json.Fields.text? fields "anchor")
    | none => fault (.noCount period.key)
  | _ => fault (.notObject period.key)

/-- A date bound that may be left out; it is kept as it is written. -/
def dateBound? (fields : Json.Fields) (key : String) : Result (Option String) :=
  match fields.value? key with
  | none => .ok none
  | some (.string date) =>
    if (Instant.ofText? date).isSome then .ok (some date) else fault (.notDate key (.string date))
  | some found => fault (.notDate key found)

def dateRangeKind (column : Column) (condition : Json.Fields) : Result Kind := do
  let start ← dateBound? condition "from"
  let finish ← dateBound? condition "to"
  return .dateRange column start finish

def activeFields (condition : Json.Fields) : Json.Fields :=
  condition.filter fun (key, _) => !Shape.passiveKeys.contains key

def textComparison (key : String) (value : Json) : Result (TextOperator × String) :=
  match TextOperator.ofKey? key, value.asOperandText? with
  | none, _ => fault (.notTextOperator key)
  | some _, none => fault (.notText key value)
  | some operator, some operand => .ok (operator, operand)

def textKind (column : Column) (condition : Json.Fields) : Result Kind :=
  match activeFields condition with
  | [] => .error .unknownShape
  | (key, value) :: others => do
    let (operator, operand) ← textComparison key value
    if others.isEmpty then return .text column operator operand else fault .manyTextComparisons

def numericBound (field : String × Json) : Result Bound :=
  match Comparison.ofKey? field.1, field.2.asNumber? with
  | none, _ => fault (.notNumericOperator field.1)
  | some _, none => fault (.notNumber field.1 field.2)
  | some operator, some value => .ok ⟨operator, value⟩

def numericKind (target : Target) (condition : Json.Fields) : Result Kind := do
  match ← (activeFields condition).mapM numericBound with
  | [] => .error .unknownShape
  | [first] => return .numeric target first none
  | [first, second] => return .numeric target first (some second)
  | _ => fault .manyNumericComparisons

def comparisonKind (target : Target) (condition : Json.Fields) : Result Kind :=
  match target with
  | .measure _ => numericKind target condition
  | .column column =>
    match column.datatype with
    | .datetime =>
      if Shape.hasRange condition then dateRangeKind column condition
      else numericKind target condition
    | .text => textKind column condition
    | .numeric => numericKind target condition

def simpleKind (target : Target) (condition : Json.Fields) : Result Kind :=
  match condition.get? "last", condition.get? "next" with
  | some period, _ => relativeKind target.base .last period
  | none, some period => relativeKind target.base .next period
  | none, none => comparisonKind target condition

/-- What makes new filters on the way; the state is the number of guids taken from a supply. -/
abbrev Drawing (α : Type) := StateT Nat Result α

/-- A new filter under the next guid of the supply. -/
def draft (supply : Nat → String) (kind : Kind) : Drawing Filter := fun taken =>
  .ok (.ofKind kind (supply taken), taken + 1)

def membersDraft (supply : Nat → String) (column : Column) (condition : Json.Fields)
    (settings : Settings) : Drawing Filter := do
  let (names, settings) ← memberSelection condition settings
  let f ← draft supply (.members column names)
  return f.withSettings settings

mutual

/-- The filter of a condition, still to be given its guid. Of the keys that decide what it is, the
first in the order combination, ranking, members, exclusion, period, comparison counts. -/
def conditionDraft (supply : Nat → String) (target : Target) (guid : String)
    (otherwise : ConditionFault) : Json → Drawing Filter
  | .object condition =>
    match combination? supply target guid .and condition,
      combination? supply target guid .or condition with
    | some result, _ => result
    | none, some result => result
    | none, none =>
      let ranked (rank : Rank) (count : Json) : Drawing Filter := do
        let kind ← rankingKind target.base rank count (Json.Fields.get? condition "by")
        draft supply kind
      match Json.Fields.get? condition Rank.top.key, Json.Fields.get? condition Rank.bottom.key with
      | some count, _ => ranked .top count
      | none, some count => ranked .bottom count
      | none, none =>
        if Shape.listsMembers condition then membersDraft supply target.base condition { guid }
        else
          match exclusion? supply target guid condition with
          | some result => result
          | none => do
            let kind ← simpleKind target condition
            draft supply kind
  | _ => fault otherwise

def combination? (supply : Nat → String) (target : Target) (guid : String)
    (connective : Connective) : Json.Fields → Option (Drawing Filter)
  | [] => none
  | (key, items) :: fields =>
    if key = connective.key then some (combined supply target guid connective items)
    else combination? supply target guid connective fields

def combined (supply : Nat → String) (target : Target) (guid : String)
    (connective : Connective) : Json → Drawing Filter
  | .array items => do
    let filters ← partFilters supply target guid (.itemsNotObjects connective.key) 0 items
    let f ← draft supply (.logical target connective filters)
    return f.withGuid guid
  | _ => fault (.notList connective.key)

def partFilters (supply : Nat → String) (target : Target) (guid : String)
    (otherwise : ConditionFault) (position : Nat) : List Json → Drawing (List Filter)
  | [] => return []
  | item :: items => do
    let f ← conditionDraft supply target (partGuid guid position) otherwise item
    let filters ← partFilters supply target guid otherwise (position + 1) items
    return f.withGuid (partGuid guid position) :: filters

def exclusion? (supply : Nat → String) (target : Target) (guid : String) :
    Json.Fields → Option (Drawing Filter)
  | [] => none
  | (key, inner) :: fields =>
    if key = "exclude" then
      some do
        let f ← conditionDraft supply target (partGuid guid 0) (.notObject "exclude") inner
        let outer ← draft supply (.exclude (f.withGuid (partGuid guid 0)))
        return outer.withGuid guid
    else exclusion? supply target guid fields

end

theorem combination?_eq (supply : Nat → String) (target : Target) (guid : String)
    (connective : Connective) (fields : Json.Fields) :
    combination? supply target guid connective fields =
      (fields.get? connective.key).map (combined supply target guid connective) := by
  induction fields with
  | nil => rfl
  | cons field fields ih =>
    obtain ⟨key, items⟩ := field
    by_cases h : key = connective.key
    · subst h; simp [combination?]
    · simp [combination?, h, ih, Json.Fields.get?_cons_of_ne h]

theorem exclusion?_eq (supply : Nat → String) (target : Target) (guid : String)
    (fields : Json.Fields) :
    exclusion? supply target guid fields =
      (fields.get? "exclude").map fun inner => do
        let f ← conditionDraft supply target (partGuid guid 0) (.notObject "exclude") inner
        let outer ← draft supply (.exclude (f.withGuid (partGuid guid 0)))
        return outer.withGuid guid := by
  induction fields with
  | nil => rfl
  | cons field fields ih =>
    obtain ⟨key, inner⟩ := field
    by_cases h : key = "exclude"
    · subst h; simp [exclusion?]
    · simp [exclusion?, h, ih, Json.Fields.get?_cons_of_ne h]

def conditionOf (item : Item) : Json.Fields := item.conditionFields?.getD []

def shapedDraft (supply : Nat → String) (item : Item) (target : Target) (settings : Settings) :
    Shape → Drawing Filter
  | .invalid => fun _ => .error .unknownShape
  | .includeAll => do
    let f ← draft supply (.members target.base [])
    return f.withSettings { settings with multiSelection := item.allowsMultiSelection }
  | .specificItems =>
    membersDraft supply target.base (conditionOf item)
      { settings with multiSelection := item.allowsMultiSelection }
  | .advanced => do
    let f ← draft supply (.custom target.base.expression (.object (conditionOf item)))
    return f.withSettings settings
  | .condition | .dateRange | .numericRange | .period => do
    let f ← conditionDraft supply target settings.guid (.notObject "filter")
      (.object (conditionOf item))
    return f.withSettings settings

end Reading

namespace Filter

def readSettings (item : Json) (guid : String) : Settings := { guid, source := some item }

/-- The filter that a payload describes, or why there is none. -/
def readFrom? (supply : Nat → String) (payload : Json) (guid : String) :
    Except ItemError Filter :=
  let source := Item.unwrap payload
  match Item.ofPayload source with
  | .error cause => .error (.malformed cause)
  | .ok item => do
    let shape ← item.shape?
    if shape = .invalid then .error .unknownShape
    else
      match item.target? with
      | none => .error .noDimension
      | some target =>
        (Reading.shapedDraft supply item target (readSettings source guid) shape).run' 0

/-- A custom filter that carries the payload along. -/
def genericFrom (supply : Nat → String) (payload : Json) (guid : String) : Filter :=
  let source := Item.unwrap payload
  let dimension := ((source.get? "dim").bind Json.asString?).getD ""
  (ofKind (.custom dimension ((source.get? "filter").getD .null)) (supply 0)).withSettings
    (readSettings source guid)

def readFrom (supply : Nat → String) (payload : Json) (guid : String) : Filter :=
  match readFrom? supply payload guid with
  | .ok f => f
  | .error _ => genericFrom supply payload guid

/-! All drafts are renamed before anyone sees them, so callers need no supply of their own. -/

def draftGuid (position : Nat) : String := "draft-" ++ toString position

def ofPayload? (payload : Json) (guid : String) : Except ItemError Filter :=
  readFrom? draftGuid payload guid

def generic (payload : Json) (guid : String) : Filter := genericFrom draftGuid payload guid

def ofPayload (payload : Json) (guid : String) : Filter := readFrom draftGuid payload guid

end Filter

def Shape.ofPayload? (payload : Json) : Except ItemError Shape :=
  match Item.ofPayload (Item.unwrap payload) with
  | .error cause => .error (.malformed cause)
  | .ok item => item.shape?

end QueryFilter
