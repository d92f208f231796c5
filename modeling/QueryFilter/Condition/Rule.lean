import QueryFilter.Condition.Error
import QueryFilter.Condition.Matching

/-! # Rules of a condition

A condition is an object whose keys must all hold. It is compiled for one data type into a rule,
which then accepts or refuses any value. Keys of presentation and empty member lists leave no rule,
and a condition without rules accepts everything, also as an exclusion.
-/

namespace QueryFilter

inductive Rule where
  | always
  | members (names : List String)
  | text (operator : TextOperator) (operand : String)
  | numeric (operator : Comparison) (operand : Binary64)
  | datetime (operator : Comparison) (operand : Instant)
  | not (rule : Rule)
  | all (rules : List Rule)
  | any (rules : List Rule)

namespace Rule

mutual

def accepts (datatype : DataType) : Rule → Json → Bool
  | .always, _ => true
  | .members names, value => isMember datatype names value
  | .text operator operand, value => operator.accepts operand value
  | .numeric operator operand, value => operator.acceptsNumber operand value
  | .datetime operator operand, value => operator.acceptsInstant operand value
  | .not rule, value => !accepts datatype rule value
  | .all rules, value => allAccept datatype rules value
  | .any rules, value => anyAccepts datatype rules value

def allAccept (datatype : DataType) : List Rule → Json → Bool
  | [], _ => true
  | rule :: rules, value => accepts datatype rule value && allAccept datatype rules value

def anyAccepts (datatype : DataType) : List Rule → Json → Bool
  | [], _ => false
  | rule :: rules, value => accepts datatype rule value || anyAccepts datatype rules value

end

theorem allAccept_eq_all (datatype : DataType) (rules : List Rule) (value : Json) :
    allAccept datatype rules value = rules.all fun rule => accepts datatype rule value := by
  induction rules with
  | nil => simp [allAccept]
  | cons rule rules ih => simp [allAccept, ih]

theorem anyAccepts_eq_any (datatype : DataType) (rules : List Rule) (value : Json) :
    anyAccepts datatype rules value = rules.any fun rule => accepts datatype rule value := by
  induction rules with
  | nil => simp [anyAccepts]
  | cons rule rules ih => simp [anyAccepts, ih]

def ofList : List Rule → Rule
  | [] => .always
  | [rule] => rule
  | rules => .all rules

@[simp] theorem accepts_ofList (datatype : DataType) (rules : List Rule) (value : Json) :
    accepts datatype (ofList rules) value = rules.all fun rule => accepts datatype rule value := by
  match rules with
  | [] => simp [ofList, accepts]
  | [rule] => simp [ofList]
  | _ :: _ :: _ => simp [ofList, accepts, allAccept_eq_all]

end Rule

namespace Condition

/-- Keys of presentation or selection that a condition may carry. -/
def presentationKeys : List String :=
  ["explicit", "multiSelection", "turnedOff", "isCondition", "rankingMessage"]

def comparison (datatype : DataType) (key : String) (operand : Json) : Except ConditionError Rule :=
  match datatype with
  | .text =>
    match TextOperator.ofKey? key, operand.asOperandText? with
    | none, _ => .error (.unsupportedOperator key datatype)
    | some _, none => .error (.invalidOperand key .text)
    | some operator, some text => .ok (.text operator text)
  | .numeric =>
    match Comparison.ofKey? key, operand.asNumber? with
    | none, _ => .error (.unsupportedOperator key datatype)
    | some _, none => .error (.invalidOperand key .number)
    | some operator, some x => .ok (.numeric operator x)
  | .datetime =>
    match Comparison.ofKey? key, operand.asInstant? with
    | none, _ => .error (.unsupportedOperator key datatype)
    | some _, none => .error (.invalidOperand key .date)
    | some operator, some x => .ok (.datetime operator x)

def memberList (key : String) : Json → Except ConditionError (List String)
  | .array items =>
    match items.mapM Json.asOperandText? with
    | some members => .ok members
    | none => .error (.invalidOperand key .textList)
  | _ => .error (.invalidOperand key .list)

/-- The rule of an exclusion; excluding what accepts everything excludes nothing. -/
def exclusion? : Rule → Option Rule
  | .always => none
  | rule => some (.not rule)

mutual

def compile (datatype : DataType) : Json → Except ConditionError Rule
  | .object fields => (compileFields datatype fields).map Rule.ofList
  | found => .error (.notObject found)

def compileFields (datatype : DataType) : Json.Fields → Except ConditionError (List Rule)
  | [] => .ok []
  | (key, operand) :: fields => do
    let rule? ← compileField datatype key operand
    let rules ← compileFields datatype fields
    return rule?.toList ++ rules

def compileField (datatype : DataType) (key : String) (operand : Json) :
    Except ConditionError (Option Rule) :=
  if key ∈ presentationKeys ∨ key = "all" then .ok none
  else if key = "members" then
    (memberList key operand).map fun names => if names.isEmpty then none else some (.members names)
  else if key = "exclude" then
    match operand with
    | .object fields =>
      (compileFields datatype fields).map fun rules => exclusion? (Rule.ofList rules)
    | found => .error (.notObject found)
  else if key = "and" then
    match operand with
    | .array items => (compileItems datatype items).map fun rules => some (.all rules)
    | _ => .error (.notList key)
  else if key = "or" then
    match operand with
    | .array items => (compileItems datatype items).map fun rules => some (.any rules)
    | _ => .error (.notList key)
  else (comparison datatype key operand).map some

def compileItems (datatype : DataType) : List Json → Except ConditionError (List Rule)
  | [] => .ok []
  | item :: items => do
    let rule ← compile datatype item
    let rules ← compileItems datatype items
    return rule :: rules

end

theorem compileField_exclude (datatype : DataType) (operand : Json) :
    compileField datatype "exclude" operand = (compile datatype operand).map exclusion? := by
  cases operand <;> simp [compileField, compile, presentationKeys, Except.map]
  split <;> rfl

end Condition

structure Predicate where
  datatype : DataType
  rule : Rule

namespace Predicate

def accepts (p : Predicate) (value : Json) : Bool := p.rule.accepts p.datatype value

def ofCondition (datatype : DataType) (condition : Json) : Except ConditionError Predicate :=
  (Condition.compile datatype condition).map fun rule => ⟨datatype, rule⟩

end Predicate

end QueryFilter
