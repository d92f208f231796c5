import QueryFilter.Proofs.Filter.Derivation
import QueryFilter.Proofs.Filter.Kinds

/-! # The core of a condition

What a reader keeps of a condition. Every object in it is told by one of its keys, and what stands
beside that key is left out: a combination keeps its items, an exclusion what it excludes, a list of
members the members, a range of dates its bounds, and any other object its comparisons.
-/

namespace QueryFilter.Condition

open Json (Fields)
open Reading (activeFields excludedFields listedMembers NotJoined)

/-- The texts under the key of members, if there is a list. -/
def listedTexts? (fields : Fields) : Option (List String) :=
  (fields.get? "members").bind fun value =>
    value.asArray?.map fun items => items.filterMap Json.asOperandText?

def membersField (names : List String) : String × Json := ("members", .strings names)

/-- Members that are excluded and switched off count as listed. Others that are excluded beside
listed ones are left out. -/
def membersCore (fields : Fields) : Fields :=
  match listedTexts? fields, listedTexts? (excludedFields fields) with
  | some names, some excluded =>
    if ((excludedFields fields).flag? "turnedOff").getD false then
      [membersField ((names.filter fun name => !excluded.contains name) ++ excluded),
        ("exclude", .object [membersField excluded])]
    else [membersField names]
  | some names, none => [membersField names]
  | none, some excluded => [("exclude", .object [membersField excluded])]
  | none, none => []

def boundField (fields : Fields) (key : String) : Fields :=
  ((fields.get? key).map fun value => (key, value)).toList

/-- A range of dates keeps its bounds only. Of comparisons under one key the last counts. -/
def comparisonCore (datatype : DataType) (fields : Fields) : Fields :=
  if datatype = .datetime ∧ Shape.hasRange fields then
    boundField fields "from" ++ boundField fields "to"
  else Fields.insertAll [] (activeFields fields)

mutual

def core (datatype : DataType) : Json → Json
  | .object fields =>
    match joinedCore? datatype .and fields, joinedCore? datatype .or fields with
    | some joined, _ => joined
    | none, some joined => joined
    | none, none =>
      if Shape.listsMembers fields then .object (membersCore fields)
      else
        match excludedCore? datatype fields with
        | some excluded => excluded
        | none => .object (comparisonCore datatype fields)
  | value => value

/-- The combination under the connective's key, if there is such a key. -/
def joinedCore? (datatype : DataType) (connective : Connective) : Fields → Option Json
  | [] => none
  | (key, items) :: fields =>
    if key = connective.key then some (.object [(key, arrayCore datatype items)])
    else joinedCore? datatype connective fields

def arrayCore (datatype : DataType) : Json → Json
  | .array items => .array (itemsCore datatype items)
  | value => value

def itemsCore (datatype : DataType) : List Json → List Json
  | [] => []
  | item :: items => core datatype item :: itemsCore datatype items

/-- The exclusion, if there is one. -/
def excludedCore? (datatype : DataType) : Fields → Option Json
  | [] => none
  | (key, inner) :: fields =>
    if key = "exclude" then some (.object [(key, core datatype inner)])
    else excludedCore? datatype fields

end

variable {datatype : DataType}

theorem itemsCore_eq_map (items : List Json) :
    itemsCore datatype items = items.map (core datatype) := by
  induction items with
  | nil => rfl
  | cons item items ih => rw [itemsCore, List.map_cons, ih]

theorem joinedCore?_eq (connective : Connective) (fields : Fields) :
    joinedCore? datatype connective fields =
      (fields.get? connective.key).map fun items =>
        .object [(connective.key, arrayCore datatype items)] := by
  induction fields with
  | nil => rfl
  | cons field fields ih =>
    obtain ⟨key, items⟩ := field
    by_cases h : key = connective.key
    · subst h; simp [joinedCore?]
    · simp [joinedCore?, h, ih, Fields.get?_cons_of_ne h]

theorem excludedCore?_eq (fields : Fields) :
    excludedCore? datatype fields =
      (fields.get? "exclude").map fun inner => .object [("exclude", core datatype inner)] := by
  induction fields with
  | nil => rfl
  | cons field fields ih =>
    obtain ⟨key, inner⟩ := field
    by_cases h : key = "exclude"
    · subst h; simp [excludedCore?]
    · simp [excludedCore?, h, ih, Fields.get?_cons_of_ne h]

theorem core_object_eq (fields : Fields) :
    core datatype (.object fields) =
      match fields.get? Connective.and.key, fields.get? Connective.or.key with
      | some items, _ => .object [(Connective.and.key, arrayCore datatype items)]
      | none, some items => .object [(Connective.or.key, arrayCore datatype items)]
      | none, none =>
        if Shape.listsMembers fields then .object (membersCore fields)
        else
          match fields.get? "exclude" with
          | some inner => .object [("exclude", core datatype inner)]
          | none => .object (comparisonCore datatype fields) := by
  rw [core, joinedCore?_eq, joinedCore?_eq, excludedCore?_eq]
  cases fields.get? Connective.and.key <;> cases fields.get? Connective.or.key <;>
    simp only [Option.map_none, Option.map_some]
  cases fields.get? "exclude" <;> rfl

section Dispatch

variable {fields : Fields}

theorem core_joined {connective : Connective} {items : Json}
    (hk : fields.get? connective.key = some items)
    (ho : connective = .or → fields.get? Connective.and.key = none) :
    core datatype (.object fields) = .object [(connective.key, arrayCore datatype items)] := by
  cases connective with
  | and => simp only [core_object_eq, hk]
  | or => simp only [core_object_eq, ho rfl, hk]

theorem core_members (hj : NotJoined fields) (hl : Shape.listsMembers fields) :
    core datatype (.object fields) = .object (membersCore fields) := by
  simp only [core_object_eq, hj.1, hj.2, hl, if_true]

theorem core_exclusion (hj : NotJoined fields) (hl : Shape.listsMembers fields = false)
    {inner : Json} (he : fields.get? "exclude" = some inner) :
    core datatype (.object fields) = .object [("exclude", core datatype inner)] := by
  simp only [core_object_eq, hj.1, hj.2, hl, he, Bool.false_eq_true, if_false]

theorem core_comparison (hj : NotJoined fields) (hl : Shape.listsMembers fields = false)
    (he : fields.get? "exclude" = none) :
    core datatype (.object fields) = .object (comparisonCore datatype fields) := by
  simp only [core_object_eq, hj.1, hj.2, hl, he, Bool.false_eq_true, if_false]

end Dispatch

theorem listedTexts?_eq {fields : Fields} {names : Option (List String)}
    (h : listedMembers fields = .ok names) : listedTexts? fields = names := by
  cases names with
  | none =>
    rw [listedTexts?, Reading.listedMembers_eq_ok_none_iff.mp h]
    rfl
  | some names =>
    obtain ⟨value, hv, hm⟩ := Reading.listedMembers_eq_ok_some_iff.mp h
    obtain ⟨items, rfl, -, rfl⟩ := Reading.memberList_eq_ok_iff.mp hm
    rw [listedTexts?, hv]
    rfl

end QueryFilter.Condition
