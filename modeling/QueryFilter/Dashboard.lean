import QueryFilter.Filter.Reading
import QueryFilter.Filter.Writing
import QueryFilter.Relations.Collection

/-! # Dashboard documents

A document lists filter items and may hold relations between them. Every leaf of the relations names
the filter of an item, no filter twice; filters that the relations do not mention are joined to
their root in list order. Items without an instance id take guids from a supply. Written out, a
document lists the items of all filters, and holds the relations of a tree by guids.
-/

namespace QueryFilter

/-- Why the filters or relations of a document cannot be read. -/
inductive RelationsError where
  | unknownFilter (guid : String)
  | invalidNode (found : Json)
  | repeatedFilter (guid : String)
  | unknownOperator (found : Json)
  | filtersNotList

def RelationsError.message : RelationsError → String
  | .unknownFilter guid => "Relations reference unknown filter '" ++ guid ++ "'"
  | .invalidNode found => "Invalid relations node: " ++ found.compact
  | .repeatedFilter guid => "Invalid relations node: filter '" ++ guid ++ "' appears more than once"
  | .unknownOperator found => "Unknown relations operator '" ++ found.compact ++ "'"
  | .filtersNotList => "Invalid dashboard document: 'filters' must be an array"

namespace Dashboard

def instanceId? (item : Json) : Option String := (item.get? "instanceid").bind Json.asString?

def flag (item : Json) (key : String) : Bool := ((item.get? key).bind Json.asBool?).getD false

def payload (item : Json) : Json := (item.get? "jaql").getD .null

/-- The filter of an item; `spare` is its guid if it has none of its own. -/
def readItem (spare : String) (item : Json) : Filter :=
  let f := Filter.ofPayload (payload item) ((instanceId? item).getD spare)
  f.withSettings
    { f.settings with disabled := flag item "disabled", locked := flag item "locked" }

/-- The items with their guids, the supply used from a position on. -/
def withGuids (supply : Nat → String) (position : Nat) : List Json → List (String × Json)
  | [] => []
  | item :: items =>
    match instanceId? item with
    | some guid => (guid, item) :: withGuids supply position items
    | none => (supply position, item) :: withGuids supply (position + 1) items

/-- Reads relations off a node, given the guids that were met before. -/
abbrev NodeReader := List String → Except RelationsError (Tree String × List String)

def readLeaf (known : List String) (node guid : Json) : NodeReader := fun met =>
  match guid with
  | .string guid =>
    if !known.contains guid then .error (.unknownFilter guid)
    else if met.contains guid then .error (.repeatedFilter guid)
    else .ok (.leaf guid, guid :: met)
  | _ => .error (.invalidNode node)

/-- The words for the connectives, in any case. -/
def readConnective (found : Json) : Except RelationsError Connective :=
  match found with
  | .string word =>
    if word.map Char.toUpper = Connective.and.word then .ok .and
    else if word.map Char.toUpper = Connective.or.word then .ok .or
    else .error (.unknownOperator found)
  | _ => .error (.unknownOperator found)

mutual

/-- A leaf names a filter, any other node has an operator and two branches. -/
def readNode (known : List String) : Json → NodeReader
  | .object fields =>
    let node := Json.object fields
    match Json.Fields.get? fields "instanceid" with
    | some guid => readLeaf known node guid
    | none =>
      match Json.Fields.get? fields "operator", branch? known "left" fields,
        branch? known "right" fields with
      | some operator, some left, some right => fun met => do
        let connective ← readConnective operator
        let (leftTree, met) ← left met
        let (rightTree, met) ← right met
        return (.node connective leftTree rightTree, met)
      | _, _, _ => fun _ => .error (.invalidNode node)
  | node => fun _ => .error (.invalidNode node)

def branch? (known : List String) (key : String) : Json.Fields → Option NodeReader
  | [] => none
  | (k, node) :: fields => if k = key then some (readNode known node) else branch? known key fields

end

theorem branch?_eq (known : List String) (key : String) (fields : Json.Fields) :
    branch? known key fields = (fields.get? key).map (readNode known) := by
  induction fields with
  | nil => rfl
  | cons field fields ih =>
    obtain ⟨k, node⟩ := field
    by_cases h : k = key
    · subst h; simp [branch?]
    · simp [branch?, h, ih, Json.Fields.get?_cons_of_ne h]

/-- The collection of filters under relations; without relations a list. -/
def relate (filters : List Filter) : Option Json → Except RelationsError Collection
  | none | some .null => .ok (.list filters)
  | some node => do
    let (relations, met) ← readNode (filters.map Filter.guid) node []
    let mentioned := filters.filter fun f => met.contains f.guid
    return Collection.combine filters (Collection.revise mentioned (some relations) filters)

def items (document : Json) : Except RelationsError (List Json) :=
  match document.get? "filters" with
  | none | some .null => .ok []
  | some (.array items) => .ok items
  | some _ => .error .filtersNotList

def read (supply : Nat → String) (document : Json) : Except RelationsError Collection := do
  let items ← items document
  let filters := (withGuids supply 0 items).map fun (guid, item) => readItem guid item
  relate filters (document.get? "filterRelations")

def writeNode : Tree String → Json
  | .leaf guid => .object [("instanceid", .string guid)]
  | .node connective left right =>
    .object
      [("operator", .string connective.word), ("left", writeNode left), ("right", writeNode right)]

def writeRelations? : Collection → Option Json
  | .list _ => none
  | .tree relations => some (writeNode relations.guidTree)

def writeItem (f : Filter) : Json :=
  .object
    [("jaql", f.item), ("instanceid", .string f.guid), ("disabled", .bool f.settings.disabled),
     ("locked", .bool f.settings.locked)]

def write (c : Collection) : Json :=
  .object
    (("filters", .array (c.toList.map writeItem)) ::
      ((writeRelations? c).map fun node => ("filterRelations", node)).toList)

end Dashboard

end QueryFilter
