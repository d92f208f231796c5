import QueryFilter.Filter.Same
import QueryFilter.Relations.Collection

/-! # Editing collections

Adding, removing, replacing and finding filters. Filters are matched by guid alone, and a list stays
a list and a tree a tree, except that a tree without leaves is the empty list.
-/

namespace QueryFilter.Collection

/-- Appends filters in order; in a tree each is joined to the root. -/
def addAll (c : Collection) (added : List Filter) : Collection :=
  match c with
  | .list filters => .list (filters ++ added)
  | .tree relations =>
    let previous := relations.leaves
    let next := previous ++ added
    combine next (revise previous (some relations.guidTree) next)

def add (c : Collection) (f : Filter) : Collection := c.addAll [f]

/-- Removes every filter that has the guid of a given one. -/
def removeAll (c : Collection) (removed : List Filter) : Collection :=
  let keep (f : Filter) : Bool := !removed.any fun r => r.guid == f.guid
  match c with
  | .list filters => .list (filters.filter keep)
  | .tree relations =>
    let previous := relations.leaves
    let next := previous.filter keep
    combine next (revise previous (some relations.guidTree) next)

def remove (c : Collection) (f : Filter) : Collection := c.removeAll [f]

/-- Puts a filter in the place of the one with the guid of `old`. -/
def replace (c : Collection) (old new : Filter) : Collection :=
  let swap (f : Filter) : Filter := if f.guid = old.guid then new else f
  match c with
  | .list filters => .list (filters.map swap)
  | .tree relations =>
    combine (relations.leaves.map swap) (some (relations.guidTree.replace old.guid new.guid))

def find? (c : Collection) (test : Filter → Bool) : Option Filter :=
  match c with
  | .list filters => filters.find? test
  | .tree relations => relations.find? test

theorem find?_eq (c : Collection) (test : Filter → Bool) : c.find? test = c.toList.find? test := by
  cases c with
  | list filters => rfl
  | tree relations => exact Tree.find?_eq test relations

/-- Removes the filters with the given guids one after the other; the first guid that is not there
is returned instead. -/
def removeGuids (c : Collection) : List String → Except String Collection
  | [] => .ok c
  | guid :: guids =>
    match c.find? fun f => f.guid == guid with
    | some f => (c.remove f).removeGuids guids
    | none => .error guid

/-- The guids up to the first that is not there when its turn comes. -/
def removable (c : Collection) : List String → List String
  | [] => []
  | guid :: guids =>
    match c.find? fun f => f.guid == guid with
    | some f => guid :: (c.remove f).removable guids
    | none => []

def same : Collection → Collection → Bool
  | .list filters, .list filters' => sameFilters filters filters'
  | .tree relations, .tree relations' => relations.same Filter.same relations'
  | _, _ => false

end QueryFilter.Collection
