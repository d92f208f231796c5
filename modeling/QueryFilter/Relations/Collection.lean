import QueryFilter.Filter.Basic
import QueryFilter.Relations.Tree

/-! # Collections of filters

Filters that apply together: a plain list, all of which must hold, or a tree of relations. A tree is
taken apart into its filters and the tree of their guids, and put together from them again.
-/

namespace QueryFilter

inductive Collection where
  | list (filters : List Filter)
  | tree (relations : Tree Filter)

def Filter.displayName (f : Filter) : String := (f.column?.map Column.displayName).getD f.dimension

namespace Tree

/-- The tree in words, with parentheses around every node below the root. -/
def describe : Tree Filter → String
  | .leaf f => f.displayName
  | .node c left right => branch left ++ " " ++ c.word ++ " " ++ branch right
where
  branch : Tree Filter → String
    | .leaf f => f.displayName
    | .node c left right => "(" ++ branch left ++ " " ++ c.word ++ " " ++ branch right ++ ")"

def guidTree (t : Tree Filter) : Tree String := t.map Filter.guid

end Tree

namespace Collection

def toList : Collection → List Filter
  | .list filters => filters
  | .tree relations => relations.leaves

def size (c : Collection) : Nat := c.toList.length

def isEmpty (c : Collection) : Bool := c.toList.isEmpty

def isTree : Collection → Bool
  | .list _ => false
  | .tree _ => true

def guids (c : Collection) : List String := c.toList.map Filter.guid

def describe : Collection → String
  | .list filters => " AND ".intercalate (filters.map Filter.displayName)
  | .tree relations => relations.describe

/-- The filter with a guid; of several the last. -/
def lastWith? (guid : String) (filters : List Filter) : Option Filter :=
  filters.reverse.find? fun f => f.guid == guid

def without (guid : String) (filters : List Filter) : List Filter :=
  filters.filter fun f => f.guid != guid

/-- Puts a filter on each leaf and returns the filters that are left over. A leaf without a filter
is dropped, and a filter stands on one leaf only. This is what is built without debug assertions,
one of which is that every leaf has a filter. -/
def place : Tree String → List Filter → Option (Tree Filter) × List Filter
  | .leaf guid, filters => ((lastWith? guid filters).map .leaf, without guid filters)
  | .node c left right, filters =>
    let (left, filters) := place left filters
    let (right, filters) := place right filters
    (Tree.join c left right, filters)

/-- The tree of the filters on the guids, or the plain list where there are no relations. -/
def combine (filters : List Filter) : Option (Tree String) → Collection
  | none => .list filters
  | some guids =>
    match (place guids filters).1 with
    | some relations => .tree relations
    | none => .list []

def appendLeaf (relations : Option (Tree String)) (guid : String) : Tree String :=
  match relations with
  | some root => .node .and root (.leaf guid)
  | none => .leaf guid

/-- The relations after a list of filters has become another: guids that went are dropped, new ones
are joined to the root one by one. -/
def revise (previous : List Filter) (relations : Option (Tree String)) (next : List Filter) :
    Option (Tree String) :=
  let before := previous.map Filter.guid
  let after := next.map Filter.guid
  let kept := relations.bind (Tree.prune fun guid => !before.contains guid || after.contains guid)
  (after.filter fun guid => !before.contains guid).foldl
    (fun relations guid => some (appendLeaf relations guid)) kept

@[simp] theorem combine_none (filters : List Filter) : combine filters none = .list filters := rfl

@[simp] theorem toList_list (filters : List Filter) : (list filters).toList = filters := rfl

@[simp] theorem toList_tree (relations : Tree Filter) :
    (tree relations).toList = relations.leaves := rfl

end Collection

end QueryFilter
