import QueryFilter.Operator

/-! # Relation trees

Leaves joined by connectives. A tree of filters and the tree of their guids have one shape. Dropping
leaves puts a sibling in the place of the node that lost the other.
-/

namespace QueryFilter

inductive Tree (α : Type) where
  | leaf (value : α)
  | node (connective : Connective) (left right : Tree α)
deriving DecidableEq, Inhabited

namespace Tree

variable {α β : Type}

def leaves : Tree α → List α
  | .leaf a => [a]
  | .node _ left right => left.leaves ++ right.leaves

def map (f : α → β) : Tree α → Tree β
  | .leaf a => .leaf (f a)
  | .node c left right => .node c (left.map f) (right.map f)

/-- The node over two branches, or the branch that is there. -/
def join (c : Connective) : Option (Tree α) → Option (Tree α) → Option (Tree α)
  | some left, some right => some (.node c left right)
  | some left, none => some left
  | none, right => right

/-- The tree of the leaves to keep. -/
def prune (keep : α → Bool) : Tree α → Option (Tree α)
  | .leaf a => if keep a then some (.leaf a) else none
  | .node c left right => join c (left.prune keep) (right.prune keep)

def find? (test : α → Bool) : Tree α → Option α
  | .leaf a => if test a then some a else none
  | .node _ left right => (left.find? test).or (right.find? test)

def replace [DecidableEq α] (old new : α) (t : Tree α) : Tree α :=
  t.map fun a => if a = old then new else a

def same (eq : α → α → Bool) : Tree α → Tree α → Bool
  | .leaf a, .leaf b => eq a b
  | .node c left right, .node c' left' right' =>
    c == c' && left.same eq left' && right.same eq right'
  | _, _ => false

@[simp] theorem leaves_leaf (a : α) : (leaf a).leaves = [a] := rfl

@[simp] theorem leaves_node (c : Connective) (left right : Tree α) :
    (node c left right).leaves = left.leaves ++ right.leaves := rfl

@[simp] theorem leaves_map (f : α → β) (t : Tree α) : (t.map f).leaves = t.leaves.map f := by
  induction t with
  | leaf a => rfl
  | node c left right ihl ihr => simp [map, ihl, ihr]

theorem find?_eq (test : α → Bool) (t : Tree α) : t.find? test = t.leaves.find? test := by
  induction t with
  | leaf a => simp [find?, List.find?_singleton]
  | node c left right ihl ihr => simp [find?, ihl, ihr, List.find?_append]

theorem leaves_join (c : Connective) (left right : Option (Tree α)) :
    ((join c left right).map leaves).getD [] =
      (left.map leaves).getD [] ++ (right.map leaves).getD [] := by
  cases left <;> cases right <;> simp [join]

theorem leaves_prune (keep : α → Bool) (t : Tree α) :
    ((t.prune keep).map leaves).getD [] = t.leaves.filter keep := by
  induction t with
  | leaf a => by_cases h : keep a <;> simp [prune, h]
  | node c left right ihl ihr => simp [prune, leaves_join, ihl, ihr]

theorem prune_eq_none_iff {keep : α → Bool} {t : Tree α} :
    t.prune keep = none ↔ ∀ a ∈ t.leaves, keep a = false := by
  induction t with
  | leaf a => simp [prune]
  | node c left right ihl ihr =>
    simp only [leaves_node, List.mem_append]
    refine ⟨fun h => ?_, fun h => ?_⟩
    · have hl : left.prune keep = none := by
        cases hl : left.prune keep <;> cases hr : right.prune keep <;> simp_all [prune, join]
      have hr : right.prune keep = none := by simpa [prune, hl, join] using h
      exact fun a ha => ha.elim (ihl.mp hl a) (ihr.mp hr a)
    · simp [prune, ihl.mpr fun a ha => h a (.inl ha), ihr.mpr fun a ha => h a (.inr ha), join]

end Tree

end QueryFilter
