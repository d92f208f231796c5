import Mathlib.Data.List.Induction
import QueryFilter.Proofs.Relations.Placing
import QueryFilter.Relations.Edit

/-! # Relations after an edit

A tree is edited by way of its guids: the relations are revised, and the filters are placed on them
again. Relations between filters that stay are kept, and each new guid is joined to the root once.
-/

namespace QueryFilter

namespace Tree

variable {α β : Type}

/-- The tree with leaves joined to its root from the right, one after the other. -/
def appendLeaves (t : Tree α) (added : List α) : Tree α :=
  added.foldl (fun t a => .node .and t (.leaf a)) t

@[simp] theorem leaves_appendLeaves (t : Tree α) (added : List α) :
    (t.appendLeaves added).leaves = t.leaves ++ added := by
  induction added generalizing t with
  | nil => simp [appendLeaves]
  | cons a added ih =>
    have h := ih (.node .and t (.leaf a))
    rwa [leaves_node, leaves_leaf, List.append_assoc, List.singleton_append] at h

theorem map_appendLeaves (f : α → β) (t : Tree α) (added : List α) :
    (t.appendLeaves added).map f = (t.map f).appendLeaves (added.map f) := by
  induction added generalizing t with
  | nil => rfl
  | cons a added ih => exact ih (.node .and t (.leaf a))

theorem appendLeaves_concat (t : Tree α) (added : List α) (a : α) :
    t.appendLeaves (added ++ [a]) = .node .and (t.appendLeaves added) (.leaf a) :=
  List.foldl_append ..

theorem join_none (c : Connective) (left : Option (Tree α)) : join c left none = left := by
  cases left <;> rfl

end Tree

namespace Collection

variable {previous next : List Filter}

section Revise

theorem foldl_appendLeaf (t : Tree String) (guids : List String) :
    guids.foldl (fun relations guid => some (appendLeaf relations guid)) (some t) =
      some (t.appendLeaves guids) := by
  induction guids generalizing t with
  | nil => rfl
  | cons guid guids ih => exact ih _

theorem leaves_foldl_appendLeaf (relations : Option (Tree String)) (guids : List String) :
    ((guids.foldl (fun relations guid => some (appendLeaf relations guid)) relations).map
        Tree.leaves).getD [] = (relations.map Tree.leaves).getD [] ++ guids := by
  cases relations with
  | some t => rw [foldl_appendLeaf]; simp
  | none =>
    cases guids with
    | nil => rfl
    | cons guid guids => rw [List.foldl_cons, foldl_appendLeaf]; simp [appendLeaf]

theorem leaves_revise (previous : List Filter) (guids : Tree String) (next : List Filter) :
    ((revise previous (some guids) next).map Tree.leaves).getD [] =
      (guids.leaves.filter fun guid =>
          !(previous.map Filter.guid).contains guid || (next.map Filter.guid).contains guid) ++
        (next.map Filter.guid).filter fun guid => !(previous.map Filter.guid).contains guid := by
  rw [revise, leaves_foldl_appendLeaf, Option.bind_some, Tree.leaves_prune]

/-- Where no guid of the relations goes, only new leaves are joined to them. -/
theorem revise_of_subset {guids : Tree String}
    (h : ∀ guid ∈ guids.leaves, guid ∈ next.map Filter.guid) :
    revise previous (some guids) next = some (guids.appendLeaves
      ((next.map Filter.guid).filter fun guid => !(previous.map Filter.guid).contains guid)) := by
  rw [revise, Option.bind_some, Tree.prune_eq_some_self, foldl_appendLeaf]
  intro guid hg
  rw [List.contains_iff_mem.mpr (h guid hg), Bool.or_true]

end Revise

theorem place_node_leaf (c : Connective) (t : Tree String) (guid : String) (filters : List Filter) :
    (place (.node c t (.leaf guid)) filters).1 = Tree.join c (place t filters).1
      (if guid ∈ t.leaves then none else (lastWith? guid filters).map .leaf) := by
  rw [place_node, place_leaf, lastWith?_remaining]
  split <;> rfl

theorem place_appendLeaves (t : Tree String) (guids : List String) (filters : List Filter) :
    (place (t.appendLeaves guids) filters).1 =
      (place (t.appendLeaves (firstOccurrences guids)) filters).1 := by
  induction guids using List.reverseRecOn with
  | nil => rfl
  | append_singleton guids guid ih =>
    rw [Tree.appendLeaves_concat, place_node_leaf, ih, firstOccurrences_concat]
    by_cases h : guid ∈ guids
    · rw [if_pos h, if_pos (by simp [h]), Tree.join_none]
    · rw [if_neg h, Tree.appendLeaves_concat, place_node_leaf]
      simp only [Tree.leaves_appendLeaves, List.mem_append, mem_firstOccurrences]

section Joining

variable {guids : Tree String} {names : List String}

theorem nodup_leaves_appendLeaves (hn : guids.leaves.Nodup) :
    (guids.appendLeaves (firstOccurrences (names.filter fun name =>
      !guids.leaves.contains name))).leaves.Nodup := by
  rw [Tree.leaves_appendLeaves, List.nodup_append]
  refine ⟨hn, nodup_firstOccurrences, ?_⟩
  rintro guid hg _ hu rfl
  simpa [hg] using (List.mem_filter.mp (mem_firstOccurrences.mp hu)).2

/-- Relations of filters that are there and distinct are kept, and every filter that they do not
mention is joined to the root, once for its guid. -/
theorem exists_placed_revise (hn : guids.leaves.Nodup)
    (hk : ∀ guid ∈ guids.leaves, guid ∈ next.map Filter.guid)
    (hp : ∀ guid ∈ next.map Filter.guid, guid ∈ previous.map Filter.guid ↔ guid ∈ guids.leaves) :
    ∃ t, combine next (revise previous (some guids) next) = tree t ∧
      Placed next (guids.appendLeaves (firstOccurrences ((next.map Filter.guid).filter fun guid =>
        !guids.leaves.contains guid))) t := by
  have hnew : ((next.map Filter.guid).filter fun guid =>
      !(previous.map Filter.guid).contains guid) =
        (next.map Filter.guid).filter fun guid => !guids.leaves.contains guid := by
    refine List.filter_congr fun guid hg => ?_
    rw [Bool.not_inj_iff, Bool.eq_iff_iff, List.contains_iff_mem, List.contains_iff_mem, hp guid hg]
  obtain ⟨t, ht, hplaced⟩ := exists_placed (nodup_leaves_appendLeaves hn) fun guid hg => by
    rw [Tree.leaves_appendLeaves, List.mem_append, mem_firstOccurrences, List.mem_filter] at hg
    exact hg.elim (hk guid) And.left
  refine ⟨t, ?_, hplaced⟩
  rw [← place_appendLeaves] at ht
  rw [revise_of_subset hk, hnew, combine_of_placed ht]

end Joining

theorem leaves_guidTree (t : Tree Filter) : t.guidTree.leaves = t.leaves.map Filter.guid :=
  Tree.leaves_map ..

theorem map_guid_replaced (filters : List Filter) (old new : Filter) :
    (filters.map fun f => if f.guid = old.guid then new else f).map Filter.guid =
      (filters.map Filter.guid).map fun guid => if guid = old.guid then new.guid else guid := by
  rw [List.map_map, List.map_map]
  exact List.map_congr_left fun f _ => by dsimp only [Function.comp]; split <;> rfl

end Collection

end QueryFilter
