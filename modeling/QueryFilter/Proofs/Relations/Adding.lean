import QueryFilter.Proofs.Relations.Keeping

/-! # Filters added to a tree

A filter with a guid of the tree takes the place of the leaf that has it, and one with a new guid is
joined to the root; of several with one guid the last counts. Main statement: what a tree is after
an addition.
-/

namespace QueryFilter

namespace Tree

theorem guidTree_appendLeaves (t : Tree Filter) (added : List Filter) :
    (t.appendLeaves added).guidTree = t.guidTree.appendLeaves (added.map Filter.guid) :=
  map_appendLeaves ..

end Tree

namespace Collection

variable {t : Tree Filter} {f : Filter} {guid : String} {filters added : List Filter}

theorem lastWith?_append (guid : String) (filters added : List Filter) :
    lastWith? guid (filters ++ added) = (lastWith? guid added).or (lastWith? guid filters) := by
  rw [lastWith?, List.reverse_append, List.find?_append]
  rfl

/-- The filter added last with the guid of `f`, or `f` itself where none has it. -/
def renewed (added : List Filter) (f : Filter) : Filter := (lastWith? f.guid added).getD f

/-- The guids that the tree does not have, in the order in which they first appear. -/
def newGuids (t : Tree Filter) (added : List Filter) : List String :=
  firstOccurrences
    ((added.map Filter.guid).filter fun guid => !(t.leaves.map Filter.guid).contains guid)

/-- For each new guid the filter added last with it. -/
def newcomers (t : Tree Filter) (added : List Filter) : List Filter :=
  (newGuids t added).filterMap fun guid => lastWith? guid added

theorem guid_renewed (added : List Filter) (f : Filter) : (renewed added f).guid = f.guid := by
  rw [renewed]
  cases h : lastWith? f.guid added with
  | none => rfl
  | some g => exact guid_of_lastWith? h

theorem renewed_of_not_mem (h : f.guid ∉ added.map Filter.guid) : renewed added f = f := by
  rw [renewed, lastWith?_eq_none_iff.mpr h, Option.getD_none]

theorem mem_newGuids_iff :
    guid ∈ newGuids t added ↔
      guid ∈ added.map Filter.guid ∧ guid ∉ t.leaves.map Filter.guid := by
  rw [newGuids, mem_firstOccurrences, List.mem_filter, Bool.not_eq_true', ← Bool.not_eq_true,
    List.contains_iff_mem]

theorem mem_newcomers_iff :
    f ∈ newcomers t added ↔ f.guid ∈ newGuids t added ∧ lastWith? f.guid added = some f := by
  rw [newcomers, List.mem_filterMap]
  constructor
  · rintro ⟨guid, hg, hf⟩
    obtain rfl := guid_of_lastWith? hf
    exact ⟨hg, hf⟩
  · rintro ⟨hg, hf⟩
    exact ⟨f.guid, hg, hf⟩

theorem map_guid_filterMap_lastWith? {guids : List String}
    (h : ∀ guid ∈ guids, guid ∈ filters.map Filter.guid) :
    (guids.filterMap fun guid => lastWith? guid filters).map Filter.guid = guids := by
  induction guids with
  | nil => rfl
  | cons guid guids ih =>
    obtain ⟨hg, h⟩ := List.forall_mem_cons.mp h
    obtain ⟨f, hf⟩ := exists_lastWith? hg
    have hc := List.filterMap_cons_some (f := fun guid => lastWith? guid filters) (l := guids) hf
    rw [hc, List.map_cons, guid_of_lastWith? hf, ih h]

theorem map_guid_newcomers (t : Tree Filter) (added : List Filter) :
    (newcomers t added).map Filter.guid = newGuids t added :=
  map_guid_filterMap_lastWith? fun _ hg => (mem_newGuids_iff.mp hg).1

theorem firstOccurrences_new (t : Tree Filter) (added : List Filter) :
    firstOccurrences (((t.leaves ++ added).map Filter.guid).filter fun guid =>
      !t.guidTree.leaves.contains guid) = newGuids t added := by
  rw [leaves_guidTree, List.map_append, filter_append_new, newGuids]

theorem placed_renewed (hn : (t.leaves.map Filter.guid).Nodup) (added : List Filter) :
    Placed (t.leaves ++ added) (t.guidTree.appendLeaves (newGuids t added))
      ((t.map (renewed added)).appendLeaves (newcomers t added)) where
  guidTree_eq := by
    rw [Tree.guidTree_appendLeaves, Tree.guidTree_map (guid_renewed added), map_guid_newcomers]
  lastWith?_eq := by
    intro g hg
    rw [Tree.leaves_appendLeaves, Tree.leaves_map, List.mem_append] at hg
    rw [lastWith?_append]
    rcases hg with hg | hg
    · obtain ⟨f, hf, rfl⟩ := List.mem_map.mp hg
      rw [guid_renewed, renewed]
      cases lastWith? f.guid added with
      | none => exact lastWith?_of_nodup hn hf
      | some g => rfl
    · rw [(mem_newcomers_iff.mp hg).2, Option.some_or]

/-- Adding filters to a tree renews the leaves whose guids are added, in their places, and joins the
filters with new guids to the root, one after the other in the order of their first appearance. -/
theorem addAll_tree (hn : (t.leaves.map Filter.guid).Nodup) (added : List Filter) :
    (tree t).addAll added =
      tree ((t.map (renewed added)).appendLeaves (newcomers t added)) := by
  have hl := leaves_guidTree t
  have hk : ∀ guid ∈ t.guidTree.leaves, guid ∈ (t.leaves ++ added).map Filter.guid := by
    intro guid hg
    rw [List.map_append, ← hl]
    exact List.mem_append_left _ hg
  have hprevious : ∀ guid ∈ (t.leaves ++ added).map Filter.guid,
      guid ∈ t.leaves.map Filter.guid ↔ guid ∈ t.guidTree.leaves := by
    intro guid _
    rw [hl]
  obtain ⟨u, hu, hp⟩ := exists_placed_revise (hl ▸ hn) hk hprevious
  rw [firstOccurrences_new] at hp
  rw [addAll, hu, hp.unique (placed_renewed hn added)]

theorem addAll_tree_of_new (hn : (t.leaves.map Filter.guid).Nodup)
    (ha : (added.map Filter.guid).Nodup) (hd : ∀ f ∈ added, f.guid ∉ t.leaves.map Filter.guid) :
    (tree t).addAll added = tree (t.appendLeaves added) := by
  have hrenewed : t.map (renewed added) = t := by
    refine Tree.map_eq_self fun f hf => renewed_of_not_mem fun h => ?_
    obtain ⟨g, hg, he⟩ := List.mem_map.mp h
    exact hd g hg (he ▸ List.mem_map_of_mem hf)
  have hguids : (newcomers t added).map Filter.guid = added.map Filter.guid := by
    rw [map_guid_newcomers, newGuids, List.filter_eq_self.mpr, firstOccurrences_eq_self ha]
    intro guid hm
    obtain ⟨g, hg, rfl⟩ := List.mem_map.mp hm
    rw [List.contains_eq_mem, decide_eq_false (hd g hg), Bool.not_false]
  have hnew : newcomers t added = added :=
    eq_of_map_eq_of_nodup hguids ha fun f hf => mem_of_lastWith? (mem_newcomers_iff.mp hf).2
  rw [addAll_tree hn, hrenewed, hnew]

theorem toList_addAll {c : Collection} (hn : (c.guids ++ added.map Filter.guid).Nodup) :
    (c.addAll added).toList = c.toList ++ added := by
  cases c with
  | list filters => rfl
  | tree t =>
    obtain ⟨hn, ha, hd⟩ := List.nodup_append.mp hn
    rw [addAll_tree_of_new hn ha fun f hf hm => hd _ hm _ (List.mem_map_of_mem hf) rfl,
      toList_tree, Tree.leaves_appendLeaves, toList_tree]

/-- The filter is in the list, and none behind it has its guid. -/
def IsLast (filters : List Filter) (f : Filter) : Prop :=
  ∃ before after, filters = before ++ f :: after ∧ ∀ other ∈ after, other.guid ≠ f.guid

theorem isLast_of_lastWith? (h : lastWith? guid filters = some f) : IsLast filters f := by
  obtain ⟨rfl, h⟩ := lastWith?_eq_some_iff.mp h
  exact h

theorem isLast_renewed (h : f.guid ∈ added.map Filter.guid) : IsLast added (renewed added f) := by
  obtain ⟨g, hg⟩ := exists_lastWith? h
  rw [renewed, hg]
  exact isLast_of_lastWith? hg

/-- Adding filters to a tree puts each whose guid a leaf has on that leaf, and joins the others to
the root, one after the other in the order in which their guids first appear. Of several filters
with one guid it is the last that is added; nothing else changes. -/
theorem addAll_renews_and_joins (t : Tree Filter) (hn : (t.leaves.map Filter.guid).Nodup)
    (added : List Filter) :
    (tree t).addAll added =
      tree ((t.map (renewed added)).appendLeaves (newcomers t added)) ∧
    (∀ f, (renewed added f).guid = f.guid ∧
      (f.guid ∈ added.map Filter.guid → IsLast added (renewed added f)) ∧
      (f.guid ∉ added.map Filter.guid → renewed added f = f)) ∧
    (newcomers t added).map Filter.guid = newGuids t added ∧
    ∀ f ∈ newcomers t added, IsLast added f := by
  refine ⟨addAll_tree hn added, ?_, map_guid_newcomers t added, ?_⟩
  · intro f
    exact ⟨guid_renewed added f, isLast_renewed, renewed_of_not_mem⟩
  · intro f hf
    exact isLast_of_lastWith? (mem_newcomers_iff.mp hf).2

theorem addAll_renews_and_joins_repeated :
    let named (guid value : String) : Filter := .ofKind (.custom value .null) guid
    let t : Tree Filter := .node .or (.leaf (named "a" "1")) (.leaf (named "b" "2"))
    let added := [named "z" "3", named "a" "4", named "y" "5", named "z" "6", named "a" "7"]
    let t' : Tree Filter := .node .or (.leaf (named "a" "7")) (.leaf (named "b" "2"))
    (t.leaves.map Filter.guid).Nodup ∧
      (tree t).addAll added =
        tree (.node .and (.node .and t' (.leaf (named "z" "6"))) (.leaf (named "y" "5"))) ∧
      IsLast added (named "a" "7") ∧ IsLast added (named "z" "6") := by
  intro named t added t'
  have hn : (t.leaves.map Filter.guid).Nodup := by decide
  obtain ⟨ht, hrenewed, -, hnew⟩ := addAll_renews_and_joins t hn added
  exact ⟨hn, ht, (hrenewed (named "a" "1")).2.1 (by decide), hnew (named "z" "6") (.head _)⟩

end Collection

end QueryFilter
