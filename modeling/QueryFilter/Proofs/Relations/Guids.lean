import Mathlib.Data.Finset.Basic
import Mathlib.Data.Finset.Lattice.Lemmas
import QueryFilter.Proofs.Relations.Sessions

/-! # Guids of edited collections

Every edit puts a tree together anew, from a list of filters and a tree of guids that may both
repeat guids. The result has every guid of the list on exactly one leaf. So whatever a tree is like
before an edit, its guids are distinct afterwards, and which they are follows from the edit alone.
-/

namespace QueryFilter

theorem Tree.leaves_ne_nil {α : Type} (t : Tree α) : t.leaves ≠ [] := by
  induction t with
  | leaf a => simp
  | node c left right ihl ihr => simp [ihl]

namespace Collection

variable {filters next : List Filter} {relations : Option (Tree String)} {c : Collection}
  {guid : String}

section Gathering

/-- The guids that are placed: of those on the tree each that is known, where it stands first. -/
theorem map_guid_place (guids : Tree String) (filters : List Filter) :
    (((place guids filters).1.map Tree.leaves).getD []).map Filter.guid =
      firstOccurrences
        (guids.leaves.filter fun guid => (filters.map Filter.guid).contains guid) := by
  induction guids generalizing filters with
  | leaf guid =>
    rw [place_leaf, Tree.leaves_leaf]
    cases h : lastWith? guid filters with
    | none =>
      have hk := lastWith?_eq_none_iff.mp h
      rw [List.filter_cons_of_neg (by simpa using hk)]
      rfl
    | some f =>
      obtain rfl := guid_of_lastWith? h
      have hk : f.guid ∈ filters.map Filter.guid := List.mem_map_of_mem (mem_of_lastWith? h)
      rw [List.filter_cons_of_pos (List.contains_iff_mem.mpr hk)]
      rfl
  | node c left right ihl ihr =>
    rw [place_node, Tree.leaves_join, List.map_append, ihl, ihr, Tree.leaves_node,
      List.filter_append, firstOccurrences_append, List.filter_filter]
    congr 2
    refine List.filter_congr fun guid _ => ?_
    rw [Bool.eq_iff_iff, List.contains_iff_mem, Bool.and_eq_true, Bool.not_eq_true',
      ← Bool.not_eq_true, List.contains_iff_mem, List.contains_iff_mem, List.mem_filter,
      List.contains_iff_mem]
    simp only [remaining, List.mem_map, List.mem_filter, Bool.not_eq_true', ← Bool.not_eq_true,
      List.contains_iff_mem]
    constructor
    · rintro ⟨f, ⟨hf, hn⟩, rfl⟩
      exact ⟨fun h => hn h.1, f, hf, rfl⟩
    · rintro ⟨hn, f, hf, rfl⟩
      exact ⟨f, ⟨hf, fun h => hn ⟨h, f, hf, rfl⟩⟩, rfl⟩

/-- The collection is a tree with every guid of the filters on exactly one leaf, or the empty list
if there are no filters. -/
structure Gathers (filters : List Filter) (c : Collection) : Prop where
  isTree_or_eq : c.isTree ∨ c = list []
  nodup : c.guids.Nodup
  mem_iff : ∀ guid, guid ∈ c.guids ↔ guid ∈ filters.map Filter.guid

theorem guids_tree_ne_nil (t : Tree Filter) : (tree t).guids ≠ [] := by
  rw [guids, toList_tree, Ne, List.map_eq_nil_iff]
  exact t.leaves_ne_nil

theorem Gathers.eq_list_nil_iff (h : Gathers filters c) : c = list [] ↔ filters = [] := by
  constructor
  · rintro rfl
    rw [List.eq_nil_iff_forall_not_mem]
    intro f hf
    exact List.not_mem_nil ((h.mem_iff f.guid).mpr (List.mem_map_of_mem hf))
  · rintro rfl
    rcases h.isTree_or_eq with ht | he
    · cases c with
      | list => cases ht
      | tree t =>
        obtain ⟨guid, hg⟩ := List.exists_mem_of_ne_nil _ (guids_tree_ne_nil t)
        exact absurd ((h.mem_iff guid).mp hg) List.not_mem_nil
    · exact he

/-- Relations that mention just the guids of the filters gather them, even if guids are repeated. -/
theorem gathers_combine
    (h : ∀ guid, guid ∈ (relations.map Tree.leaves).getD [] ↔ guid ∈ filters.map Filter.guid) :
    Gathers filters (combine filters relations) := by
  cases relations with
  | none =>
    have he : filters = [] := by
      rw [List.eq_nil_iff_forall_not_mem]
      intro f hf
      exact List.not_mem_nil ((h f.guid).mpr (List.mem_map_of_mem hf))
    subst he
    exact ⟨.inr rfl, .nil, fun guid => Iff.rfl⟩
  | some guids =>
    have h : ∀ guid, guid ∈ guids.leaves ↔ guid ∈ filters.map Filter.guid := h
    have hg : (combine filters (some guids)).guids = firstOccurrences guids.leaves := by
      have hp := map_guid_place guids filters
      rw [List.filter_eq_self.mpr fun guid hg => List.contains_iff_mem.mpr ((h guid).mp hg)] at hp
      rw [← hp, combine]
      cases (place guids filters).1 <;> rfl
    refine ⟨?_, hg ▸ nodup_firstOccurrences, fun guid => ?_⟩
    · rw [combine]
      cases (place guids filters).1 with
      | none => exact .inr rfl
      | some t => exact .inl rfl
    · rw [hg, mem_firstOccurrences, h]

theorem gathers_revise (t : Tree Filter) (next : List Filter) :
    Gathers next (combine next (revise t.leaves (some t.guidTree) next)) := by
  refine gathers_combine fun guid => ?_
  rw [leaves_revise, leaves_guidTree, List.mem_append, List.mem_filter, List.mem_filter]
  by_cases ht : guid ∈ t.leaves.map Filter.guid
  · simp [ht]
  · simp [ht]

theorem gathers_addAll (t : Tree Filter) (added : List Filter) :
    Gathers (t.leaves ++ added) ((tree t).addAll added) :=
  gathers_revise t _

theorem gathers_removeAll (t : Tree Filter) (removed : List Filter) :
    Gathers (t.leaves.filter fun f => !removed.any fun r => r.guid == f.guid)
      ((tree t).removeAll removed) :=
  gathers_revise t _

theorem gathers_replace (t : Tree Filter) (old new : Filter) :
    Gathers (t.leaves.map fun f => if f.guid = old.guid then new else f)
      ((tree t).replace old new) := by
  rw [replace]
  refine gathers_combine fun guid => ?_
  rw [map_guid_replaced, Option.map_some, Option.getD_some, Tree.replace, Tree.leaves_map,
    leaves_guidTree]

end Gathering

section Sets

variable {edits : List Edit} {state : Collection}

def guidSet (c : Collection) : Finset String := c.guids.toFinset

theorem mem_guidSet_iff : guid ∈ c.guidSet ↔ guid ∈ c.guids := List.mem_toFinset

/-- The guids of a collection after an edit, from those before. A replacement of a filter that is
not there is none. -/
def Edit.guidsAfter (before : Finset String) : Edit → Finset String
  | .add f => insert f.guid before
  | .addAll added => before ∪ (added.map Filter.guid).toFinset
  | .remove f => before.erase f.guid
  | .removeAll removed => before \ (removed.map Filter.guid).toFinset
  | .replace old new =>
    if old.guid ∈ before then insert new.guid (before.erase old.guid) else before

theorem Gathers.guidSet_eq (h : Gathers filters c) :
    c.guidSet = (filters.map Filter.guid).toFinset := by
  ext guid
  rw [mem_guidSet_iff, h.mem_iff, List.mem_toFinset]

theorem Gathers.eq_list_nil_iff_guidSet (h : Gathers filters c) :
    c = list [] ↔ c.guidSet = ∅ := by
  rw [h.eq_list_nil_iff, h.guidSet_eq, List.toFinset_eq_empty_iff, List.map_eq_nil_iff]

theorem guidSet_addAll (t : Tree Filter) (added : List Filter) :
    ((tree t).addAll added).guidSet = (tree t).guidSet ∪ (added.map Filter.guid).toFinset := by
  rw [(gathers_addAll t added).guidSet_eq, List.map_append, List.toFinset_append]
  rfl

theorem guidSet_removeAll (t : Tree Filter) (removed : List Filter) :
    ((tree t).removeAll removed).guidSet =
      (tree t).guidSet \ (removed.map Filter.guid).toFinset := by
  ext guid
  rw [(gathers_removeAll t removed).guidSet_eq, List.mem_toFinset, Finset.mem_sdiff,
    mem_guidSet_iff, List.mem_toFinset, guids, toList_tree]
  simp only [List.mem_map, List.mem_filter, Bool.not_eq_true', List.any_eq_false, beq_iff_eq]
  constructor
  · rintro ⟨f, ⟨hf, hr⟩, rfl⟩
    refine ⟨⟨f, hf, rfl⟩, ?_⟩
    rintro ⟨r, hm, he⟩
    exact hr r hm he
  · rintro ⟨⟨f, hf, rfl⟩, hr⟩
    exact ⟨f, ⟨hf, fun r hm he => hr ⟨r, hm, he⟩⟩, rfl⟩

theorem guidSet_replace (t : Tree Filter) (old new : Filter) :
    ((tree t).replace old new).guidSet = (Edit.replace old new).guidsAfter (tree t).guidSet := by
  ext guid
  rw [(gathers_replace t old new).guidSet_eq, List.mem_toFinset, map_guid_replaced, List.mem_map,
    Edit.guidsAfter]
  have hm : ∀ guid, guid ∈ (tree t).guidSet ↔ guid ∈ t.leaves.map Filter.guid :=
    fun guid => mem_guidSet_iff
  split
  · next ho =>
    rw [Finset.mem_insert, Finset.mem_erase, hm]
    constructor
    · rintro ⟨other, ho, rfl⟩
      split
      · exact .inl rfl
      · next hne => exact .inr ⟨hne, ho⟩
    · rintro (rfl | ⟨hne, hg⟩)
      · exact ⟨old.guid, (hm _).mp ho, if_pos rfl⟩
      · exact ⟨guid, hg, if_neg hne⟩
  · next ho =>
    rw [hm] at ho ⊢
    constructor
    · rintro ⟨other, hg, rfl⟩
      rwa [if_neg (by rintro rfl; exact ho hg)]
    · intro hg
      exact ⟨guid, hg, if_neg (by rintro rfl; exact ho hg)⟩

theorem exists_gathers_apply (t : Tree Filter) (e : Edit) :
    ∃ next, Gathers next (e.apply (tree t)) := by
  cases e with
  | add f => exact ⟨_, gathers_addAll t [f]⟩
  | addAll added => exact ⟨_, gathers_addAll t added⟩
  | remove f => exact ⟨_, gathers_removeAll t [f]⟩
  | removeAll removed => exact ⟨_, gathers_removeAll t removed⟩
  | replace old new => exact ⟨_, gathers_replace t old new⟩

theorem guidSet_apply (t : Tree Filter) (e : Edit) :
    (e.apply (tree t)).guidSet = e.guidsAfter (tree t).guidSet := by
  cases e with
  | add f =>
    rw [Edit.apply, add, guidSet_addAll, Edit.guidsAfter, Finset.insert_eq, Finset.union_comm]
    rfl
  | addAll added => exact guidSet_addAll t added
  | remove f =>
    rw [Edit.apply, remove, guidSet_removeAll, Edit.guidsAfter, Finset.erase_eq]
    rfl
  | removeAll removed => exact guidSet_removeAll t removed
  | replace old new => exact guidSet_replace t old new

theorem isTree_apply_list (filters : List Filter) (e : Edit) :
    (e.apply (list filters)).isTree = false := by
  cases e <;> rfl

theorem nodup_guids_apply (e : Edit) (ht : (e.apply c).isTree) : (e.apply c).guids.Nodup := by
  cases c with
  | list filters =>
    rw [isTree_apply_list] at ht
    cases ht
  | tree t =>
    obtain ⟨next, h⟩ := exists_gathers_apply t e
    exact h.nodup

theorem nodup_guids_of_mem_states (hc : c.isTree → c.guids.Nodup) (hs : state ∈ states c edits)
    (ht : state.isTree) : state.guids.Nodup := by
  induction edits generalizing c with
  | nil =>
    obtain rfl := List.mem_singleton.mp hs
    exact hc ht
  | cons e edits ih =>
    rcases List.mem_cons.mp hs with rfl | hs
    · exact hc ht
    · exact ih (nodup_guids_apply e) hs

end Sets

end Collection

end QueryFilter
