import QueryFilter.Proofs.Relations.Adding
import QueryFilter.Proofs.Relations.Substitution

/-! # Edit sessions

A tree and the list of its leaves go through the same edits. As long as no edit brings in a guid
that is there already, both hold the same filters in the same order after every edit.
-/

namespace QueryFilter.Collection

/-- What a session does to a collection. -/
inductive Edit where
  | add (f : Filter)
  | addAll (added : List Filter)
  | remove (f : Filter)
  | removeAll (removed : List Filter)
  | replace (old new : Filter)

namespace Edit

def apply (c : Collection) : Edit → Collection
  | .add f => c.add f
  | .addAll added => c.addAll added
  | .remove f => c.remove f
  | .removeAll removed => c.removeAll removed
  | .replace old new => c.replace old new

/-- Filters that are added have new guids, each its own; a filter that is put in the place of
another has the guid of that one or a new guid. -/
def Permitted (guids : List String) : Edit → Prop
  | .add f => f.guid ∉ guids
  | .addAll added => (added.map Filter.guid).Nodup ∧ ∀ f ∈ added, f.guid ∉ guids
  | .remove _ => True
  | .removeAll _ => True
  | .replace old new => old.guid ∉ guids ∨ new.guid = old.guid ∨ new.guid ∉ guids

instance (guids : List String) : (e : Edit) → Decidable (e.Permitted guids)
  | .add f => inferInstanceAs (Decidable (f.guid ∉ guids))
  | .addAll added =>
    inferInstanceAs (Decidable ((added.map Filter.guid).Nodup ∧ ∀ f ∈ added, f.guid ∉ guids))
  | .remove _ | .removeAll _ => inferInstanceAs (Decidable True)
  | .replace old new =>
    inferInstanceAs (Decidable (old.guid ∉ guids ∨ new.guid = old.guid ∨ new.guid ∉ guids))

end Edit

/-- The states before, between and after the edits. -/
def states (c : Collection) : List Edit → List Collection
  | [] => [c]
  | e :: edits => c :: states (e.apply c) edits

/-- Every edit is permitted in the state that it meets. -/
def AllPermitted (c : Collection) : List Edit → Prop
  | [] => True
  | e :: edits => e.Permitted c.guids ∧ AllPermitted (e.apply c) edits

instance decidableAllPermitted (c : Collection) :
    (edits : List Edit) → Decidable (AllPermitted c edits)
  | [] => inferInstanceAs (Decidable True)
  | e :: edits =>
    have := decidableAllPermitted (e.apply c) edits
    inferInstanceAs (Decidable (e.Permitted c.guids ∧ AllPermitted (e.apply c) edits))

variable {c : Collection} {e : Edit} {edits : List Edit}

section Step

variable {added : List Filter} {old new : Filter}

theorem addAll_list_toList (hn : c.guids.Nodup) (ha : (added.map Filter.guid).Nodup)
    (hd : ∀ f ∈ added, f.guid ∉ c.guids) :
    (list c.toList).addAll added = list (c.addAll added).toList ∧ (c.addAll added).guids.Nodup := by
  have hn : (c.guids ++ added.map Filter.guid).Nodup := by
    refine List.nodup_append.mpr ⟨hn, ha, ?_⟩
    intro guid hg other ho he
    obtain ⟨f, hf, rfl⟩ := List.mem_map.mp ho
    exact hd f hf (he ▸ hg)
  refine ⟨by rw [toList_addAll hn]; rfl, ?_⟩
  rw [guids, toList_addAll hn, List.map_append]
  exact hn

theorem removeAll_list_toList (hn : c.guids.Nodup) (removed : List Filter) :
    (list c.toList).removeAll removed = list (c.removeAll removed).toList ∧
      (c.removeAll removed).guids.Nodup := by
  refine ⟨by rw [toList_removeAll hn]; rfl, ?_⟩
  rw [guids, toList_removeAll hn]
  exact hn.sublist (List.filter_sublist.map _)

theorem replace_list_toList (hn : c.guids.Nodup)
    (hg : old.guid ∉ c.guids ∨ new.guid = old.guid ∨ new.guid ∉ c.guids) :
    (list c.toList).replace old new = list (c.replace old new).toList ∧
      (c.replace old new).guids.Nodup := by
  refine ⟨by rw [toList_replace hn hg]; rfl, ?_⟩
  rw [guids, toList_replace hn hg, map_guid_replaced]
  exact nodup_map_replaced hn hg

/-- A permitted edit makes of a collection with distinct guids one with distinct guids, and of its
list the list of that one. -/
theorem apply_list_toList (hn : c.guids.Nodup) (hp : e.Permitted c.guids) :
    e.apply (list c.toList) = list (e.apply c).toList ∧ (e.apply c).guids.Nodup := by
  cases e with
  | add f =>
    refine addAll_list_toList hn (List.nodup_singleton _) fun g hg => ?_
    rwa [List.mem_singleton.mp hg]
  | addAll added => exact addAll_list_toList hn hp.1 hp.2
  | remove f => exact removeAll_list_toList hn [f]
  | removeAll removed => exact removeAll_list_toList hn removed
  | replace old new => exact replace_list_toList hn hp

end Step

theorem states_list_toList (hn : c.guids.Nodup) (hp : AllPermitted c edits) :
    states (list c.toList) edits = (states c edits).map fun state => list state.toList := by
  induction edits generalizing c with
  | nil => rfl
  | cons e edits ih =>
    obtain ⟨he, hp⟩ := hp
    obtain ⟨hl, hn⟩ := apply_list_toList hn he
    rw [states, hl, ih hn hp]
    rfl

/-- A tree with distinct guids and the list of its leaves hold the same filters in the same order
throughout a session. -/
theorem toList_states_tree (t : Tree Filter) (hn : (t.leaves.map Filter.guid).Nodup)
    (edits : List Edit) (hp : AllPermitted (tree t) edits) :
    (states (tree t) edits).map toList = (states (list t.leaves) edits).map toList := by
  have hs : states (list t.leaves) edits =
      (states (tree t) edits).map fun state => list state.toList :=
    states_list_toList (c := tree t) hn hp
  rw [hs, List.map_map]
  rfl

theorem toList_states_tree_emptied :
    let column : Column := { expression := "[T.A]", title := "A", datatype := .text }
    let named (guid : String) : Filter := .ofKind (.members column ["x"]) guid
    let t : Tree Filter := .node .or (.leaf (named "a")) (.leaf (named "b"))
    let edits : List Edit :=
      [.add (named "c"), .remove (named "a"), .replace (named "b") (named "z"),
        .removeAll [named "c", named "z"], .addAll [named "b", named "a"]]
    (t.leaves.map Filter.guid).Nodup ∧ AllPermitted (tree t) edits ∧
      (states (tree t) edits).map toList = (states (list t.leaves) edits).map toList := by
  intro column named t edits
  have hn : (t.leaves.map Filter.guid).Nodup := by decide
  have hp : AllPermitted (tree t) edits := by decide
  exact ⟨hn, hp, toList_states_tree t hn edits hp⟩

end QueryFilter.Collection
