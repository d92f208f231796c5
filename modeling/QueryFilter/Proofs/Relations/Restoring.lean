import QueryFilter.Proofs.Relations.Adding
import QueryFilter.Proofs.Relations.Guids

/-! # Additions taken back

What is added to a collection leaves no trace when it is removed again. Main statement: removing
what was added gives back the collection, whether both are done at once or filter by filter.
-/

namespace QueryFilter

namespace Tree

variable {α : Type} {t : Tree α} {added : List α} {p : α → Bool} {f : α → α}

theorem map_prune_eq_self (h : ∀ a ∈ t.leaves, p a → f a = a) :
    (t.prune p).map (map f) = t.prune p := by
  induction t with
  | leaf a =>
    rw [prune]
    split
    · next ha => rw [Option.map_some, map, h a (by simp) ha]
    · rfl
  | node c left right ihl ihr =>
    rw [prune, map_join, ihl fun a ha => h a (List.mem_append_left _ ha),
      ihr fun a ha => h a (List.mem_append_right _ ha)]

theorem prune_appendLeaves (h : ∀ a ∈ added, p a = false) :
    (t.appendLeaves added).prune p = t.prune p := by
  induction added generalizing t with
  | nil => rfl
  | cons a added ih =>
    obtain ⟨ha, h⟩ := List.forall_mem_cons.mp h
    calc (t.appendLeaves (a :: added)).prune p
      _ = (node .and t (.leaf a)).prune p := ih h
      _ = join .and (t.prune p) none := by rw [prune, prune, ha, if_neg Bool.false_ne_true]
      _ = t.prune p := join_none ..

end Tree

namespace Collection

variable {c : Collection} {f : Filter} {added removed : List Filter} {p : Filter → Bool}

theorem keep_addAll (hc : c.isTree → c.guids.Nodup)
    (h : ∀ f : Filter, f.guid ∈ added.map Filter.guid → p f = false) :
    (c.addAll added).keep p = c.keep p := by
  cases c with
  | list filters =>
    have hnil : added.filter p = [] := by
      rw [List.filter_eq_nil_iff]
      intro f hf
      rw [h f (List.mem_map_of_mem hf)]
      exact Bool.false_ne_true
    refine congrArg list ?_
    rw [List.filter_append, hnil, List.append_nil]
  | tree t =>
    have hnew : ∀ f ∈ newcomers t added, p f = false := by
      intro f hf
      exact h f (mem_newGuids_iff.mp (mem_newcomers_iff.mp hf).1).1
    have hrenewed : ∀ f ∈ t.leaves, p (renewed added f) = p f := by
      intro f _
      by_cases hf : f.guid ∈ added.map Filter.guid
      · rw [h f hf, h _ ((guid_renewed added f).symm ▸ hf)]
      · rw [renewed_of_not_mem hf]
    have hkept : ∀ f ∈ t.leaves, p f → renewed added f = f := by
      intro f _ hf
      apply renewed_of_not_mem
      intro hg
      rw [h f hg] at hf
      cases hf
    rw [addAll_tree (hc rfl), keep, keep, Tree.prune_appendLeaves hnew, Tree.prune_map,
      Tree.prune_congr hrenewed, Tree.map_prune_eq_self hkept]

theorem nodup_guids_addAll (c : Collection) (added : List Filter) :
    (c.addAll added).isTree → (c.addAll added).guids.Nodup :=
  nodup_guids_apply (.addAll added)

theorem nodup_guids_foldl_add (hc : c.isTree → c.guids.Nodup) (added : List Filter) :
    (added.foldl add c).isTree → (added.foldl add c).guids.Nodup := by
  induction added generalizing c with
  | nil => exact hc
  | cons f added ih => exact ih (nodup_guids_addAll c [f])

theorem keep_foldl_add (hc : c.isTree → c.guids.Nodup)
    (h : ∀ f : Filter, f.guid ∈ added.map Filter.guid → p f = false) :
    (added.foldl add c).keep p = c.keep p := by
  induction added generalizing c with
  | nil => rfl
  | cons f added ih =>
    have hadded : ∀ g : Filter, g.guid ∈ added.map Filter.guid → p g = false :=
      fun g hg => h g (List.mem_cons_of_mem _ hg)
    have hf : ∀ g : Filter, g.guid ∈ [f].map Filter.guid → p g = false :=
      fun g hg => h g (List.mem_cons.mpr (.inl (List.mem_singleton.mp hg)))
    calc ((f :: added).foldl add c).keep p
      _ = (c.add f).keep p := ih (nodup_guids_addAll c [f]) hadded
      _ = c.keep p := keep_addAll hc hf

/-- Filters that are removed one after the other are removed as if at once. -/
theorem foldl_remove_eq_keep (hc : c.isTree → c.guids.Nodup) (removed : List Filter) :
    removed.foldl remove c = c.keep fun f => Spares removed f := by
  induction removed generalizing c with
  | nil => exact (keep_eq_self fun f _ => by simp [Spares]).symm
  | cons r removed ih =>
    rw [List.foldl_cons, remove_eq_keep hc, ih (nodup_guids_keep hc), keep_keep]
    refine keep_congr fun f _ => ?_
    rw [Bool.eq_iff_iff, Bool.and_eq_true, bne_iff_ne, decide_eq_true_iff, decide_eq_true_iff,
      Spares, Spares, List.forall_mem_cons, ne_comm]

theorem spares_eq_false (h : f.guid ∈ added.map Filter.guid) :
    decide (Spares added f) = false := by
  obtain ⟨g, hg, he⟩ := List.mem_map.mp h
  exact decide_eq_false fun hs => hs g hg he

/-- Removing what was added gives back what was there, even if it was added and removed one after
the other and in another order. -/
theorem removeAll_addAll_restores (c : Collection) (hc : c.isTree → c.guids.Nodup)
    (added : List Filter) (h : ∀ f ∈ added, f.guid ∉ c.guids) :
    (c.addAll added).removeAll added = c ∧
      ∀ removed : List Filter, removed.Perm added →
        removed.foldl remove (added.foldl add c) = c := by
  have hspared : c.keep (fun f => Spares added f) = c := by
    apply keep_eq_self
    intro f hf
    refine decide_eq_true fun r hr he => h r hr ?_
    exact he ▸ List.mem_map_of_mem hf
  constructor
  · rw [removeAll_eq_keep_spared (nodup_guids_addAll c added),
      keep_addAll hc fun _ => spares_eq_false, hspared]
  · intro removed hp
    have hr : ∀ f ∈ (added.foldl add c).toList,
        decide (Spares removed f) = decide (Spares added f) := by
      intro f _
      rw [decide_eq_decide]
      unfold Spares
      simp only [hp.mem_iff]
    rw [foldl_remove_eq_keep (nodup_guids_foldl_add hc added), keep_congr hr,
      keep_foldl_add hc fun _ => spares_eq_false, hspared]

theorem removeAll_addAll_restores_repeated :
    let named (guid value : String) : Filter := .ofKind (.custom value .null) guid
    let leaf (guid : String) : Tree Filter := .leaf (named guid "0")
    let c : Collection := .tree (.node .or (leaf "a") (.node .and (leaf "b") (leaf "c")))
    let added := [named "z" "1", named "y" "2", named "z" "3"]
    (c.isTree → c.guids.Nodup) ∧ (∀ f ∈ added, f.guid ∉ c.guids) ∧
      (c.addAll added).removeAll added = c ∧
        added.reverse.foldl remove (added.foldl add c) = c := by
  intro named leaf c added
  have hc : c.isTree → c.guids.Nodup := by decide
  have h : ∀ f ∈ added, f.guid ∉ c.guids := by decide
  obtain ⟨hall, heach⟩ := removeAll_addAll_restores c hc added h
  exact ⟨hc, h, hall, heach added.reverse (List.reverse_perm added)⟩

end Collection

end QueryFilter
