import QueryFilter.Proofs.Relations.Editing

/-! # Filters that are kept

Removing filters keeps the others where they are: a list is filtered, a tree is pruned. What is kept
of what was kept is kept at once, so removals one after the other are one removal of all.
-/

namespace QueryFilter

namespace Tree

variable {α β : Type} {p q : α → Bool} {t t' : Tree α} {a : α}

theorem map_join (f : α → β) (c : Connective) (left right : Option (Tree α)) :
    (join c left right).map (Tree.map f) =
      join c (left.map (Tree.map f)) (right.map (Tree.map f)) := by
  cases left <;> cases right <;> rfl

theorem prune_map (f : α → β) (p : β → Bool) (t : Tree α) :
    (t.map f).prune p = (t.prune fun a => p (f a)).map (Tree.map f) := by
  induction t with
  | leaf a =>
    rw [map, prune, prune]
    split <;> rfl
  | node c left right ihl ihr => rw [map, prune, prune, map_join, ihl, ihr]

theorem leaves_of_prune (h : t.prune p = some t') : t'.leaves = t.leaves.filter p := by
  rw [← leaves_prune, h]
  rfl

theorem exists_prune_of_mem (ha : a ∈ t.leaves) (hk : p a) :
    ∃ t', t.prune p = some t' ∧ a ∈ t'.leaves := by
  cases ht : t.prune p with
  | none =>
    rw [prune_eq_none_iff.mp ht a ha] at hk
    cases hk
  | some t' => exact ⟨t', rfl, leaves_of_prune ht ▸ List.mem_filter.mpr ⟨ha, hk⟩⟩

theorem prune_congr (h : ∀ a ∈ t.leaves, p a = q a) : t.prune p = t.prune q := by
  induction t with
  | leaf a => rw [prune, prune, h a (by simp)]
  | node c left right ihl ihr =>
    rw [prune, prune, ihl fun a ha => h a (List.mem_append_left _ ha),
      ihr fun a ha => h a (List.mem_append_right _ ha)]

theorem join_bind_prune (c : Connective) (left right : Option (Tree α)) :
    (join c left right).bind (prune q) = join c (left.bind (prune q)) (right.bind (prune q)) := by
  cases left with
  | none => rfl
  | some left =>
    cases right with
    | none => exact (join_none c _).symm
    | some right => rfl

theorem prune_bind_prune (p q : α → Bool) (t : Tree α) :
    (t.prune p).bind (prune q) = t.prune fun a => p a && q a := by
  induction t with
  | leaf a => cases h : p a <;> simp [prune, h]
  | node c left right ihl ihr => rw [prune, prune, join_bind_prune, ihl, ihr]

end Tree

namespace Collection

variable {c : Collection} {p q : Filter → Bool} {guid : String} {guids : List String}

/-- The tree, or the empty list where no leaf is left. -/
def ofTree? : Option (Tree Filter) → Collection
  | some t => tree t
  | none => list []

/-- The collection without the filters that the test refuses. -/
def keep (p : Filter → Bool) : Collection → Collection
  | .list filters => list (filters.filter p)
  | .tree t => ofTree? (t.prune p)

section Keep

theorem toList_keep (p : Filter → Bool) (c : Collection) :
    (c.keep p).toList = c.toList.filter p := by
  cases c with
  | list filters => rfl
  | tree t =>
    rw [toList_tree, ← Tree.leaves_prune, keep]
    cases t.prune p <;> rfl

theorem guids_keep (keepGuid : String → Bool) (c : Collection) :
    (c.keep fun f => keepGuid f.guid).guids = c.guids.filter keepGuid := by
  rw [guids, toList_keep, guids, List.filter_map]
  rfl

theorem isTree_of_isTree_keep (h : (c.keep p).isTree) : c.isTree := by
  cases c with
  | list filters => cases h
  | tree t => rfl

theorem nodup_guids_keep (hc : c.isTree → c.guids.Nodup) :
    (c.keep p).isTree → (c.keep p).guids.Nodup := by
  intro ht
  rw [guids, toList_keep]
  exact (hc (isTree_of_isTree_keep ht)).sublist (List.filter_sublist.map _)

theorem keep_congr (h : ∀ f ∈ c.toList, p f = q f) : c.keep p = c.keep q := by
  cases c with
  | list filters => exact congrArg list (List.filter_congr h)
  | tree t => exact congrArg ofTree? (Tree.prune_congr h)

theorem keep_eq_self (h : ∀ f ∈ c.toList, p f) : c.keep p = c := by
  cases c with
  | list filters => exact congrArg list (List.filter_eq_self.mpr h)
  | tree t => exact congrArg ofTree? (Tree.prune_eq_some_self h)

theorem keep_keep (p q : Filter → Bool) (c : Collection) :
    (c.keep p).keep q = c.keep fun f => p f && q f := by
  cases c with
  | list filters =>
    refine congrArg list ?_
    rw [List.filter_filter]
    exact List.filter_congr fun f _ => Bool.and_comm ..
  | tree t =>
    rw [keep, keep, ← Tree.prune_bind_prune]
    cases t.prune p <;> rfl

end Keep

theorem nodup_guids_of_prune {t u : Tree Filter} (hn : (t.leaves.map Filter.guid).Nodup)
    (hu : t.prune p = some u) : (u.leaves.map Filter.guid).Nodup :=
  Tree.leaves_of_prune hu ▸ hn.sublist (List.filter_sublist.map _)

theorem combine_guidTree {t : Tree Filter} (hn : (t.leaves.map Filter.guid).Nodup) :
    combine t.leaves (some t.guidTree) = tree t := by
  have hl := leaves_guidTree t
  obtain ⟨relations, hr, hp⟩ := exists_placed (hl ▸ hn) fun guid hg => hl ▸ hg
  rw [combine_of_placed hr, hp.unique (placed_guidTree hn fun f hf => hf)]

theorem revise_filter (keepGuid : String → Bool) (t : Tree Filter) :
    revise t.leaves (some t.guidTree) (t.leaves.filter fun f => keepGuid f.guid) =
      (t.prune fun f => keepGuid f.guid).map Tree.guidTree := by
  have hm : (t.leaves.filter fun f => keepGuid f.guid).map Filter.guid =
      (t.leaves.map Filter.guid).filter keepGuid := by
    rw [List.filter_map]
    rfl
  have hnew : ((t.leaves.map Filter.guid).filter keepGuid).filter
      (fun guid => !(t.leaves.map Filter.guid).contains guid) = [] := by
    rw [List.filter_eq_nil_iff]
    intro guid hg
    simpa using (List.mem_filter.mp hg).1
  rw [revise, hm, hnew, List.foldl_nil, Option.bind_some, Tree.guidTree, Tree.prune_map]
  refine congrArg _ (Tree.prune_congr fun f hf => ?_)
  have hg : f.guid ∈ t.leaves.map Filter.guid := List.mem_map_of_mem hf
  cases hk : keepGuid f.guid <;> simp [hg, hk]

/-- Where the guids of a tree are distinct, removing filters keeps the others in their places. -/
theorem removeAll_eq_keep (hc : c.isTree → c.guids.Nodup) (removed : List Filter) :
    c.removeAll removed = c.keep fun f => !removed.any fun r => r.guid == f.guid := by
  cases c with
  | list filters => rfl
  | tree t =>
    have hn : (t.leaves.map Filter.guid).Nodup := hc rfl
    have hp := Tree.leaves_prune (fun f => !removed.any fun r => r.guid == f.guid) t
    have hr := revise_filter (fun guid => !removed.any fun r => r.guid == guid) t
    rw [removeAll, hr, keep]
    rw [← hp]
    cases hk : t.prune fun f => !removed.any fun r => r.guid == f.guid with
    | none => rfl
    | some kept => exact combine_guidTree (nodup_guids_of_prune hn hk)

/-- None of the filters that are removed has the guid of the filter. -/
def Spares (removed : List Filter) (f : Filter) : Prop := ∀ r ∈ removed, r.guid ≠ f.guid

instance (removed : List Filter) (f : Filter) : Decidable (Spares removed f) :=
  inferInstanceAs (Decidable (∀ r ∈ removed, r.guid ≠ f.guid))

theorem removeAll_eq_keep_spared (hc : c.isTree → c.guids.Nodup) (removed : List Filter) :
    c.removeAll removed = c.keep fun f => Spares removed f := by
  rw [removeAll_eq_keep hc]
  refine keep_congr fun f _ => ?_
  rw [Bool.eq_iff_iff, Bool.not_eq_true', List.any_eq_false, decide_eq_true_iff]
  simp only [beq_iff_eq, Spares, ne_eq]

theorem toList_removeAll (hn : c.guids.Nodup) (removed : List Filter) :
    (c.removeAll removed).toList =
      c.toList.filter fun f => !removed.any fun r => r.guid == f.guid := by
  rw [removeAll_eq_keep fun _ => hn, toList_keep]

theorem remove_eq_keep (hc : c.isTree → c.guids.Nodup) (f : Filter) :
    c.remove f = c.keep fun g => g.guid != f.guid := by
  rw [remove, removeAll_eq_keep hc]
  exact keep_congr fun g _ => by simp [bne, Bool.beq_comm]

section RemoveGuids

/-- The collection has a filter with each of the guids, and none is named twice. -/
def NamesOnce (c : Collection) (guids : List String) : Prop :=
  guids.Nodup ∧ ∀ guid ∈ guids, guid ∈ c.guids

instance (c : Collection) (guids : List String) : Decidable (c.NamesOnce guids) :=
  inferInstanceAs (Decidable (guids.Nodup ∧ ∀ guid ∈ guids, guid ∈ c.guids))

theorem removeGuids_cons (hc : c.isTree → c.guids.Nodup) (guid : String) (guids : List String) :
    c.removeGuids (guid :: guids) =
      if guid ∈ c.guids then (c.keep fun f => f.guid != guid).removeGuids guids
      else .error guid := by
  rw [removeGuids, find?_eq]
  split
  · next f hf =>
    have hg : f.guid = guid := by simpa using List.find?_some hf
    have hm : guid ∈ c.guids := List.mem_map.mpr ⟨f, List.mem_of_find?_eq_some hf, hg⟩
    rw [if_pos hm, remove_eq_keep hc, hg]
  · next hf =>
    rw [if_neg]
    intro hm
    obtain ⟨f, hm, hg⟩ := List.mem_map.mp hm
    simpa [hg] using List.find?_eq_none.mp hf f hm

theorem removeGuids_append (c : Collection) (before after : List String) :
    c.removeGuids (before ++ after) = c.removeGuids before >>= fun c => c.removeGuids after := by
  induction before generalizing c with
  | nil => rfl
  | cons guid before ih =>
    rw [List.cons_append, removeGuids, removeGuids]
    split
    · exact ih _
    · rfl

theorem removeGuids_of_namesOnce (hc : c.isTree → c.guids.Nodup) (h : c.NamesOnce guids) :
    c.removeGuids guids = .ok (c.keep fun f => !guids.contains f.guid) := by
  induction guids generalizing c with
  | nil => rw [removeGuids, keep_eq_self (by simp)]
  | cons guid guids ih =>
    obtain ⟨hn, hk⟩ := h
    obtain ⟨hg, hn⟩ := List.nodup_cons.mp hn
    have hrest : (c.keep fun f => f.guid != guid).NamesOnce guids := by
      refine ⟨hn, fun other ho => ?_⟩
      rw [guids_keep (· != guid), List.mem_filter, bne_iff_ne]
      exact ⟨hk other (List.mem_cons_of_mem _ ho), fun he => hg (he ▸ ho)⟩
    rw [removeGuids_cons hc, if_pos (hk guid (by simp)), ih (nodup_guids_keep hc) hrest, keep_keep]
    exact congrArg _ (keep_congr fun f _ => by simp [bne, Bool.beq_eq_decide_eq])

/-- Behind guids that are there, each named once, one that is not there or was named before stops
the removal. -/
theorem removeGuids_of_refused (hc : c.isTree → c.guids.Nodup) (h : c.NamesOnce guids)
    (hr : guid ∉ c.guids ∨ guid ∈ guids) (after : List String) :
    c.removeGuids (guids ++ guid :: after) = .error guid := by
  rw [removeGuids_append, removeGuids_of_namesOnce hc h]
  refine (removeGuids_cons (nodup_guids_keep hc) guid after).trans (if_neg ?_)
  rw [guids_keep fun guid => !guids.contains guid, List.mem_filter]
  rintro ⟨hm, hn⟩
  rcases hr with hr | hr
  · exact hr hm
  · simp [hr] at hn

theorem exists_refused_of_not_namesOnce (h : ¬c.NamesOnce guids) :
    ∃ before guid after, guids = before ++ guid :: after ∧ c.NamesOnce before ∧
      (guid ∉ c.guids ∨ guid ∈ before) := by
  induction guids using List.reverseRecOn with
  | nil => exact absurd ⟨.nil, by simp⟩ h
  | append_singleton guids guid ih =>
    by_cases hn : c.NamesOnce guids
    · refine ⟨guids, guid, [], rfl, hn, ?_⟩
      by_contra hr
      rw [not_or, not_not] at hr
      refine h ⟨List.nodup_append.mpr ⟨hn.1, by simp, ?_⟩, ?_⟩
      · intro other ho last hl he
        rw [List.mem_singleton] at hl
        exact hr.2 (hl ▸ he ▸ ho)
      · intro other ho
        rcases List.mem_append.mp ho with ho | ho
        · exact hn.2 other ho
        · exact List.mem_singleton.mp ho ▸ hr.1
    · obtain ⟨before, refused, after, rfl, hb, hr⟩ := ih hn
      exact ⟨before, refused, after ++ [guid], by simp, hb, hr⟩

end RemoveGuids

end Collection

end QueryFilter
