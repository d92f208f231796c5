import QueryFilter.Proofs.Relations.Restoring

/-! # Independent edits

On a tree with distinct guids an edit drops leaves, exchanges leaves in their places and joins new
ones to the root, and it goes by the guids that it names. So edits that name different guids do not
meet. Main statement: two of them, not both of which add, may change places, unless the one that
adds would find the other to have left no tree.
-/

namespace QueryFilter

namespace Tree

variable {α : Type} {t u : Tree α} {added : List α} {p : α → Bool}

theorem appendLeaves_append (t : Tree α) (added next : List α) :
    t.appendLeaves (added ++ next) = (t.appendLeaves added).appendLeaves next :=
  List.foldl_append ..

theorem prune_appendLeaves_of_kept (ht : t.prune p = some u) (h : ∀ a ∈ added, p a) :
    (t.appendLeaves added).prune p = some (u.appendLeaves added) := by
  induction added generalizing t u with
  | nil => exact ht
  | cons a added ih =>
    obtain ⟨ha, h⟩ := List.forall_mem_cons.mp h
    refine ih ?_ h
    rw [prune, prune, ht, ha, if_pos rfl, join]

end Tree

namespace Collection

variable {t : Tree Filter} {f : Filter} {guid : String} {guids others : List String}

/-- The tree with leaves dropped, leaves exchanged and leaves joined to the root, unless it has none
left before the last of these. -/
def rebuild (removed : List Filter) (exchange : Filter → Filter) (added : List Filter)
    (t : Tree Filter) : Option (Tree Filter) :=
  (t.prune fun f => Spares removed f).map fun kept => (kept.map exchange).appendLeaves added

section Rebuild

variable {removed removed' added added' : List Filter} {exchange exchange' : Filter → Filter}

theorem spares_append :
    Spares (removed ++ removed') f ↔ Spares removed f ∧ Spares removed' f :=
  List.forall_mem_append

theorem spares_append_comm : Spares (removed ++ removed') f ↔ Spares (removed' ++ removed) f := by
  rw [spares_append, spares_append, and_comm]

/-- What is rebuilt twice is rebuilt at once, if neither pass drops or exchanges what the other
brings in. -/
theorem rebuild_bind_rebuild
    (hexchange : ∀ f ∈ t.leaves, Spares removed' (exchange f) ↔ Spares removed' f)
    (hadded : ∀ f ∈ added, Spares removed' f ∧ exchange' f = f)
    (h : added = [] ∨ ∃ f ∈ t.leaves, Spares (removed ++ removed') f) :
    (rebuild removed exchange added t).bind (rebuild removed' exchange' added') =
      rebuild (removed ++ removed') (exchange' ∘ exchange) (added ++ added') t := by
  have hboth : (t.prune fun f => Spares removed f).bind (Tree.prune fun f => Spares removed' f) =
      t.prune fun f => Spares (removed ++ removed') f := by
    rw [Tree.prune_bind_prune]
    exact Tree.prune_congr fun f _ => by rw [← Bool.decide_and, decide_eq_decide, spares_append]
  rw [rebuild, rebuild, ← hboth]
  cases hkept : t.prune fun f => Spares removed f with
  | none => rfl
  | some kept =>
    have hmap : (kept.map exchange).prune (fun f => Spares removed' f) =
        (kept.prune fun f => Spares removed' f).map (Tree.map exchange) := by
      rw [Tree.prune_map]
      refine congrArg _ (Tree.prune_congr fun f hf => decide_eq_decide.mpr (hexchange f ?_))
      rw [Tree.leaves_of_prune hkept] at hf
      exact (List.mem_filter.mp hf).1
    rw [Option.map_some, Option.bind_some, Option.bind_some, rebuild]
    cases hleft : kept.prune fun f => Spares removed' f with
    | some left =>
      rw [hleft, Option.map_some] at hmap
      have hadd : added.map exchange' = added := by
        rw [List.map_congr_left fun f hf => (hadded f hf).2, List.map_id']
      rw [Tree.prune_appendLeaves_of_kept hmap fun f hf => decide_eq_true (hadded f hf).1,
        Option.map_some, Option.map_some, Tree.map_appendLeaves, hadd, Tree.map_map,
        Tree.appendLeaves_append]
    | none =>
      have hnone : added = [] := by
        refine h.resolve_right ?_
        rintro ⟨f, hf, hs⟩
        have hn : t.prune (fun f => Spares (removed ++ removed') f) = none := by
          rw [← hboth, hkept, Option.bind_some, hleft]
        exact of_decide_eq_false (Tree.prune_eq_none_iff.mp hn f hf) hs
      rw [hleft] at hmap
      rw [hnone, Tree.appendLeaves, List.foldl_nil, hmap]
      rfl

theorem rebuild_nil (exchange : Filter → Filter) (added : List Filter) (t : Tree Filter) :
    rebuild [] exchange added t = some ((t.map exchange).appendLeaves added) := by
  have hspared : ∀ f ∈ t.leaves, decide (Spares [] f) :=
    fun f _ => decide_eq_true (List.forall_mem_nil _)
  rw [rebuild, Tree.prune_eq_some_self hspared, Option.map_some]

theorem rebuild_id_nil (removed : List Filter) (t : Tree Filter) :
    rebuild removed id [] t = t.prune fun f => Spares removed f := by
  have hid : (fun kept : Tree Filter => (kept.map id).appendLeaves []) = id :=
    funext fun kept => Tree.map_eq_self fun _ _ => rfl
  rw [rebuild, hid, Option.map_id, id]

theorem isSome_rebuild (exchange : Filter → Filter) (added : List Filter)
    (h : ∃ f ∈ t.leaves, Spares removed f) :
    (rebuild removed exchange added t).isSome := by
  obtain ⟨f, hf, hs⟩ := h
  obtain ⟨u, hu, -⟩ := Tree.exists_prune_of_mem (p := fun f => Spares removed f) hf
    (decide_eq_true hs)
  rw [rebuild, hu]
  rfl

theorem rebuild_append_comm (exchange : Filter → Filter) (h : added = [] ∨ added' = []) :
    rebuild (removed ++ removed') exchange (added ++ added') t =
      rebuild (removed' ++ removed) exchange (added' ++ added) t := by
  have hkept : (t.prune fun f => Spares (removed ++ removed') f) =
      t.prune fun f => Spares (removed' ++ removed) f :=
    Tree.prune_congr fun f _ => decide_eq_decide.mpr spares_append_comm
  have hadded : added ++ added' = added' ++ added := by
    rcases h with rfl | rfl
    · rw [List.nil_append, List.append_nil]
    · rw [List.nil_append, List.append_nil]
  rw [rebuild, rebuild, hkept, hadded]

end Rebuild

namespace Edit

variable {e e' : Edit}

/-- The filters that come in beside those that are there. -/
def added : Edit → List Filter
  | .add f => [f]
  | .addAll added => added
  | .remove _ | .removeAll _ | .replace _ _ => []

/-- The filters whose guids go with the leaves that have them. -/
def removed : Edit → List Filter
  | .remove f => [f]
  | .removeAll removed => removed
  | .add _ | .addAll _ | .replace _ _ => []

/-- What stands in the place of a filter that is not removed. -/
def exchange : Edit → Filter → Filter
  | .replace old new => swap old.guid new
  | .add _ | .addAll _ | .remove _ | .removeAll _ => id

/-- The guids that the edit goes by and those that it brings in. -/
def named : Edit → List String
  | .add f | .remove f => [f.guid]
  | .addAll filters | .removeAll filters => filters.map Filter.guid
  | .replace old new => [old.guid, new.guid]

/-- No guid is named by both. -/
def Apart (e e' : Edit) : Prop := ∀ guid ∈ e.named, guid ∉ e'.named

instance (e e' : Edit) : Decidable (e.Apart e') :=
  inferInstanceAs (Decidable (∀ guid ∈ e.named, guid ∉ e'.named))

theorem Apart.symm (hd : e.Apart e') : e'.Apart e := fun guid hg hm => hd guid hm hg

theorem added_eq_nil_or_removed_eq_nil (e : Edit) : e.added = [] ∨ e.removed = [] := by
  cases e with
  | add f => exact .inr rfl
  | addAll added => exact .inr rfl
  | remove f => exact .inl rfl
  | removeAll removed => exact .inl rfl
  | replace old new => exact .inl rfl

theorem mem_named_of_added (hf : f ∈ e.added) : f.guid ∈ e.named := by
  cases e with
  | add g => exact List.mem_map_of_mem hf
  | addAll added => exact List.mem_map_of_mem hf
  | remove g => cases hf
  | removeAll removed => cases hf
  | replace old new => cases hf

theorem spares_of_not_named (h : f.guid ∉ e.named) : Spares e.removed f := by
  intro r hr he
  cases e with
  | add g => cases hr
  | addAll added => cases hr
  | remove g => exact h (he ▸ List.mem_map_of_mem hr)
  | removeAll removed => exact h (he ▸ List.mem_map_of_mem hr)
  | replace old new => cases hr

theorem exchange_of_not_named (h : f.guid ∉ e.named) : e.exchange f = f := by
  cases e with
  | replace old new =>
    refine swap_of_ne fun he => h ?_
    exact he ▸ List.mem_cons_self
  | add g => rfl
  | addAll added => rfl
  | remove g => rfl
  | removeAll removed => rfl

theorem named_of_exchange (h : f.guid ∈ e.named) : (e.exchange f).guid ∈ e.named := by
  cases e with
  | replace old new =>
    by_cases he : f.guid = old.guid
    · rw [exchange, swap_of_eq he]
      exact List.mem_cons_of_mem _ List.mem_cons_self
    · rwa [exchange, swap_of_ne he]
  | add g => exact h
  | addAll added => exact h
  | remove g => exact h
  | removeAll removed => exact h

/-- What the edit makes of a tree on which the filters that it adds are new. -/
def onTree? (e : Edit) (t : Tree Filter) : Option (Tree Filter) :=
  rebuild e.removed e.exchange e.added t

theorem apply_tree (hn : (t.leaves.map Filter.guid).Nodup) (hp : e.Permitted (tree t).guids) :
    e.apply (tree t) = ofTree? (e.onTree? t) := by
  have hadd : ∀ {added : List Filter}, (addAll added).Permitted (tree t).guids →
      (tree t).addAll added = ofTree? (rebuild [] id added t) := by
    intro added hp
    have hid : t.map id = t := Tree.map_eq_self fun _ _ => rfl
    rw [rebuild_nil, hid]
    exact addAll_tree_of_new hn hp.1 hp.2
  have hremove : ∀ removed : List Filter,
      (tree t).removeAll removed = ofTree? (rebuild removed id [] t) := by
    intro removed
    rw [rebuild_id_nil, removeAll_eq_keep_spared (c := tree t) fun _ => hn, keep]
  cases e with
  | add f =>
    refine hadd ⟨List.nodup_singleton _, fun g hg => ?_⟩
    exact List.mem_singleton.mp hg ▸ hp
  | addAll added => exact hadd hp
  | remove f => exact hremove [f]
  | removeAll removed => exact hremove removed
  | replace old new =>
    rw [apply, replace_tree hn hp, onTree?]
    exact congrArg ofTree? (rebuild_nil (swap old.guid new) [] t).symm

theorem apply_list_nil (e : Edit) : e.apply (list []) = list e.added := by
  cases e <;> rfl

theorem mem_guids_apply_iff (h : guid ∉ e.named) :
    guid ∈ (e.apply (tree t)).guids ↔ guid ∈ (tree t).guids := by
  rw [← mem_guidSet_iff, guidSet_apply, ← mem_guidSet_iff]
  cases e with
  | add f =>
    have hne : guid ≠ f.guid := fun he => h (List.mem_singleton.mpr he)
    rw [guidsAfter, Finset.mem_insert, or_iff_right hne]
  | addAll added =>
    have hn : guid ∉ (added.map Filter.guid).toFinset := fun hm => h (List.mem_toFinset.mp hm)
    rw [guidsAfter, Finset.mem_union, or_iff_left hn]
  | remove f =>
    have hne : guid ≠ f.guid := fun he => h (List.mem_singleton.mpr he)
    rw [guidsAfter, Finset.mem_erase, and_iff_right hne]
  | removeAll removed =>
    have hn : guid ∉ (removed.map Filter.guid).toFinset := fun hm => h (List.mem_toFinset.mp hm)
    rw [guidsAfter, Finset.mem_sdiff, and_iff_left hn]
  | replace old new =>
    have hold : guid ≠ old.guid := fun he => h (he ▸ List.mem_cons_self)
    have hnew : guid ≠ new.guid := fun he => h (he ▸ List.mem_cons_of_mem _ List.mem_cons_self)
    rw [guidsAfter]
    split
    · rw [Finset.mem_insert, or_iff_right hnew, Finset.mem_erase, and_iff_right hold]
    · rfl

theorem Permitted.of_subset (hp : e.Permitted guids)
    (h : ∀ guid ∈ e.named, guid ∈ others → guid ∈ guids) : e.Permitted others := by
  cases e with
  | add f => exact fun hm => hp (h f.guid List.mem_cons_self hm)
  | addAll added =>
    exact ⟨hp.1, fun f hf hm => hp.2 f hf (h f.guid (List.mem_map_of_mem hf) hm)⟩
  | remove f => exact trivial
  | removeAll removed => exact trivial
  | replace old new =>
    refine hp.imp (fun hn hm => hn (h old.guid List.mem_cons_self hm)) ?_
    exact Or.imp_right fun hn hm => hn (h new.guid (List.mem_cons_of_mem _ List.mem_cons_self) hm)

theorem Permitted.apply (hp : e'.Permitted (tree t).guids) (hd : e.Apart e') :
    e'.Permitted (e.apply (tree t)).guids :=
  hp.of_subset fun guid hg => (mem_guids_apply_iff fun hm => hd guid hm hg).mp

theorem onTree?_bind_onTree? (hd : e.Apart e')
    (h : e.added = [] ∨ ∃ f ∈ t.leaves, Spares (e.removed ++ e'.removed) f) :
    (e.onTree? t).bind e'.onTree? =
      rebuild (e.removed ++ e'.removed) (e'.exchange ∘ e.exchange) (e.added ++ e'.added) t := by
  refine rebuild_bind_rebuild (fun f _ => ?_) (fun f hf => ?_) h
  · by_cases hf : f.guid ∈ e.named
    · have hf' := named_of_exchange hf
      exact iff_of_true (spares_of_not_named (hd _ hf')) (spares_of_not_named (hd _ hf))
    · rw [exchange_of_not_named hf]
  · have hf' := hd _ (mem_named_of_added hf)
    exact ⟨spares_of_not_named hf', exchange_of_not_named hf'⟩

theorem exchange_comm (hd : e.Apart e') :
    e'.exchange ∘ e.exchange = e.exchange ∘ e'.exchange := by
  funext f
  rw [Function.comp_apply, Function.comp_apply]
  by_cases hf : f.guid ∈ e.named
  · rw [exchange_of_not_named (hd _ (named_of_exchange hf)), exchange_of_not_named (hd _ hf)]
  · rw [exchange_of_not_named hf]
    by_cases hf' : f.guid ∈ e'.named
    · rw [exchange_of_not_named fun hm => hd _ hm (named_of_exchange hf')]
    · rw [exchange_of_not_named hf', exchange_of_not_named hf]

/-- Two edits that name different guids are one pass over the tree, if the first leaves a tree to
the second or neither adds anything. -/
theorem apply_apply_tree (hn : (t.leaves.map Filter.guid).Nodup) (hp : e.Permitted (tree t).guids)
    (hp' : e'.Permitted (tree t).guids) (hd : e.Apart e')
    (h : e.added = [] ∧ e'.added = [] ∨ ∃ f ∈ t.leaves, Spares (e.removed ++ e'.removed) f) :
    e'.apply (e.apply (tree t)) = ofTree? (rebuild (e.removed ++ e'.removed)
      (e'.exchange ∘ e.exchange) (e.added ++ e'.added) t) := by
  rw [← onTree?_bind_onTree? hd (h.imp_left And.left)]
  have hfirst := apply_tree hn hp
  cases hu : e.onTree? t with
  | none =>
    have ha : e'.added = [] := by
      refine h.elim And.right ?_
      rintro ⟨f, hf, hs⟩
      have hsome := isSome_rebuild e.exchange e.added ⟨f, hf, (spares_append.mp hs).1⟩
      rw [← onTree?, hu] at hsome
      cases hsome
    rw [hfirst, hu, ofTree?, apply_list_nil, ha]
    rfl
  | some u =>
    rw [hu, ofTree?] at hfirst
    have hnu := nodup_guids_apply (c := tree t) e (hfirst ▸ rfl)
    have hpu := hp'.apply hd
    rw [hfirst] at hnu hpu ⊢
    exact apply_tree hnu hpu

theorem apply_comm (hn : (t.leaves.map Filter.guid).Nodup) (hp : e.Permitted (tree t).guids)
    (hp' : e'.Permitted (tree t).guids) (hd : e.Apart e')
    (ha : e.added = [] ∨ e'.added = [])
    (h : e.added = [] ∧ e'.added = [] ∨ ∃ f ∈ t.leaves, Spares (e.removed ++ e'.removed) f) :
    e'.apply (e.apply (tree t)) = e.apply (e'.apply (tree t)) := by
  have h' : e'.added = [] ∧ e.added = [] ∨
      ∃ f ∈ t.leaves, Spares (e'.removed ++ e.removed) f := by
    refine h.imp And.symm ?_
    rintro ⟨f, hf, hs⟩
    exact ⟨f, hf, spares_append_comm.mp hs⟩
  rw [apply_apply_tree hn hp hp' hd h, apply_apply_tree hn hp' hp hd.symm h', exchange_comm hd,
    rebuild_append_comm _ ha]

theorem apply_apply_ne (hn : (t.leaves.map Filter.guid).Nodup) (hp : e.Permitted (tree t).guids)
    (hp' : e'.Permitted (tree t).guids) (hd : e.Apart e') (ha : e.added ≠ [])
    (h : ∀ f ∈ t.leaves, ¬Spares (e.removed ++ e'.removed) f) :
    e'.apply (e.apply (tree t)) ≠ e.apply (e'.apply (tree t)) := by
  have hr : e.removed = [] := e.added_eq_nil_or_removed_eq_nil.resolve_left ha
  rw [hr, List.nil_append] at h
  have hlist : e.apply (e'.apply (tree t)) = list e.added := by
    have hnone : t.prune (fun f => Spares e'.removed f) = none :=
      Tree.prune_eq_none_iff.mpr fun f hf => decide_eq_false (h f hf)
    rw [apply_tree hn hp', onTree?, rebuild, hnone, Option.map_none, ofTree?, apply_list_nil]
  obtain ⟨f, hf⟩ := List.exists_mem_of_ne_nil _ ha
  have hfirst := apply_tree hn hp
  rw [onTree?, hr, rebuild_nil, ofTree?] at hfirst
  have hmem : f.guid ∈ (e'.apply (e.apply (tree t))).guids := by
    rw [hfirst, mem_guids_apply_iff (hd _ (mem_named_of_added hf)), guids, toList_tree,
      Tree.leaves_appendLeaves]
    exact List.mem_map_of_mem (List.mem_append_right _ hf)
  intro he
  obtain ⟨next, hg⟩ := exists_gathers_apply ((t.map e.exchange).appendLeaves e.added) e'
  rw [← hfirst] at hg
  rcases hg.isTree_or_eq with ht | hnil
  · rw [he, hlist] at ht
    cases ht
  · rw [hnil] at hmem
    cases hmem

end Edit

/-- Two edits of a tree that name different guids, and of which at most one adds, may change places
unless they remove every filter of the tree and one of them adds. -/
theorem independent_edits_commute_iff (t : Tree Filter) (hn : (t.leaves.map Filter.guid).Nodup)
    (e e' : Edit) (hp : e.Permitted (tree t).guids) (hp' : e'.Permitted (tree t).guids)
    (hd : e.Apart e') (ha : e.added = [] ∨ e'.added = []) :
    e'.apply (e.apply (tree t)) = e.apply (e'.apply (tree t)) ↔
      e.added = [] ∧ e'.added = [] ∨
        ∃ f ∈ t.leaves, Spares (e.removed ++ e'.removed) f := by
  refine ⟨fun he => ?_, Edit.apply_comm hn hp hp' hd ha⟩
  by_contra h
  rw [not_or] at h
  obtain ⟨hadds, hremoved⟩ := h
  have hall : ∀ f ∈ t.leaves, ¬Spares (e.removed ++ e'.removed) f :=
    fun f hf hs => hremoved ⟨f, hf, hs⟩
  by_cases hnone : e.added = []
  · refine Edit.apply_apply_ne hn hp' hp hd.symm (fun hnone' => hadds ⟨hnone, hnone'⟩) ?_ he.symm
    exact fun f hf hs => hall f hf (spares_append_comm.mp hs)
  · exact Edit.apply_apply_ne hn hp hp' hd hnone hall he

theorem independent_edits_commute_iff_emptied :
    let named (guid value : String) : Filter := .ofKind (.custom value .null) guid
    let leaf (guid : String) : Tree Filter := .leaf (named guid "0")
    let t : Tree Filter := .node .or (leaf "a") (.node .and (leaf "b") (leaf "c"))
    let add : Edit := .add (named "z" "1")
    let replace : Edit := .replace (named "c" "2") (named "y" "3")
    let removeTwo : Edit := .removeAll [named "b" "4", named "a" "5"]
    let removeAll : Edit := .removeAll [named "c" "6", named "b" "4", named "a" "5"]
    (t.leaves.map Filter.guid).Nodup ∧ add.Permitted (tree t).guids ∧
      replace.Permitted (tree t).guids ∧ removeTwo.Permitted (tree t).guids ∧
      removeAll.Permitted (tree t).guids ∧ replace.Apart removeTwo ∧
      removeTwo.apply (replace.apply (tree t)) = replace.apply (removeTwo.apply (tree t)) ∧
      add.Apart removeTwo ∧
      removeTwo.apply (add.apply (tree t)) = add.apply (removeTwo.apply (tree t)) ∧
      add.Apart removeAll ∧
      removeAll.apply (add.apply (tree t)) ≠ add.apply (removeAll.apply (tree t)) := by
  intro named leaf t add replace removeTwo removeAll
  have hn : (t.leaves.map Filter.guid).Nodup := by decide
  have ha : add.Permitted (tree t).guids := by decide
  have hp : replace.Permitted (tree t).guids := by decide
  have ht : removeTwo.Permitted (tree t).guids := trivial
  have hr : removeAll.Permitted (tree t).guids := trivial
  have hpt : replace.Apart removeTwo := by decide
  have hat : add.Apart removeTwo := by decide
  have har : add.Apart removeAll := by decide
  have hc : named "c" "0" ∈ t.leaves := by simp [t, leaf]
  have hspared : Spares (add.removed ++ removeTwo.removed) (named "c" "0") := by decide
  refine ⟨hn, ha, hp, ht, hr, hpt, ?_, hat, ?_, har, ?_⟩
  · exact (independent_edits_commute_iff t hn _ _ hp ht hpt (.inl rfl)).mpr (.inl ⟨rfl, rfl⟩)
  · exact (independent_edits_commute_iff t hn _ _ ha ht hat (.inr rfl)).mpr (.inr ⟨_, hc, hspared⟩)
  · rw [Ne, independent_edits_commute_iff t hn _ _ ha hr har (.inr rfl)]
    decide

end Collection

end QueryFilter
