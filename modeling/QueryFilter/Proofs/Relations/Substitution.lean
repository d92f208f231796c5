import QueryFilter.Proofs.Relations.Keeping

/-! # Leaves in the place of others

Main statement: a replacement puts the new filter on the leaf that had the guid of the old one and
leaves the rest of the tree as it was, so the filter that was there can be put back.
-/

namespace QueryFilter

/-- The second tree is the first with one leaf, and nothing else, put in the place of another. -/
inductive Tree.Substituted {α : Type} (a b : α) : Tree α → Tree α → Prop
  | leaf : Substituted a b (.leaf a) (.leaf b)
  | left {left left' : Tree α} (c : Connective) (right : Tree α) :
      Substituted a b left left' → Substituted a b (.node c left right) (.node c left' right)
  | right {right right' : Tree α} (c : Connective) (left : Tree α) :
      Substituted a b right right' → Substituted a b (.node c left right) (.node c left right')

namespace Collection

variable {t : Tree Filter} {old new f g : Filter} {guid : String}

/-- The new filter in the place of one with the guid. -/
def swap (guid : String) (new f : Filter) : Filter := if f.guid = guid then new else f

theorem swap_of_eq (h : f.guid = guid) : swap guid new f = new := if_pos h

theorem swap_of_ne (h : f.guid ≠ guid) : swap guid new f = f := if_neg h

theorem map_swap_eq_self (h : guid ∉ t.leaves.map Filter.guid) : t.map (swap guid new) = t := by
  refine Tree.map_eq_self fun f hf => swap_of_ne ?_
  rintro rfl
  exact h (List.mem_map_of_mem hf)

theorem guidTree_map_swap (old new : Filter) (t : Tree Filter) :
    (t.map (swap old.guid new)).guidTree = t.guidTree.replace old.guid new.guid := by
  rw [Tree.guidTree, Tree.map_map, Tree.guidTree, Tree.replace, Tree.map_map]
  refine congrArg (Tree.map · t) (funext fun f => ?_)
  exact apply_ite Filter.guid (f.guid = old.guid) new f

theorem nodup_map_swap (hn : (t.leaves.map Filter.guid).Nodup)
    (h : old.guid ∉ t.leaves.map Filter.guid ∨ new.guid = old.guid ∨
      new.guid ∉ t.leaves.map Filter.guid) :
    ((t.map (swap old.guid new)).leaves.map Filter.guid).Nodup := by
  rw [Tree.leaves_map]
  exact map_guid_replaced t.leaves old new ▸ nodup_map_replaced hn h

/-- A tree whose guids stay distinct is put together again with the new filter in its place. -/
theorem replace_tree (hn : (t.leaves.map Filter.guid).Nodup)
    (h : old.guid ∉ t.leaves.map Filter.guid ∨ new.guid = old.guid ∨
      new.guid ∉ t.leaves.map Filter.guid) :
    (tree t).replace old new = tree (t.map (swap old.guid new)) := by
  have hl : (t.map (swap old.guid new)).leaves =
      t.leaves.map fun f => if f.guid = old.guid then new else f :=
    Tree.leaves_map ..
  rw [replace, ← guidTree_map_swap, ← hl, combine_guidTree (nodup_map_swap hn h)]

theorem toList_replace {c : Collection} (hn : c.guids.Nodup)
    (h : old.guid ∉ c.guids ∨ new.guid = old.guid ∨ new.guid ∉ c.guids) :
    (c.replace old new).toList = c.toList.map fun f => if f.guid = old.guid then new else f := by
  cases c with
  | list filters => rfl
  | tree t =>
    rw [replace_tree hn h]
    exact Tree.leaves_map ..

theorem substituted_map_swap (hn : (t.leaves.map Filter.guid).Nodup) (hf : f ∈ t.leaves) :
    Tree.Substituted f new t (t.map (swap f.guid new)) := by
  induction t with
  | leaf g =>
    obtain rfl := List.mem_singleton.mp hf
    rw [Tree.map, swap_of_eq rfl]
    exact .leaf
  | node c left right ihl ihr =>
    rw [Tree.leaves_node, List.map_append, List.nodup_append] at hn
    obtain ⟨hnl, hnr, hd⟩ := hn
    rw [Tree.map]
    rcases List.mem_append.mp hf with hf | hf
    · have hr : right.map (swap f.guid new) = right :=
        map_swap_eq_self fun h => hd _ (List.mem_map_of_mem hf) _ h rfl
      rw [hr]
      exact .left c right (ihl hnl hf)
    · have hl : left.map (swap f.guid new) = left :=
        map_swap_eq_self fun h => hd _ h _ (List.mem_map_of_mem hf) rfl
      rw [hl]
      exact .right c left (ihr hnr hf)

theorem map_swap_map_swap (hn : (t.leaves.map Filter.guid).Nodup) (hf : f ∈ t.leaves)
    (h : new.guid = f.guid ∨ new.guid ∉ t.leaves.map Filter.guid) :
    (t.map (swap f.guid new)).map (swap new.guid f) = t := by
  rw [Tree.map_map]
  refine Tree.map_eq_self fun g hg => ?_
  rw [Function.comp_apply]
  by_cases hguid : g.guid = f.guid
  · rw [swap_of_eq hguid, swap_of_eq rfl]
    exact List.inj_on_of_nodup_map hn hf hg hguid.symm
  · rw [swap_of_ne hguid, swap_of_ne]
    rintro he
    rcases h with h | h
    · exact hguid (he.trans h)
    · exact h (he ▸ List.mem_map_of_mem hg)

theorem not_mem_guids_map_swap (h : new.guid ≠ guid) :
    guid ∉ (t.map (swap guid new)).leaves.map Filter.guid := by
  rw [Tree.leaves_map, List.map_map, List.mem_map]
  rintro ⟨g, -, hg⟩
  rw [Function.comp_apply] at hg
  by_cases he : g.guid = guid
  · rw [swap_of_eq he] at hg
    exact h hg
  · rw [swap_of_ne he] at hg
    exact he hg

theorem replace_back (hn : (t.leaves.map Filter.guid).Nodup) (hf : f ∈ t.leaves)
    (h : new.guid = f.guid ∨ new.guid ∉ t.leaves.map Filter.guid) :
    (tree (t.map (swap f.guid new))).replace new f = tree t := by
  have hfree : f.guid = new.guid ∨
      f.guid ∉ (t.map (swap f.guid new)).leaves.map Filter.guid := by
    by_cases he : new.guid = f.guid
    · exact .inl he.symm
    · exact .inr (not_mem_guids_map_swap he)
  rw [replace_tree (nodup_map_swap hn (.inr h)) (.inr hfree), map_swap_map_swap hn hf h]

theorem replace_eq_of_guid_eq (c : Collection) (h : f.guid = old.guid) :
    c.replace old new = c.replace f new := by
  simp only [replace, h]

/-- A replacement of a filter that is there substitutes the new filter for it, and the one that was
there can be put back. A replacement of one that is not there changes nothing, whatever is new. -/
theorem replace_substitutes (t : Tree Filter) (hn : (t.leaves.map Filter.guid).Nodup)
    (old new : Filter) :
    (old.guid ∉ (tree t).guids → (tree t).replace old new = tree t) ∧
    (new.guid = old.guid ∨ new.guid ∉ (tree t).guids →
      ∀ f ∈ t.leaves, f.guid = old.guid →
        ∃ t', (tree t).replace old new = tree t' ∧ Tree.Substituted f new t t' ∧
          (tree t').replace new f = tree t) := by
  constructor
  · intro h
    rw [replace_tree hn (.inl h), map_swap_eq_self h]
  · intro h f hf he
    rw [← he] at h
    refine ⟨t.map (swap f.guid new), ?_, substituted_map_swap hn hf, replace_back hn hf h⟩
    rw [replace_eq_of_guid_eq _ he, replace_tree hn (.inr h)]

theorem replace_substitutes_nested :
    let named (guid value : String) : Filter := .ofKind (.custom value .null) guid
    let leaf (guid : String) : Tree Filter := .leaf (named guid "0")
    let new := named "z" "1"
    let t : Tree Filter := .node .or (leaf "a") (.node .and (leaf "b") (leaf "c"))
    let t' : Tree Filter := .node .or (leaf "a") (.node .and (.leaf new) (leaf "c"))
    (t.leaves.map Filter.guid).Nodup ∧ new.guid ∉ (tree t).guids ∧
      (tree t).replace (named "b" "2") new = tree t' ∧
      Tree.Substituted (named "b" "0") new t t' ∧ (tree t').replace new (named "b" "0") = tree t ∧
      (tree t).replace (named "y" "2") (named "a" "3") = tree t := by
  intro named leaf new t t'
  have hn : (t.leaves.map Filter.guid).Nodup := by decide
  have hz : new.guid ∉ (tree t).guids := by decide
  have ht : (tree t).replace (named "b" "2") new = tree t' := rfl
  obtain ⟨-, hreplaced⟩ := replace_substitutes t hn (named "b" "2") new
  obtain ⟨u, hu, hs, hback⟩ := hreplaced (.inr hz) (named "b" "0") (by simp [t, leaf]) rfl
  obtain rfl : t' = u := by simpa using ht.symm.trans hu
  have habsent := (replace_substitutes t hn (named "y" "2") (named "a" "3")).1
  exact ⟨hn, hz, ht, hs, hback, habsent (by decide)⟩

end Collection

end QueryFilter
