import Mathlib.Order.Bounds.Basic
import QueryFilter.Proofs.Relations.Keeping

/-! # Subtrees

The subtrees of a tree are below it in an order, in which two leaves have a lowest node in common.
Pruning a tree prunes its subtrees alike. Main statement: removing filters from a tree keeps the
others in their order, the connective that relates any two of them, and every subtree of theirs.
-/

namespace QueryFilter

namespace Tree

variable {α : Type} {s s' t t' left right : Tree α} {c c' : Connective} {a b : α} {p : α → Bool}

/-- A tree is a subtree of itself and of every tree with a branch that it is a subtree of. -/
inductive Subtree : Tree α → Tree α → Prop
  | refl (t : Tree α) : Subtree t t
  | left {s left : Tree α} (c : Connective) (right : Tree α) :
      Subtree s left → Subtree s (.node c left right)
  | right {s right : Tree α} (c : Connective) (left : Tree α) :
      Subtree s right → Subtree s (.node c left right)

theorem Subtree.trans (hs : Subtree s s') (ht : Subtree s' t) : Subtree s t := by
  induction ht with
  | refl => exact hs
  | left c right _ ih => exact .left c right ih
  | right c left _ ih => exact .right c left ih

theorem Subtree.eq_or_sizeOf_lt (h : Subtree s t) : s = t ∨ sizeOf s < sizeOf t := by
  induction h with
  | refl => exact .inl rfl
  | left c right _ ih =>
    right
    rcases ih with rfl | ih <;> simp only [node.sizeOf_spec] <;> omega
  | right c left _ ih =>
    right
    rcases ih with rfl | ih <;> simp only [node.sizeOf_spec] <;> omega

/-- Trees are ordered by being subtrees. -/
instance : PartialOrder (Tree α) where
  le := Subtree
  le_refl := .refl
  le_trans _ _ _ := .trans
  le_antisymm s t hs ht := by
    rcases hs.eq_or_sizeOf_lt with h | h
    · exact h
    · rcases ht.eq_or_sizeOf_lt with h' | h'
      · exact h'.symm
      · omega

theorem left_lt_node (c : Connective) (left right : Tree α) : left < .node c left right := by
  refine lt_of_le_of_ne (.left c right (.refl left)) fun h => ?_
  have h := congrArg sizeOf h
  rw [node.sizeOf_spec] at h
  omega

theorem right_lt_node (c : Connective) (left right : Tree α) : right < .node c left right := by
  refine lt_of_le_of_ne (.right c left (.refl right)) fun h => ?_
  have h := congrArg sizeOf h
  rw [node.sizeOf_spec] at h
  omega

theorem le_leaf_iff : s ≤ .leaf a ↔ s = .leaf a := by
  constructor
  · rintro ⟨⟩
    rfl
  · rintro rfl
    exact le_rfl

theorem le_node_iff : s ≤ .node c left right ↔ s = .node c left right ∨ s ≤ left ∨ s ≤ right := by
  constructor
  · intro h
    cases h with
    | refl => exact .inl rfl
    | left _ _ h => exact .inr (.inl h)
    | right _ _ h => exact .inr (.inr h)
  · rintro (rfl | h | h)
    · exact le_rfl
    · exact h.trans (left_lt_node ..).le
    · exact h.trans (right_lt_node ..).le

theorem sublist_of_le (h : s ≤ t) : s.leaves.Sublist t.leaves := by
  induction h with
  | refl => exact .refl _
  | left c right _ ih => exact ih.trans (List.sublist_append_left ..)
  | right c left _ ih => exact ih.trans (List.sublist_append_right ..)

theorem mem_of_le (h : s ≤ t) (ha : a ∈ s.leaves) : a ∈ t.leaves := (sublist_of_le h).subset ha

/-- Subtrees that share a leaf lie one within the other. -/
theorem le_or_le_of_mem (hn : t.leaves.Nodup) (hs : s ≤ t) (hs' : s' ≤ t) (ha : a ∈ s.leaves)
    (ha' : a ∈ s'.leaves) : s ≤ s' ∨ s' ≤ s := by
  induction t with
  | leaf b =>
    rw [le_leaf_iff.mp hs, le_leaf_iff.mp hs']
    exact .inl le_rfl
  | node c left right ihl ihr =>
    obtain ⟨hnl, hnr, hd⟩ := List.nodup_append.mp hn
    rcases le_node_iff.mp hs with rfl | hs | hs
    · exact .inr hs'
    · rcases le_node_iff.mp hs' with rfl | hs' | hs'
      · exact .inl (hs.trans (left_lt_node ..).le)
      · exact ihl hnl hs hs'
      · exact absurd rfl (hd a (mem_of_le hs ha) a (mem_of_le hs' ha'))
    · rcases le_node_iff.mp hs' with rfl | hs' | hs'
      · exact .inl (hs.trans (right_lt_node ..).le)
      · exact absurd rfl (hd a (mem_of_le hs' ha') a (mem_of_le hs ha))
      · exact ihr hnr hs hs'

section Relating

/-- The lowest node that has both leaves below it has the connective. -/
def Relates (c : Connective) (a b : α) (t : Tree α) : Prop :=
  ∃ left right, IsLeast {s | s ≤ t ∧ a ∈ s.leaves ∧ b ∈ s.leaves} (.node c left right)

/-- A node with the connective has the leaves on different sides. -/
def Parts (c : Connective) (a b : α) (t : Tree α) : Prop :=
  ∃ left right, .node c left right ≤ t ∧
    (a ∈ left.leaves ∧ b ∈ right.leaves ∨ b ∈ left.leaves ∧ a ∈ right.leaves)

theorem Relates.unique (h : t.Relates c a b) (h' : t.Relates c' a b) : c = c' := by
  obtain ⟨left, right, h⟩ := h
  obtain ⟨left', right', h'⟩ := h'
  exact (Tree.node.inj (h.unique h')).1

theorem Relates.parts (h : t.Relates c a b) : t.Parts c a b := by
  obtain ⟨left, right, ⟨ht, ha, hb⟩, hl⟩ := h
  have hleft : ¬(a ∈ left.leaves ∧ b ∈ left.leaves) := by
    rintro ⟨ha, hb⟩
    exact (left_lt_node ..).not_ge (hl ⟨(left_lt_node ..).le.trans ht, ha, hb⟩)
  have hright : ¬(a ∈ right.leaves ∧ b ∈ right.leaves) := by
    rintro ⟨ha, hb⟩
    exact (right_lt_node ..).not_ge (hl ⟨(right_lt_node ..).le.trans ht, ha, hb⟩)
  refine ⟨left, right, ht, ?_⟩
  rw [leaves_node, List.mem_append] at ha hb
  tauto

theorem Parts.relates (hn : t.leaves.Nodup) (h : t.Parts c a b) : t.Relates c a b := by
  obtain ⟨left, right, ht, h⟩ := h
  have hd := (List.nodup_append.mp (hn.sublist (sublist_of_le ht))).2.2
  have hmem : a ∈ (node c left right).leaves ∧ b ∈ (node c left right).leaves := by
    rw [leaves_node, List.mem_append, List.mem_append]
    tauto
  refine ⟨left, right, ⟨ht, hmem⟩, ?_⟩
  rintro s ⟨hs, ha, hb⟩
  rcases le_or_le_of_mem hn ht hs hmem.1 ha with hle | hle
  · exact hle
  · -- A smaller subtree would have both leaves on one side.
    rcases le_node_iff.mp hle with rfl | hle | hle
    · exact le_rfl
    · rcases h with ⟨-, h⟩ | ⟨-, h⟩
      · exact absurd rfl (hd b (mem_of_le hle hb) b h)
      · exact absurd rfl (hd a (mem_of_le hle ha) a h)
    · rcases h with ⟨h, -⟩ | ⟨h, -⟩
      · exact absurd rfl (hd a h a (mem_of_le hle ha))
      · exact absurd rfl (hd b h b (mem_of_le hle hb))

theorem Parts.mono (h : s.Parts c a b) (hs : s ≤ t) : t.Parts c a b := by
  obtain ⟨left, right, ht, h⟩ := h
  exact ⟨left, right, ht.trans hs, h⟩

theorem exists_parts (ha : a ∈ t.leaves) (hb : b ∈ t.leaves) (hne : a ≠ b) :
    ∃ c, t.Parts c a b := by
  induction t with
  | leaf d => exact absurd ((List.mem_singleton.mp ha).trans (List.mem_singleton.mp hb).symm) hne
  | node c left right ihl ihr =>
    rcases List.mem_append.mp ha with hal | har <;> rcases List.mem_append.mp hb with hbl | hbr
    · obtain ⟨c', h⟩ := ihl hal hbl
      exact ⟨c', h.mono (left_lt_node ..).le⟩
    · exact ⟨c, left, right, le_rfl, .inl ⟨hal, hbr⟩⟩
    · exact ⟨c, left, right, le_rfl, .inr ⟨hbl, har⟩⟩
    · obtain ⟨c', h⟩ := ihr har hbr
      exact ⟨c', h.mono (right_lt_node ..).le⟩

end Relating

section Pruning

theorem exists_prune_of_le (h : s ≤ t) (hs : s.prune p = some s') :
    ∃ t', t.prune p = some t' ∧ s' ≤ t' := by
  induction h with
  | refl => exact ⟨s', hs, le_rfl⟩
  | @left left c right _ ih =>
    obtain ⟨left', hl, hle⟩ := ih
    rw [prune, hl]
    cases right.prune p with
    | none => exact ⟨left', rfl, hle⟩
    | some right' => exact ⟨.node c left' right', rfl, hle.trans (left_lt_node ..).le⟩
  | @right right c left _ ih =>
    obtain ⟨right', hr, hle⟩ := ih
    rw [prune, hr]
    cases left.prune p with
    | none => exact ⟨right', rfl, hle⟩
    | some left' => exact ⟨.node c left' right', rfl, hle.trans (right_lt_node ..).le⟩

theorem le_of_prune (h : t.prune p = some t') (hs : s ≤ t) (hk : ∀ a ∈ s.leaves, p a) :
    s ≤ t' := by
  obtain ⟨u, hu, hle⟩ := exists_prune_of_le hs (prune_eq_some_self hk)
  exact Option.some.inj (h.symm.trans hu) ▸ hle

theorem Parts.prune (h : t.Parts c a b) (ht : t.prune p = some t') (ha : p a)
    (hb : p b) : t'.Parts c a b := by
  obtain ⟨left, right, hle, h⟩ := h
  obtain ⟨left', right', hl, hr, hparted⟩ : ∃ left' right', left.prune p = some left' ∧
      right.prune p = some right' ∧
      (a ∈ left'.leaves ∧ b ∈ right'.leaves ∨ b ∈ left'.leaves ∧ a ∈ right'.leaves) := by
    rcases h with ⟨hal, hbr⟩ | ⟨hbl, har⟩
    · obtain ⟨left', hl, hal⟩ := exists_prune_of_mem hal ha
      obtain ⟨right', hr, hbr⟩ := exists_prune_of_mem hbr hb
      exact ⟨left', right', hl, hr, .inl ⟨hal, hbr⟩⟩
    · obtain ⟨left', hl, hbl⟩ := exists_prune_of_mem hbl hb
      obtain ⟨right', hr, har⟩ := exists_prune_of_mem har ha
      exact ⟨left', right', hl, hr, .inr ⟨hbl, har⟩⟩
  have hnode : (node c left right).prune p = some (.node c left' right') := by
    rw [Tree.prune, hl, hr, join]
  obtain ⟨u, hu, hle⟩ := exists_prune_of_le hle hnode
  exact ⟨left', right', Option.some.inj (ht.symm.trans hu) ▸ hle, hparted⟩

/-- Dropping leaves changes no connective between the others. -/
theorem relates_prune_iff (hn : t.leaves.Nodup) (ht : t.prune p = some t') (ha : a ∈ t'.leaves)
    (hb : b ∈ t'.leaves) (hne : a ≠ b) : t'.Relates c a b ↔ t.Relates c a b := by
  have hl := leaves_of_prune ht
  have hn' : t'.leaves.Nodup := hl ▸ hn.filter _
  rw [hl, List.mem_filter] at ha hb
  have hprune : ∀ {c}, t.Relates c a b → t'.Relates c a b := fun h =>
    (h.parts.prune ht ha.2 hb.2).relates hn'
  refine ⟨fun h => ?_, hprune⟩
  obtain ⟨c', h'⟩ := exists_parts ha.1 hb.1 hne
  have h' := h'.relates hn
  exact (hprune h').unique h ▸ h'

end Pruning

end Tree

namespace Collection

variable {t t' : Tree Filter} {p : Filter → Bool}

theorem keep_tree_of_prune (h : t.prune p = some t') : (tree t).keep p = tree t' := by
  rw [keep, h, ofTree?]

theorem keep_tree_eq_list_nil_iff : (tree t).keep p = list [] ↔ ∀ f ∈ t.leaves, p f = false := by
  rw [← Tree.prune_eq_none_iff, keep]
  cases t.prune p <;> simp [ofTree?]

/-- Removing filters from a tree leaves the others as they were, in their order, each two of them
related by the connective that related them before, and every subtree that loses no filter. Where
no filter is left, the result is the empty list. -/
theorem removeAll_keeps_relations (t : Tree Filter) (hn : (t.leaves.map Filter.guid).Nodup)
    (removed : List Filter) :
    ((tree t).removeAll removed).toList = t.leaves.filter (fun f => Spares removed f) ∧
    ((tree t).removeAll removed = list [] ↔ ∀ f ∈ t.leaves, ¬Spares removed f) ∧
    ((∃ f ∈ t.leaves, Spares removed f) → ∃ t', (tree t).removeAll removed = tree t' ∧
      (∀ f ∈ t'.leaves, ∀ g ∈ t'.leaves, f ≠ g →
        (∃ c, t.Relates c f g) ∧ ∀ c, t'.Relates c f g ↔ t.Relates c f g) ∧
      ∀ s ≤ t, (∀ f ∈ s.leaves, Spares removed f) →
        s ≤ t' ∧ ∀ f ∈ t.leaves, Spares removed f → f ∉ s.leaves → s < t') := by
  have hc : (tree t).isTree → (tree t).guids.Nodup := fun _ => hn
  have hnl : t.leaves.Nodup := hn.of_map
  rw [removeAll_eq_keep_spared hc]
  refine ⟨toList_keep .., ?_, ?_⟩
  · simp only [keep_tree_eq_list_nil_iff, decide_eq_false_iff_not]
  · rintro ⟨f, hf, hs⟩
    obtain ⟨t', ht, -⟩ := Tree.exists_prune_of_mem (p := fun f => Spares removed f) hf
      (decide_eq_true hs)
    have hl := Tree.leaves_of_prune ht
    refine ⟨t', keep_tree_of_prune ht, ?_, ?_⟩
    · intro f hf g hg hne
      refine ⟨?_, fun c => Tree.relates_prune_iff hnl ht hf hg hne⟩
      rw [hl, List.mem_filter] at hf hg
      obtain ⟨c, h⟩ := Tree.exists_parts hf.1 hg.1 hne
      exact ⟨c, h.relates hnl⟩
    · intro s hs hspared
      have hle : s ≤ t' := Tree.le_of_prune ht hs fun f hf => decide_eq_true (hspared f hf)
      refine ⟨hle, fun f hf hfs hout => lt_of_le_of_ne hle ?_⟩
      rintro rfl
      rw [hl, List.mem_filter] at hout
      exact hout ⟨hf, decide_eq_true hfs⟩

theorem removeAll_keeps_relations_nested :
    let named (guid : String) : Filter := .ofKind (.custom "[T.A]" .null) guid
    let leaf (guid : String) : Tree Filter := .leaf (named guid)
    let pair : Tree Filter := .node .and (leaf "d") (leaf "e")
    let t : Tree Filter := .node .and (.node .or (.node .and (leaf "a") (leaf "b")) (leaf "c")) pair
    let t' : Tree Filter := .node .and (.node .or (leaf "a") (leaf "c")) pair
    let removed := [named "x", named "b"]
    (t.leaves.map Filter.guid).Nodup ∧ (tree t).removeAll removed = tree t' ∧
      t.Relates .or (named "a") (named "c") ∧ t'.Relates .or (named "a") (named "c") ∧
      pair < t' := by
  intro named leaf pair t t' removed
  have hn : (t.leaves.map Filter.guid).Nodup := by decide
  have ht : (tree t).removeAll removed = tree t' := rfl
  obtain ⟨-, -, h⟩ := removeAll_keeps_relations t hn removed
  obtain ⟨u, hu, hrelates, hsubtrees⟩ := h ⟨named "a", by simp [t, leaf], by decide⟩
  obtain rfl : t' = u := by simpa using ht.symm.trans hu
  have hne : named "a" ≠ named "c" := fun h => absurd (congrArg Filter.guid h) (by decide)
  have hac : t.Relates .or (named "a") (named "c") := by
    refine Tree.Parts.relates hn.of_map ⟨.node .and (leaf "a") (leaf "b"), leaf "c", ?_, ?_⟩
    · exact .left _ _ (.refl _)
    · exact .inl ⟨by simp [leaf], by simp [leaf]⟩
  have hpair := hsubtrees pair (Tree.right_lt_node ..).le (by decide)
  refine ⟨hn, ht, hac, ?_, hpair.2 (named "a") (by simp [t, leaf]) (by decide) ?_⟩
  · exact ((hrelates _ (by simp [t', leaf]) _ (by simp [t', leaf]) hne).2 .or).mpr hac
  · exact fun h => absurd (List.mem_map_of_mem (f := Filter.guid) h) (by decide)

end Collection

end QueryFilter
