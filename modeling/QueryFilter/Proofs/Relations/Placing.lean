import QueryFilter.Proofs.Lists
import QueryFilter.Relations.Collection

/-! # Placing filters on trees of guids

A tree of guids becomes a tree of filters by placing on each leaf the last filter that has its guid.
If the guids are distinct and all known, the shape is kept; a leaf that repeats a guid is dropped.
-/

namespace QueryFilter

namespace Tree

variable {α β γ : Type} {t t' : Tree α}

theorem map_map (f : α → β) (g : β → γ) (t : Tree α) : (t.map f).map g = t.map (g ∘ f) := by
  induction t with
  | leaf a => rfl
  | node c left right ihl ihr => simp [map, ihl, ihr]

theorem map_eq_self {f : α → α} (h : ∀ a ∈ t.leaves, f a = a) : t.map f = t := by
  induction t with
  | leaf a => rw [map, h a (by simp)]
  | node c left right ihl ihr =>
    rw [map, ihl fun a ha => h a (List.mem_append_left _ ha),
      ihr fun a ha => h a (List.mem_append_right _ ha)]

theorem guidTree_map {g : Filter → Filter} (h : ∀ f, (g f).guid = f.guid) (t : Tree Filter) :
    (t.map g).guidTree = t.guidTree := by
  rw [guidTree, map_map]
  exact congrArg (map · t) (funext h)

theorem prune_eq_some_self {keep : α → Bool} (h : ∀ a ∈ t.leaves, keep a) :
    t.prune keep = some t := by
  induction t with
  | leaf a => simp [prune, h a (by simp)]
  | node c left right ihl ihr =>
    rw [prune, ihl fun a ha => h a (List.mem_append_left _ ha),
      ihr fun a ha => h a (List.mem_append_right _ ha), join]

theorem eq_of_map_eq {f : α → β} (h : t.map f = t'.map f)
    (hi : ∀ a ∈ t.leaves, ∀ b ∈ t'.leaves, f a = f b → a = b) : t = t' := by
  induction t generalizing t' with
  | leaf a =>
    cases t' with
    | leaf b => rw [hi a (by simp) b (by simp) (Tree.leaf.inj h)]
    | node => cases h
  | node c left right ihl ihr =>
    cases t' with
    | leaf => cases h
    | node c' left' right' =>
      obtain ⟨rfl, hl, hr⟩ := Tree.node.inj h
      have hl := ihl hl fun a ha b hb =>
        hi a (List.mem_append_left _ ha) b (List.mem_append_left _ hb)
      have hr := ihr hr fun a ha b hb =>
        hi a (List.mem_append_right _ ha) b (List.mem_append_right _ hb)
      rw [hl, hr]

end Tree

namespace Collection

variable {filters : List Filter} {guid : String} {guids : Tree String} {f : Filter}

section LastWith

theorem lastWith?_eq_some_iff :
    lastWith? guid filters = some f ↔ f.guid = guid ∧
      ∃ before after, filters = before ++ f :: after ∧ ∀ other ∈ after, other.guid ≠ guid := by
  rw [lastWith?, List.find?_eq_some_iff_append, beq_iff_eq]
  refine and_congr_right fun _ => ?_
  constructor
  · rintro ⟨after, before, he, hn⟩
    refine ⟨before.reverse, after.reverse, by simpa using congrArg List.reverse he, ?_⟩
    exact fun other ho => by simpa using hn other (List.mem_reverse.mp ho)
  · rintro ⟨before, after, rfl, hn⟩
    refine ⟨after.reverse, before.reverse, by simp, fun other ho => ?_⟩
    simpa using hn other (List.mem_reverse.mp ho)

theorem lastWith?_eq_none_iff : lastWith? guid filters = none ↔ guid ∉ filters.map Filter.guid := by
  simp [lastWith?, List.find?_eq_none]

theorem mem_of_lastWith? (h : lastWith? guid filters = some f) : f ∈ filters := by
  obtain ⟨-, before, after, rfl, -⟩ := lastWith?_eq_some_iff.mp h
  simp

theorem guid_of_lastWith? (h : lastWith? guid filters = some f) : f.guid = guid :=
  (lastWith?_eq_some_iff.mp h).1

theorem exists_lastWith? (h : guid ∈ filters.map Filter.guid) :
    ∃ f, lastWith? guid filters = some f := by
  rw [← Option.ne_none_iff_exists']
  exact fun hn => lastWith?_eq_none_iff.mp hn h

theorem lastWith?_of_nodup (hn : (filters.map Filter.guid).Nodup) (hf : f ∈ filters) :
    lastWith? f.guid filters = some f := by
  obtain ⟨g, hg⟩ := exists_lastWith? (List.mem_map_of_mem hf : f.guid ∈ filters.map Filter.guid)
  obtain rfl := List.inj_on_of_nodup_map hn hf (mem_of_lastWith? hg) (guid_of_lastWith? hg).symm
  exact hg

theorem lastWith?_filter (p : String → Bool) (guid : String) (filters : List Filter) :
    lastWith? guid (filters.filter fun f => p f.guid) =
      if p guid then lastWith? guid filters else none := by
  rw [lastWith?, ← List.filter_reverse, List.find?_filter]
  split
  · next h =>
    refine congrArg (List.find? · _) (funext fun f => ?_)
    by_cases hg : f.guid = guid <;> simp [hg, h]
  · next h =>
    rw [List.find?_eq_none]
    rintro f - hf
    simp only [decide_eq_true_eq, beq_iff_eq] at hf
    exact h (hf.2 ▸ hf.1)

end LastWith

/-- The filters without those that have a guid of the tree. -/
def remaining (guids : Tree String) (filters : List Filter) : List Filter :=
  filters.filter fun f => !guids.leaves.contains f.guid

theorem place_snd (guids : Tree String) (filters : List Filter) :
    (place guids filters).2 = remaining guids filters := by
  induction guids generalizing filters with
  | leaf guid => exact List.filter_congr fun f _ => by simp [bne, beq_eq_decide]
  | node c left right ihl ihr =>
    simp only [place, ihl, ihr, remaining, List.filter_filter, Tree.leaves_node]
    exact List.filter_congr fun f _ => by simp [Bool.and_comm]

theorem place_leaf (guid : String) (filters : List Filter) :
    (place (.leaf guid) filters).1 = (lastWith? guid filters).map .leaf := rfl

theorem place_node (c : Connective) (left right : Tree String) (filters : List Filter) :
    (place (.node c left right) filters).1 =
      Tree.join c (place left filters).1 (place right (remaining left filters)).1 := by
  rw [← place_snd]
  rfl

theorem lastWith?_remaining (guids : Tree String) (guid : String) (filters : List Filter) :
    lastWith? guid (remaining guids filters) =
      if guid ∈ guids.leaves then none else lastWith? guid filters := by
  rw [remaining, lastWith?_filter fun guid => !guids.leaves.contains guid]
  by_cases h : guid ∈ guids.leaves <;> simp [h]

/-- The tree has the shape of the tree of guids, and on each leaf the last filter with its guid. -/
structure Placed (filters : List Filter) (guids : Tree String) (relations : Tree Filter) :
    Prop where
  guidTree_eq : relations.guidTree = guids
  lastWith?_eq : ∀ f ∈ relations.leaves, lastWith? f.guid filters = some f

namespace Placed

variable {relations relations' : Tree Filter}

theorem map_leaves (h : Placed filters guids relations) :
    relations.leaves.map Filter.guid = guids.leaves := by
  rw [← h.guidTree_eq, Tree.guidTree, Tree.leaves_map]

theorem mem (h : Placed filters guids relations) (hf : f ∈ relations.leaves) : f ∈ filters :=
  mem_of_lastWith? (h.lastWith?_eq f hf)

theorem unique (h : Placed filters guids relations) (h' : Placed filters guids relations') :
    relations = relations' := by
  refine Tree.eq_of_map_eq (h.guidTree_eq.trans h'.guidTree_eq.symm) fun f hf g hg he => ?_
  have hl := h.lastWith?_eq f hf
  rw [he, h'.lastWith?_eq g hg] at hl
  exact (Option.some.inj hl).symm

end Placed

theorem placed_guidTree {relations : Tree Filter} (hn : (filters.map Filter.guid).Nodup)
    (hl : ∀ f ∈ relations.leaves, f ∈ filters) : Placed filters relations.guidTree relations :=
  ⟨rfl, fun f hf => lastWith?_of_nodup hn (hl f hf)⟩

/-- On distinct guids of filters that are there, every leaf gets its filter. -/
theorem exists_placed (hn : guids.leaves.Nodup)
    (hk : ∀ guid ∈ guids.leaves, guid ∈ filters.map Filter.guid) :
    ∃ relations, (place guids filters).1 = some relations ∧ Placed filters guids relations := by
  induction guids generalizing filters with
  | leaf guid =>
    obtain ⟨f, hf⟩ := exists_lastWith? (hk guid (by simp))
    obtain rfl := guid_of_lastWith? hf
    refine ⟨.leaf f, by rw [place_leaf, hf, Option.map_some], rfl, ?_⟩
    intro g hg
    rwa [List.mem_singleton.mp hg]
  | node c left right ihl ihr =>
    obtain ⟨hnl, hnr, hd⟩ := List.nodup_append.mp hn
    obtain ⟨l, hl, hpl⟩ := ihl hnl fun guid hg => hk guid (List.mem_append_left _ hg)
    -- The right branch is placed from what the left one leaves over, which has all of its guids.
    obtain ⟨r, hr, hpr⟩ := @ihr (remaining left filters) hnr fun guid hg => by
      have hf := hk guid (List.mem_append_right _ hg)
      have hg : guid ∉ left.leaves := fun h => hd guid h guid hg rfl
      by_contra hn
      rw [← lastWith?_eq_none_iff, lastWith?_remaining, if_neg hg] at hn
      exact lastWith?_eq_none_iff.mp hn hf
    refine ⟨.node c l r, by rw [place_node, hl, hr, Tree.join], ?_, ?_⟩
    · rw [← hpl.guidTree_eq, ← hpr.guidTree_eq]
      rfl
    · intro f hf
      rcases List.mem_append.mp hf with hf | hf
      · exact hpl.lastWith?_eq f hf
      · have h := hpr.lastWith?_eq f hf
        rw [lastWith?_remaining] at h
        split at h
        · cases h
        · exact h

theorem combine_of_placed {relations : Tree Filter}
    (h : (place guids filters).1 = some relations) :
    combine filters (some guids) = .tree relations := by
  rw [combine, h]

end Collection

end QueryFilter
