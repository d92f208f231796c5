import QueryFilter.Proofs.Relations.Substitution

/-! # Guids that are taken

A filter may be put in the place of another although a further leaf has its guid already. There are
then two places for one guid: the first is kept, and the filter of the second comes to stand on it.
Main statement: which leaves are there afterwards, and that the new filter is lost exactly if its
guid was taken behind the place it was meant for.
-/

namespace QueryFilter

namespace Collection

variable {filters : List Filter} {guids : Tree String} {names others : List String}
  {name : String → String} {guid : String}

section Renamed

theorem leaves_map_prune (f : String → String) (p : String → Bool) (t : Tree String) :
    (((t.prune p).map (Tree.map f)).map Tree.leaves).getD [] = (t.leaves.filter p).map f := by
  rw [← Tree.leaves_prune]
  cases t.prune p with
  | none => rfl
  | some kept => exact Tree.leaves_map f kept

theorem place_join (c : Connective) (left right : Option (Tree String)) (filters : List Filter) :
    ((Tree.join c left right).bind fun guids => (place guids filters).1) =
      Tree.join c (left.bind fun guids => (place guids filters).1)
        (right.bind fun guids => (place guids (filters.filter fun f =>
          !((left.map Tree.leaves).getD []).contains f.guid)).1) := by
  cases left with
  | none =>
    have hf : (filters.filter fun f =>
        !(((none : Option (Tree String)).map Tree.leaves).getD []).contains f.guid) = filters :=
      List.filter_eq_self.mpr fun _ _ => rfl
    rw [hf]
    cases right <;> rfl
  | some left =>
    cases right with
    | none => exact (Tree.join_none c _).symm
    | some right => exact place_node c left right filters

theorem place_eq_bind_prune {p : String → Bool}
    (h : ∀ guid ∈ guids.leaves, p guid = false → lastWith? guid filters = none) :
    (place guids filters).1 = (guids.prune p).bind fun kept => (place kept filters).1 := by
  induction guids generalizing filters with
  | leaf guid =>
    cases hp : p guid with
    | true => simp [Tree.prune, hp]
    | false => simp [Tree.prune, hp, place_leaf, h guid (by simp) hp]
  | node c left right ihl ihr =>
    have hl := ihl fun guid hg => h guid (List.mem_append_left _ hg)
    have hr : (place right (remaining left filters)).1 =
        (right.prune p).bind fun kept => (place kept (remaining left filters)).1 := by
      refine ihr fun guid hg hp => ?_
      rw [lastWith?_remaining, h guid (List.mem_append_right _ hg) hp, ite_self]
    have hrem : remaining left filters =
        filters.filter fun f => !(left.leaves.filter p).contains f.guid := by
      refine List.filter_congr fun f hf => ?_
      rw [Bool.not_inj_iff, Bool.eq_iff_iff, List.contains_iff_mem, List.contains_iff_mem,
        List.mem_filter]
      refine ⟨fun hg => ⟨hg, ?_⟩, And.left⟩
      by_contra hp
      have hn := h f.guid (List.mem_append_left _ hg) (by simpa using hp)
      exact lastWith?_eq_none_iff.mp hn (List.mem_map_of_mem hf)
    rw [place_node, hl, hr, Tree.prune, place_join, Tree.leaves_prune, hrem]

/-- Of the guids that are given one name, the guid is the first. -/
def leads (name : String → String) (names : List String) (guid : String) : Bool :=
  names.find? (fun other => name other == name guid) == some guid

theorem leads_append_left (h : guid ∈ names) :
    leads name (names ++ others) guid = leads name names guid := by
  have hs : (names.find? fun other => name other == name guid).isSome :=
    List.find?_isSome.mpr ⟨guid, h, by simp⟩
  rw [leads, List.find?_append, Option.or_of_isSome hs, leads]

theorem leads_append_right (h : guid ∉ names) :
    leads name (names ++ others) guid =
      (leads name others guid && !(names.map name).contains (name guid)) := by
  rw [leads, List.find?_append]
  cases hf : names.find? fun other => name other == name guid with
  | none =>
    have hn : name guid ∉ names.map name := by
      simpa using List.find?_eq_none.mp hf
    rw [Option.none_or, leads, List.contains_eq_mem, decide_eq_false hn, Bool.not_false,
      Bool.and_true]
  | some other =>
    have hm := List.mem_of_find?_eq_some hf
    have ho : name other = name guid := by simpa using List.find?_some hf
    have hn : name guid ∈ names.map name := ho ▸ List.mem_map_of_mem hm
    have hne : other ≠ guid := by
      rintro rfl
      exact h hm
    rw [Option.some_or, List.contains_eq_mem, decide_eq_true hn, Bool.not_true, Bool.and_false,
      beq_eq_false_iff_ne, Ne, Option.some_inj]
    exact hne

theorem mem_map_filter_leads {other : String} :
    other ∈ (names.filter (leads name names)).map name ↔ other ∈ names.map name := by
  constructor
  · intro h
    exact (List.filter_sublist.map name).subset h
  · intro h
    obtain ⟨guid, hg, rfl⟩ := List.mem_map.mp h
    obtain ⟨first, hf⟩ := Option.isSome_iff_exists.mp (List.find?_isSome (p := fun other =>
      name other == name guid) |>.mpr ⟨guid, hg, by simp⟩)
    have hn : name first = name guid := by simpa using List.find?_some hf
    refine List.mem_map.mpr ⟨first, List.mem_filter.mpr ⟨List.mem_of_find?_eq_some hf, ?_⟩, hn⟩
    rw [leads, hn, hf, beq_self_eq_true]

/-- On a tree of distinct guids that are given other names, not all of them different, a leaf is
filled only if no leaf before it has its name. -/
theorem place_map (name : String → String) (hn : guids.leaves.Nodup) (filters : List Filter) :
    (place (guids.map name) filters).1 =
      ((guids.prune (leads name guids.leaves)).map (Tree.map name)).bind fun kept =>
        (place kept filters).1 := by
  induction guids generalizing filters with
  | leaf guid => simp [Tree.prune, leads]
  | node c left right ihl ihr =>
    obtain ⟨hnl, hnr, hd⟩ := List.nodup_append.mp hn
    have hl : left.prune (leads name (left.leaves ++ right.leaves)) =
        left.prune (leads name left.leaves) :=
      Tree.prune_congr fun guid hg => leads_append_left hg
    -- A leaf on the right has to lead there and to have a name that is not given on the left.
    have hr : (right.prune (leads name (left.leaves ++ right.leaves))).map (Tree.map name) =
        ((right.prune (leads name right.leaves)).map (Tree.map name)).bind
          (Tree.prune fun guid => !(left.leaves.map name).contains guid) := by
      have h : right.prune (leads name (left.leaves ++ right.leaves)) =
          right.prune fun guid => leads name right.leaves guid &&
            !(left.leaves.map name).contains (name guid) :=
        Tree.prune_congr fun guid hg => leads_append_right fun h => hd guid h guid hg rfl
      rw [h, ← Tree.prune_bind_prune]
      cases right.prune (leads name right.leaves) with
      | none => rfl
      | some kept =>
        exact (Tree.prune_map name (fun guid => !(left.leaves.map name).contains guid) kept).symm
    have hrem : filters.filter (fun f => !((((left.prune (leads name left.leaves)).map
        (Tree.map name)).map Tree.leaves).getD []).contains f.guid) =
          remaining (left.map name) filters := by
      refine List.filter_congr fun f _ => ?_
      rw [leaves_map_prune, Bool.not_inj_iff, Bool.eq_iff_iff, List.contains_iff_mem,
        List.contains_iff_mem, Tree.leaves_map, mem_map_filter_leads]
    have hdrop : ∀ kept : Tree String, (place kept (remaining (left.map name) filters)).1 =
        (kept.prune fun guid => !(left.leaves.map name).contains guid).bind fun kept =>
          (place kept (remaining (left.map name) filters)).1 := by
      refine fun kept => place_eq_bind_prune fun guid _ hg => ?_
      rw [lastWith?_remaining, if_pos]
      simpa [Tree.leaves_map] using hg
    rw [Tree.map, place_node, ihl hnl, ihr hnr, Tree.prune, Tree.leaves_node, Tree.map_join,
      place_join, hl, hr, hrem, Option.bind_assoc]
    simp only [← hdrop]

end Renamed

section Taken

variable {t : Tree Filter} {f old new k : Filter} {first second : String}

theorem ne_of_idxOf_lt (h : names.idxOf first < names.idxOf second) : first ≠ second := by
  rintro rfl
  exact Nat.lt_irrefl _ h

theorem leads_iff (hg : guid ∈ names) :
    leads name names guid ↔
      ∀ other ∈ names, name other = name guid → names.idxOf guid ≤ names.idxOf other := by
  rw [leads, beq_iff_eq]
  constructor
  · intro hf other _ ho
    obtain ⟨-, before, after, rfl, hb⟩ := List.find?_eq_some_iff_append.mp hf
    have hn : ∀ x, name x = name guid → x ∉ before := fun x hx hm => by simpa [hx] using hb x hm
    rw [List.idxOf_append_of_notMem (hn guid rfl), List.idxOf_append_of_notMem (hn other ho),
      List.idxOf_cons_self]
    omega
  · intro h
    obtain ⟨before, after, rfl, hb⟩ := List.eq_append_cons_of_mem hg
    refine List.find?_eq_some_iff_append.mpr ⟨by simp, before, after, rfl, fun x hx => ?_⟩
    rw [Bool.not_eq_true', beq_eq_false_iff_ne]
    intro he
    have hle := h x (List.mem_append_left _ hx) he
    have hlt := List.idxOf_lt_length_of_mem hx
    rw [List.idxOf_append_of_notMem hb, List.idxOf_append_of_mem hx] at hle
    omega

theorem leads_of_merged (hfirst : first ∈ names)
    (hlt : names.idxOf first < names.idxOf second) (he : name first = name second)
    (hm : ∀ x ∈ names, ∀ y ∈ names, name x = name y →
      x = y ∨ x = first ∧ y = second ∨ x = second ∧ y = first)
    (hg : guid ∈ names) : leads name names guid = (guid != second) := by
  rw [Bool.eq_iff_iff, leads_iff hg, bne_iff_ne]
  constructor
  · rintro h rfl
    have hle := h first hfirst he
    omega
  · intro hne other ho hname
    rcases hm other ho guid hg hname with rfl | ⟨-, rfl⟩ | ⟨rfl, rfl⟩
    · exact Nat.le_refl _
    · exact absurd rfl hne
    · exact Nat.le_of_lt hlt

theorem placed_of_lastWith? (hn : (t.leaves.map Filter.guid).Nodup)
    (hl : ∀ f ∈ t.leaves, lastWith? f.guid filters = some f) :
    (place t.guidTree filters).1 = some t := by
  have hg := leaves_guidTree t
  obtain ⟨u, hu, hp⟩ := exists_placed (hg ▸ hn) fun guid hm => by
    rw [hg] at hm
    obtain ⟨f, hf, rfl⟩ := List.mem_map.mp hm
    exact List.mem_map_of_mem (mem_of_lastWith? (hl f hf))
  rw [hu, hp.unique ⟨rfl, hl⟩]

theorem lastWith?_map_swap (guid : String) (new : Filter)
    (hn : (t.leaves.map Filter.guid).Nodup) (hf : f ∈ t.leaves)
    (h : ∀ g ∈ t.leaves, (t.leaves.map Filter.guid).idxOf f.guid <
      (t.leaves.map Filter.guid).idxOf g.guid → (swap guid new g).guid ≠ (swap guid new f).guid) :
    lastWith? (swap guid new f).guid (t.leaves.map (swap guid new)) = some (swap guid new f) := by
  obtain ⟨before, after, hl⟩ := List.append_of_mem hf
  refine lastWith?_eq_some_iff.mpr
    ⟨rfl, before.map (swap guid new), after.map (swap guid new), by simp [hl], ?_⟩
  intro _ hm
  obtain ⟨g, hg, rfl⟩ := List.mem_map.mp hm
  refine h g (by simp [hl, hg]) ?_
  rw [hl, List.map_append, List.map_cons] at hn ⊢
  obtain ⟨-, hna, hd⟩ := List.nodup_append.mp hn
  have hga := List.mem_map_of_mem (f := Filter.guid) hg
  have hf : f.guid ∉ before.map Filter.guid := fun hm => hd _ hm _ (List.mem_cons_self ..) rfl
  have hg : g.guid ∉ before.map Filter.guid := fun hm =>
    hd _ hm _ (List.mem_cons_of_mem _ hga) rfl
  have hne : f.guid ≠ g.guid := fun he => (List.nodup_cons.mp hna).1 (he ▸ hga)
  rw [List.idxOf_append_of_notMem hf, List.idxOf_append_of_notMem hg, List.idxOf_cons_self,
    List.idxOf_cons_ne _ hne]
  omega

theorem combine_some (filters : List Filter) (guids : Tree String) :
    combine filters (some guids) = ofTree? (place guids filters).1 := by
  rw [combine]
  cases (place guids filters).1 <;> rfl

theorem eq_or_of_renamed {x y a b : String}
    (h : (if x = a then b else x) = if y = a then b else y) :
    x = y ∨ x = a ∧ y = b ∨ x = b ∧ y = a := by
  split at h <;> split at h
  · next hx hy => exact .inl (hx.trans hy.symm)
  · next hx _ => exact .inr (.inl ⟨hx, h.symm⟩)
  · next _ hy => exact .inr (.inr ⟨h, hy⟩)
  · exact .inl h

/-- Of the two places for one guid the second is given up. -/
theorem replace_eq_place (hn : (t.leaves.map Filter.guid).Nodup)
    (hfs : first = new.guid ∧ second = old.guid ∨ first = old.guid ∧ second = new.guid)
    (hfirst : first ∈ t.leaves.map Filter.guid)
    (hlt : (t.leaves.map Filter.guid).idxOf first < (t.leaves.map Filter.guid).idxOf second) :
    (tree t).replace old new =
      ofTree? ((t.prune fun f => f.guid != second).bind fun kept =>
        (place (kept.guidTree.replace old.guid new.guid)
          (t.leaves.map (swap old.guid new))).1) := by
  let name (guid : String) : String := if guid = old.guid then new.guid else guid
  have he : name first = name second := by
    rcases hfs with ⟨rfl, rfl⟩ | ⟨rfl, rfl⟩ <;> simp [name]
  have hm : ∀ x y, name x = name y → x = y ∨ x = first ∧ y = second ∨ x = second ∧ y = first := by
    intro x y h
    rcases hfs with ⟨rfl, rfl⟩ | ⟨rfl, rfl⟩
    · exact (eq_or_of_renamed h).imp_right Or.symm
    · exact eq_or_of_renamed h
  have hl := leaves_guidTree t
  have hkept : t.guidTree.prune (leads name t.guidTree.leaves) =
      (t.prune fun f => f.guid != second).map Tree.guidTree := by
    rw [hl, Tree.guidTree, Tree.prune_map]
    refine congrArg _ (Tree.prune_congr fun f hf => ?_)
    exact leads_of_merged hfirst hlt he (fun x _ y _ => hm x y) (List.mem_map_of_mem hf)
  have hp : (place (t.guidTree.map name) (t.leaves.map (swap old.guid new))).1 = _ :=
    place_map name (hl ▸ hn) _
  rw [replace, combine_some]
  change ofTree? (place (t.guidTree.map name) (t.leaves.map (swap old.guid new))).1 = _
  rw [hp, hkept]
  cases t.prune fun f => f.guid != second <;> rfl

theorem lastWith?_map_swap_of_ne (hn : (t.leaves.map Filter.guid).Nodup) (hf : f ∈ t.leaves)
    (ho : f.guid ≠ old.guid) (hg : f.guid ≠ new.guid) :
    lastWith? f.guid (t.leaves.map (swap old.guid new)) = some f := by
  have h := lastWith?_map_swap old.guid new hn hf ?_
  · rwa [swap_of_ne ho] at h
  intro g _ hlt
  rw [swap_of_ne ho]
  by_cases he : g.guid = old.guid
  · rw [swap_of_eq he]
    exact hg.symm
  · rw [swap_of_ne he]
    exact (ne_of_idxOf_lt hlt).symm

theorem guid_swap_of_eq (hg : guid = new.guid) (f : Filter) :
    (swap guid new f).guid = f.guid := by
  by_cases hf : f.guid = guid
  · rw [swap_of_eq hf, hf, hg]
  · rw [swap_of_ne hf]

theorem lastWith?_of_taken_before (hn : (t.leaves.map Filter.guid).Nodup)
    (ho : old.guid ∈ t.leaves.map Filter.guid)
    (hlt : (t.leaves.map Filter.guid).idxOf new.guid < (t.leaves.map Filter.guid).idxOf old.guid) :
    lastWith? new.guid (t.leaves.map (swap old.guid new)) = some new := by
  obtain ⟨o, hot, hog⟩ := List.mem_map.mp ho
  have h := lastWith?_map_swap old.guid new hn hot ?_
  · rwa [swap_of_eq hog] at h
  intro g _ hbehind
  rw [hog] at hbehind
  rw [swap_of_eq hog, swap_of_ne (ne_of_idxOf_lt hbehind).symm]
  exact (ne_of_idxOf_lt (Nat.lt_trans hlt hbehind)).symm

theorem lastWith?_of_taken_behind (hn : (t.leaves.map Filter.guid).Nodup) (hk : k ∈ t.leaves)
    (hg : k.guid = new.guid)
    (hlt : (t.leaves.map Filter.guid).idxOf old.guid < (t.leaves.map Filter.guid).idxOf new.guid) :
    lastWith? new.guid (t.leaves.map (swap old.guid new)) = some k := by
  rw [← hg] at hlt ⊢
  have hko : k.guid ≠ old.guid := (ne_of_idxOf_lt hlt).symm
  have h := lastWith?_map_swap old.guid new hn hk ?_
  · rwa [swap_of_ne hko] at h
  intro g _ hbehind
  have hne : g.guid ≠ old.guid := (ne_of_idxOf_lt (Nat.lt_trans hlt hbehind)).symm
  rw [swap_of_ne hko, swap_of_ne hne]
  exact (ne_of_idxOf_lt hbehind).symm

/-- Of two places for one guid the first is kept, and on it stands the last filter with the guid. -/
theorem replace_eq_map_swap {u : Tree Filter} {w : Filter} (hn : (t.leaves.map Filter.guid).Nodup)
    (hfs : first = new.guid ∧ second = old.guid ∨ first = old.guid ∧ second = new.guid)
    (hfirst : first ∈ t.leaves.map Filter.guid)
    (hlt : (t.leaves.map Filter.guid).idxOf first < (t.leaves.map Filter.guid).idxOf second)
    (hu : t.prune (fun f => f.guid != second) = some u)
    (hw : lastWith? new.guid (t.leaves.map (swap old.guid new)) = some w) :
    (tree t).replace old new = tree (u.map (swap first w)) := by
  have hleaves := Tree.leaves_of_prune hu
  have hnu := nodup_guids_of_prune hn hu
  have hsecond : second ∉ u.leaves.map Filter.guid := by
    intro hm
    obtain ⟨f, hf, he⟩ := List.mem_map.mp hm
    rw [hleaves, List.mem_filter, bne_iff_ne] at hf
    exact hf.2 he
  have hg := guid_of_lastWith? hw
  have hguids : u.guidTree.replace old.guid new.guid = (u.map (swap first w)).guidTree ∧
      ((u.map (swap first w)).leaves.map Filter.guid).Nodup := by
    rcases hfs with ⟨rfl, rfl⟩ | ⟨rfl, rfl⟩
    · refine ⟨?_, nodup_map_swap hnu (.inr (.inl hg))⟩
      rw [Tree.guidTree_map (guid_swap_of_eq hg.symm)]
      exact Tree.map_eq_self fun guid hm =>
        if_neg fun he => hsecond (by rwa [leaves_guidTree, he] at hm)
    · refine ⟨?_, nodup_map_swap hnu (.inr (.inr (hg ▸ hsecond)))⟩
      rw [guidTree_map_swap, hg]
  rw [replace_eq_place hn hfs hfirst hlt, hu, Option.bind_some, hguids.1,
    placed_of_lastWith? hguids.2, ofTree?]
  intro f hf
  rw [Tree.leaves_map] at hf
  obtain ⟨g, hgu, rfl⟩ := List.mem_map.mp hf
  rw [hleaves, List.mem_filter, bne_iff_ne] at hgu
  by_cases he : g.guid = first
  · rw [swap_of_eq he, hg, hw]
  · rw [swap_of_ne he]
    rcases hfs with ⟨rfl, rfl⟩ | ⟨rfl, rfl⟩
    · exact lastWith?_map_swap_of_ne hn hgu.1 hgu.2 he
    · exact lastWith?_map_swap_of_ne hn hgu.1 he hgu.2

theorem exists_remove_tree (hn : (t.leaves.map Filter.guid).Nodup) (hf : f ∈ t.leaves)
    (hne : f.guid ≠ old.guid) :
    ∃ u, t.prune (fun g => g.guid != old.guid) = some u ∧ (tree t).remove old = tree u ∧
      u.leaves = t.leaves.filter fun g => g.guid != old.guid := by
  obtain ⟨u, hu, -⟩ := Tree.exists_prune_of_mem (p := fun g => g.guid != old.guid) hf
    (bne_iff_ne.mpr hne)
  refine ⟨u, hu, ?_, Tree.leaves_of_prune hu⟩
  rw [remove_eq_keep (c := tree t) fun _ => hn, keep, hu, ofTree?]

theorem filter_map_swap {w : Filter} (hn : (filters.map Filter.guid).Nodup) (hf : f ∈ filters)
    (h : w.guid = f.guid ∨ w.guid ∉ filters.map Filter.guid) :
    (filters.map (swap f.guid w)).filter (fun g => g.guid == w.guid) = [w] ∧
      (filters.map (swap f.guid w)).filter (fun g => g.guid != w.guid) =
        filters.filter fun g => g.guid != w.guid && g.guid != f.guid := by
  obtain ⟨before, after, rfl⟩ := List.append_of_mem hf
  rw [List.map_append, List.map_cons] at h hn
  rw [List.nodup_middle, ← List.map_append, List.nodup_cons] at hn
  have hother : ∀ g ∈ before ++ after, g.guid ≠ f.guid :=
    fun g hg he => hn.1 (he ▸ List.mem_map_of_mem hg)
  have hfree : ∀ g ∈ before ++ after, g.guid ≠ w.guid := by
    rintro g hg he
    rcases h with h | h
    · exact hother g hg (he.trans h)
    · refine h (he ▸ ?_)
      rcases List.mem_append.mp hg with hg | hg
      · exact List.mem_append_left _ (List.mem_map_of_mem hg)
      · exact List.mem_append_right _ (List.mem_cons_of_mem _ (List.mem_map_of_mem hg))
  obtain ⟨hbefore, hafter⟩ := List.forall_mem_append.mp hother
  have hswap : (before ++ f :: after).map (swap f.guid w) = before ++ w :: after := by
    rw [List.map_append, List.map_cons, swap_of_eq rfl,
      List.map_congr_left fun g hg => swap_of_ne (hbefore g hg),
      List.map_congr_left fun g hg => swap_of_ne (hafter g hg), List.map_id', List.map_id']
  obtain ⟨hbefore', hafter'⟩ := List.forall_mem_append.mp hfree
  rw [hswap]
  constructor
  · rw [List.filter_append, List.filter_cons_of_pos (by simp),
      List.filter_eq_nil_iff.mpr fun g hg => by simpa using hbefore' g hg,
      List.filter_eq_nil_iff.mpr fun g hg => by simpa using hafter' g hg, List.nil_append]
  · have hcongr : ∀ g ∈ before ++ after,
        (g.guid != w.guid) = (g.guid != w.guid && g.guid != f.guid) := by
      intro g hg
      rw [bne_iff_ne.mpr (hother g hg), Bool.and_true]
    obtain ⟨hl, hr⟩ := List.forall_mem_append.mp hcongr
    rw [List.filter_append, List.filter_append, List.filter_cons_of_neg (by simp),
      List.filter_cons_of_neg (by simp), List.filter_congr hl, List.filter_congr hr]

/-- One guid stands before another. -/
def StandsBefore (c : Collection) (guid other : String) : Prop :=
  c.guids.idxOf guid < c.guids.idxOf other

instance (c : Collection) (guid other : String) : Decidable (c.StandsBefore guid other) :=
  inferInstanceAs (Decidable (_ < _))

theorem replace_of_standsBefore (hn : (t.leaves.map Filter.guid).Nodup)
    (ho : old.guid ∈ t.leaves.map Filter.guid) (hk : k ∈ t.leaves) (hg : k.guid = new.guid)
    (h : (tree t).StandsBefore new.guid old.guid) :
    ∃ t', (tree t).replace old new = tree t' ∧
      t'.leaves = (t.leaves.filter fun f => f.guid != old.guid).map (swap k.guid new) ∧
      (tree t).replace old new = ((tree t).remove old).replace k new := by
  have hne : k.guid ≠ old.guid := hg ▸ ne_of_idxOf_lt h
  have hfirst : new.guid ∈ t.leaves.map Filter.guid := hg ▸ List.mem_map_of_mem hk
  obtain ⟨u, hu, hremove, hleaves⟩ := exists_remove_tree hn hk hne
  have hnu := nodup_guids_of_prune hn hu
  have hreplace := replace_eq_map_swap hn (.inl ⟨rfl, rfl⟩) hfirst h hu
    (lastWith?_of_taken_before hn ho h)
  rw [← hg] at hreplace
  refine ⟨_, hreplace, ?_, ?_⟩
  · rw [Tree.leaves_map, hleaves]
  · rw [hreplace, hremove, replace_tree hnu (.inr (.inl hg.symm))]

theorem replace_of_standsBehind (hn : (t.leaves.map Filter.guid).Nodup)
    (ho : old.guid ∈ t.leaves.map Filter.guid) (hk : k ∈ t.leaves) (hg : k.guid = new.guid)
    (h : (tree t).StandsBefore old.guid new.guid) :
    ∃ t', (tree t).replace old new = tree t' ∧
      t'.leaves = (t.leaves.filter fun f => f.guid != k.guid).map (swap old.guid k) ∧
      (tree t).replace old new = ((tree t).remove k).replace old k := by
  obtain ⟨o, hot, hog⟩ := List.mem_map.mp ho
  have hne : o.guid ≠ k.guid := by
    rw [hog, hg]
    exact ne_of_idxOf_lt h
  obtain ⟨u, hu, hremove, hleaves⟩ := exists_remove_tree hn hot hne
  have hnu := nodup_guids_of_prune hn hu
  have hfree : k.guid ∉ u.leaves.map Filter.guid := by
    intro hm
    obtain ⟨f, hf, he⟩ := List.mem_map.mp hm
    rw [hleaves, List.mem_filter, bne_iff_ne] at hf
    exact hf.2 he
  have hreplace := replace_eq_map_swap hn (.inr ⟨rfl, rfl⟩) ho h (hg ▸ hu)
    (lastWith?_of_taken_behind hn hk hg h)
  refine ⟨_, hreplace, ?_, ?_⟩
  · rw [Tree.leaves_map, hleaves]
  · rw [hreplace, hremove, replace_tree hnu (.inr (.inr hfree))]

/-- A filter whose guid a further leaf has is put in the place of another. All other leaves stay, in
their order, and one leaf has the guid. If the guid stood before the place, it is the new filter
that has it afterwards; if behind, the leaf that had it moves to the place and the new one is
lost. -/
theorem replace_with_taken_guid (t : Tree Filter) (hn : (t.leaves.map Filter.guid).Nodup)
    (old new k : Filter) (ho : old.guid ∈ (tree t).guids) (hk : k ∈ t.leaves)
    (hg : k.guid = new.guid) (hne : new.guid ≠ old.guid) :
    ∃ t', (tree t).replace old new = tree t' ∧
      t'.leaves.filter (fun f => f.guid == new.guid) =
        [if (tree t).StandsBefore new.guid old.guid then new else k] ∧
      t'.leaves.filter (fun f => f.guid != new.guid) =
        t.leaves.filter (fun f => f.guid != new.guid && f.guid != old.guid) ∧
      (tree t).replace old new =
        if (tree t).StandsBefore new.guid old.guid then ((tree t).remove old).replace k new
        else ((tree t).remove k).replace old k := by
  obtain ⟨o, hot, hog⟩ := List.mem_map.mp ho
  by_cases h : (tree t).StandsBefore new.guid old.guid
  · obtain ⟨t', hreplace, hleaves, hshape⟩ := replace_of_standsBefore hn ho hk hg h
    have hkept : k ∈ t.leaves.filter fun f => f.guid != old.guid := by
      rw [List.mem_filter, bne_iff_ne, hg]
      exact ⟨hk, hne⟩
    obtain ⟨hone, hothers⟩ := filter_map_swap (w := new)
      (hn.sublist (List.filter_sublist.map _)) hkept (.inl hg.symm)
    rw [if_pos h, if_pos h]
    rw [← hleaves] at hone hothers
    refine ⟨t', hreplace, hone, ?_, hshape⟩
    rw [hothers, List.filter_filter]
    exact List.filter_congr fun f _ => by rw [hg, Bool.and_self]
  · have hb : (tree t).StandsBefore old.guid new.guid := by
      refine Nat.lt_of_le_of_ne (Nat.le_of_not_lt h) fun he => hne ?_
      exact ((List.idxOf_inj ho).mp he).symm
    obtain ⟨t', hreplace, hleaves, hshape⟩ := replace_of_standsBehind hn ho hk hg hb
    have hkept : o ∈ t.leaves.filter fun f => f.guid != k.guid := by
      rw [List.mem_filter, bne_iff_ne, hog, hg]
      exact ⟨hot, hne.symm⟩
    have hfree : k.guid ∉ (t.leaves.filter fun f => f.guid != k.guid).map Filter.guid := by
      simp
    obtain ⟨hone, hothers⟩ := filter_map_swap (w := k)
      (hn.sublist (List.filter_sublist.map _)) hkept (.inr hfree)
    rw [if_neg h, if_neg h]
    rw [hog, ← hleaves, hg] at hone hothers
    refine ⟨t', hreplace, hone, ?_, hshape⟩
    rw [hothers, List.filter_filter]
    exact List.filter_congr fun f _ => by rw [Bool.and_right_comm, Bool.and_self]

theorem replace_with_taken_guid_before :
    let named (guid value : String) : Filter := .ofKind (.custom value .null) guid
    let leaf (guid : String) : Tree Filter := .leaf (named guid "0")
    let t : Tree Filter := .node .or (leaf "a") (.node .and (leaf "b") (leaf "c"))
    let old := named "c" "1"
    let new := named "a" "2"
    (t.leaves.map Filter.guid).Nodup ∧ old.guid ∈ (tree t).guids ∧ named "a" "0" ∈ t.leaves ∧
      (named "a" "0").guid = new.guid ∧ new.guid ≠ old.guid ∧
      ∃ t', (tree t).replace old new = tree t' ∧
        t'.leaves.filter (fun f => f.guid == "a") = [new] ∧
        t'.leaves.filter (fun f => f.guid != "a") = [named "b" "0"] ∧
        tree t' = ((tree t).remove old).replace (named "a" "0") new := by
  intro named leaf t old new
  have hn : (t.leaves.map Filter.guid).Nodup := by decide
  have ho : old.guid ∈ (tree t).guids := by decide
  have hk : named "a" "0" ∈ t.leaves := by simp [t, leaf]
  have hne : new.guid ≠ old.guid := by decide
  obtain ⟨t', ht, hone, hothers, hshape⟩ := replace_with_taken_guid t hn old new _ ho hk rfl hne
  have hb : (tree t).StandsBefore new.guid old.guid := by decide
  rw [if_pos hb] at hone hshape
  exact ⟨hn, ho, hk, rfl, hne, t', ht, hone, hothers, ht ▸ hshape⟩

/-- The guid stands behind the place, and the new filter is on no leaf afterwards. -/
theorem replace_loses_new :
    let named (guid value : String) : Filter := .ofKind (.custom value .null) guid
    let t : Tree Filter := .node .and (.leaf (named "a" "0")) (.leaf (named "b" "0"))
    let new := named "b" "1"
    (t.leaves.map Filter.guid).Nodup ∧ (named "a" "0").guid ∈ (tree t).guids ∧
      new.guid ∈ (tree t).guids ∧ new.guid ≠ (named "a" "0").guid ∧
      (tree t).replace (named "a" "0") new = tree (.leaf (named "b" "0")) ∧
      new ∉ ((tree t).replace (named "a" "0") new).toList := by
  intro named t new
  have ht : (tree t).replace (named "a" "0") new = tree (.leaf (named "b" "0")) := rfl
  refine ⟨by decide, by decide, by decide, by decide, ht, fun hm => ?_⟩
  rw [ht, toList_tree, Tree.leaves_leaf, List.mem_singleton] at hm
  exact absurd (congrArg Filter.dimension hm) (by decide)

end Taken

end Collection

end QueryFilter
