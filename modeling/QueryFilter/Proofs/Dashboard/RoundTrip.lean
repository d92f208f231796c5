import QueryFilter.Dashboard
import QueryFilter.Proofs.Dashboard.Grammar
import QueryFilter.Proofs.Filter.Settings

/-! # Documents written and read again

The document of a collection is read as a collection of the same form, in which every filter is read
from its own item.
-/

namespace QueryFilter

/-- The collection with every filter replaced in its place. -/
def Collection.map (g : Filter → Filter) : Collection → Collection
  | .list filters => .list (filters.map g)
  | .tree relations => .tree (relations.map g)

namespace Dashboard

variable {known : List String} {filters : List Filter} {f : Filter}

/-- The filter that the item written for a filter is read as. The item has a guid of its own, so the
spare one is not used. -/
def reread (spare : String) (f : Filter) : Filter := readItem spare (writeItem f)

section Reread

theorem guid_reread (spare : String) (f : Filter) : (reread spare f).guid = f.guid :=
  Filter.guid_ofPayload ..

theorem map_guid_reread (spare : String) (filters : List Filter) :
    (filters.map (reread spare)).map Filter.guid = filters.map Filter.guid := by
  rw [List.map_map]
  exact List.map_congr_left fun f _ => guid_reread spare f

end Reread

theorem withGuids_map_writeItem (supply : Nat → String) (position : Nat) (filters : List Filter) :
    withGuids supply position (filters.map writeItem) =
      filters.map fun f => (f.guid, writeItem f) := by
  induction filters with
  | nil => rfl
  | cons f filters ih =>
    have hi : instanceId? (writeItem f) = some f.guid := rfl
    rw [List.map_cons, withGuids, hi, List.map_cons, ← ih]

theorem expression_writeNode (t : Tree String) (hk : ∀ guid ∈ t.leaves, guid ∈ known) :
    Expression known (writeNode t) t := by
  induction t with
  | leaf guid => exact .leaf rfl (hk guid (by simp))
  | node c left right ihl ihr =>
    refine .node rfl rfl ?_ rfl rfl (ihl fun guid hg => hk guid ?_) (ihr fun guid hg => hk guid ?_)
    · exact List.forall₂_same.mpr fun _ _ => .inl rfl
    · exact List.mem_append_left _ hg
    · exact List.mem_append_right _ hg

theorem relate_writeNode {t : Tree Filter} (hn : (t.leaves.map Filter.guid).Nodup) :
    relate t.leaves (some (writeNode t.guidTree)) = .ok (.tree t) := by
  have hl := Collection.leaves_guidTree t
  obtain ⟨relations, hr, hp⟩ := exists_placed_of_expression
    (expression_writeNode t.guidTree fun guid hg => hl ▸ hg) (hl ▸ hn)
  have hu : unmentioned t.leaves t.guidTree = [] := by
    refine List.eq_nil_iff_forall_not_mem.mpr fun guid hg => ?_
    obtain ⟨hm, hnot⟩ := mem_unmentioned_iff.mp hg
    exact hnot (hl ▸ hm)
  rw [hu] at hp
  rw [hr, hp.unique (Collection.placed_guidTree hn fun f hf => hf)]

theorem read_write_eq (supply : Nat → String) (spare : String) (c : Collection) :
    read supply (write c) = relate (c.toList.map (reread spare)) (writeRelations? c) := by
  have hr : ((withGuids supply 0 (c.toList.map writeItem)).map fun entry =>
      readItem entry.1 entry.2) = c.toList.map (reread spare) := by
    rw [withGuids_map_writeItem, List.map_map]
    rfl
  rw [← hr]
  cases c <;> rfl

/-- The document of a list, or of a tree with distinct guids, is read as a collection of the same
form, in which every filter is read from its own item; guids and flags are unchanged. -/
theorem read_write (supply : Nat → String) (spare : String) (c : Collection)
    (hn : c.isTree → c.guids.Nodup) :
    read supply (write c) = .ok (c.map (reread spare)) ∧
      ∀ f, (reread spare f).guid = f.guid ∧
        (reread spare f).settings.disabled = f.settings.disabled ∧
        (reread spare f).settings.locked = f.settings.locked := by
  refine ⟨?_, fun f => ⟨guid_reread spare f, rfl, rfl⟩⟩
  rw [read_write_eq supply spare]
  cases c with
  | list filters => rfl
  | tree t =>
    have hn : ((t.map (reread spare)).leaves.map Filter.guid).Nodup := by
      rw [Tree.leaves_map, map_guid_reread]
      exact hn rfl
    have h := relate_writeNode hn
    rwa [Tree.leaves_map, Tree.guidTree_map (guid_reread spare)] at h

theorem read_write_nested :
    let column : Column := { expression := "[T.A]", title := "A", datatype := .text }
    let named (guid : String) : Filter :=
      ⟨.text column ⟨.contains, true⟩ "x", { guid, disabled := true, locked := guid == "b" }⟩
    let c : Collection := .tree (.node .or (.leaf (named "a"))
      (.node .and (.leaf (named "b")) (.leaf (.ofKind (.custom "[T.B]" .null) "c"))))
    (c.isTree → c.guids.Nodup) ∧
      read (fun _ => "spare") (write c) = .ok (c.map (reread "spare")) ∧
      ∀ f, (reread "spare" f).guid = f.guid ∧
        (reread "spare" f).settings.disabled = f.settings.disabled ∧
        (reread "spare" f).settings.locked = f.settings.locked := by
  intro column named c
  have hn : c.isTree → c.guids.Nodup := by decide
  exact ⟨hn, read_write (fun _ => "spare") "spare" c hn⟩

end Dashboard

end QueryFilter
