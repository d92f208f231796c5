import QueryFilter.Proofs.Dashboard.Grammar
import QueryFilter.Proofs.Relations.Guids

/-! # Sessions on documents

A tree that is read from a document has distinct guids, and so has every tree that an edit makes,
whatever it was made from. Main statement: no state of a session that starts from a document is a
tree that repeats a guid, and every edit of a tree leaves just the guids that it should.
-/

namespace QueryFilter.Dashboard

open Collection

variable {filters : List Filter} {t : Tree Filter} {c : Collection}

theorem nodup_of_relate {node? : Option Json} (h : relate filters node? = .ok (.tree t)) :
    (t.leaves.map Filter.guid).Nodup := by
  cases node? with
  | none => cases h
  | some node =>
    by_cases hn : node = .null
    · subst hn
      cases h
    · have hr := h
      rw [relate_some hn] at hr
      obtain ⟨⟨guids, met⟩, hr, -⟩ := map_eq_ok_iff.mp hr
      obtain ⟨he, hf, -⟩ := expression_of_readNode hr
      obtain ⟨relations, hr, hp⟩ := exists_placed_of_expression he hf.1
      obtain rfl : t = relations := by simpa using h.symm.trans hr
      rw [hp.map_leaves]
      exact nodup_leaves_unmentioned hf.1

theorem nodup_of_read {supply : Nat → String} {document : Json}
    (h : read supply document = .ok c) (ht : c.isTree) : c.guids.Nodup := by
  obtain ⟨items, -, h⟩ := bind_eq_ok_iff.mp h
  cases c with
  | list filters => cases ht
  | tree t => exact nodup_of_relate h

/-- An edit of any tree, even of one that repeats guids, leaves a tree with distinct guids or the
empty list, and just the guids that it should. A tree that relations are read as has distinct guids,
and so has every tree in a session that starts from a document. -/
theorem distinct_guids_throughout :
    (∀ (t : Tree Filter) (e : Edit),
      ((e.apply (.tree t)).isTree → (e.apply (.tree t)).guids.Nodup) ∧
        (e.apply (.tree t)).guidSet = e.guidsAfter (Collection.tree t).guidSet ∧
        (e.apply (.tree t) = .list [] ↔ e.guidsAfter (Collection.tree t).guidSet = ∅)) ∧
    (∀ (filters : List Filter) (node? : Option Json) (t : Tree Filter),
      relate filters node? = .ok (.tree t) → (t.leaves.map Filter.guid).Nodup) ∧
    ∀ (supply : Nat → String) (document : Json) (c : Collection) (edits : List Edit),
      read supply document = .ok c →
        ∀ state ∈ states c edits, state.isTree → state.guids.Nodup := by
  refine ⟨fun t e => ⟨nodup_guids_apply e, guidSet_apply t e, ?_⟩, ?_, ?_⟩
  · obtain ⟨next, h⟩ := exists_gathers_apply t e
    rw [h.eq_list_nil_iff_guidSet, guidSet_apply]
  · intro filters node? t h
    exact nodup_of_relate h
  · intro supply document c edits h state hs ht
    exact nodup_guids_of_mem_states (nodup_of_read h) hs ht

theorem distinct_guids_throughout_repeated :
    let named (guid value : String) : Filter := .ofKind (.custom value .null) guid
    let t : Tree Filter := .node .or (.leaf (named "a" "1"))
      (.node .and (.leaf (named "b" "2")) (.leaf (named "a" "3")))
    let collide : Edit := .replace (named "b" "") (named "a" "4")
    let document : Json := .object
      [("filters", .array [.object [("instanceid", .string "a")],
          .object [("instanceid", .string "b")], .object [("instanceid", .string "a")]]),
        ("filterRelations", .object [("instanceid", .string "b")])]
    let spare : Nat → String := fun _ => "spare"
    (collide.apply (.tree t)).isTree ∧ (collide.apply (.tree t)).guids.Nodup ∧
      ∃ c, read spare document = .ok c ∧ c.isTree ∧
        ∀ state ∈ states c [collide, .remove (named "a" "")], state.isTree → state.guids.Nodup := by
  intro named t collide document spare
  obtain ⟨h, -, hs⟩ := distinct_guids_throughout
  have ht : (collide.apply (.tree t)).isTree := by decide
  exact ⟨ht, (h t collide).1 ht, _, rfl, rfl, hs spare document _ _ rfl⟩

end QueryFilter.Dashboard
