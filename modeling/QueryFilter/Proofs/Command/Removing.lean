import QueryFilter.Command.Action
import QueryFilter.Proofs.Dashboard.Sessions
import QueryFilter.Proofs.Relations.Keeping

/-! # Removing filters from a document

The command removes filters one after the other, each from what the one before left. Main statement:
it succeeds on guids that are all there and named once, in whatever order, and then does what one
removal of all does; otherwise it fails at the first guid that is not there or was named before.
-/

namespace QueryFilter.Command

open Collection

variable {supply : Nat → String} {document : Json} {filters : Collection} {guids : List String}

theorem removeAll_named (hc : filters.isTree → filters.guids.Nodup) (guids : List String) :
    filters.removeAll (filters.toList.filter fun f => guids.contains f.guid) =
      filters.keep fun f => !guids.contains f.guid := by
  rw [removeAll_eq_keep hc]
  refine keep_congr fun f hf => congrArg not ?_
  rw [Bool.eq_iff_iff, List.any_eq_true]
  constructor
  · rintro ⟨r, hr, he⟩
    rw [← beq_iff_eq.mp he]
    exact (List.mem_filter.mp hr).2
  · intro hg
    exact ⟨f, List.mem_filter.mpr ⟨hf, hg⟩, beq_self_eq_true _⟩

theorem editRelations_eq (hr : Dashboard.read supply document = .ok filters) (guids : List String) :
    editRelations supply document guids =
      (filters.removeGuids guids).mapError .unknownFilter := by
  rw [editRelations, hr]

theorem editRelations_of_namesOnce (hr : Dashboard.read supply document = .ok filters)
    (h : filters.NamesOnce guids) :
    editRelations supply document guids = .ok (filters.keep fun f => !guids.contains f.guid) := by
  rw [editRelations_eq hr, removeGuids_of_namesOnce (Dashboard.nodup_of_read hr) h]
  rfl

theorem editRelations_of_not_namesOnce (hr : Dashboard.read supply document = .ok filters)
    (h : ¬filters.NamesOnce guids) :
    ∃ before guid after, guids = before ++ guid :: after ∧ filters.NamesOnce before ∧
      (guid ∉ filters.guids ∨ guid ∈ before) ∧
      editRelations supply document guids = .error (.unknownFilter guid) := by
  obtain ⟨before, guid, after, rfl, hb, hg⟩ := exists_refused_of_not_namesOnce h
  refine ⟨before, guid, after, rfl, hb, hg, ?_⟩
  rw [editRelations_eq hr, removeGuids_of_refused (Dashboard.nodup_of_read hr) hb hg]
  rfl

theorem editRelations_perm (hr : Dashboard.read supply document = .ok filters)
    (h : filters.NamesOnce guids) {others : List String} (hp : others.Perm guids) :
    editRelations supply document others = editRelations supply document guids := by
  have ho : filters.NamesOnce others :=
    ⟨hp.nodup_iff.mpr h.1, fun guid hg => h.2 guid (hp.mem_iff.mp hg)⟩
  rw [editRelations_of_namesOnce hr h, editRelations_of_namesOnce hr ho]
  refine congrArg _ (keep_congr fun f _ => congrArg not ?_)
  rw [Bool.eq_iff_iff, List.contains_iff_mem, List.contains_iff_mem, hp.mem_iff]

/-- Removing filters from a document succeeds just if each of the guids is there and named once.
Then all of them are removed as if at once, in whatever order they are named; otherwise the first
guid that is not there, or was named before, is reported. -/
theorem editRelations_removes_at_once (hr : Dashboard.read supply document = .ok filters)
    (guids : List String) :
    ((∃ result, editRelations supply document guids = .ok result) ↔
      guids.Nodup ∧ ∀ guid ∈ guids, guid ∈ filters.guids) ∧
    (∀ result, editRelations supply document guids = .ok result →
      result = filters.removeAll (filters.toList.filter fun f => guids.contains f.guid) ∧
        ∀ others : List String, others.Perm guids →
          editRelations supply document others = .ok result) ∧
    ((∀ result, editRelations supply document guids ≠ .ok result) →
      ∃ before guid after, guids = before ++ guid :: after ∧
        (before.Nodup ∧ ∀ guid ∈ before, guid ∈ filters.guids) ∧
        (guid ∉ filters.guids ∨ guid ∈ before) ∧
        editRelations supply document guids = .error (.unknownFilter guid)) := by
  by_cases h : filters.NamesOnce guids
  · have hk := editRelations_of_namesOnce hr h
    refine ⟨iff_of_true ⟨_, hk⟩ h, ?_, fun hn => absurd hk (hn _)⟩
    intro result he
    obtain rfl := Except.ok.inj (hk.symm.trans he)
    refine ⟨(removeAll_named (Dashboard.nodup_of_read hr) guids).symm, ?_⟩
    intro others hp
    rw [editRelations_perm hr h hp, hk]
  · obtain ⟨before, guid, after, hs, hb, hg, he⟩ := editRelations_of_not_namesOnce hr h
    have hn : ∀ result, editRelations supply document guids ≠ .ok result := by
      intro result ho
      cases he.symm.trans ho
    refine ⟨iff_of_false (fun ⟨result, ho⟩ => hn result ho) h, ?_, ?_⟩
    · intro result ho
      exact absurd ho (hn result)
    · intro _
      exact ⟨before, guid, after, hs, hb, hg, he⟩

theorem editRelations_removes_at_once_tree :
    let item (guid : String) : Json := .object [("instanceid", .string guid)]
    let document : Json := .object
      [("filters", .array [item "a", item "b", item "c"]),
        ("filterRelations", item "b")]
    let spare : Nat → String := fun _ => "spare"
    let leaf (guid : String) : Tree Filter := .leaf (Dashboard.readItem guid (item guid))
    let filters : Collection := .tree (.node .and (.node .and (leaf "b") (leaf "a")) (leaf "c"))
    Dashboard.read spare document = .ok filters ∧
      editRelations spare document ["c", "a"] =
        .ok (filters.removeAll (filters.toList.filter fun f => ["c", "a"].contains f.guid)) ∧
      editRelations spare document ["a", "c"] = editRelations spare document ["c", "a"] := by
  intro item document spare leaf filters
  have hread : Dashboard.read spare document = .ok filters := rfl
  obtain ⟨⟨-, hs⟩, hr, -⟩ := editRelations_removes_at_once hread ["c", "a"]
  obtain ⟨result, he⟩ := hs (by decide)
  obtain ⟨hr, hp⟩ := hr result he
  exact ⟨hread, hr ▸ he, (hp ["a", "c"] (by decide)).trans he.symm⟩

end QueryFilter.Command
