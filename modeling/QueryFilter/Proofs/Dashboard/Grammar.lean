import QueryFilter.Dashboard
import QueryFilter.Proofs.Json.Parts
import QueryFilter.Proofs.Outcome
import QueryFilter.Proofs.Relations.Editing

/-! # The grammar of relations

What a node must be to be read as relations between filters, and which tree it stands for. Main
statement: exactly the nodes of the grammar are read, and no filter is lost.
-/

namespace QueryFilter

open Json (Fields)

theorem Json.exists_fields_of_get? {node value : Json} {key : String}
    (h : node.get? key = some value) : ∃ fields, node = .object fields := by
  cases node with
  | object fields => exact ⟨fields, rfl⟩
  | _ => cases h

/-- The text is the connective's word, each letter a capital or a small one. -/
def Connective.SpelledBy (c : Connective) (text : String) : Prop :=
  List.Forall₂ (fun letter capital => letter = capital ∨ letter = capital.toLower)
    text.toList c.word.toList

namespace Dashboard

variable {known met met' : List String} {node : Json} {t : Tree String} {c : Connective}

section Spelling

/-- Capitals and small letters are apart by a fixed number of code points. -/
theorem toUpper_eq_iff {letter capital : Char} (h : capital.isUpper) :
    letter.toUpper = capital ↔ letter = capital ∨ letter = capital.toLower := by
  have hA : 'A'.val.toNat = 65 := rfl
  have hZ : 'Z'.val.toNat = 90 := rfl
  have ha : 'a'.val.toNat = 97 := rfl
  have hz : 'z'.val.toNat = 122 := rfl
  delta Char.isUpper at h
  delta Char.toUpper Char.toLower
  simp only [decide_eq_true_eq, ge_iff_le, UInt32.le_iff_toNat_le] at h ⊢
  rw [dif_pos h]
  split
  all_goals
    simp only [Char.ext_iff, ← UInt32.toNat_inj, UInt32.toNat_add, UInt32.toNat_sub]
    omega

theorem map_toUpper_eq_word_iff {text : String} :
    text.map Char.toUpper = c.word ↔ c.SpelledBy text := by
  have hw : ∀ capital ∈ c.word.toList, capital.isUpper := by
    cases c <;> simp [Connective.word]
  rw [← String.toList_inj, String.toList_map, Connective.SpelledBy, ← List.forall₂_eq_eq_eq,
    List.forall₂_map_left_iff]
  exact forall₂_congr_of_mem fun letter capital hc => toUpper_eq_iff (hw capital hc)

theorem readConnective_eq_ok_iff {found : Json} :
    readConnective found = .ok c ↔ ∃ text, found = .string text ∧ c.SpelledBy text := by
  cases found with
  | string text =>
    simp only [readConnective, Json.string.injEq, exists_eq_left', ← map_toUpper_eq_word_iff]
    by_cases ha : text.map Char.toUpper = Connective.and.word
    · rw [if_pos ha, ha]
      cases c <;> simp [Connective.word]
    · rw [if_neg ha]
      by_cases ho : text.map Char.toUpper = Connective.or.word
      · rw [if_pos ho, ho]
        cases c <;> simp [Connective.word]
      · rw [if_neg ho]
        cases c <;> simp [ha, ho]
  | _ => simp [readConnective]

end Spelling

/-- The node stands for the tree: a leaf has the guid of a filter for its instance id, any other
node has no instance id, an operator and two branches. -/
inductive Expression (known : List String) : Json → Tree String → Prop
  | leaf {node : Json} {guid : String} :
      node.get? "instanceid" = some (.string guid) → guid ∈ known →
      Expression known node (.leaf guid)
  | node {node left right : Json} {word : String} {c : Connective} {l r : Tree String} :
      node.get? "instanceid" = none → node.get? "operator" = some (.string word) →
      c.SpelledBy word → node.get? "left" = some left → node.get? "right" = some right →
      Expression known left l → Expression known right r →
      Expression known node (.node c l r)

theorem Expression.mem_known (h : Expression known node t) : ∀ guid ∈ t.leaves, guid ∈ known := by
  induction h with
  | leaf _ hk => simpa using hk
  | node _ _ _ _ _ _ _ ihl ihr => exact List.forall_mem_append.mpr ⟨ihl, ihr⟩

theorem Expression.ne_null (h : Expression known node t) : node ≠ .null := by
  rintro rfl
  cases h with
  | leaf hi => cases hi
  | node _ ho => cases ho

theorem readLeaf_eq_ok_iff {value : Json} :
    readLeaf known node value met = .ok (t, met') ↔
      ∃ guid, value = .string guid ∧ guid ∈ known ∧ guid ∉ met ∧
        t = .leaf guid ∧ met' = guid :: met := by
  cases value with
  | string guid =>
    simp only [readLeaf, Json.string.injEq, exists_eq_left']
    by_cases hk : guid ∈ known
    · by_cases hm : guid ∈ met
      · simp [hk, hm]
      · simp [hk, hm, eq_comm]
    · simp [hk]
  | _ => simp [readLeaf]

theorem readNode_object (known met : List String) (fields : Fields) :
    readNode known (.object fields) met =
      match fields.get? "instanceid" with
      | some value => readLeaf known (.object fields) value met
      | none =>
        match fields.get? "operator", fields.get? "left", fields.get? "right" with
        | some operator, some left, some right => do
          let connective ← readConnective operator
          let (leftTree, met) ← readNode known left met
          let (rightTree, met) ← readNode known right met
          return (.node connective leftTree rightTree, met)
        | _, _, _ => .error (.invalidNode (.object fields)) := by
  rw [readNode, branch?_eq, branch?_eq]
  cases fields.get? "instanceid" with
  | some value => rfl
  | none =>
    cases fields.get? "operator" <;> cases fields.get? "left" <;> cases fields.get? "right" <;> rfl

/-- No leaf repeats another one or was met before. -/
def Fresh (met : List String) (t : Tree String) : Prop :=
  t.leaves.Nodup ∧ ∀ guid ∈ t.leaves, guid ∉ met

theorem fresh_node_iff {l r : Tree String} :
    Fresh met (.node c l r) ↔ Fresh met l ∧ Fresh (l.leaves.reverse ++ met) r := by
  simp only [Fresh, Tree.leaves_node, List.nodup_append, List.mem_append, List.mem_reverse, not_or]
  constructor
  · rintro ⟨⟨hl, hr, hd⟩, hm⟩
    exact ⟨⟨hl, fun guid h => hm guid (.inl h)⟩, hr,
      fun guid h => ⟨fun hg => hd guid hg guid h rfl, hm guid (.inr h)⟩⟩
  · rintro ⟨⟨hl, hlm⟩, hr, hrm⟩
    refine ⟨⟨hl, hr, ?_⟩, ?_⟩
    · rintro guid hg _ h rfl
      exact (hrm guid h).1 hg
    · rintro guid (h | h)
      · exact hlm guid h
      · exact (hrm guid h).2

theorem expression_of_readNode : ∀ {node : Json} {met met' : List String} {t : Tree String},
    readNode known node met = .ok (t, met') →
      Expression known node t ∧ Fresh met t ∧ met' = t.leaves.reverse ++ met := by
  intro node
  induction node using Json.condition_induction with
  | other node hn =>
    intro met met' t h
    cases node with
    | object => cases hn
    | _ => cases h
  | object fields ih =>
    intro met met' t h
    rw [readNode_object] at h
    split at h
    · next value hi =>
      obtain ⟨guid, rfl, hk, hm, rfl, rfl⟩ := readLeaf_eq_ok_iff.mp h
      exact ⟨.leaf hi hk, ⟨List.nodup_singleton _, by simpa using hm⟩, rfl⟩
    · next hi =>
      split at h
      · next operator left right ho hl hr =>
        simp only [bind_eq_ok_iff] at h
        obtain ⟨c, hc, ⟨l, met₁⟩, hleft, ⟨r, met₂⟩, hright, h⟩ := h
        cases h
        obtain ⟨word, rfl, hw⟩ := readConnective_eq_ok_iff.mp hc
        obtain ⟨hel, hfl, rfl⟩ := ih left (.field (Fields.mem_of_get? hl)) hleft
        obtain ⟨her, hfr, rfl⟩ := ih right (.field (Fields.mem_of_get? hr)) hright
        exact ⟨.node hi ho hw hl hr hel her, fresh_node_iff.mpr ⟨hfl, hfr⟩, by simp⟩
      · cases h

theorem readNode_of_expression (h : Expression known node t) (hf : Fresh met t) :
    readNode known node met = .ok (t, t.leaves.reverse ++ met) := by
  induction h generalizing met with
  | leaf hi hk =>
    obtain ⟨fields, rfl⟩ := Json.exists_fields_of_get? hi
    have hi : Fields.get? fields "instanceid" = _ := hi
    rw [readNode_object, hi]
    exact readLeaf_eq_ok_iff.mpr ⟨_, rfl, hk, by simpa using hf.2, rfl, rfl⟩
  | node hi ho hw hl hr _ _ ihl ihr =>
    obtain ⟨fields, rfl⟩ := Json.exists_fields_of_get? ho
    obtain ⟨hfl, hfr⟩ := fresh_node_iff.mp hf
    have hc := readConnective_eq_ok_iff.mpr ⟨_, rfl, hw⟩
    simp only [Json.get?] at hi ho hl hr
    rw [readNode_object, hi, ho, hl, hr]
    simp [hc, ihl hfl, ihr hfr, bind, Except.bind, pure, Except.pure]

section Relate

variable {filters : List Filter} {result : Collection}

theorem relate_some (hn : node ≠ .null) :
    relate filters (some node) =
      (readNode (filters.map Filter.guid) node []).map fun read =>
        Collection.combine filters (Collection.revise
          (filters.filter fun f => read.2.contains f.guid) (some read.1) filters) := by
  have h : relate filters (some node) = readNode (filters.map Filter.guid) node [] >>= fun read =>
      .ok (Collection.combine filters (Collection.revise
        (filters.filter fun f => read.2.contains f.guid) (some read.1) filters)) := by
    cases node with
    | null => exact absurd rfl hn
    | _ => rfl
  rw [h]
  cases readNode (filters.map Filter.guid) node [] <;> rfl

/-- The guids of the filters that the relations do not mention, each once and in list order. -/
def unmentioned (filters : List Filter) (guids : Tree String) : List String :=
  firstOccurrences ((filters.map Filter.guid).filter fun guid => !guids.leaves.contains guid)

theorem mem_unmentioned_iff {guids : Tree String} {guid : String} :
    guid ∈ unmentioned filters guids ↔ guid ∈ filters.map Filter.guid ∧ guid ∉ guids.leaves := by
  rw [unmentioned, mem_firstOccurrences, List.mem_filter, Bool.not_eq_true', ← Bool.not_eq_true,
    List.contains_iff_mem]

theorem nodup_leaves_unmentioned {guids : Tree String} (hn : guids.leaves.Nodup) :
    (guids.appendLeaves (unmentioned filters guids)).leaves.Nodup :=
  Collection.nodup_leaves_appendLeaves hn

/-- Relations of the grammar that repeat no guid are read as the tree of all filters. -/
theorem exists_placed_of_expression {guids : Tree String}
    (he : Expression (filters.map Filter.guid) node guids) (hn : guids.leaves.Nodup) :
    ∃ relations, relate filters (some node) = .ok (.tree relations) ∧
      Collection.Placed filters (guids.appendLeaves (unmentioned filters guids)) relations := by
  have hf : Fresh [] guids := ⟨hn, by simp⟩
  have hm : ∀ guid ∈ filters.map Filter.guid,
      guid ∈ (filters.filter fun f => (guids.leaves.reverse ++ []).contains f.guid).map
        Filter.guid ↔ guid ∈ guids.leaves := by
    intro guid hg
    simp only [List.mem_map, List.mem_filter, List.contains_iff_mem, List.append_nil,
      List.mem_reverse]
    constructor
    · rintro ⟨f, ⟨-, hf⟩, rfl⟩
      exact hf
    · intro h
      obtain ⟨f, hf, rfl⟩ := List.mem_map.mp hg
      exact ⟨f, ⟨hf, h⟩, rfl⟩
  obtain ⟨relations, hr, hp⟩ := Collection.exists_placed_revise hn he.mem_known hm
  refine ⟨relations, ?_, hp⟩
  rw [relate_some he.ne_null, readNode_of_expression he hf, Except.map, hr]

end Relate

variable {filters : List Filter}

/-- Relations are read exactly if they are of the grammar and repeat no guid. They become a tree of
the same shape, with the last filter of each guid on its leaf, and the filters that they do not
mention joined to the root in list order; so every guid stands on exactly one leaf. -/
theorem relate_iff_expression (filters : List Filter) (node : Json) (hn : node ≠ .null) :
    ((∃ result, relate filters (some node) = .ok result) ↔
      ∃ guids, Expression (filters.map Filter.guid) node guids ∧ guids.leaves.Nodup) ∧
    ∀ guids, Expression (filters.map Filter.guid) node guids → guids.leaves.Nodup →
      ∃ relations, relate filters (some node) = .ok (.tree relations) ∧
        relations.guidTree = guids.appendLeaves (unmentioned filters guids) ∧
        (∀ f ∈ relations.leaves, ∃ before after, filters = before ++ f :: after ∧
          ∀ other ∈ after, other.guid ≠ f.guid) ∧
        ∀ guid ∈ filters.map Filter.guid, (relations.leaves.map Filter.guid).count guid = 1 := by
  refine ⟨⟨?_, ?_⟩, ?_⟩
  · rintro ⟨result, h⟩
    rw [relate_some hn] at h
    obtain ⟨⟨guids, met⟩, hr, -⟩ := map_eq_ok_iff.mp h
    obtain ⟨he, hf, -⟩ := expression_of_readNode hr
    exact ⟨guids, he, hf.1⟩
  · rintro ⟨guids, he, hd⟩
    obtain ⟨relations, h, -⟩ := exists_placed_of_expression he hd
    exact ⟨_, h⟩
  · intro guids he hd
    obtain ⟨relations, h, hp⟩ := exists_placed_of_expression he hd
    refine ⟨relations, h, hp.guidTree_eq, ?_, ?_⟩
    · intro f hf
      exact (Collection.lastWith?_eq_some_iff.mp (hp.lastWith?_eq f hf)).2
    · intro guid hg
      rw [hp.map_leaves]
      refine List.count_eq_one_of_mem (nodup_leaves_unmentioned hd) ?_
      rw [Tree.leaves_appendLeaves, List.mem_append, mem_unmentioned_iff]
      by_cases hm : guid ∈ guids.leaves
      · exact .inl hm
      · exact .inr ⟨hg, hm⟩

theorem relate_iff_expression_repeated :
    let named (guid value : String) : Filter := .ofKind (.custom value .null) guid
    let filters := [named "a" "1", named "c" "2", named "b" "3", named "c" "4", named "a" "5"]
    let node : Json := .object [("operator", .string "oR"),
      ("left", .object [("instanceid", .string "b")]),
      ("right", .object [("instanceid", .string "a"), ("operator", .null)])]
    let guids : Tree String := .node .or (.leaf "b") (.leaf "a")
    node ≠ .null ∧ Expression (filters.map Filter.guid) node guids ∧ guids.leaves.Nodup ∧
      ∃ relations, relate filters (some node) = .ok (.tree relations) ∧
        relations.guidTree = .node .and guids (.leaf "c") ∧
        (∀ f ∈ relations.leaves, ∃ before after, filters = before ++ f :: after ∧
          ∀ other ∈ after, other.guid ≠ f.guid) ∧
        ∀ guid ∈ filters.map Filter.guid, (relations.leaves.map Filter.guid).count guid = 1 := by
  intro named filters node guids
  have hn : node ≠ .null := by simp [node]
  have hw : Connective.or.SpelledBy "oR" := by
    simp [Connective.SpelledBy, Connective.word]
  have he : Expression (filters.map Filter.guid) node guids :=
    .node rfl rfl hw rfl rfl (.leaf rfl (by decide)) (.leaf rfl (by decide))
  have hd : guids.leaves.Nodup := by decide
  exact ⟨hn, he, hd, (relate_iff_expression filters node hn).2 guids he hd⟩

end Dashboard

end QueryFilter
