import QueryFilter.Proofs.Filter.Drafts
import QueryFilter.Proofs.Json.Parts

/-! # What a condition gives

The reading of a condition as a relation: which key decides, and what the parts give. Whatever the
supply, drafts of the condition come to what the relation gives and are drawn exactly where it
holds, so proofs about filters that were read go by induction on it.
-/

namespace QueryFilter.Reading

open Json (Fields)

def NotJoined (fields : Fields) : Prop :=
  fields.get? Connective.and.key = none ∧ fields.get? Connective.or.key = none

def NotRanked (fields : Fields) : Prop :=
  fields.get? Rank.top.key = none ∧ fields.get? Rank.bottom.key = none

/-- Members are neither listed nor excluded, and no key joins conditions or ranks members. -/
structure Undecided (fields : Fields) : Prop where
  notJoined : NotJoined fields
  notRanked : NotRanked fields
  noMembers : Shape.listsMembers fields = false

/-- The condition gives the filter, where the condition is about the target. -/
inductive Gives (target : Target) : String → Json → Filter → Prop
  | combination {guid : String} {fields : Fields} {connective : Connective} {items : List Json}
      {filters : List Filter} :
      fields.get? connective.key = some (.array items) →
      (connective = .or → fields.get? Connective.and.key = none) →
      items.length = filters.length →
      (∀ i item f, items[i]? = some item → filters[i]? = some f →
        Gives target (partGuid guid i) item f) →
      Gives target guid (.object fields) (.ofKind (.logical target connective filters) guid)
  | ranking {guid : String} {fields : Fields} {rank : Rank} {count : Json} {kind : Kind} :
      NotJoined fields → fields.get? rank.key = some count →
      (rank = .bottom → fields.get? Rank.top.key = none) →
      rankingKind target.base rank count (fields.get? "by") = .ok kind →
      Gives target guid (.object fields) (.ofKind kind guid)
  | members {guid : String} {fields : Fields} {f : Filter} :
      NotJoined fields → NotRanked fields → Shape.listsMembers fields →
      membersFilter target.base fields { guid } = .ok f →
      Gives target guid (.object fields) f
  | exclusion {guid : String} {fields : Fields} {inner : Json} {f : Filter} :
      Undecided fields → fields.get? "exclude" = some inner →
      Gives target (partGuid guid 0) inner f →
      Gives target guid (.object fields) (.ofKind (.exclude f) guid)
  | simple {guid : String} {fields : Fields} {f : Filter} :
      Undecided fields → fields.get? "exclude" = none →
      simpleFilter target guid fields = .ok f →
      Gives target guid (.object fields) f

variable {supply : Nat → String} {target : Target} {guid : String} {otherwise : ConditionFault}
  {condition : Json} {f : Filter} {n m : Nat}

/-- A draft, given its guid, is what the condition gives. The parts of a combination and of an
exclusion are given theirs within. -/
theorem gives_of_conditionDraft
    (h : conditionDraft supply target guid otherwise condition n = .ok (f, m)) :
    Gives target guid condition (f.withGuid guid) := by
  induction condition using Json.condition_induction generalizing guid otherwise f n m with
  | other condition hc =>
    cases condition <;> first | cases h | cases hc
  | object fields ih =>
    have joined {connective : Connective} {value : Json}
        (hk : fields.get? connective.key = some value)
        (ho : connective = .or → fields.get? Connective.and.key = none)
        (h : combined supply target guid connective value n = .ok (f, m)) :
        Gives target guid (.object fields) (f.withGuid guid) := by
      cases value with
      | array items =>
        obtain ⟨filters, k, hp, h⟩ := drawing_bind_eq_ok_iff.mp h
        obtain ⟨outer, l, hd, h⟩ := drawing_bind_eq_ok_iff.mp h
        obtain ⟨rfl, rfl⟩ := draft_eq_ok_iff.mp hd
        obtain ⟨rfl, rfl⟩ := drawing_pure_eq_ok_iff.mp h
        obtain ⟨hl, hp⟩ := exists_conditionDraft_of_partFilters hp
        refine .combination hk ho hl fun i item f hi hf => ?_
        obtain ⟨part, k, l, hpart, rfl⟩ := hp i item f hi hf
        rw [Nat.zero_add] at hpart ⊢
        exact ih _ (.item (Fields.mem_of_get? hk) (List.mem_of_getElem? hi)) hpart
      | _ => cases h
    rw [conditionDraft_eq] at h
    split at h
    · next ha => exact joined ha (by rintro ⟨⟩) h
    · next ha ho => exact joined ho (fun _ => ha) h
    · next ha ho =>
      split at h
      · next ht =>
        obtain ⟨kind, hk, rfl, -⟩ := kindDraft_eq_ok_iff.mp h
        exact .ranking ⟨ha, ho⟩ ht (by rintro ⟨⟩) hk
      · next ht hb =>
        obtain ⟨kind, hk, rfl, -⟩ := kindDraft_eq_ok_iff.mp h
        exact .ranking ⟨ha, ho⟩ hb (fun _ => ht) hk
      · next ht hb =>
        split at h
        · next hm =>
          obtain ⟨hf, -⟩ := membersDraft_eq_ok_iff.mp h
          rw [withGuid_of_membersFilter hf]
          exact .members ⟨ha, ho⟩ ⟨ht, hb⟩ hm hf
        · next hm =>
          have hu : Undecided fields := ⟨⟨ha, ho⟩, ⟨ht, hb⟩, by simpa using hm⟩
          split at h
          · next he =>
            obtain ⟨inner, k, hi, h⟩ := drawing_bind_eq_ok_iff.mp h
            obtain ⟨outer, l, hd, h⟩ := drawing_bind_eq_ok_iff.mp h
            obtain ⟨rfl, rfl⟩ := draft_eq_ok_iff.mp hd
            obtain ⟨rfl, rfl⟩ := drawing_pure_eq_ok_iff.mp h
            exact .exclusion hu he (ih _ (.field (Fields.mem_of_get? he)) hi)
          · next he =>
            obtain ⟨kind, hk, rfl, -⟩ := kindDraft_eq_ok_iff.mp h
            exact .simple hu he (map_eq_ok_iff.mpr ⟨kind, hk, rfl⟩)

/-- Up to then, a comparison has a guid of the supply. -/
example :
    let column : Column := { expression := "[T.A]", title := "A", datatype := .text }
    conditionDraft Filter.draftGuid (.column column) "g" (.notObject "filter")
      (.object [("contains", .string "b")]) 0 =
        .ok (.ofKind (.text column ⟨.contains, false⟩ "b") "draft-0", 1) := rfl

/-- Whatever the supply and however much of it was taken, what the condition gives is drawn. -/
theorem exists_conditionDraft_of_gives (h : Gives target guid condition f)
    (supply : Nat → String) (otherwise : ConditionFault) (n : Nat) :
    ∃ draft m, conditionDraft supply target guid otherwise condition n = .ok (draft, m) ∧
      f = draft.withGuid guid := by
  induction h generalizing otherwise n with
  | @combination guid fields connective items filters hk ho hl _ ih =>
    obtain ⟨m, hm⟩ : ∃ m,
        partFilters supply target guid (.itemsNotObjects connective.key) 0 items n =
          .ok (filters, m) := by
      refine partFilters_of_conditionDraft hl (fun i item f hi hf k => ?_) n
      rw [Nat.zero_add]
      exact ih i item f hi hf _ k
    have hc : combined supply target guid connective (.array items) n =
        .ok (.ofKind (.logical target connective filters) guid, m + 1) := by
      refine drawing_bind_eq_ok_iff.mpr ⟨filters, m, hm, ?_⟩
      exact drawing_bind_eq_ok_iff.mpr ⟨_, _, draft_eq_ok_iff.mpr ⟨rfl, rfl⟩, rfl⟩
    refine ⟨.ofKind (.logical target connective filters) guid, m + 1, ?_, rfl⟩
    cases connective with
    | and => rw [conditionDraft_eq, hk]; exact hc
    | or => rw [conditionDraft_eq, ho rfl, hk]; exact hc
  | @ranking _ _ rank _ kind hj hk ht hr =>
    refine ⟨.ofKind kind (supply n), n + 1, ?_, rfl⟩
    cases rank with
    | top =>
      simp only [conditionDraft_eq, hj.1, hj.2, hk]
      exact kindDraft_eq_ok_iff.mpr ⟨_, hr, rfl, rfl⟩
    | bottom =>
      simp only [conditionDraft_eq, hj.1, hj.2, ht rfl, hk]
      exact kindDraft_eq_ok_iff.mpr ⟨_, hr, rfl, rfl⟩
  | members hj hr hm h =>
    refine ⟨_, n + 1, ?_, (withGuid_of_membersFilter h).symm⟩
    simp only [conditionDraft_eq, hj.1, hj.2, hr.1, hr.2, hm, if_true]
    exact membersDraft_eq_ok_iff.mpr ⟨h, rfl⟩
  | @exclusion guid _ _ _ hu he _ ih =>
    obtain ⟨⟨ha, ho⟩, ⟨ht, hb⟩, hm⟩ := hu
    obtain ⟨inner, m, hi, rfl⟩ := ih (.notObject "exclude") n
    refine ⟨.ofKind (.exclude (inner.withGuid (partGuid guid 0))) guid, m + 1, ?_, rfl⟩
    simp only [conditionDraft_eq, ha, ho, ht, hb, hm, he, Bool.false_eq_true, if_false]
    refine drawing_bind_eq_ok_iff.mpr ⟨inner, m, hi, ?_⟩
    exact drawing_bind_eq_ok_iff.mpr ⟨_, _, draft_eq_ok_iff.mpr ⟨rfl, rfl⟩, rfl⟩
  | simple hu he h =>
    obtain ⟨⟨ha, ho⟩, ⟨ht, hb⟩, hm⟩ := hu
    obtain ⟨kind, hk, rfl⟩ := map_eq_ok_iff.mp h
    refine ⟨.ofKind kind (supply n), n + 1, ?_, rfl⟩
    simp only [conditionDraft_eq, ha, ho, ht, hb, hm, he, Bool.false_eq_true, if_false]
    exact kindDraft_eq_ok_iff.mpr ⟨kind, hk, rfl, rfl⟩

/-- The filter that the drafts of a condition come to. -/
def conditionFilter (target : Target) (guid : String) (otherwise : ConditionFault)
    (condition : Json) : Result Filter :=
  (conditionDraft Filter.draftGuid target guid otherwise condition 0).map fun (f, _) =>
    f.withGuid guid

theorem gives_of_conditionFilter (h : conditionFilter target guid otherwise condition = .ok f) :
    Gives target guid condition f := by
  obtain ⟨⟨part, m⟩, hp, rfl⟩ := map_eq_ok_iff.mp h
  exact gives_of_conditionDraft hp

theorem conditionFilter_of_gives (h : Gives target guid condition f)
    (otherwise : ConditionFault) : conditionFilter target guid otherwise condition = .ok f := by
  obtain ⟨part, m, hp, rfl⟩ := exists_conditionDraft_of_gives h Filter.draftGuid otherwise 0
  exact map_eq_ok_iff.mpr ⟨_, hp, rfl⟩

/-- The filter that the drafts of an item with a known shape come to. -/
def shapedFilter (item : Item) (target : Target) (settings : Settings) : Shape → Result Filter
  | .invalid => .error .unknownShape
  | .includeAll =>
    .ok ⟨.members target.base [], { settings with multiSelection := item.allowsMultiSelection }⟩
  | .specificItems =>
    membersFilter target.base (conditionOf item)
      { settings with multiSelection := item.allowsMultiSelection }
  | .advanced => .ok ⟨.custom target.base.expression (.object (conditionOf item)), settings⟩
  | .condition | .dateRange | .numericRange | .period =>
    (conditionFilter target settings.guid (.notObject "filter") (.object (conditionOf item))).map
      (·.withSettings settings)

variable {item : Item} {settings : Settings} {shape : Shape}

theorem run'_eq_ok_iff {α : Type} {x : Drawing α} {a : α} :
    x.run' n = .ok a ↔ ∃ m, x n = .ok (a, m) := by
  refine map_eq_ok_iff.trans ⟨?_, ?_⟩
  · rintro ⟨⟨_, m⟩, h, rfl⟩
    exact ⟨m, h⟩
  · rintro ⟨m, h⟩
    exact ⟨_, h, rfl⟩

theorem shapedDraft_eq_ok_iff :
    (shapedDraft supply item target settings shape).run' n = .ok f ↔
      shapedFilter item target settings shape = .ok f := by
  rw [run'_eq_ok_iff]
  cases shape with
  | invalid =>
    constructor
    · rintro ⟨_, ⟨⟩⟩
    · rintro ⟨⟩
  | includeAll | advanced =>
    constructor
    · rintro ⟨m, h⟩
      obtain ⟨_, _, hd, h⟩ := drawing_bind_eq_ok_iff.mp h
      obtain ⟨rfl, rfl⟩ := draft_eq_ok_iff.mp hd
      obtain ⟨rfl, -⟩ := drawing_pure_eq_ok_iff.mp h
      rfl
    · rintro ⟨⟩
      exact ⟨n + 1, rfl⟩
  | specificItems =>
    constructor
    · rintro ⟨m, h⟩
      exact (membersDraft_eq_ok_iff.mp h).1
    · intro h
      exact ⟨n + 1, membersDraft_eq_ok_iff.mpr ⟨h, rfl⟩⟩
  | condition | dateRange | numericRange | period =>
    constructor
    · rintro ⟨m, h⟩
      obtain ⟨draft, _, hd, h⟩ := drawing_bind_eq_ok_iff.mp h
      obtain ⟨rfl, rfl⟩ := drawing_pure_eq_ok_iff.mp h
      exact map_eq_ok_iff.mpr ⟨_, conditionFilter_of_gives (gives_of_conditionDraft hd) _, rfl⟩
    · intro h
      obtain ⟨g, hg, rfl⟩ := map_eq_ok_iff.mp h
      obtain ⟨draft, m, hd, rfl⟩ :=
        exists_conditionDraft_of_gives (gives_of_conditionFilter hg) supply (.notObject "filter") n
      exact ⟨m, drawing_bind_eq_ok_iff.mpr ⟨draft, m, hd, rfl⟩⟩

/-- With the reader's own supply the errors agree as well. -/
theorem shapedDraft_draftGuid :
    (shapedDraft Filter.draftGuid item target settings shape).run' 0 =
      shapedFilter item target settings shape := by
  cases shape with
  | invalid | includeAll | advanced => rfl
  | specificItems =>
    simp only [shapedDraft, shapedFilter, membersDraft, membersFilter]
    cases memberSelection (conditionOf item)
      { settings with multiSelection := item.allowsMultiSelection } <;> rfl
  | condition | dateRange | numericRange | period =>
    simp only [shapedFilter, conditionFilter]
    rw [StateT.run', shapedDraft]
    change Functor.map _ (Except.bind _ _) = _
    cases conditionDraft Filter.draftGuid target settings.guid (.notObject "filter")
      (.object (conditionOf item)) 0 <;> rfl

end QueryFilter.Reading
