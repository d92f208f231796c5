import QueryFilter.Filter.Reading
import QueryFilter.Proofs.Outcome

/-! # Drafts of filters

A new filter has a guid of the supply until it is given its own. What the readers of drafts draw,
and the filters that the drafts come to.
-/

namespace QueryFilter.Reading

open Json (Fields)

section Drawing

variable {α β : Type} {n m : Nat} {a a' : α} {b : β}

theorem drawing_pure_eq_ok_iff : (pure a : Drawing α) n = .ok (a', m) ↔ a = a' ∧ n = m := by
  change Except.ok (a, n) = Except.ok (a', m) ↔ _
  rw [Except.ok.injEq, Prod.mk.injEq]

theorem drawing_bind_eq_ok_iff {x : Drawing α} {k : α → Drawing β} :
    (x >>= k) n = .ok (b, m) ↔ ∃ a l, x n = .ok (a, l) ∧ k a l = .ok (b, m) := by
  refine bind_eq_ok_iff.trans ⟨?_, ?_⟩
  · rintro ⟨⟨a, l⟩, h, hk⟩
    exact ⟨a, l, h, hk⟩
  · rintro ⟨a, l, h, hk⟩
    exact ⟨(a, l), h, hk⟩

theorem drawing_lift_eq_ok_iff {x : Result α} :
    (liftM x : Drawing α) n = .ok (a, m) ↔ x = .ok a ∧ n = m := by
  refine bind_eq_ok_iff.trans ?_
  simp [pure, Except.pure]

theorem draft_eq_ok_iff {supply : Nat → String} {kind : Kind} {f : Filter} :
    draft supply kind n = .ok (f, m) ↔ f = .ofKind kind (supply n) ∧ m = n + 1 := by
  rw [draft, Except.ok.injEq, Prod.mk.injEq, eq_comm, eq_comm (b := m)]

end Drawing

variable {supply : Nat → String} {target : Target} {column : Column} {guid : String}
  {otherwise : ConditionFault} {fields : Fields} {settings : Settings} {f : Filter} {n m : Nat}

def membersFilter (column : Column) (condition : Fields) (settings : Settings) : Result Filter :=
  (memberSelection condition settings).map fun (names, settings) =>
    ⟨.members column names, settings⟩

def simpleFilter (target : Target) (guid : String) (condition : Fields) : Result Filter :=
  (simpleKind target condition).map (.ofKind · guid)

/-- The draft of a members filter is replaced in all its settings. -/
theorem membersDraft_eq_ok_iff :
    membersDraft supply column fields settings n = .ok (f, m) ↔
      membersFilter column fields settings = .ok f ∧ m = n + 1 := by
  simp only [membersDraft, membersFilter, drawing_bind_eq_ok_iff, drawing_lift_eq_ok_iff,
    draft_eq_ok_iff, drawing_pure_eq_ok_iff, map_eq_ok_iff]
  constructor
  · rintro ⟨⟨names, settings⟩, _, ⟨hs, rfl⟩, _, _, ⟨rfl, rfl⟩, rfl, rfl⟩
    exact ⟨⟨_, hs, rfl⟩, rfl⟩
  · rintro ⟨⟨⟨names, settings⟩, hs, rfl⟩, rfl⟩
    exact ⟨_, _, ⟨hs, rfl⟩, _, _, ⟨rfl, rfl⟩, rfl, rfl⟩

theorem guid_of_memberSelection {names : List String} {chosen : Settings}
    (h : memberSelection fields settings = .ok (names, chosen)) : chosen.guid = settings.guid := by
  obtain ⟨listed, -, h⟩ := bind_eq_ok_iff.mp h
  obtain ⟨excluded, -, h⟩ := bind_eq_ok_iff.mp h
  have h := Except.ok.inj h
  split at h
  · split at h <;> cases h <;> rfl
  all_goals cases h; rfl

theorem withGuid_of_membersFilter (h : membersFilter column fields settings = .ok f) :
    f.withGuid settings.guid = f := by
  obtain ⟨⟨names, chosen⟩, hs, rfl⟩ := map_eq_ok_iff.mp h
  rw [← guid_of_memberSelection hs]
  cases chosen
  rfl

theorem kindDraft_eq_ok_iff {x : Result Kind} :
    ((liftM x : Drawing Kind) >>= draft supply) n = .ok (f, m) ↔
      ∃ kind, x = .ok kind ∧ f = .ofKind kind (supply n) ∧ m = n + 1 := by
  simp only [drawing_bind_eq_ok_iff, drawing_lift_eq_ok_iff, draft_eq_ok_iff]
  constructor
  · rintro ⟨kind, _, ⟨hk, rfl⟩, rfl, rfl⟩
    exact ⟨kind, hk, rfl, rfl⟩
  · rintro ⟨kind, hk, rfl, rfl⟩
    exact ⟨kind, _, ⟨hk, rfl⟩, rfl, rfl⟩

theorem conditionDraft_eq (fields : Fields) :
    conditionDraft supply target guid otherwise (.object fields) =
      match fields.get? Connective.and.key, fields.get? Connective.or.key with
      | some items, _ => combined supply target guid .and items
      | none, some items => combined supply target guid .or items
      | none, none =>
        match fields.get? Rank.top.key, fields.get? Rank.bottom.key with
        | some count, _ => do
          draft supply (← rankingKind target.base .top count (fields.get? "by"))
        | none, some count => do
          draft supply (← rankingKind target.base .bottom count (fields.get? "by"))
        | none, none =>
          if Shape.listsMembers fields then membersDraft supply target.base fields { guid }
          else
            match fields.get? "exclude" with
            | some inner => do
              let f ← conditionDraft supply target (partGuid guid 0) (.notObject "exclude") inner
              let outer ← draft supply (.exclude (f.withGuid (partGuid guid 0)))
              return outer.withGuid guid
            | none => (do draft supply (← simpleKind target fields)) := by
  rw [conditionDraft, combination?_eq, combination?_eq, exclusion?_eq]
  cases fields.get? Connective.and.key <;> cases fields.get? Connective.or.key <;>
    simp only [Option.map_none, Option.map_some]
  cases fields.get? "exclude" <;> rfl

/-- What stands at each position is a draft that is renamed for the position. -/
theorem exists_conditionDraft_of_partFilters {position : Nat} {items : List Json}
    {filters : List Filter}
    (h : partFilters supply target guid otherwise position items n = .ok (filters, m)) :
    items.length = filters.length ∧ ∀ i item f, items[i]? = some item → filters[i]? = some f →
      ∃ part k l, conditionDraft supply target (partGuid guid (position + i)) otherwise item k =
        .ok (part, l) ∧ f = part.withGuid (partGuid guid (position + i)) := by
  induction items generalizing position filters n with
  | nil =>
    obtain ⟨rfl, -⟩ := drawing_pure_eq_ok_iff.mp h
    simp
  | cons item items ih =>
    rw [partFilters, drawing_bind_eq_ok_iff] at h
    obtain ⟨part, k, hpart, h⟩ := h
    obtain ⟨others, l, hothers, h⟩ := drawing_bind_eq_ok_iff.mp h
    obtain ⟨rfl, rfl⟩ := drawing_pure_eq_ok_iff.mp h
    obtain ⟨hl, hr⟩ := ih hothers
    refine ⟨by simpa using hl, fun i item' f hi hf => ?_⟩
    cases i with
    | zero =>
      cases hi
      cases hf
      exact ⟨part, n, k, hpart, rfl⟩
    | succ i => simpa [Nat.add_assoc, Nat.add_comm 1] using hr i item' f hi hf

theorem partFilters_of_conditionDraft {position : Nat} {items : List Json}
    {filters : List Filter} (hl : items.length = filters.length)
    (h : ∀ i item f, items[i]? = some item → filters[i]? = some f →
      ∀ k, ∃ part l, conditionDraft supply target (partGuid guid (position + i)) otherwise item k =
        .ok (part, l) ∧ f = part.withGuid (partGuid guid (position + i))) (n : Nat) :
    ∃ m, partFilters supply target guid otherwise position items n = .ok (filters, m) := by
  induction items generalizing position filters n with
  | nil =>
    obtain rfl := List.length_eq_zero_iff.mp hl.symm
    exact ⟨n, rfl⟩
  | cons item items ih =>
    cases filters with
    | nil => cases hl
    | cons f filters =>
      obtain ⟨part, k, hpart, rfl⟩ := h 0 item f rfl rfl n
      obtain ⟨m, hm⟩ : ∃ m,
          partFilters supply target guid otherwise (position + 1) items k = .ok (filters, m) := by
        refine ih (by simpa using hl) (fun i item' f hi hf => ?_) k
        simpa [Nat.add_assoc, Nat.add_comm 1] using h (i + 1) item' f hi hf
      refine ⟨m, ?_⟩
      rw [partFilters]
      refine drawing_bind_eq_ok_iff.mpr ⟨part, k, hpart, ?_⟩
      refine drawing_bind_eq_ok_iff.mpr ⟨filters, m, hm, ?_⟩
      exact drawing_pure_eq_ok_iff.mpr ⟨rfl, rfl⟩

end QueryFilter.Reading
