import QueryFilter.Proofs.Filter.Kinds
import QueryFilter.Proofs.Filter.Rereading

/-! # Filters that conditions give

A condition gives filters about its target only, and the condition of such a filter is that of a
well-formed one. A filter with an open range is not given back by its condition.
-/

namespace QueryFilter

open Json (Fields)

namespace Filter.SameSelection

variable {f g : Filter}

theorem name_eq (h : f.SameSelection g) : g.kind.name = f.kind.name := by
  cases h <;> rfl

theorem onColumn_eq : ∀ {f g : Filter}, f.SameSelection g → g.onColumn = f.onColumn
  | _, _, .exclude h => by
    have hc := onColumn_eq h
    exact hc
  | _, _, .members .. | _, _, .text .. | _, _, .numeric .. | _, _, .dateRange ..
  | _, _, .relativeDate .. | _, _, .ranking .. | _, _, .logical .. => rfl

end Filter.SameSelection

namespace Reading

variable {target : Target} {guid : String} {condition : Json} {f : Filter}

section Targets

variable {fields : Fields}

/-- What the filter of a kind names, where the condition is about the target. -/
def targetOf (target : Target) (f : Filter) : Target :=
  if f.onColumn then .column target.base else target

@[simp] theorem base_targetOf (target : Target) (f : Filter) :
    (targetOf target f).base = target.base := by
  unfold targetOf
  split <;> rfl

theorem reread_targetOf (h : target.reread = target) (f : Filter) :
    (targetOf target f).reread = targetOf target f := by
  unfold targetOf
  split
  · rfl
  · exact h

theorem targetOf_targetOf (target : Target) {f g : Filter} (h : g.onColumn = f.onColumn) :
    targetOf (targetOf target f) g = targetOf target f := by
  unfold targetOf
  rw [h]
  split <;> rfl

theorem target?_of_comparisonKind {kind : Kind} (h : comparisonKind target fields = .ok kind) :
    kind.target? = some target ∧ (kind.onColumn → target = .column target.base) := by
  rcases kind_of_comparisonKind h with
    ⟨first, second, rfl⟩ | ⟨column, rfl, ⟨operator, operand, rfl⟩ | ⟨start, finish, rfl⟩⟩
  · exact ⟨rfl, (by rintro ⟨⟩)⟩
  · exact ⟨rfl, fun _ => rfl⟩
  · exact ⟨rfl, fun _ => rfl⟩

theorem target?_of_membersFilter {column : Column} {settings : Settings}
    (h : membersFilter column fields settings = .ok f) :
    f.target? = some (.column column) ∧ f.onColumn := by
  obtain ⟨names, excludes, deactivated, rfl⟩ := exists_of_membersFilter h
  exact ⟨rfl, rfl⟩

theorem Gives.target?_eq (h : Gives target guid condition f) :
    f.target? = some (targetOf target f) := by
  induction h with
  | combination => rfl
  | ranking _ _ _ hr =>
    obtain ⟨measure, n, rfl⟩ := exists_ranking_of_rankingKind hr
    rfl
  | members _ _ _ h =>
    obtain ⟨ht, hc⟩ := target?_of_membersFilter h
    rw [ht, targetOf, hc, if_pos rfl]
  | exclusion _ _ _ ih => exact ih
  | simple _ _ h =>
    rcases exists_kind_of_simpleFilter h with ⟨kind, rfl, ⟨period, value, -, hk⟩ | ⟨-, -, hk⟩⟩
    · obtain ⟨offset, count, anchor, rfl⟩ := exists_relativeDate_of_relativeKind hk
      rfl
    · obtain ⟨ht, hc⟩ := target?_of_comparisonKind hk
      refine ht.trans (congrArg some ?_)
      rw [targetOf]
      split
      · next ho => exact hc ho
      · rfl

theorem Gives.column (h : Gives target guid condition f) (hc : f.onColumn) :
    Gives (.column target.base) guid condition f := by
  induction h with
  | combination => cases hc
  | ranking hj hk ht hr => exact .ranking hj hk ht hr
  | members hj hr hm h => exact .members hj hr hm h
  | exclusion hu he _ ih => exact .exclusion hu he (ih hc)
  | simple hu he h =>
    apply Gives.simple hu he
    obtain ⟨kind, hk, rfl⟩ := map_eq_ok_iff.mp h
    refine map_eq_ok_iff.mpr ⟨kind, ?_, rfl⟩
    unfold simpleKind at hk ⊢
    split at hk
    · exact hk
    · exact hk
    · rwa [← (target?_of_comparisonKind hk).2 hc]

theorem Gives.targetOf (h : Gives target guid condition f) :
    Gives (targetOf target f) guid condition f := by
  unfold Reading.targetOf
  split
  · next hc => exact h.column hc
  · exact h

end Targets

/-- The first filter is well formed and has the condition of the second. -/
structure Represents (target : Target) (f' f : Filter) : Prop where
  wellFormed : f'.WellFormed target
  condition_eq : f'.condition = f.condition
  onColumn_eq : f'.onColumn = f.onColumn
  name_eq : f'.kind.name = f.kind.name
  settings_eq : f'.settings = f.settings

theorem Represents.refl (hw : f.WellFormed target) : Represents target f f :=
  ⟨hw, rfl, rfl, rfl, rfl⟩

theorem Represents.showsMembers_eq {f' : Filter} (h : Represents target f' f) :
    f'.showsMembers = f.showsMembers := by
  rw [Filter.showsMembers_eq, Filter.showsMembers_eq, h.name_eq, h.settings_eq]

section Images

variable {fields : Fields}

theorem wellFormed_of_membersFilter {settings : Settings} (hx : settings.excludeMembers = false)
    (hz : settings.deactivated = []) (hl : Shape.listsMembers fields)
    (h : membersFilter target.base fields settings = .ok f) :
    f.WellFormed target ∧ (f.showsMembers → fields.hasKey "members") := by
  obtain ⟨names, excluded, hn, he, rfl⟩ := membersFilter_eq_ok_iff.mp h
  cases settings
  subst hx hz
  cases names with
  | some names =>
    have hk : fields.hasKey "members" := by
      obtain ⟨value, hv, -⟩ := listedMembers_eq_ok_some_iff.mp hn
      simp [Fields.hasKey, hv]
    cases excluded with
    | some excluded =>
      dsimp only
      split
      · refine ⟨.members (Column.same_refl _) nodup_firstOccurrences ?_ (by rintro ⟨⟩),
          fun _ => hk⟩
        intro name hm
        simp [mem_firstOccurrences.mp hm]
      · exact ⟨.members (Column.same_refl _) .nil (by simp) (by rintro ⟨⟩), fun _ => hk⟩
    | none => exact ⟨.members (Column.same_refl _) .nil (by simp) (by rintro ⟨⟩), fun _ => hk⟩
  | none =>
    cases excluded with
    | some excluded =>
      exact ⟨.members (Column.same_refl _) .nil (by simp) fun _ => rfl, (by rintro ⟨⟩)⟩
    | none =>
      rw [listsMembers_iff, Fields.hasKey, Fields.hasKey, listedMembers_eq_ok_none_iff.mp hn,
        listedMembers_eq_ok_none_iff.mp he] at hl
      simp at hl

theorem comparesNumbers_of_mapM {bounds : List Bound}
    (h : (activeFields fields).mapM numericBound = .ok bounds)
    (ht : target.datatype = .numeric ∨
      (target.datatype = .datetime ∧ Shape.hasRange fields = false)) :
    target.ComparesNumbers bounds := by
  cases target with
  | measure _ => trivial
  | column base =>
    simp only [Target.ComparesNumbers, Target.datatype] at ht ⊢
    cases hd : base.datatype with
    | text => simp [hd] at ht
    | numeric => trivial
    | datetime =>
      obtain ⟨-, hr⟩ : base.datatype = .datetime ∧ Shape.hasRange fields = false := by
        simpa [hd] using ht
      have hn {key : String} (hk : fields.hasKey key = false) : ∀ field ∈ fields, field.1 ≠ key :=
        Fields.get?_eq_none_iff.mp (Fields.hasKey_eq_false_iff.mp hk)
      rw [Shape.hasRange, Bool.or_eq_false_iff] at hr
      intro b hb
      obtain ⟨field, hf, hk, -⟩ := field_of_mapM_numericBound h b hb
      constructor
      · intro ho
        exact hn hr.1 field hf (by rw [hk, ho]; rfl)
      · intro ho
        exact hn hr.2 field hf (by rw [hk, ho]; rfl)

theorem exists_represents_numeric {kind : Kind} (hk : numericKind target fields = .ok kind)
    (ht : target.datatype = .numeric ∨
      (target.datatype = .datetime ∧ Shape.hasRange fields = false)) (guid : String) :
    ∃ f', Represents target f' (.ofKind kind guid) := by
  obtain ⟨first, second, hm, rfl⟩ := numericKind_eq_ok_iff.mp hk
  have hc := comparesNumbers_of_mapM hm ht
  by_cases hd : ∀ b ∈ second, b.operator ≠ first.operator
  · exact ⟨_, .refl (.numeric (Target.same_refl _) hc hd)⟩
  · obtain ⟨b, rfl, ho⟩ : ∃ b, second = some b ∧ b.operator = first.operator := by
      simpa using hd
    refine ⟨.ofKind (.numeric target b none) guid, ?_, ?_, rfl, rfl, rfl⟩
    · exact .numeric (Target.same_refl _) (hc.mono (by simp)) (by simp)
    · simp [Filter.ofKind, Filter.condition, Kind.condition, Condition.ofBounds, Fields.insertAll,
        Fields.insert, Condition.ofBound, ho]

theorem exists_represents_simple {guid : String} (h : simpleFilter target guid fields = .ok f) :
    ∃ f', Represents target f' f := by
  rcases exists_kind_of_simpleFilter h with ⟨kind, rfl, ⟨period, value, -, hk⟩ | ⟨-, -, hk⟩⟩
  · obtain ⟨offset, count, anchor, rfl⟩ := exists_relativeDate_of_relativeKind hk
    exact ⟨_, .refl (.relativeDate (Column.same_refl _))⟩
  rcases comparisonKind_eq_ok_iff.mp hk with ⟨ht, hn⟩ | ⟨column, rfl, ⟨hc, ht⟩ | ⟨hc, -, hd⟩⟩
  · exact exists_represents_numeric hn ht guid
  · obtain ⟨operator, value, operand, -, -, rfl⟩ := textKind_eq_ok_iff.mp ht
    exact ⟨_, .refl (.text rfl hc (Column.same_refl _))⟩
  · obtain ⟨start, finish, hs, hf, rfl⟩ := dateRangeKind_eq_ok_iff.mp hd
    exact ⟨_, .refl (.dateRange rfl hc (Column.same_refl _) (dateBound?_eq_ok_iff.mp hs).2
      (dateBound?_eq_ok_iff.mp hf).2)⟩

theorem name_ne_members_of_simpleFilter (h : simpleFilter target guid fields = .ok f) :
    f.kind.name ≠ "members" := by
  rcases exists_kind_of_simpleFilter h with ⟨kind, rfl, ⟨period, value, -, hk⟩ | ⟨-, -, hk⟩⟩
  · obtain ⟨offset, count, anchor, rfl⟩ := exists_relativeDate_of_relativeKind hk
    simp [Kind.name, Filter.ofKind]
  rcases kind_of_comparisonKind hk with
    ⟨first, second, rfl⟩ | ⟨column, rfl, ⟨operator, operand, rfl⟩ | ⟨start, finish, rfl⟩⟩ <;>
  · simp [Kind.name, Filter.ofKind]

theorem Gives.exists_membersFilter (h : Gives target guid condition f)
    (hm : f.kind.name = "members") :
    ∃ fields, condition = .object fields ∧ Shape.listsMembers fields ∧
      membersFilter target.base fields { guid } = .ok f := by
  cases h with
  | combination => simp [Kind.name, Filter.ofKind] at hm
  | ranking _ _ _ hr =>
    obtain ⟨measure, n, rfl⟩ := exists_ranking_of_rankingKind hr
    simp [Kind.name, Filter.ofKind] at hm
  | members _ _ hl h => exact ⟨_, rfl, hl, h⟩
  | exclusion => simp [Kind.name, Filter.ofKind] at hm
  | simple _ _ h => exact absurd hm (name_ne_members_of_simpleFilter h)

/-- Members are shown only where the condition lists them itself. -/
theorem Gives.hasKey_members_of_showsMembers (h : Gives target guid condition f)
    (hs : f.showsMembers) :
    (condition.asObject?).any fun fields => fields.hasKey "members" := by
  have hm : f.kind.name = "members" := by
    rw [Filter.showsMembers_eq, Bool.and_eq_true] at hs
    simpa using hs.1
  obtain ⟨fields, rfl, hl, hf⟩ := h.exists_membersFilter hm
  exact (wellFormed_of_membersFilter rfl rfl hl hf).2 hs

end Images

theorem exists_represents (h : Gives target guid condition f) : ∃ f', Represents target f' f := by
  induction h with
  | @combination guid _ connective items filters _ _ hl _ ih =>
    have hp : ∀ (i : Nat) f, filters[i]? = some f → ∃ f', Represents target f' f := by
      intro i f hf
      have hi : i < items.length := hl ▸ (List.getElem?_eq_some_iff.mp hf).1
      exact ih i _ f (List.getElem?_eq_getElem hi) hf
    obtain ⟨fs, hfs, hr⟩ := exists_forall_getElem? hp
    refine ⟨.ofKind (.logical target connective fs) guid, ?_, ?_, rfl, rfl, rfl⟩
    · apply Filter.WellFormed.logical (Target.same_refl _)
      intro f' hf'
      obtain ⟨i, hi, rfl⟩ := List.getElem_of_mem hf'
      have hi' : i < _ := hfs ▸ hi
      exact (hr i _ _ (List.getElem?_eq_getElem hi') (List.getElem?_eq_getElem hi)).wellFormed
    · have hm : fs.map Filter.condition = filters.map Filter.condition :=
        map_eq_map_of_getElem? hfs.symm fun i f' f hf' hf => (hr i f f' hf hf').condition_eq
      simp [Filter.ofKind, Filter.condition, Kind.condition, conditions_eq_map, hm]
  | ranking _ _ _ hr =>
    obtain ⟨measure, n, rfl⟩ := exists_ranking_of_rankingKind hr
    exact ⟨_, .refl (.ranking (Column.same_refl _))⟩
  | members _ _ hl h => exact ⟨_, .refl (wellFormed_of_membersFilter rfl rfl hl h).1⟩
  | @exclusion guid fields inner f hu he h ih =>
    obtain ⟨f', hr⟩ := ih
    refine ⟨.ofKind (.exclude f') guid, ?_, ?_, hr.onColumn_eq, rfl, rfl⟩
    · apply Filter.WellFormed.exclude hr.wellFormed
      rw [hr.showsMembers_eq, ← Bool.not_eq_true]
      intro hs
      have hm := hu.noMembers
      rw [Shape.listsMembers, Bool.or_eq_false_iff, he] at hm
      exact absurd (h.hasKey_members_of_showsMembers hs) (by simpa using hm.2)
    · simp [Filter.ofKind, Filter.condition, Kind.condition, hr.condition_eq]
  | simple _ _ h => exact exists_represents_simple h

section OpenRanges

theorem not_gives_nil : ¬Gives target guid (.object []) f := by
  intro h
  cases h with
  | combination hk => simp at hk
  | ranking _ hk => simp at hk
  | members _ _ hl => cases hl
  | exclusion _ he => simp at he
  | simple _ _ h =>
    rcases exists_kind_of_simpleFilter h with ⟨kind, rfl, ⟨period, value, hk, -⟩ | ⟨-, -, hk⟩⟩
    · simp at hk
    rcases comparisonKind_eq_ok_iff.mp hk with ⟨-, hn⟩ | ⟨column, rfl, ⟨-, ht⟩ | ⟨-, hr, -⟩⟩
    · obtain ⟨first, second, hm, -⟩ := numericKind_eq_ok_iff.mp hn
      cases hm
    · obtain ⟨operator, value, operand, ha, -, -⟩ := textKind_eq_ok_iff.mp ht
      cases ha
    · cases hr

theorem Gives.of_exclude {inner : Json} (h : Gives target guid (.object [("exclude", inner)]) f)
    (hl : Shape.listsMembers [("exclude", inner)] = false) :
    ∃ g, Gives target (partGuid guid 0) inner g := by
  cases h with
  | @combination _ _ connective _ _ hk =>
    cases connective <;> simp [Fields.get?_cons, Connective.key] at hk
  | @ranking _ _ rank _ _ _ hk => cases rank <;> simp [Fields.get?_cons, Rank.key] at hk
  | members _ _ hm => simp [hl] at hm
  | exclusion _ he h =>
    obtain rfl : inner = _ := by simpa using he
    exact ⟨_, h⟩
  | simple _ he => simp at he

theorem Gives.of_connective {connective : Connective} {items : List Json}
    (h : Gives target guid (.object [(connective.key, .array items)]) f) :
    ∃ filters : List Filter, items.length = filters.length ∧
      ∀ i item g, items[i]? = some item → filters[i]? = some g →
        Gives target (partGuid guid i) item g := by
  cases h with
  | combination hk _ hl hp =>
    rw [Fields.get?_cons] at hk
    split at hk
    · obtain rfl : items = _ := by simpa using hk
      exact ⟨_, hl, hp⟩
    · simp at hk
  | @ranking _ _ rank _ _ _ hk =>
    cases rank <;> cases connective <;> simp [Fields.get?_cons, Rank.key, Connective.key] at hk
  | members _ _ hl => cases connective <;> cases hl
  | exclusion _ he => cases connective <;> simp [Fields.get?_cons, Connective.key] at he
  | simple hu =>
    cases connective
    · cases hu.notJoined.1
    · cases hu.notJoined.2

/-- A filter with an open range is not given back by its condition. -/
theorem not_gives_of_hasOpenRange (hw : f.WellFormed target) (ho : f.HasOpenRange) {g : Filter} :
    ¬Gives target guid f.condition g := by
  induction ho generalizing guid g with
  | dateRange =>
    cases hw with
    | dateRange => exact not_gives_nil
  | @exclude inner _ _ ih =>
    cases hw with
    | exclude hw hs =>
      intro h
      have hl : Shape.listsMembers [("exclude", inner.condition)] = false :=
        hasKey_members_condition hw hs
      obtain ⟨g', hg⟩ := h.of_exclude hl
      exact ih hw hg
  | @logical _ _ filters _ f hm _ ih =>
    cases hw with
    | logical _ hw =>
      intro h
      obtain ⟨gs, hl, hp⟩ := Gives.of_connective h
      obtain ⟨i, hi, rfl⟩ := List.getElem_of_mem hm
      rw [conditions_eq_map, List.length_map] at hl
      rw [conditions_eq_map] at hp
      exact ih (hw _ hm) (hp i _ _ (by simp [hi]) (List.getElem?_eq_getElem (hl ▸ hi)))

theorem datetime_of_hasOpenRange (hw : f.WellFormed target) (ho : f.HasOpenRange) :
    ∃ base, target = .column base ∧ base.datatype = .datetime := by
  induction ho with
  | dateRange =>
    cases hw with
    | dateRange ht hd => exact ⟨_, ht, hd⟩
  | exclude _ ih =>
    cases hw with
    | exclude hw _ => exact ih hw
  | logical hm _ ih =>
    cases hw with
    | logical _ hw => exact ih (hw _ hm)

end OpenRanges

end Reading

end QueryFilter
