import QueryFilter.Proofs.Binary64.Exact
import QueryFilter.Proofs.Filter.Derivation
import QueryFilter.Proofs.Filter.WellFormed
import QueryFilter.Proofs.Item.Record
import QueryFilter.Proofs.Lists

/-! # Reading written conditions

The condition of a well-formed filter gives back a filter of the same selection and the same
condition, unless a date range without bounds is in it; then it gives none.
-/

namespace QueryFilter

open Json (Fields)

section Keys

/-- The keys that decide what a condition gives, or that it gives nothing, before any comparison
does. -/
def decisiveKeys : List String :=
  ["formula", Connective.and.key, Connective.or.key, Rank.top.key, Rank.bottom.key, "members",
    "exclude", Period.last.key, Period.next.key]

theorem TextOperator.key_not_mem (operator : TextOperator) :
    operator.key ∉ decisiveKeys ++ Shape.passiveKeys := by
  obtain ⟨test, negated⟩ := operator
  cases test <;> cases negated <;> decide

theorem Comparison.key_not_mem (operator : Comparison) :
    operator.key ∉ decisiveKeys ++ Shape.passiveKeys := by
  cases operator <;> decide

end Keys

namespace Reading

variable {target : Target} {guid : String}

section Dispatch

variable {fields : Fields}

/-- No field has a key that decides before the comparisons. -/
def Comparing (fields : Fields) : Prop := ∀ field ∈ fields, field.1 ∉ decisiveKeys

theorem Comparing.get?_eq_none (h : Comparing fields) (key : String) (hk : key ∈ decisiveKeys) :
    fields.get? key = none :=
  Fields.get?_eq_none_iff.mpr fun field hf he => h field hf (he ▸ hk)

theorem Comparing.listsMembers_eq_false (h : Comparing fields) :
    Shape.listsMembers fields = false := by
  simp [Shape.listsMembers, Fields.hasKey, h.get?_eq_none "members" (by decide),
    h.get?_eq_none "exclude" (by decide)]

theorem gives_of_comparison (hk : Comparing fields) {kind : Kind}
    (h : comparisonKind target fields = .ok kind) :
    Gives target guid (.object fields) (.ofKind kind guid) := by
  have hn {key : String} (hm : key ∈ decisiveKeys) : fields.get? key = none :=
    hk.get?_eq_none key hm
  have hu : Undecided fields := ⟨⟨hn (by decide), hn (by decide)⟩,
    ⟨hn (by decide), hn (by decide)⟩, hk.listsMembers_eq_false⟩
  refine .simple hu (hn (by decide)) ?_
  rw [simpleFilter, simpleKind, show fields.get? "last" = none from hn (by decide),
    show fields.get? "next" = none from hn (by decide), h]
  rfl

theorem activeFields_eq_self (h : ∀ field ∈ fields, field.1 ∉ Shape.passiveKeys) :
    activeFields fields = fields := by
  rw [activeFields, List.filter_eq_self]
  intro field hf
  simpa using h field hf

end Dispatch

section Comparisons

theorem textKind_single (column : Column) (operator : TextOperator) (operand : String) :
    textKind column [(operator.key, .string operand)] = .ok (.text column operator operand) := by
  have ha : activeFields [(operator.key, .string operand)] = [(operator.key, .string operand)] := by
    apply activeFields_eq_self
    simpa using fun h => operator.key_not_mem (List.mem_append_right _ h)
  rw [textKind, ha]
  simp [textComparison, Json.asOperandText?, bind, Except.bind, pure, Except.pure]

/-- The bound as it is read from what is written for it. -/
def rereadBound (b : Bound) : Bound := { b with value := b.value.withoutZeroSign }

theorem same_rereadBound (b : Bound) : b.same (rereadBound b) := by
  simp [Bound.same, rereadBound, Binary64.same_comm b.value, Binary64.same_withoutZeroSign]

theorem ofBound_rereadBound (b : Bound) :
    Condition.ofBound (rereadBound b) = Condition.ofBound b := by
  simp [Condition.ofBound, rereadBound, Number.ofBinary64_withoutZeroSign]

theorem numericBound_ofBound (b : Bound) :
    numericBound (Condition.ofBound b) = .ok (rereadBound b) := by
  simp [numericBound, Condition.ofBound, Json.asNumber?, Number.toBinary64?_ofBinary64, rereadBound]

theorem ofBounds_eq_map {first : Bound} {second : Option Bound}
    (hd : (Fields.keys ((first :: second.toList).map Condition.ofBound)).Nodup) :
    Condition.ofBounds first second = (first :: second.toList).map Condition.ofBound :=
  Fields.insertAll_nil hd

theorem ofBounds_eq {first : Bound} {second : Option Bound}
    (h : ∀ b ∈ second, b.operator ≠ first.operator) :
    Condition.ofBounds first second = (first :: second.toList).map Condition.ofBound := by
  refine ofBounds_eq_map ?_
  cases second with
  | none => exact List.nodup_singleton _
  | some b =>
    have hk : first.operator.key ≠ b.operator.key := fun hk => by
      have := congrArg Comparison.ofKey? hk
      simp only [Comparison.ofKey?_key, Option.some.injEq] at this
      exact h b rfl this.symm
    simpa [Fields.keys, Condition.ofBound] using hk

theorem ofBounds_rereadBound (first : Bound) (second : Option Bound) :
    Condition.ofBounds (rereadBound first) (second.map rereadBound) =
      Condition.ofBounds first second := by
  cases second <;> simp [Condition.ofBounds, ofBound_rereadBound]

theorem key_of_mem_ofBounds {first : Bound} {second : Option Bound}
    (h : ∀ b ∈ second, b.operator ≠ first.operator) {field : String × Json}
    (hf : field ∈ Condition.ofBounds first second) :
    ∃ b ∈ first :: second.toList, field.1 = b.operator.key := by
  rw [ofBounds_eq h, List.mem_map] at hf
  obtain ⟨b, hb, rfl⟩ := hf
  exact ⟨b, hb, rfl⟩

theorem comparing_ofText (operator : TextOperator) (value : Json) :
    Comparing [(operator.key, value)] := by
  simpa [Comparing] using fun h => operator.key_not_mem (List.mem_append_left _ h)

theorem comparing_ofBounds {first : Bound} {second : Option Bound}
    (h : ∀ b ∈ second, b.operator ≠ first.operator) :
    Comparing (Condition.ofBounds first second) := by
  intro field hf hk
  obtain ⟨b, _, he⟩ := key_of_mem_ofBounds h hf
  exact b.operator.key_not_mem (List.mem_append_left _ (he ▸ hk))

theorem comparing_ofDates (start finish : Option String) :
    Comparing (Condition.optionalText "from" start ++ Condition.optionalText "to" finish) := by
  cases start <;> cases finish <;> simp [Comparing, Condition.optionalText] <;> decide

theorem numericKind_ofBounds (target : Target) {first : Bound} {second : Option Bound}
    (h : ∀ b ∈ second, b.operator ≠ first.operator) :
    numericKind target (Condition.ofBounds first second) =
      .ok (.numeric target (rereadBound first) (second.map rereadBound)) := by
  have ha : activeFields (Condition.ofBounds first second) = Condition.ofBounds first second :=
    activeFields_eq_self fun field hf hp => by
      obtain ⟨b, _, he⟩ := key_of_mem_ofBounds h hf
      exact b.operator.key_not_mem (List.mem_append_right _ (he ▸ hp))
  have hm : (Condition.ofBounds first second).mapM numericBound =
      .ok ((first :: second.toList).map rereadBound) := by
    rw [mapM_eq_ok_iff, ofBounds_eq h, List.map_map, List.map_map]
    exact List.map_congr_left fun b _ => numericBound_ofBound b
  rw [numericKind, ha, hm]
  cases second <;> rfl

theorem comparisonKind_of_comparesNumbers {target : Target} {bounds : List Bound} {fields : Fields}
    (hc : target.ComparesNumbers bounds)
    (hk : ∀ field ∈ fields, ∃ b ∈ bounds, field.1 = b.operator.key) :
    comparisonKind target fields = numericKind target fields := by
  cases target with
  | measure m => rfl
  | column base =>
    unfold Target.ComparesNumbers at hc
    cases hd : base.datatype with
    | text => simp [hd] at hc
    | numeric => simp [comparisonKind, hd]
    | datetime =>
      simp only [hd] at hc
      have hr : Shape.hasRange fields = false := by
        rw [Shape.hasRange, Bool.or_eq_false_iff, Fields.hasKey_eq_false_iff,
          Fields.hasKey_eq_false_iff, Fields.get?_eq_none_iff, Fields.get?_eq_none_iff]
        constructor <;>
        · intro field hf he
          obtain ⟨⟨operator, value⟩, hb, hkey⟩ := hk field hf
          have := hc _ hb
          cases operator <;> simp_all [Comparison.key]
      simp [comparisonKind, hd, hr]

theorem dateBound?_of_get? {fields : Fields} {key : String} {date : Option String}
    (h : fields.get? key = date.map .string) (hd : ∀ d ∈ date, (Instant.ofText? d).isSome) :
    dateBound? fields key = .ok date := by
  cases date with
  | none => simp [dateBound?, Fields.value?, h]
  | some d => simp [dateBound?, Fields.value?, h, Json.isNull, Option.filter, hd d rfl]

theorem dateRangeKind_optionalText (column : Column) {start finish : Option String}
    (hs : ∀ date ∈ start, (Instant.ofText? date).isSome)
    (hf : ∀ date ∈ finish, (Instant.ofText? date).isSome) :
    dateRangeKind column (Condition.optionalText "from" start ++
      Condition.optionalText "to" finish) = .ok (.dateRange column start finish) := by
  have h₁ : Fields.get? (Condition.optionalText "from" start ++
      Condition.optionalText "to" finish) "from" = start.map .string := by
    cases start <;> cases finish <;> rfl
  have h₂ : Fields.get? (Condition.optionalText "from" start ++
      Condition.optionalText "to" finish) "to" = finish.map .string := by
    cases start <;> cases finish <;> rfl
  rw [dateRangeKind, dateBound?_of_get? h₁ hs, dateBound?_of_get? h₂ hf]
  rfl

theorem integer?_of_get? {fields : Fields} {key : String} {n : Int64}
    (h : fields.get? key = some (.ofInt64 n)) : integer? fields key = .ok (some n) := by
  have hv : fields.value? key = some (.ofInt64 n) := by
    simp [Fields.value?, h, Json.ofInt64, Json.isNull, Option.filter]
  simp [integer?, hv]

theorem relativeKind_ofPeriod (column : Column) (period : Period) (offset count : Int64)
    (anchor : Option String) :
    relativeKind column period (.object ([("offset", .ofInt64 offset), ("count", .ofInt64 count)] ++
      Condition.optionalText "anchor" anchor)) =
      .ok (.relativeDate column period offset count anchor) := by
  have ho : integer? ([("offset", .ofInt64 offset), ("count", .ofInt64 count)] ++
      Condition.optionalText "anchor" anchor) "offset" = .ok (some offset) := integer?_of_get? rfl
  have hc : integer? ([("offset", .ofInt64 offset), ("count", .ofInt64 count)] ++
      Condition.optionalText "anchor" anchor) "count" = .ok (some count) := integer?_of_get? rfl
  have ha : Fields.text? ([("offset", .ofInt64 offset), ("count", .ofInt64 count)] ++
      Condition.optionalText "anchor" anchor) "anchor" = anchor := by
    cases anchor <;> rfl
  rw [relativeKind, ho, hc, ha]
  rfl

end Comparisons

section Members

variable {names : List String} {settings : Settings}

theorem memberList_strings (names : List String) :
    memberList (Json.strings names) = .ok names := by
  rw [Json.strings, memberList, mapM_eq_ok_iff, List.map_map]
  rfl

theorem membersFilter_ofMembers (column : Column) (hn : settings.deactivated.Nodup)
    (hd : ∀ name ∈ settings.deactivated, name ∉ names)
    (he : settings.excludeMembers → settings.deactivated = []) {base : Settings}
    (hb : base.excludeMembers = false) (hbd : base.deactivated = []) :
    membersFilter column (Condition.ofMembers names settings) base =
      .ok ⟨.members column names, { base with
        excludeMembers := settings.excludeMembers, deactivated := settings.deactivated }⟩ := by
  have hl (names : List String) (rest : Fields) :
      listedMembers (("members", Json.strings names) :: rest) = .ok (some names) := by
    simp [listedMembers, memberList_strings, Except.map]
  cases base
  subst hb hbd
  unfold Condition.ofMembers
  split
  · next hx =>
    have hm : listedMembers [("exclude", .object [("members", Json.strings names)])] = .ok none :=
      rfl
    have hi : (((Fields.get? [("exclude", .object [("members", Json.strings names)])]
        "exclude").bind Json.asObject?).getD []) = [("members", Json.strings names)] := rfl
    simp only [membersFilter, memberSelection, hm, hi, hl, bind, Except.bind, pure, Except.pure,
      Except.map, he hx, hx]
  · next hx =>
    have hx : settings.excludeMembers = false := by simpa using hx
    split
    · next hz =>
      have hz : settings.deactivated = [] := by simpa using hz
      have hm : listedMembers [] = .ok none := rfl
      have hi : (((Fields.get? [("members", Json.strings names)] "exclude").bind
          Json.asObject?).getD []) = [] := rfl
      simp only [membersFilter, memberSelection, hl, hi, hm, bind, Except.bind, pure, Except.pure,
        Except.map, hz, hx]
    · have hi : (((Fields.get? [("members", Json.strings (names ++ settings.deactivated)),
          ("exclude", .object [("members", Json.strings settings.deactivated),
            ("turnedOff", .bool true)])] "exclude").bind Json.asObject?).getD []) =
          [("members", Json.strings settings.deactivated), ("turnedOff", .bool true)] := rfl
      have ht : (Fields.flag? [("members", Json.strings settings.deactivated),
          ("turnedOff", .bool true)] "turnedOff").getD false = true := rfl
      simp only [membersFilter, memberSelection, hl, hi, ht, bind, Except.bind, pure, Except.pure,
        Except.map, if_true, filter_append_of_disjoint hd, Settings.withDeactivated,
        firstOccurrences_eq_self hn, hx]

theorem ofMembers_lookups (names : List String) (settings : Settings) :
    NotJoined (Condition.ofMembers names settings) ∧
      NotRanked (Condition.ofMembers names settings) ∧
      Shape.listsMembers (Condition.ofMembers names settings) := by
  unfold Condition.ofMembers
  split
  · exact ⟨⟨rfl, rfl⟩, ⟨rfl, rfl⟩, rfl⟩
  · split <;> exact ⟨⟨rfl, rfl⟩, ⟨rfl, rfl⟩, rfl⟩

end Members

section Ranking

theorem rankingKind_ofInt64 (column : Column) (rank : Rank) (count : Int64) (measure : Measure) :
    rankingKind column rank (.ofInt64 count) (some (.object measure.fields)) =
      .ok (.ranking column { measure with column := { measure.column with title := measure.title } }
        rank count) := by
  have hi : Item.ofPayload (.object measure.fields) = .ok (Item.ofFields measure.fields) :=
    Item.ofPayload_targetFields (.measure measure)
  have hf : (Item.ofFields measure.fields).formula = none :=
    Item.formula_targetFields (.measure measure)
  have ht : (Item.ofFields measure.fields).target? = some (Target.measure measure).reread :=
    Item.target?_ofFields fun _ _ => rfl
  simp only [rankingKind, Json.asInt64?_ofInt64, hi, hf, ht, Option.isSome_none, Bool.false_eq_true,
    if_false, Target.reread]

end Ranking

/-- The second filter is what the condition of the first gives. -/
structure Rereads (target : Target) (guid : String) (f g : Filter) : Prop where
  gives : Gives target guid f.condition g
  guid_eq : g.guid = guid
  same : f.SameSelection g
  condition_eq : g.condition = f.condition

section Kinds

variable {f : Filter}

theorem hasKey_members_condition (hw : f.WellFormed target) (hs : f.showsMembers = false) :
    (f.condition.asObject?).any (fun fields => fields.hasKey "members") = false := by
  cases hw with
  | @members column names settings _ _ _ _ =>
    have hx : settings.excludeMembers := by simpa [Filter.showsMembers] using hs
    simp only [Filter.condition, Kind.condition, Condition.ofMembers, hx, if_true]
    rfl
  | text =>
    exact Fields.hasKey_eq_false_iff.mpr ((comparing_ofText _ _).get?_eq_none _ (by decide))
  | numeric _ _ hd =>
    exact Fields.hasKey_eq_false_iff.mpr ((comparing_ofBounds hd).get?_eq_none _ (by decide))
  | @dateRange _ _ start finish => cases start <;> cases finish <;> rfl
  | @relativeDate _ period => cases period <;> rfl
  | @ranking _ _ rank => cases rank <;> rfl
  | exclude => rfl
  | @logical _ connective => cases connective <;> rfl

theorem rereads_members {column : Column} {names : List String} {settings : Settings}
    (hc : column.same target.base) (hn : settings.deactivated.Nodup)
    (hd : ∀ name ∈ settings.deactivated, name ∉ names)
    (he : settings.excludeMembers → settings.deactivated = []) (guid : String) :
    Rereads target guid ⟨.members column names, settings⟩ ⟨.members target.base names, {
      guid := guid, excludeMembers := settings.excludeMembers,
      deactivated := settings.deactivated }⟩ where
  gives := by
    obtain ⟨hj, hr, hm⟩ := ofMembers_lookups names settings
    exact .members hj hr hm (membersFilter_ofMembers target.base hn hd he rfl rfl)
  guid_eq := rfl
  same := .members hc rfl rfl
  condition_eq := rfl

theorem rereads_text {column base : Column} (hd : base.datatype = .text) (hc : column.same base)
    (operator : TextOperator) (operand : String) (settings : Settings) (guid : String) :
    Rereads (.column base) guid ⟨.text column operator operand, settings⟩
      (.ofKind (.text base operator operand) guid) where
  gives := by
    apply gives_of_comparison (comparing_ofText operator _)
    simp only [comparisonKind, hd]
    exact textKind_single base operator operand
  guid_eq := rfl
  same := .text hc
  condition_eq := rfl

theorem rereads_numeric {subject : Target} {first : Bound} {second : Option Bound}
    (hs : subject.same target) (hc : target.ComparesNumbers (first :: second.toList))
    (hd : ∀ b ∈ second, b.operator ≠ first.operator) (settings : Settings) (guid : String) :
    Rereads target guid ⟨.numeric subject first second, settings⟩
      (.ofKind (.numeric target (rereadBound first) (second.map rereadBound)) guid) where
  gives := by
    apply gives_of_comparison (comparing_ofBounds hd)
    rw [comparisonKind_of_comparesNumbers hc fun field hf => key_of_mem_ofBounds hd hf,
      numericKind_ofBounds target hd]
  guid_eq := rfl
  same := by
    apply Filter.SameSelection.numeric hs (same_rereadBound first)
    cases second with
    | none => rfl
    | some b => exact same_rereadBound b
  condition_eq := by simp [Filter.ofKind, Filter.condition, Kind.condition, ofBounds_rereadBound]

theorem rereads_dateRange {column base : Column} {start finish : Option String}
    (hd : base.datatype = .datetime) (hc : column.same base)
    (hs : ∀ date ∈ start, (Instant.ofText? date).isSome)
    (hf : ∀ date ∈ finish, (Instant.ofText? date).isSome)
    (ho : ¬(start = none ∧ finish = none)) (settings : Settings) (guid : String) :
    Rereads (.column base) guid ⟨.dateRange column start finish, settings⟩
      (.ofKind (.dateRange base start finish) guid) where
  gives := by
    apply gives_of_comparison (comparing_ofDates start finish)
    have hr : Shape.hasRange (Condition.optionalText "from" start ++
        Condition.optionalText "to" finish) := by
      cases start with
      | some _ => rfl
      | none => cases finish with
        | some _ => rfl
        | none => exact absurd ⟨rfl, rfl⟩ ho
    simp only [comparisonKind, hd, hr, if_true]
    exact dateRangeKind_optionalText base hs hf
  guid_eq := rfl
  same := .dateRange hc
  condition_eq := rfl

theorem rereads_relativeDate {column : Column} (hc : column.same target.base) (period : Period)
    (offset count : Int64) (anchor : Option String) (settings : Settings) (guid : String) :
    Rereads target guid ⟨.relativeDate column period offset count anchor, settings⟩
      (.ofKind (.relativeDate target.base period offset count anchor) guid) where
  gives := by
    have hp := relativeKind_ofPeriod target.base period offset count anchor
    refine .simple ?_ ?_ ?_
    · cases period <;> exact ⟨⟨rfl, rfl⟩, ⟨rfl, rfl⟩, rfl⟩
    · cases period <;> rfl
    · cases period
      · exact map_eq_ok_iff.mpr ⟨_, hp, rfl⟩
      · exact map_eq_ok_iff.mpr ⟨_, hp, rfl⟩
  guid_eq := rfl
  same := .relativeDate hc
  condition_eq := rfl

theorem rereads_ranking {column : Column} (hc : column.same target.base) (measure : Measure)
    (rank : Rank) (count : Int64) (settings : Settings) (guid : String) :
    Rereads target guid ⟨.ranking column measure rank count, settings⟩
      (.ofKind (.ranking target.base
        { measure with column := { measure.column with title := measure.title } } rank count)
        guid) where
  gives := by
    have hr := rankingKind_ofInt64 target.base rank count measure
    have hk : (Condition.ofRanking measure rank count).get? rank.key = some (.ofInt64 count) := by
      cases rank <;> rfl
    cases rank
    · exact .ranking ⟨rfl, rfl⟩ hk (by rintro ⟨⟩) hr
    · exact .ranking ⟨rfl, rfl⟩ hk (fun _ => rfl) hr
  guid_eq := rfl
  same := .ranking hc (by simp [Measure.same, Column.same])
  condition_eq := rfl

theorem Rereads.exclude {inner g : Filter} (h : Rereads target (partGuid guid 0) inner g)
    (hm : (inner.condition.asObject?).any (fun fields => fields.hasKey "members") = false)
    (settings : Settings) :
    Rereads target guid ⟨.exclude inner, settings⟩ (.ofKind (.exclude g) guid) where
  gives := .exclusion ⟨⟨rfl, rfl⟩, ⟨rfl, rfl⟩, hm⟩ rfl h.gives
  guid_eq := rfl
  same := .exclude h.same
  condition_eq := by
    simp [Filter.ofKind, Filter.condition, Kind.condition, h.condition_eq]

theorem rereads_logical {subject : Target} {filters gs : List Filter}
    (hs : subject.same target) (hl : filters.length = gs.length)
    (h : ∀ i f g, filters[i]? = some f → gs[i]? = some g → Rereads target (partGuid guid i) f g)
    (connective : Connective) (settings : Settings) :
    Rereads target guid ⟨.logical subject connective filters, settings⟩
      (.ofKind (.logical target connective gs) guid) where
  gives := by
    have hk : Fields.get? [(connective.key, .array (conditions filters))] connective.key =
        some (.array (conditions filters)) := by cases connective <;> rfl
    refine .combination hk ?_ ?_ ?_
    · rintro rfl; rfl
    · rw [conditions_eq_map, List.length_map, hl]
    · intro i item g hi hg
      rw [conditions_eq_map, List.getElem?_map, Option.map_eq_some_iff] at hi
      obtain ⟨f, hf, rfl⟩ := hi
      exact (h i f g hf hg).gives
  guid_eq := rfl
  same := .logical hs (forall₂_of_getElem? hl fun i f g hf hg => (h i f g hf hg).same)
  condition_eq := by
    have hm : gs.map Filter.condition = filters.map Filter.condition :=
      map_eq_map_of_getElem? hl.symm fun i g f hg hf => (h i f g hf hg).condition_eq
    simp [Filter.ofKind, Filter.condition, Kind.condition, conditions_eq_map, hm]

/-- A well-formed filter without open ranges is given back by its condition. -/
theorem exists_rereads (hw : f.WellFormed target) (ho : ¬f.HasOpenRange) (guid : String) :
    ∃ g, Rereads target guid f g := by
  induction hw generalizing guid with
  | members hc hn hd he => exact ⟨_, rereads_members hc hn hd he guid⟩
  | text ht hd hc => subst ht; exact ⟨_, rereads_text hd hc _ _ _ guid⟩
  | numeric hs hc hd => exact ⟨_, rereads_numeric hs hc hd _ guid⟩
  | dateRange ht hd hc hs hf =>
    subst ht
    refine ⟨_, rereads_dateRange hd hc hs hf ?_ _ guid⟩
    rintro ⟨rfl, rfl⟩
    exact ho .dateRange
  | relativeDate hc => exact ⟨_, rereads_relativeDate hc _ _ _ _ _ guid⟩
  | ranking hc => exact ⟨_, rereads_ranking hc _ _ _ _ guid⟩
  | exclude hw hs ih =>
    obtain ⟨g, hg⟩ := ih (fun h => ho (.exclude h)) (partGuid guid 0)
    exact ⟨_, hg.exclude (hasKey_members_condition hw hs) _⟩
  | logical hs _ ih =>
    obtain ⟨gs, hl, hg⟩ := exists_forall_getElem? fun i f hf =>
      ih f (List.mem_of_getElem? hf)
        (fun h => ho (.logical (List.mem_of_getElem? hf) h)) (partGuid guid i)
    exact ⟨_, rereads_logical hs hl hg _ _⟩

end Kinds

end Reading

end QueryFilter
