import QueryFilter.Proofs.Filter.Drafts
import QueryFilter.Proofs.Json.Fields

/-! # What the readers of kinds accept

For each reader of one kind of filter, what it reads and what it makes of it.
-/

namespace QueryFilter

open Json (Fields)

theorem TextOperator.ofKey?_eq_some_iff {key : String} {operator : TextOperator} :
    ofKey? key = some operator ↔ key = operator.key :=
  ⟨fun h => (key_of_ofKey? h).symm, fun h => h ▸ ofKey?_key operator⟩

theorem Comparison.ofKey?_eq_some_iff {key : String} {operator : Comparison} :
    ofKey? key = some operator ↔ key = operator.key :=
  ⟨fun h => (key_of_ofKey? h).symm, fun h => h ▸ ofKey?_key operator⟩

namespace Reading

variable {target : Target} {column : Column} {guid : String} {fields : Fields} {kind : Kind}

theorem mem_activeFields_iff {field : String × Json} :
    field ∈ activeFields fields ↔ field ∈ fields ∧ field.1 ∉ Shape.passiveKeys := by
  simp [activeFields]

theorem memberOf_eq_ok_iff {value : Json} {name : String} :
    memberOf value = .ok name ↔ value.asOperandText? = some name := by
  rw [memberOf]
  cases value.asOperandText? <;> simp [fault]

theorem memberList_eq_ok_iff {value : Json} {names : List String} :
    memberList value = .ok names ↔ ∃ items, value = .array items ∧
      (∀ item ∈ items, item.asOperandText?.isSome) ∧
      items.filterMap Json.asOperandText? = names := by
  cases value with
  | array items =>
    rw [memberList, mapM_eq_ok_iff_mapM fun _ _ => memberOf_eq_ok_iff, mapM_eq_some_iff_filterMap]
    simp
  | _ => simp [memberList, fault]

theorem listedMembers_eq_ok_none_iff :
    listedMembers fields = .ok none ↔ fields.get? "members" = none := by
  rw [listedMembers]
  split
  · next h => simp [h, map_eq_ok_iff]
  · next h => simp [h]

theorem listedMembers_eq_ok_some_iff {names : List String} :
    listedMembers fields = .ok (some names) ↔
      ∃ value, fields.get? "members" = some value ∧ memberList value = .ok names := by
  rw [listedMembers]
  split
  · next h => simp [h, map_eq_ok_iff]
  · next h => simp [h]

/-- The condition under the exclusion key, if it is an object; no fields otherwise. -/
def excludedFields (fields : Fields) : Fields :=
  ((fields.get? "exclude").bind Json.asObject?).getD []

theorem listsMembers_iff :
    Shape.listsMembers fields ↔
      fields.hasKey "members" ∨ (excludedFields fields).hasKey "members" := by
  rw [Shape.listsMembers, excludedFields, Bool.or_eq_true]
  cases (fields.get? "exclude").bind Json.asObject? <;> simp [Fields.hasKey]

theorem membersFilter_eq_ok_iff {settings : Settings} {f : Filter} :
    membersFilter column fields settings = .ok f ↔
      ∃ names excluded, listedMembers fields = .ok names ∧
        listedMembers (excludedFields fields) = .ok excluded ∧
        f = match names, excluded with
          | some names, some excluded =>
            if ((excludedFields fields).flag? "turnedOff").getD false then
              ⟨.members column (names.filter fun name => !excluded.contains name),
                settings.withDeactivated excluded⟩
            else ⟨.members column names, settings⟩
          | none, some excluded =>
            ⟨.members column excluded, { settings with excludeMembers := true }⟩
          | some names, none => ⟨.members column names, settings⟩
          | none, none => ⟨.members column [], settings⟩ := by
  simp only [membersFilter, map_eq_ok_iff, memberSelection, bind_eq_ok_iff, pure, Except.pure,
    Except.ok.injEq, excludedFields]
  have filterOf (turnedOff : Prop) [Decidable turnedOff] (a b : List String × Settings) :=
    apply_ite (fun chosen : List String × Settings =>
      (⟨.members column chosen.1, chosen.2⟩ : Filter)) turnedOff a b
  constructor
  · rintro ⟨_, ⟨names, hn, excluded, he, rfl⟩, rfl⟩
    refine ⟨names, excluded, hn, he, ?_⟩
    cases names <;> cases excluded <;> first | rfl | exact filterOf ..
  · rintro ⟨names, excluded, hn, he, rfl⟩
    refine ⟨_, ⟨names, hn, excluded, he, rfl⟩, ?_⟩
    cases names <;> cases excluded <;> first | rfl | exact filterOf ..

theorem exists_of_membersFilter {settings : Settings} {f : Filter}
    (h : membersFilter column fields settings = .ok f) :
    ∃ names excludes deactivated, f = ⟨.members column names,
      { settings with excludeMembers := excludes, deactivated := deactivated }⟩ := by
  obtain ⟨names, excluded, hn, he, rfl⟩ := membersFilter_eq_ok_iff.mp h
  cases settings
  cases names <;> cases excluded <;> dsimp only [Settings.withDeactivated] <;> try split
  all_goals exact ⟨_, _, _, rfl⟩

theorem rankingKind_eq_ok_iff {rank : Rank} {count : Json} {source? : Option Json} :
    rankingKind column rank count source? = .ok kind ↔ ∃ n source item measure,
      count.asInt64? = some n ∧ source? = some source ∧ Item.ofPayload source = .ok item ∧
        item.formula.isSome = false ∧ item.target? = some (.measure measure) ∧
        kind = .ranking column measure rank n := by
  constructor
  · intro h
    unfold rankingKind at h
    split at h
    · simp [fault] at h
    · simp [fault] at h
    next n source hn =>
    split at h
    · cases h
    next item hi =>
    split at h
    · cases h
    next hf =>
    split at h
    · next measure ht =>
      cases h
      exact ⟨n, source, item, measure, hn, rfl, hi, by simpa using hf, ht, rfl⟩
    · simp [fault] at h
  · rintro ⟨n, source, item, measure, hn, rfl, hi, hf, ht, rfl⟩
    simp [rankingKind, hn, hi, hf, ht]

theorem exists_ranking_of_rankingKind {rank : Rank} {count : Json} {source? : Option Json}
    (h : rankingKind column rank count source? = .ok kind) :
    ∃ measure n, kind = .ranking column measure rank n := by
  obtain ⟨n, -, -, measure, -, -, -, -, -, rfl⟩ := rankingKind_eq_ok_iff.mp h
  exact ⟨measure, n, rfl⟩

theorem exists_relativeDate_of_relativeKind {period : Period} {value : Json}
    (h : relativeKind column period value = .ok kind) :
    ∃ offset count anchor, kind = .relativeDate column period offset count anchor := by
  cases value with
  | object fields =>
    simp only [relativeKind, bind_eq_ok_iff] at h
    obtain ⟨offset, _, count, _, h⟩ := h
    cases count with
    | none => simp [fault] at h
    | some count =>
      cases h
      exact ⟨_, _, _, rfl⟩
  | _ => simp [relativeKind, fault] at h

theorem dateBound?_eq_ok_iff {key : String} {date : Option String} :
    dateBound? fields key = .ok date ↔
      fields.value? key = date.map .string ∧ ∀ d ∈ date, (Instant.ofText? d).isSome := by
  unfold dateBound?
  split
  · next h => cases date <;> simp [h]
  · next d h =>
    split
    · next hd => cases date <;> simp [h]; rintro rfl; exact hd
    · next hd =>
      cases date <;> simp [h, fault]; rintro rfl; simpa using hd
  · next found hn h =>
    cases date <;> simp [h, fault]; rintro rfl; exact absurd rfl (hn _)

theorem dateRangeKind_eq_ok_iff :
    dateRangeKind column fields = .ok kind ↔ ∃ start finish,
      dateBound? fields "from" = .ok start ∧ dateBound? fields "to" = .ok finish ∧
        kind = .dateRange column start finish := by
  simp only [dateRangeKind, bind_eq_ok_iff, pure, Except.pure, Except.ok.injEq]
  constructor
  · rintro ⟨start, hs, finish, hf, rfl⟩
    exact ⟨start, finish, hs, hf, rfl⟩
  · rintro ⟨start, finish, hs, hf, rfl⟩
    exact ⟨start, hs, finish, hf, rfl⟩

theorem textComparison_eq_ok_iff {key : String} {value : Json} {operator : TextOperator}
    {operand : String} :
    textComparison key value = .ok (operator, operand) ↔
      key = operator.key ∧ value.asOperandText? = some operand := by
  rw [← TextOperator.ofKey?_eq_some_iff, textComparison]
  cases TextOperator.ofKey? key with
  | none => simp [fault]
  | some _ => cases value.asOperandText? <;> simp [fault]

theorem textKind_eq_ok_iff :
    textKind column fields = .ok kind ↔ ∃ operator value operand,
      activeFields fields = [(operator.key, value)] ∧ value.asOperandText? = some operand ∧
        kind = .text column operator operand := by
  unfold textKind
  split
  · next h => simp [h]
  · next key value others h =>
    simp only [bind_eq_ok_iff, h, List.cons.injEq, Prod.mk.injEq]
    constructor
    · rintro ⟨⟨operator, operand⟩, hc, hk⟩
      obtain ⟨rfl, hv⟩ := textComparison_eq_ok_iff.mp hc
      cases others with
      | nil => cases hk; exact ⟨operator, value, operand, ⟨⟨rfl, rfl⟩, rfl⟩, hv, rfl⟩
      | cons _ _ => simp [fault] at hk
    · rintro ⟨operator, _, operand, ⟨⟨rfl, rfl⟩, rfl⟩, hv, rfl⟩
      exact ⟨(operator, operand), textComparison_eq_ok_iff.mpr ⟨rfl, hv⟩, rfl⟩

theorem numericBound_eq_ok_iff {field : String × Json} {b : Bound} :
    numericBound field = .ok b ↔
      field.1 = b.operator.key ∧ field.2.asNumber? = some b.value := by
  rw [← Comparison.ofKey?_eq_some_iff, numericBound]
  cases Comparison.ofKey? field.1 with
  | none => simp [fault]
  | some operator =>
    cases field.2.asNumber? with
    | none => simp [fault]
    | some x => cases b; simp

theorem field_of_mapM_numericBound {bounds : List Bound}
    (h : (activeFields fields).mapM numericBound = .ok bounds) :
    ∀ b ∈ bounds, ∃ field ∈ fields,
      field.1 = b.operator.key ∧ field.2.asNumber? = some b.value := by
  intro b hb
  have hm : .ok b ∈ (activeFields fields).map numericBound := by
    rw [mapM_eq_ok_iff.mp h]
    exact List.mem_map_of_mem hb
  obtain ⟨field, hf, hn⟩ := List.mem_map.mp hm
  exact ⟨field, (mem_activeFields_iff.mp hf).1, numericBound_eq_ok_iff.mp hn⟩

theorem bound_of_mapM_numericBound {bounds : List Bound} (h : fields.mapM numericBound = .ok bounds)
    {field : String × Json} (hf : field ∈ fields) :
    ∃ b ∈ bounds, field.1 = b.operator.key ∧ field.2.asNumber? = some b.value := by
  have hm := List.mem_map_of_mem (f := numericBound) hf
  rw [mapM_eq_ok_iff.mp h, List.mem_map] at hm
  obtain ⟨b, hb, he⟩ := hm
  exact ⟨b, hb, numericBound_eq_ok_iff.mp he.symm⟩

theorem numericKind_eq_ok_iff :
    numericKind target fields = .ok kind ↔ ∃ first second,
      (activeFields fields).mapM numericBound = .ok (first :: second.toList) ∧
        kind = .numeric target first second := by
  simp only [numericKind, bind_eq_ok_iff]
  constructor
  · rintro ⟨bounds, hb, h⟩
    match bounds with
    | [] => simp at h
    | [first] => cases h; exact ⟨first, none, hb, rfl⟩
    | [first, second] => cases h; exact ⟨first, some second, hb, rfl⟩
    | _ :: _ :: _ :: _ => simp [fault] at h
  · rintro ⟨first, second, hb, rfl⟩
    refine ⟨_, hb, ?_⟩
    cases second <;> rfl

theorem comparisonKind_eq_ok_iff :
    comparisonKind target fields = .ok kind ↔
      (target.datatype = .numeric ∨
          (target.datatype = .datetime ∧ Shape.hasRange fields = false)) ∧
        numericKind target fields = .ok kind ∨
      ∃ column, target = .column column ∧
        (column.datatype = .text ∧ textKind column fields = .ok kind ∨
          column.datatype = .datetime ∧ Shape.hasRange fields ∧
            dateRangeKind column fields = .ok kind) := by
  cases target with
  | measure m => simp [comparisonKind, Target.datatype]
  | column column =>
    cases hd : column.datatype with
    | text => simp [comparisonKind, hd, Target.datatype]
    | numeric => simp [comparisonKind, hd, Target.datatype]
    | datetime =>
      cases hr : Shape.hasRange fields <;> simp [comparisonKind, hd, hr, Target.datatype]

theorem kind_of_comparisonKind (h : comparisonKind target fields = .ok kind) :
    (∃ first second, kind = .numeric target first second) ∨
      ∃ column, target = .column column ∧
        ((∃ operator operand, kind = .text column operator operand) ∨
          ∃ start finish, kind = .dateRange column start finish) := by
  rcases comparisonKind_eq_ok_iff.mp h with ⟨-, hn⟩ | ⟨column, rfl, ⟨-, ht⟩ | ⟨-, -, hd⟩⟩
  · obtain ⟨first, second, -, rfl⟩ := numericKind_eq_ok_iff.mp hn
    exact .inl ⟨first, second, rfl⟩
  · obtain ⟨operator, value, operand, -, -, rfl⟩ := textKind_eq_ok_iff.mp ht
    exact .inr ⟨column, rfl, .inl ⟨operator, operand, rfl⟩⟩
  · obtain ⟨start, finish, -, -, rfl⟩ := dateRangeKind_eq_ok_iff.mp hd
    exact .inr ⟨column, rfl, .inr ⟨start, finish, rfl⟩⟩

theorem exists_kind_of_simpleFilter {f : Filter} (h : simpleFilter target guid fields = .ok f) :
    ∃ kind, f = .ofKind kind guid ∧
      ((∃ (period : Period) (value : Json), fields.get? period.key = some value ∧
          relativeKind target.base period value = .ok kind) ∨
        fields.get? Period.last.key = none ∧ fields.get? Period.next.key = none ∧
          comparisonKind target fields = .ok kind) := by
  obtain ⟨kind, hk, rfl⟩ := map_eq_ok_iff.mp h
  refine ⟨kind, rfl, ?_⟩
  unfold simpleKind at hk
  split at hk
  · next value hl => exact .inl ⟨.last, value, hl, hk⟩
  · next value _ hn => exact .inl ⟨.next, value, hn, hk⟩
  · next hl hn => exact .inr ⟨hl, hn, hk⟩

end Reading

end QueryFilter
