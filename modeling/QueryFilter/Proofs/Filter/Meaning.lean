import QueryFilter.Filter.Writing
import QueryFilter.Proofs.Condition.Comparisons
import QueryFilter.Proofs.Condition.Members
import QueryFilter.Proofs.Filter.Items
import QueryFilter.Proofs.Instant.Disjoint

/-! # What filters accept that were read

A filter that was read from a condition accepts what the core of the condition lets pass. It accepts
what the condition lets pass only where that is the same, or where it holds on to the condition.
-/

namespace QueryFilter

open Json (Fields)

namespace Condition

variable {datatype : DataType}

theorem Compares.key_not_decisive {key : String} {operand : Json}
    (h : Compares datatype key operand) : key ∉ decisiveKeys := by
  cases h with
  | text operator => exact fun hm => operator.key_not_mem (List.mem_append_left _ hm)
  | number operator | date operator =>
    exact fun hm => operator.key_not_mem (List.mem_append_left _ hm)

/-- Both conditions are met by the same values, and the first is supported. -/
structure Agrees (datatype : DataType) (condition core : Json) : Prop where
  supported : Supported datatype condition
  object : ∃ fields, core = .object fields
  vacuous_eq : vacuous condition = vacuous core
  holds_eq : ∀ value, holds datatype value condition = holds datatype value core

section Comparisons

/-- Both fields compare with the same operand. -/
structure SameComparison (datatype : DataType) (field field' : String × Json) : Prop where
  key_eq : field.1 = field'.1
  left : Compares datatype field.1 field.2
  right : Compares datatype field'.1 field'.2
  holds_eq : ∀ value, comparisonHolds datatype value field.1 field.2 =
    comparisonHolds datatype value field'.1 field'.2

variable {fields fields' added added' : Fields}

theorem forall₂_insert (h : List.Forall₂ (SameComparison datatype) fields fields')
    {field field' : String × Json} (hf : SameComparison datatype field field') :
    List.Forall₂ (SameComparison datatype) (fields.insert field.1 field.2)
      (fields'.insert field'.1 field'.2) := by
  induction h with
  | nil => exact .cons hf .nil
  | @cons other other' fields fields' ho h ih =>
    obtain ⟨k, v⟩ := other
    obtain ⟨k', v'⟩ := other'
    obtain rfl : k = k' := ho.key_eq
    obtain ⟨key, value⟩ := field
    obtain ⟨key', value'⟩ := field'
    obtain rfl : key = key' := hf.key_eq
    rw [Fields.insert, Fields.insert]
    split
    · next hk => exact .cons (by rwa [hk]) h
    · exact .cons ho ih

theorem forall₂_insertAll (h : List.Forall₂ (SameComparison datatype) fields fields')
    (ha : List.Forall₂ (SameComparison datatype) added added') :
    List.Forall₂ (SameComparison datatype) (fields.insertAll added) (fields'.insertAll added') := by
  induction ha generalizing fields fields' with
  | nil => exact h
  | cons hf _ ih => exact ih (forall₂_insert h hf)

theorem agrees_of_forall₂ (h : List.Forall₂ (SameComparison datatype) fields fields') :
    Agrees datatype (.object fields) (.object fields') := by
  refine ⟨.object ?_, ⟨_, rfl⟩, ?_, fun value => ?_⟩
  · induction h with
    | nil => simp
    | cons hf _ ih => exact List.forall_mem_cons.mpr ⟨.comparison hf.left, ih⟩
  · rw [vacuous_object, vacuous_object]
    induction h with
    | nil => rfl
    | cons hf _ ih =>
      rw [List.all_cons, List.all_cons, ih, hf.left.vacuousField_eq_false,
        hf.right.vacuousField_eq_false]
  · rw [holds_object, holds_object]
    induction h with
    | nil => rfl
    | cons hf _ ih =>
      rw [List.all_cons, List.all_cons, ih, hf.left.fieldHolds_eq, hf.right.fieldHolds_eq,
        hf.holds_eq]

end Comparisons

section Members

theorem Agrees.refl {fields : Fields} (h : Supported datatype (.object fields)) :
    Agrees datatype (.object fields) (.object fields) :=
  ⟨h, ⟨_, rfl⟩, rfl, fun _ => rfl⟩

/-- Members that are switched off are listed and excluded, so no value meets both. -/
theorem agrees_turnedOff (names excluded : List String) (guid : String) :
    Agrees datatype
      (.object (ofMembers names (Settings.withDeactivated { guid } excluded)))
      (.object [membersField (names ++ excluded),
        ("exclude", .object [membersField excluded])]) := by
  refine ⟨supported_ofMembers .., ⟨_, rfl⟩, ?_, fun value => ?_⟩
  · have hd : (Settings.withDeactivated { guid } excluded).deactivated.isEmpty =
        excluded.isEmpty := isEmpty_firstOccurrences excluded
    rw [vacuous_ofMembers, hd, vacuous_members, vacuous_object, List.all_cons,
      vacuousField_exclude, vacuous_members]
    cases names <;> cases excluded <;> rfl
  · rw [holds_ofMembers_withDeactivated rfl, holds_members, holds_exclude, holds_nil,
      vacuous_members, holds_listed_members, isMember_append]
    cases excluded with
    | nil => simp [vacuous, vacuousFields]
    | cons name excluded =>
      cases isMember datatype (name :: excluded) value <;> simp

theorem agrees_ofMembers {column : Column} {fields : Fields} {guid : String} {f : Filter}
    (hl : Shape.listsMembers fields) (h : Reading.membersFilter column fields { guid } = .ok f) :
    Agrees datatype f.condition (.object (membersCore fields)) := by
  obtain ⟨names, excluded, hn, he, rfl⟩ := Reading.membersFilter_eq_ok_iff.mp h
  rw [membersCore, listedTexts?_eq hn, listedTexts?_eq he]
  cases names with
  | some names =>
    cases excluded with
    | some excluded =>
      dsimp only
      split
      · exact agrees_turnedOff _ excluded guid
      · exact .refl (supported_members names)
    | none => exact .refl (supported_members names)
  | none =>
    cases excluded with
    | some excluded => exact .refl (supported_exclude (supported_members excluded))
    | none =>
      rw [Reading.listsMembers_iff, Fields.hasKey, Fields.hasKey,
        Reading.listedMembers_eq_ok_none_iff.mp hn,
        Reading.listedMembers_eq_ok_none_iff.mp he] at hl
      simp at hl

end Members

end Condition

namespace Reading

open Condition

variable {target : Target} {guid : String} {condition : Json} {f : Filter}

section Comparisons

variable {fields : Fields}

theorem sameComparison_ofBound {field : String × Json} {b : Bound}
    (h : numericBound field = .ok b) : SameComparison .numeric (ofBound b) field := by
  obtain ⟨key, value⟩ := field
  obtain ⟨rfl, hx⟩ : key = b.operator.key ∧ value.asNumber? = some b.value :=
    numericBound_eq_ok_iff.mp h
  refine ⟨rfl, compares_ofBound b, .number b.operator hx, fun value' => ?_⟩
  rw [comparisonHolds_ofBound]
  simp only [comparisonHolds, Comparison.ofKey?_key, hx, Option.any_some]

theorem forall₂_ofBounds {items : Fields} {bounds : List Bound}
    (h : items.mapM numericBound = .ok bounds) :
    List.Forall₂ (SameComparison .numeric) (bounds.map ofBound) items := by
  rw [mapM_eq_ok_iff] at h
  induction bounds generalizing items with
  | nil => cases items <;> simp at h; exact .nil
  | cons b bounds ih =>
    cases items with
    | nil => simp at h
    | cons item items =>
      obtain ⟨hb, h⟩ := List.cons.inj h
      exact .cons (sameComparison_ofBound hb) (ih h)

theorem agrees_numericKind {kind : Kind} (hs : Supported target.datatype (.object fields))
    (ht : target.datatype = .numeric ∨ target.datatype = .datetime)
    (h : numericKind target fields = .ok kind) :
    Agrees target.datatype (kind.condition { guid })
      (.object (comparisonCore target.datatype fields)) := by
  obtain ⟨first, second, hm, rfl⟩ := numericKind_eq_ok_iff.mp h
  rcases ht with ht | ht
  · rw [ht, comparisonCore, if_neg (by simp)]
    exact agrees_of_forall₂ (forall₂_insertAll .nil (forall₂_ofBounds hm))
  · -- A number is no date, so no comparison with one is supported.
    obtain ⟨⟨key, value⟩, hf, hk, hx⟩ := field_of_mapM_numericBound hm first (by simp)
    obtain ⟨hs⟩ := hs
    have hc := (hs _ hf).compares (by rw [hk]; exact comparisonKey_not_reserved _)
    rw [ht] at hc
    cases hc with
    | date operator hi => simp [Json.asInstant?_eq_none hx] at hi

theorem boundField_eq {key : String} {date : Option String} (hk : key ∉ reservedKeys)
    (hs : Supported .datetime (.object fields)) (h : dateBound? fields key = .ok date) :
    boundField fields key = optionalText key date := by
  obtain ⟨hv, -⟩ := dateBound?_eq_ok_iff.mp h
  have hg : fields.get? key = date.map .string := by
    rw [← hv, Fields.value?]
    cases hg : fields.get? key with
    | none => rfl
    | some value =>
      rcases ((hs.field hg).compares hk).operand_cases with ⟨s, rfl⟩ | ⟨n, rfl⟩ <;> rfl
  rw [boundField, hg]
  cases date <;> rfl

theorem agrees_dateRangeKind {column : Column} {kind : Kind}
    (hs : Supported .datetime (.object fields)) (hr : Shape.hasRange fields)
    (h : dateRangeKind column fields = .ok kind) :
    Agrees .datetime (kind.condition { guid }) (.object (comparisonCore .datetime fields)) := by
  obtain ⟨start, finish, hstart, hfinish, rfl⟩ := dateRangeKind_eq_ok_iff.mp h
  rw [comparisonCore, if_pos ⟨rfl, hr⟩, boundField_eq (by decide) hs hstart,
    boundField_eq (by decide) hs hfinish]
  refine .refl (supported_of_compares ?_)
  exact compares_dates (dateBound?_eq_ok_iff.mp hstart).2 (dateBound?_eq_ok_iff.mp hfinish).2

theorem agrees_textKind {column : Column} {kind : Kind} (h : textKind column fields = .ok kind) :
    Agrees .text (kind.condition { guid }) (.object (comparisonCore .text fields)) := by
  obtain ⟨operator, value, operand, ha, ho, rfl⟩ := textKind_eq_ok_iff.mp h
  rw [comparisonCore, if_neg (by simp), ha]
  refine agrees_of_forall₂
    (.cons ⟨rfl, .text operator rfl, .text operator ho, fun value' => ?_⟩ .nil)
  have hr : (Json.string operand).asOperandText? = some operand := rfl
  simp only [comparisonHolds, TextOperator.ofKey?_key, ho, hr]

theorem agrees_of_simpleFilter (hs : Supported target.datatype (.object fields))
    (h : simpleFilter target guid fields = .ok f) :
    Agrees target.datatype f.condition (.object (comparisonCore target.datatype fields)) := by
  rcases exists_kind_of_simpleFilter h with ⟨kind, rfl, ⟨period, value, hk, -⟩ | ⟨-, -, hk⟩⟩
  · have hc := (hs.field hk).compares (by cases period <;> decide)
    exact absurd (by cases period <;> decide) hc.key_not_decisive
  rcases comparisonKind_eq_ok_iff.mp hk with ⟨ht, hn⟩ | ⟨column, rfl, ⟨hd, hk⟩ | ⟨hd, hr, hk⟩⟩
  · exact agrees_numericKind hs (ht.imp_right And.left) hn
  · have hd : (Target.column column).datatype = .text := hd
    rw [hd]
    exact agrees_textKind hk
  · have hd : (Target.column column).datatype = .datetime := hd
    rw [hd] at hs ⊢
    exact agrees_dateRangeKind hs hr hk

end Comparisons

section Parts

variable {datatype : DataType}

theorem agrees_connective (connective : Connective) {items cores : List Json}
    (h : List.Forall₂ (Agrees datatype) items cores) :
    Agrees datatype (.object [(connective.key, .array items)])
      (.object [(connective.key, .array cores)]) := by
  have hs : ∀ item ∈ items, Supported datatype item := by
    induction h with
    | nil => simp
    | cons ha _ ih => exact List.forall_mem_cons.mpr ⟨ha.supported, ih⟩
  refine ⟨supported_combination connective hs, ⟨_, rfl⟩, ?_, fun value => ?_⟩
  · rw [vacuous_object, vacuous_object, List.all_cons, List.all_cons, vacuousField_connective,
      vacuousField_connective]
  · rw [holds_combination, holds_combination]
    congr 1
    induction h with
    | nil => rfl
    | cons ha _ ih =>
      rw [List.map_cons, List.map_cons, ha.holds_eq, ih fun item hi => hs item (by simp [hi])]

theorem agrees_exclude {inner core : Json} (h : Agrees datatype inner core) :
    Agrees datatype (.object [("exclude", inner)]) (.object [("exclude", core)]) := by
  obtain ⟨fields, rfl⟩ := h.object
  obtain ⟨hs⟩ := h.supported
  refine ⟨.object (by simpa using .exclude h.supported), ⟨_, rfl⟩, ?_, fun value => ?_⟩
  · rw [vacuous_object, vacuous_object, List.all_cons, List.all_cons, vacuousField_exclude,
      vacuousField_exclude, h.vacuous_eq]
  · rw [holds_exclude, holds_exclude, h.vacuous_eq, h.holds_eq]

end Parts

/-- A filter that is read from a supported condition is met by what its core lets pass. -/
theorem Gives.agrees (h : Gives target guid condition f)
    (hs : Supported target.datatype condition) :
    Agrees target.datatype f.condition (core target.datatype condition) := by
  induction h with
  | @combination guid fields connective items filters hk ho hl _ ih =>
    rw [core_joined hk ho, arrayCore, itemsCore_eq_map]
    have hp := (hs.field hk).items rfl
    change Agrees _ (.object [(connective.key, .array (conditions filters))]) _
    apply agrees_connective connective
    rw [conditions_eq_map, List.forall₂_map_left_iff, List.forall₂_map_right_iff]
    exact forall₂_of_getElem? hl.symm fun i f item hf hi =>
      ih i item f hi hf (hp item (List.mem_of_getElem? hi))
  | @ranking _ _ rank _ _ _ hk =>
    have hc := (hs.field hk).compares (by cases rank <;> decide)
    exact absurd (by cases rank <;> decide) hc.key_not_decisive
  | members hj _ hl h =>
    rw [core_members hj hl]
    exact agrees_ofMembers hl h
  | exclusion hu he _ ih =>
    rw [core_exclusion hu.notJoined hu.noMembers he]
    exact agrees_exclude (ih ((hs.field he).excluded rfl))
  | simple hu he h =>
    rw [core_comparison hu.notJoined hu.noMembers he]
    exact agrees_of_simpleFilter hs h

end Reading

namespace Filter

open Condition Reading

variable {payload : Json} {guid : String} {item : Item} {shape : Shape} {fields : Fields}
  {f : Filter}

theorem exists_predicate_of_supported {datatype : DataType} {condition : Json}
    (hc : f.fullCondition = condition) (hd : f.datatype = datatype)
    (hs : Supported datatype condition) :
    ∃ p, f.predicate = .ok p ∧ ∀ value, p.accepts value = holds datatype value condition := by
  subst hd hc
  obtain ⟨p, hp⟩ := Predicate.exists_ofCondition_iff.mpr hs
  exact ⟨p, hp, Predicate.accepts_of_ofCondition hp⟩

/-- A filter is evaluated by the condition that it writes itself, or by that of its source, which
has all fields of the first. -/
theorem ownCondition_eq_or_source (f : Filter) :
    f.ownCondition = f.condition ∨
      ∃ xs ys : Fields, f.condition = .object xs ∧ f.ownCondition = .object ys ∧
        f.sourceCondition? = some (.object ys) ∧
        ∀ field ∈ xs, ∃ y, ys.get? field.1 = some y ∧ field.2.same y := by
  unfold ownCondition
  split
  · next ys xs hs hx =>
    split
    · next hc =>
      refine .inr ⟨xs, ys, hx, rfl, hs, fun field hf => ?_⟩
      have hc := List.all_eq_true.mp hc field hf
      rwa [Option.any_eq_true] at hc
    · exact .inl hx.symm
  · exact .inl rfl

theorem ownCondition_eq_or (f : Filter) :
    f.ownCondition = f.condition ∨
      ∃ source, f.sourceCondition? = some (.object source) ∧ f.ownCondition = .object source := by
  rcases f.ownCondition_eq_or_source with h | ⟨-, ys, -, ho, hs, -⟩
  · exact .inl h
  · exact .inr ⟨ys, hs, ho⟩

theorem filter_of_conditionFields? (hu : Item.unwrap (Item.unwrap payload) = Item.unwrap payload)
    (hi : Item.ofPayload (Item.unwrap payload) = .ok item)
    (hc : item.conditionFields? = some fields) {own : Fields}
    (ho : (Item.unwrap payload).get? "filter" = some (.object own)) : own = fields := by
  rw [Item.ofPayload, hu] at hi
  cases hp : Item.unwrap payload with
  | object source =>
    rw [hp] at hi ho
    obtain ⟨-, rfl⟩ := Item.ofRecord_object_eq_ok_iff.mp hi
    have hf : Fields.get? source "filter" = some (.object own) := ho
    simpa [Item.conditionFields?, Item.ofFields, Fields.value?, hf, Option.filter, Json.isNull,
      Json.asObject?] using hc
  | _ => rw [hp] at ho; cases ho

theorem exists_gives_of_ofPayload? (hi : Item.ofPayload (Item.unwrap payload) = .ok item)
    (hs : item.shape? = .ok shape) (hr : shape.readsCondition)
    (hc : item.conditionFields? = some fields) (hf : ofPayload? payload guid = .ok f) :
    ∃ t g, Gives t guid (.object fields) g ∧
      f = g.withSettings (readSettings (Item.unwrap payload) guid) := by
  obtain ⟨item', t, shape', hi', -, hs', -, hf⟩ := readFrom?_eq_ok_iff.mp hf
  cases hi.symm.trans hi'
  cases hs.symm.trans hs'
  rw [shapedFilter_of_readsCondition hr, conditionOf, hc, Option.getD_some] at hf
  obtain ⟨g, hg, rfl⟩ := map_eq_ok_iff.mp hf
  exact ⟨t, g, gives_of_conditionFilter hg, rfl⟩

theorem listsMembers_of_shape? (hs : item.shape? = .ok shape)
    (hc : item.conditionFields? = some fields) (hr : shape.readsCondition) :
    Shape.listsMembers fields = false := by
  have hn : shape ≠ .invalid := by
    rintro rfl
    cases hr
  obtain ⟨-, own, hown, rfl⟩ := Item.exists_conditionFields_of_shape? hs hn
  obtain rfl := Option.some.inj (hc.symm.trans hown)
  exact Shape.listsMembers_of_readsCondition hr

theorem fullCondition_eq_or (hu : Item.unwrap (Item.unwrap payload) = Item.unwrap payload)
    (hi : Item.ofPayload (Item.unwrap payload) = .ok item)
    (hc : item.conditionFields? = some fields)
    (hs : f.settings = readSettings (Item.unwrap payload) guid) :
    f.fullCondition = f.condition ∨ f.fullCondition = .object fields := by
  rw [fullCondition_eq_ownCondition (by rw [hs]; rfl)]
  rcases f.ownCondition_eq_or with ho | ⟨own, hown, ho⟩
  · exact .inl ho
  · rw [sourceCondition?, hs] at hown
    exact .inr (ho.trans (congrArg _ (filter_of_conditionFields? hu hi hc hown)))

/-- A filter that is read from a condition has a predicate. It accepts just the values of which the
condition holds exactly when the filter holds on to the condition, or its core holds of the same
values. -/
theorem predicate_agrees_iff (hu : Item.unwrap (Item.unwrap payload) = Item.unwrap payload)
    (hi : Item.ofPayload (Item.unwrap payload) = .ok item) (hs : item.shape? = .ok shape)
    (hm : shape ∈ [Shape.condition, .numericRange, .dateRange])
    (hc : item.conditionFields? = some fields) (hf : ofPayload? payload guid = .ok f)
    {q : Predicate} (hq : Predicate.ofCondition f.datatype (.object fields) = .ok q) :
    ∃ p, f.predicate = .ok p ∧
      ((∀ value, p.accepts value = q.accepts value) ↔
        f.fullCondition = .object fields ∨
          ∀ value, holds f.datatype value (core f.datatype (.object fields)) =
            holds f.datatype value (.object fields)) := by
  have hr : shape.readsCondition := by
    simp only [List.mem_cons, List.not_mem_nil, or_false] at hm
    rcases hm with rfl | rfl | rfl <;> rfl
  obtain ⟨t, g, hg, hfg⟩ := exists_gives_of_ofPayload? hi hs hr hc hf
  have hn : g.kind.name ≠ "members" := by
    intro hn
    obtain ⟨_, he, hl, -⟩ := hg.exists_membersFilter hn
    obtain rfl := Json.object.inj he
    rw [listsMembers_of_shape? hs hc hr] at hl
    cases hl
  have ht : f.target? = some (targetOf t g) := by rw [hfg, target?_withSettings, hg.target?_eq]
  have hd : f.datatype = (targetOf t g).datatype := (f.of_target?_eq_some ht).2.2
  have hsup := Predicate.exists_ofCondition_iff.mp ⟨q, hq⟩
  have ha : Agrees f.datatype f.condition (core f.datatype (.object fields)) := by
    rw [hd] at hsup ⊢
    rw [hfg, condition_withSettings hn]
    exact hg.targetOf.agrees hsup
  rw [predicate]
  rcases fullCondition_eq_or hu hi hc (hfg ▸ rfl : f.settings = readSettings _ guid) with hw | hw
  · rw [hw]
    obtain ⟨p, hp⟩ := Predicate.exists_ofCondition_iff.mpr ha.supported
    refine ⟨p, hp, ?_⟩
    simp only [Predicate.accepts_of_ofCondition hp, Predicate.accepts_of_ofCondition hq,
      ha.holds_eq]
    constructor
    · exact .inr
    · rintro (he | h)
      · intro value
        rw [← ha.holds_eq, he]
      · exact h
  · rw [hw]
    exact ⟨q, hq, iff_of_true (fun _ => rfl) (.inl rfl)⟩

/-- Below the combination a key of presentation is lost, which changes nothing. -/
theorem predicate_agrees_iff_nested :
    let condition : Fields := [("or", .array [
      .object [("and", .array [.object [("contains", .string "a")]]), ("explicit", .bool true)],
      .object [("exclude", .object [("startsWith", .string "b")])]])]
    let payload : Json := .object
      [("dim", .string "[T.A]"), ("datatype", .string "text"), ("filter", .object condition)]
    ∃ item f p q, Item.ofPayload payload = .ok item ∧ item.shape? = .ok .condition ∧
      item.conditionFields? = some condition ∧ ofPayload? payload "g" = .ok f ∧
      Predicate.ofCondition f.datatype (.object condition) = .ok q ∧ f.predicate = .ok p ∧
      ((∀ value, p.accepts value = q.accepts value) ↔
        f.fullCondition = .object condition ∨
          ∀ value, holds f.datatype value (core f.datatype (.object condition)) =
            holds f.datatype value (.object condition)) ∧
      f.fullCondition ≠ .object condition ∧ ∀ value, p.accepts value = q.accepts value := by
  intro condition payload
  obtain ⟨p, hp, h⟩ :=
    @predicate_agrees_iff payload "g" _ _ _ _ rfl rfl rfl (by decide) rfl rfl _ rfl
  let single : String × Json := ("and", .array [.object [("contains", .string "a")]])
  let other : Json := .object [("exclude", .object [("startsWith", .string "b")])]
  let typed : Json := .object [(Connective.or.key, .array [.object [single], other])]
  refine ⟨_, _, p, _, rfl, rfl, rfl, rfl, rfl, hp, h, ?_, h.mpr (.inr fun value => ?_)⟩
  · change typed ≠ .object condition
    simp [typed, condition]
  · have he : fieldHolds .text value "explicit" (.bool true) := fieldHolds_of_isIdle rfl _
    have hs : holds .text value (.object [single, ("explicit", .bool true)]) =
        holds .text value (.object [single]) := by simp [holds_object, he]
    change holds .text value typed = holds .text value (.object [(Connective.or.key,
      .array [.object [single, ("explicit", .bool true)], other])])
    simp only [typed, holds_combination, List.map_cons, hs]

/-- A comparison beside a combination is lost below the outermost object, and a value that fails it
is accepted. -/
theorem predicate_accepts_of_lost_comparison :
    let condition : Fields := [("or", .array [.object
      [("and", .array [.object [("contains", .string "a")]]), ("contains", .string "b")]])]
    let payload : Json := .object
      [("dim", .string "[T.A]"), ("datatype", .string "text"), ("filter", .object condition)]
    ∃ item f p q, Item.ofPayload payload = .ok item ∧ item.shape? = .ok .condition ∧
      item.conditionFields? = some condition ∧ ofPayload? payload "g" = .ok f ∧
      Predicate.ofCondition f.datatype (.object condition) = .ok q ∧ f.predicate = .ok p ∧
      p.accepts (.string "a") = true ∧ q.accepts (.string "a") = false :=
  ⟨_, _, _, _, rfl, rfl, rfl, rfl, rfl, rfl, by decide, by decide⟩

end Filter

end QueryFilter
