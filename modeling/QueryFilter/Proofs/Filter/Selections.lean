import QueryFilter.Proofs.Condition.Selections
import QueryFilter.Proofs.Filter.Edited
import QueryFilter.Proofs.Filter.Selects

/-! # Selections of members

What becomes of a condition that only lists members and excludes others. Main statement: the filter
that is read from it accepts just the values of which the condition holds, unless an exclusion
beside a list is lost with the wording of the list, or all there is to select is switched off.
-/

namespace QueryFilter

open Json (Fields)
open Reading (excludedFields membersFilter shapedFilter Gives)

namespace Json

theorem same_strings_iff {names : List String} {y : Json} :
    (strings names).same y ↔ y = strings names := by
  constructor
  · intro h
    obtain ⟨ys, rfl, hs⟩ := exists_array_of_same h
    rw [List.forall₂_map_left_iff] at hs
    clear h
    refine congrArg Json.array ?_
    induction hs with
    | nil => rfl
    | @cons name y names ys hy _ ih =>
      cases y with
      | string s => rw [List.map_cons, ← ih, beq_iff_eq.mp hy]
      | _ => cases hy
  · rintro rfl
    exact (Condition.distinct_strings names).same_refl

end Json

namespace Condition

variable {datatype : DataType} {fields : Fields}

/-- What the filter that is read from the condition gets wrong: members that are listed and
excluded, if the list is worded otherwise than the filter would, and that nothing is listed, if
what is excluded is switched off. -/
inductive Misread (datatype : DataType) (fields : Fields) : Prop
  | reworded {names excluded : List String} {value : Json} :
      listedTexts? fields = some names → listedTexts? (excludedFields fields) = some excluded →
      switchesOff fields = false → fields.get? "members" ≠ some (.strings names) →
      isMember datatype names value → isMember datatype excluded value →
      Misread datatype fields
  | switchedOff {excluded : List String} :
      listedTexts? fields = some [] → listedTexts? (excludedFields fields) = some excluded →
      excluded ≠ [] → switchesOff fields → Misread datatype fields

end Condition

namespace Reading

open Condition

variable {datatype : DataType} {fields : Fields} {column : Column} {settings : Settings}
  {f : Filter}

theorem membersFilter_of_selection (h : Selection fields) (column : Column)
    (settings : Settings) :
    membersFilter column fields settings = .ok
      (match listedTexts? fields, listedTexts? (excludedFields fields) with
        | some names, some excluded =>
          if switchesOff fields then
            ⟨.members column (names.filter fun name => !excluded.contains name),
              settings.withDeactivated excluded⟩
          else ⟨.members column names, settings⟩
        | none, some excluded =>
          ⟨.members column excluded, { settings with excludeMembers := true }⟩
        | some names, none => ⟨.members column names, settings⟩
        | none, none => ⟨.members column [], settings⟩) :=
  membersFilter_eq_ok_iff.mpr
    ⟨_, _, h.listedMembers_eq, h.listing_excludedFields.listedMembers_eq, rfl⟩

section Meaning

variable {names excluded : List String}

theorem holds_of_excluded (value : Json) :
    holds datatype value
        (.object (ofMembers excluded { settings with excludeMembers := true })) =
      (excluded.isEmpty || !isMember datatype excluded value) := by
  rw [holds_ofMembers]
  rfl

theorem holds_of_switchedOff (hx : settings.excludeMembers = false) (value : Json) :
    holds datatype value (.object (ofMembers (names.filter fun name => !excluded.contains name)
        (settings.withDeactivated excluded))) =
      ((names.isEmpty && excluded.isEmpty || isMember datatype names value) &&
        !isMember datatype excluded value) := by
  have hs : (isMember datatype (names.filter fun name => !excluded.contains name) value ||
      isMember datatype excluded value) =
      (isMember datatype names value || isMember datatype excluded value) := by
    rw [← isMember_append, ← isMember_append]
    refine isMember_congr (fun name => ?_) value
    by_cases hn : name ∈ excluded <;> simp [hn]
  rw [holds_ofMembers_withDeactivated hx]
  cases he : isMember datatype excluded value with
  | true => rw [Bool.not_true, Bool.and_false, Bool.and_false]
  | false =>
    rw [he, Bool.or_false, Bool.or_false] at hs
    rw [hs]
    cases excluded with
    | nil => simp
    | cons name excluded => simp

end Meaning

section Cases

variable {names excluded : List String}

theorem ofMembers_of_listed (hx : settings.excludeMembers = false)
    (hz : settings.deactivated = []) : ofMembers names settings = [membersField names] := by
  simp [ofMembers, hx, hz, membersField]

theorem condition_of_selection (h : Selection fields) (hx : settings.excludeMembers = false)
    (hz : settings.deactivated = []) (hf : membersFilter column fields settings = .ok f) :
    (listedTexts? (excludedFields fields) = none ∧
      f.condition = .object [membersField (listed fields)]) ∨
    (∃ excluded, listedTexts? fields = none ∧
      listedTexts? (excludedFields fields) = some excluded ∧
      f.condition = .object (ofMembers excluded { settings with excludeMembers := true })) ∨
    (∃ names excluded, listedTexts? fields = some names ∧
      listedTexts? (excludedFields fields) = some excluded ∧ switchesOff fields = false ∧
      f.condition = .object [membersField names]) ∨
    ∃ names excluded, listedTexts? fields = some names ∧
      listedTexts? (excludedFields fields) = some excluded ∧ switchesOff fields ∧
      f.condition = .object (ofMembers (names.filter fun name => !excluded.contains name)
        (settings.withDeactivated excluded)) := by
  have hm : ∀ names, ofMembers names settings = [membersField names] :=
    fun names => ofMembers_of_listed hx hz
  rw [membersFilter_of_selection h] at hf
  cases hn : listedTexts? fields with
  | none =>
    cases he : listedTexts? (excludedFields fields) with
    | none =>
      rw [hn, he] at hf
      obtain rfl := Except.ok.inj hf
      exact .inl ⟨rfl, by rw [listed_eq_nil hn, ← hm]; rfl⟩
    | some excluded =>
      rw [hn, he] at hf
      obtain rfl := Except.ok.inj hf
      exact .inr (.inl ⟨excluded, rfl, rfl, rfl⟩)
  | some names =>
    cases he : listedTexts? (excludedFields fields) with
    | none =>
      rw [hn, he] at hf
      obtain rfl := Except.ok.inj hf
      exact .inl ⟨rfl, by rw [listed_eq hn, ← hm]; rfl⟩
    | some excluded =>
      simp only [hn, he] at hf
      split at hf
      · next ho =>
        obtain rfl := Except.ok.inj hf
        exact .inr (.inr (.inr ⟨names, excluded, rfl, rfl, ho, rfl⟩))
      · next ho =>
        obtain rfl := Except.ok.inj hf
        refine .inr (.inr (.inl ⟨names, excluded, rfl, rfl, by simpa using ho, ?_⟩))
        rw [← hm]
        rfl

theorem containedIn_of_get? (hg : fields.get? "members" = some (.strings names)) :
    (Json.object [membersField names]).ContainedIn (.object fields) := by
  refine ⟨_, _, rfl, rfl, (Json.within_iff (by simp [Fields.keys])).mpr fun field hf => ?_⟩
  obtain rfl := List.mem_singleton.mp hf
  exact ⟨_, hg, (distinct_strings names).same_refl⟩

theorem get?_of_containedIn {condition : Json} (hc : condition.ContainedIn (.object fields))
    (hg : condition.get? "members" = some (.strings names)) :
    fields.get? "members" = some (.strings names) := by
  obtain ⟨y, hy, hs⟩ := hc.get? hg
  rw [Json.same_strings_iff.mp hs] at hy
  exact hy

theorem get?_members_of_switchedOff (hx : settings.excludeMembers = false) (hne : excluded ≠ []) :
    Json.get? (.object (ofMembers names (settings.withDeactivated excluded))) "members" =
      some (.strings (names ++ firstOccurrences excluded)) := by
  have hf : firstOccurrences excluded ≠ [] := by
    rwa [← List.isEmpty_eq_false_iff, isEmpty_firstOccurrences, List.isEmpty_eq_false_iff]
  simp [ofMembers, Settings.withDeactivated, hx, hf, Json.get?]

theorem get?_of_listedTexts?_nil (h : Selection fields) (hn : listedTexts? fields = some []) :
    fields.get? "members" = some (.strings []) := by
  cases hg : fields.get? "members" with
  | none => simp [listedTexts?, hg] at hn
  | some value =>
    obtain ⟨items, rfl, hs⟩ := h.items value hg
    have he : items.filterMap Json.asOperandText? = [] := by
      simpa [listedTexts?, hg, Json.asArray?] using hn
    have hi : items = [] := by
      rw [← List.isEmpty_iff, ← isEmpty_filterMap_asOperandText? hs, he]
      rfl
    rw [hi]
    rfl

/-- Where nothing is misread, the filter's condition holds of the same values, or is contained in
the condition that was read. -/
theorem holds_or_containedIn_of_not_misread (h : Selection fields)
    (hd : (Json.object fields).Distinct) (hx : settings.excludeMembers = false)
    (hz : settings.deactivated = []) (hf : membersFilter column fields settings = .ok f)
    (hm : ¬Misread datatype fields) :
    (∀ value, holds datatype value f.condition = holds datatype value (.object fields)) ∨
      f.condition.ContainedIn (.object fields) := by
  rcases condition_of_selection h hx hz hf with
    ⟨he, hc⟩ | ⟨excluded, hn, he, hc⟩ | ⟨names, excluded, hn, he, ho, hc⟩ |
      ⟨names, excluded, hn, he, ho, hc⟩
  · left
    intro value
    rw [hc, h.holds_eq hd, holds_listed_members, listed_eq_nil he]
    simp
  · left
    intro value
    rw [hc, h.holds_eq hd, holds_of_excluded, listed_eq_nil hn, listed_eq he]
    simp
  · rw [hc]
    by_cases hg : fields.get? "members" = some (.strings names)
    · exact .inr (containedIn_of_get? hg)
    · left
      intro value
      have hne : names ≠ [] := by
        rintro rfl
        exact hg (get?_of_listedTexts?_nil h hn)
      have hboth : isMember datatype names value → isMember datatype excluded value = false := by
        intro hv
        rw [Bool.eq_false_iff]
        intro hv'
        exact hm (.reworded hn he ho hg hv hv')
      rw [h.holds_eq hd, holds_listed_members, listed_eq hn, listed_eq he,
        List.isEmpty_eq_false_iff.mpr hne, Bool.false_or]
      cases hv : isMember datatype names value with
      | true => simp [hboth hv]
      | false => simp
  · left
    intro value
    have hne : names = [] → excluded = [] := by
      rintro rfl
      by_contra hne
      exact hm (.switchedOff hn he hne ho)
    rw [hc, h.holds_eq hd, holds_of_switchedOff hx, listed_eq hn, listed_eq he]
    cases excluded with
    | nil => simp
    | cons name excluded =>
      rw [List.isEmpty_eq_false_iff.mpr fun hn => List.cons_ne_nil _ _ (hne hn)]
      simp

/-- Where something is misread, the filter's condition is not contained in the condition that was
read, and some value tells them apart. -/
theorem differs_of_misread (h : Selection fields) (hd : (Json.object fields).Distinct)
    (hx : settings.excludeMembers = false) (hz : settings.deactivated = [])
    (hf : membersFilter column fields settings = .ok f) (hm : Misread datatype fields) :
    ¬f.condition.ContainedIn (.object fields) ∧
      ∃ value, holds datatype value f.condition ≠ holds datatype value (.object fields) := by
  rw [membersFilter_of_selection h] at hf
  cases hm with
  | @reworded names excluded value hn he ho hg hv hv' =>
    simp only [hn, he, ho, Bool.false_eq_true, if_false] at hf
    obtain rfl := Except.ok.inj hf
    have hc : Filter.condition ⟨.members column names, settings⟩ =
        .object [membersField names] := congrArg Json.object (ofMembers_of_listed hx hz)
    have hne : excluded ≠ [] := by
      rintro rfl
      rw [isMember_nil] at hv'
      cases hv'
    refine ⟨fun hp => hg (get?_of_containedIn hp (by rw [hc]; rfl)), value, ?_⟩
    rw [hc, h.holds_eq hd, holds_listed_members, listed_eq hn, listed_eq he, hv, hv',
      List.isEmpty_eq_false_iff.mpr hne]
    simp
  | @switchedOff excluded hn he hne ho =>
    simp only [hn, he, ho, if_true] at hf
    obtain rfl := Except.ok.inj hf
    have hf : firstOccurrences excluded ≠ [] := by
      rw [← List.isEmpty_eq_false_iff, isEmpty_firstOccurrences, List.isEmpty_eq_false_iff]
      exact hne
    constructor
    · intro hp
      have hg := get?_of_containedIn hp (get?_members_of_switchedOff hx hne)
      rw [get?_of_listedTexts?_nil h hn] at hg
      simp [Json.strings, hf] at hg
    · -- The filter selects nothing, and the condition lets pass all that is not excluded.
      have hl : holds datatype .null (.object (ofMembers
          (List.filter (fun name => !excluded.contains name) [])
          (settings.withDeactivated excluded))) = false := by
        rw [holds_of_switchedOff hx, isMember_nil, List.isEmpty_eq_false_iff.mpr hne]
        rfl
      have hr : holds datatype .null (.object fields) = true := by
        rw [h.holds_eq hd, listed_eq hn, listed_eq he, isMember_null, isMember_null]
        simp
      refine ⟨.null, fun heq => ?_⟩
      cases hl.symm.trans (heq.trans hr)

end Cases

section Shapes

variable {target : Target} {guid : String} {inner : Fields}

theorem not_gives_of_unlisted (h : Listing ["turnedOff"] inner)
    (hm : inner.get? "members" = none) : ¬Gives target guid (.object inner) f := by
  have hn : ∀ {key : String}, key ≠ "turnedOff" → inner.get? key = none := by
    intro key hk
    by_cases he : key = "members"
    · rwa [he]
    · exact h.get?_eq_none he (by simpa using hk)
  have hmem : ∀ {key : String}, key ≠ "turnedOff" → ∀ value, (key, value) ∉ inner :=
    fun hk value hf => Fields.get?_eq_none_iff.mp (hn hk) _ hf rfl
  have hx : excludedFields inner = [] := by
    rw [excludedFields, hn (by decide)]
    rfl
  intro hg
  cases hg with
  | @combination _ _ connective _ _ hk =>
    rw [hn (by cases connective <;> decide)] at hk
    cases hk
  | @ranking _ _ rank _ _ _ hk =>
    rw [hn (by cases rank <;> decide)] at hk
    cases hk
  | members _ _ hl =>
    rw [listsMembers_iff, hx, Fields.hasKey, hm] at hl
    simp [Fields.hasKey] at hl
  | exclusion _ he =>
    rw [hn (by decide)] at he
    cases he
  | simple _ _ hs =>
    rcases exists_kind_of_simpleFilter hs with ⟨kind, -, ⟨period, value, hk, -⟩ | ⟨-, -, hk⟩⟩
    · rw [hn (by cases period <;> decide)] at hk
      cases hk
    rcases comparisonKind_eq_ok_iff.mp hk with ⟨-, hk⟩ | ⟨column, -, ⟨-, hk⟩ | ⟨-, hr, -⟩⟩
    · obtain ⟨first, second, hb, -⟩ := numericKind_eq_ok_iff.mp hk
      obtain ⟨⟨key, value⟩, hf, rfl, -⟩ := field_of_mapM_numericBound hb first (by simp)
      exact hmem (by cases first.operator <;> decide) value hf
    · obtain ⟨operator, value, operand, ha, -⟩ := textKind_eq_ok_iff.mp hk
      have hf : (operator.key, value) ∈ activeFields inner := by simp [ha]
      refine hmem ?_ value (mem_activeFields_iff.mp hf).1
      obtain ⟨test, negated⟩ := operator
      cases test <;> cases negated <;> decide
    · simp [Shape.hasRange, Fields.hasKey, hn] at hr

theorem membersFilter_of_includesAll (h : Selection fields) (ha : Shape.includesAll fields) :
    membersFilter column fields settings = .ok ⟨.members column [], settings⟩ := by
  rw [Shape.includesAll, Bool.and_eq_true, List.all_eq_true] at ha
  obtain ⟨hk, hm⟩ := ha
  have hx : fields.get? "exclude" = none := by
    rw [Fields.get?_eq_none_iff]
    rintro field hf he
    have hk := hk field.1 (List.mem_map_of_mem hf)
    rw [he] at hk
    exact absurd hk (by decide)
  have he : listedTexts? (excludedFields fields) = none := by
    rw [excludedFields, hx]
    rfl
  rw [membersFilter_of_selection h, he, listedTexts?]
  cases hg : fields.get? "members" with
  | none => rfl
  | some value =>
    obtain ⟨items, rfl, -⟩ := h.items value hg
    rw [hg] at hm
    obtain rfl := List.isEmpty_iff.mp hm
    rfl

/-- A selection that neither includes everything nor lists or excludes members is not read. -/
theorem not_gives_of_selection (h : Selection fields) (ha : Shape.includesAll fields = false)
    (hl : Shape.listsMembers fields = false) :
    (∀ datatype, Shape.isCondition datatype fields) ∧
      ∀ target guid f, ¬Gives target guid (.object fields) f := by
  have hx := hl
  rw [Shape.listsMembers, Bool.or_eq_false_iff] at hx
  obtain ⟨hm, hx⟩ := hx
  rw [Shape.includesAll, Fields.hasKey_eq_false_iff.mp hm, Bool.and_true, List.all_eq_false] at ha
  obtain ⟨key, hk, ha⟩ := ha
  obtain ⟨⟨key, value⟩, hf, rfl⟩ := List.mem_map.mp hk
  replace ha : ¬Shape.includeAllKeys.contains key := ha
  obtain rfl : key = "exclude" := by
    rcases h.key _ hf with rfl | hk
    · exact absurd (by decide) ha
    · simp only [List.mem_cons, List.not_mem_nil, or_false] at hk
      rcases hk with rfl | rfl | rfl
      · rfl
      · exact absurd (by decide) ha
      · exact absurd (by decide) ha
  have hk : fields.hasKey "exclude" := Fields.hasKey_of_mem hf
  obtain ⟨found, hg⟩ := Option.isSome_iff_exists.mp hk
  obtain ⟨inner, rfl, hi⟩ := h.excludes found hg
  have hu : Fields.get? inner "members" = none := by
    rw [hg] at hx
    exact Fields.hasKey_eq_false_iff.mp hx
  refine ⟨fun _ => by rw [Shape.isCondition, hk, Bool.or_true, Bool.true_or], ?_⟩
  intro target guid f hgives
  cases hgives with
  | @combination _ _ connective _ _ hj =>
    rw [h.get?_eq_none (by cases connective <;> decide) (by cases connective <;> decide)] at hj
    cases hj
  | @ranking _ _ rank _ _ _ hr =>
    rw [h.get?_eq_none (by cases rank <;> decide) (by cases rank <;> decide)] at hr
    cases hr
  | members _ _ hl' =>
    rw [hl] at hl'
    cases hl'
  | exclusion _ he hgives =>
    obtain rfl := Option.some.inj (hg.symm.trans he)
    exact not_gives_of_unlisted hi hu hgives
  | simple _ he =>
    rw [hg] at he
    cases he

end Shapes

end Reading

namespace Filter

open Condition Reading

variable {payload : Json} {guid : String} {fields : Fields} {f : Filter} {item : Item}

theorem datatype_eq_declaredType (hu : Item.unwrap (Item.unwrap payload) = Item.unwrap payload)
    (hi : Item.ofPayload (Item.unwrap payload) = .ok item)
    (hw : (Item.unwrap payload).get? "filter" = some (.object fields)) :
    item.datatype = declaredType (some (Item.unwrap payload)) := by
  rw [Item.ofPayload, hu] at hi
  cases hp : Item.unwrap payload with
  | object source =>
    rw [hp] at hi
    obtain ⟨-, rfl⟩ := Item.ofRecord_object_eq_ok_iff.mp hi
    rfl
  | _ => rw [hp] at hw; cases hw

theorem exists_membersFilter_of_ofPayload?
    (hu : Item.unwrap (Item.unwrap payload) = Item.unwrap payload)
    (hw : (Item.unwrap payload).get? "filter" = some (.object fields)) (hs : Selection fields)
    (h : ofPayload? payload guid = .ok f) :
    ∃ column selects, column.datatype = declaredType (some (Item.unwrap payload)) ∧
      membersFilter column fields
        { readSettings (Item.unwrap payload) guid with multiSelection := selects } = .ok f := by
  obtain ⟨item, t, shape, hi, ht, hshape, hne, hf⟩ := readFrom?_eq_ok_iff.mp h
  have hd := (Item.of_target?_eq_some ht).1.trans (datatype_eq_declaredType hu hi hw)
  refine ⟨t.base, item.allowsMultiSelection, hd, ?_⟩
  obtain ⟨-, own, hown, rfl⟩ := Item.exists_conditionFields_of_shape? hshape hne
  obtain rfl := filter_of_conditionFields? hu hi hown hw
  have hc : conditionOf item = fields := by rw [conditionOf, hown, Option.getD_some]
  cases ha : Shape.includesAll fields with
  | true =>
    rw [Shape.ofFields, if_pos ha, shapedFilter] at hf
    rw [membersFilter_of_includesAll hs ha]
    exact hf
  | false =>
    rw [Shape.ofFields, if_neg (by simp [ha])] at hf
    cases hl : Shape.listsMembers fields with
    | true =>
      rw [if_pos hl, shapedFilter, hc] at hf
      exact hf
    | false =>
      obtain ⟨hk, hg⟩ := not_gives_of_selection hs ha hl
      rw [if_neg (by simp [hl]), if_pos (hk _), shapedFilter_of_readsCondition rfl, hc] at hf
      obtain ⟨g, hf, -⟩ := map_eq_ok_iff.mp hf
      exact absurd (gives_of_conditionFilter hf) (hg _ _ _)

theorem ownCondition_of_source (hc : f.condition = .object fields)
    (hs : f.sourceCondition? = some (.object fields)) : f.ownCondition = .object fields := by
  rw [ownCondition, hc, hs]
  exact ite_self _

theorem ownCondition_agrees_iff {column : Column} {settings : Settings} {datatype : DataType}
    (hd : (Json.object fields).Distinct) (hs : Selection fields)
    (hx : settings.excludeMembers = false) (hz : settings.deactivated = [])
    (hf : membersFilter column fields settings = .ok f)
    (hw : f.sourceCondition? = some (.object fields)) :
    (∀ value, holds datatype value f.ownCondition = holds datatype value (.object fields)) ↔
      ¬Misread datatype fields := by
  have hdist : f.condition.Distinct := by
    obtain ⟨names, excludes, deactivated, rfl⟩ := exists_of_membersFilter hf
    exact distinct_ofMembers ..
  constructor
  · intro h hm
    obtain ⟨hn, value, hv⟩ := differs_of_misread hs hd hx hz hf hm
    refine hv ?_
    rw [← h value, ownCondition_of_not_containedIn hdist]
    intro whole hwhole
    obtain rfl := Option.some.inj (hw.symm.trans hwhole)
    exact hn
  · intro hm value
    rcases holds_or_containedIn_of_not_misread hs hd hx hz hf hm with h | h
    · rcases f.ownCondition_eq_or with ho | ⟨own, hown, ho⟩
      · rw [ho, h]
      · obtain rfl := Json.object.inj (Option.some.inj (hw.symm.trans hown))
        rw [ho]
    · rw [ownCondition_of_containedIn hdist hw h]

/-- What a payload with a selection turns into has the declared data type and a predicate, and so
has the selection itself. Both accept the same values exactly if nothing in the selection is
misread; where the payload makes no members filter they always do. -/
theorem predicate_agrees_iff_not_misread (hp : payload.Distinct)
    (hu : Item.unwrap (Item.unwrap payload) = Item.unwrap payload)
    (hw : (Item.unwrap payload).get? "filter" = some (.object fields)) (hs : Selection fields)
    (guid : String) :
    (ofPayload payload guid).datatype = declaredType (some (Item.unwrap payload)) ∧
      ∃ p q, (ofPayload payload guid).predicate = .ok p ∧
        Predicate.ofCondition (ofPayload payload guid).datatype (.object fields) = .ok q ∧
        ((∀ value, p.accepts value = q.accepts value) ↔
          ((ofPayload payload guid).kind.name = "members" →
            ¬Misread (ofPayload payload guid).datatype fields)) := by
  have hd : (Json.object fields).Distinct := (Json.distinct_unwrap hp).get? hw
  have hsel : Supported (ofPayload payload guid).datatype (.object fields) := hs.supported hd
  obtain ⟨q, hq⟩ := Predicate.exists_ofCondition_iff.mpr hsel
  have hcarried := carriedWith_ofPayload payload guid
  have hsource : (ofPayload payload guid).sourceCondition? = some (.object fields) := by
    rw [sourceCondition?, hcarried.source_eq]
    exact hw
  rw [predicate, fullCondition_eq_ownCondition hcarried.background_eq]
  cases h : ofPayload? payload guid with
  | error cause =>
    rw [ofPayload_of_error h] at hq hsource ⊢
    have hc : (generic payload guid).condition = .object fields := by
      change ((Item.unwrap payload).get? "filter").getD .null = _
      rw [hw, Option.getD_some]
    rw [ownCondition_of_source hc hsource]
    have hk : (generic payload guid).kind.name ≠ "members" := by
      change "custom" ≠ "members"
      decide
    exact ⟨rfl, q, q, hq, hq, iff_of_true (fun _ => rfl) fun hn => absurd hn hk⟩
  | ok f =>
    rw [ofPayload_of_ok h] at hq hsource ⊢
    obtain ⟨column, selects, hcolumn, hf⟩ := exists_membersFilter_of_ofPayload? hu hw hs h
    obtain ⟨names, excludes, deactivated, hkind⟩ := exists_of_membersFilter hf
    have ht : f.datatype = column.datatype := by rw [hkind]; rfl
    have hn : f.kind.name = "members" := by rw [hkind]; rfl
    have hsup : Supported f.datatype f.ownCondition := by
      rcases f.ownCondition_eq_or with ho | ⟨own, hown, ho⟩
      · rw [ho, hkind]
        exact supported_ofMembers ..
      · obtain rfl := Json.object.inj (Option.some.inj (hsource.symm.trans hown))
        rw [ho]
        exact hs.supported hd
    obtain ⟨p, hp⟩ := Predicate.exists_ofCondition_iff.mpr hsup
    refine ⟨ht.trans hcolumn, p, q, hp, hq, ?_⟩
    simp only [Predicate.accepts_of_ofCondition hp, Predicate.accepts_of_ofCondition hq, hn,
      true_imp_iff]
    exact ownCondition_agrees_iff hd hs rfl rfl hf hsource

theorem predicate_agrees_iff_not_misread_excluded :
    let inner : Fields := [("members", .strings ["b"]), ("turnedOff", .bool true)]
    let selection : Fields := [("members", .strings ["a", "b"]), ("exclude", .object inner)]
    let payload : Json := .object
      [("dim", .string "[T.A]"), ("datatype", .string "text"), ("filter", .object selection)]
    payload.Distinct ∧ Selection selection ∧ (ofPayload payload "g").kind.name = "members" ∧
      ¬Misread .text selection ∧
      ∃ p q, (ofPayload payload "g").predicate = .ok p ∧
        Predicate.ofCondition .text (.object selection) = .ok q ∧
        ∀ value, p.accepts value = q.accepts value := by
  intro inner selection payload
  have hp : payload.Distinct := by
    simp [payload, selection, inner, Fields.keys, Json.strings]
  have hs : Selection selection := by
    refine ⟨listing_cons (by simp [Json.asOperandText?]) (by simp), ?_⟩
    intro value hv
    obtain rfl := Option.some.inj hv
    exact ⟨inner, rfl, listing_cons (by simp [Json.asOperandText?]) (by simp)⟩
  have hm : ¬Misread .text selection := by
    rintro (⟨-, -, ho, -, -, -⟩ | ⟨hn, -, -, -⟩)
    · exact absurd ho (by decide)
    · exact absurd hn (by decide)
  obtain ⟨-, p, q, hpred, hq, h⟩ := predicate_agrees_iff_not_misread hp rfl rfl hs "g"
  exact ⟨hp, hs, rfl, hm, p, q, hpred, hq, h.mpr fun _ => hm⟩

/-- A number among the listed members is read as a text, so that the list of the filter is not the
one that was read. The exclusion beside it is lost, and the filter accepts what is excluded. -/
theorem predicate_accepts_of_reworded_list :
    let inner : Fields := [("members", .strings ["a"])]
    let selection : Fields :=
      [("members", .array [.string "a", .number (.integer ⟨1, by decide, by decide⟩)]),
        ("exclude", .object inner)]
    let payload : Json := .object
      [("dim", .string "[T.A]"), ("datatype", .string "text"), ("filter", .object selection)]
    Selection selection ∧ ∃ p q, (ofPayload payload "g").predicate = .ok p ∧
      Predicate.ofCondition (ofPayload payload "g").datatype (.object selection) = .ok q ∧
      p.accepts (.string "a") = true ∧ q.accepts (.string "a") = false := by
  intro inner selection payload
  refine ⟨⟨listing_cons (by simp [Json.asOperandText?]) (by simp), ?_⟩, _, _, rfl, rfl,
    by decide, by decide⟩
  intro value hv
  obtain rfl := Option.some.inj hv
  exact ⟨inner, rfl, listing_cons (by simp [Json.asOperandText?]) (by simp)⟩

end Filter

end QueryFilter
