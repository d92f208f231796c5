import QueryFilter.Proofs.Condition.Rearranged
import QueryFilter.Proofs.Filter.Edited
import QueryFilter.Proofs.Filter.Meaning
import QueryFilter.Proofs.Filter.Shapes
import QueryFilter.Proofs.Json.Definite

/-! # Composed filters

A filter that was read is evaluated by the condition of its source, but as the background or a part
of another filter by the condition that it writes itself, which is contained in it. Main statement:
what is composed of filters has a predicate, and that is composed of their predicates unless a value
passes what the filters write themselves and not what was read.
-/

namespace QueryFilter

open Json (Fields)

theorem Connective.combine_mono {connective : Connective} {as bs : List Bool}
    (h : List.Forall₂ (fun a b : Bool => a → b) as bs) (ha : connective.combine as) :
    connective.combine bs := by
  induction h with
  | nil => exact ha
  | @cons a b as bs hab _ ih =>
    cases connective with
    | and =>
      rw [combine, List.all_cons, Bool.and_eq_true] at ha ⊢
      exact ⟨hab ha.1, ih ha.2⟩
    | or =>
      rw [combine, List.any_cons, Bool.or_eq_true] at ha ⊢
      exact ha.imp hab ih

namespace Json

theorem inherited_definite : Inherited Definite where
  bool := .bool
  string := .string
  ofInt64 _ := .integer _
  ofBinary64 := .ofBinary64
  array := .array
  object := .object

end Json

namespace Condition

variable {datatype : DataType} {key : String} {x y : Json}

theorem alike_of_same (hx : x.Definite) (h : x.same y) : Alike datatype x y :=
  alike_of_rearranged (hx.reordered_of_same h).rearranged datatype

/-- A condition of an unknown shape has only keys that say nothing, as far as it is supported. -/
theorem isIdle_of_advanced {fields : Fields} {d : DataType}
    (hs : Shape.ofFields d fields = .advanced) (hk : key ∈ fields.keys)
    (h : SupportedField datatype key y) : isIdle key := by
  unfold Shape.ofFields at hs
  repeat' split at hs
  all_goals try cases hs
  next _ hm hc hr _ _ =>
  have hkey : fields.hasKey key := Fields.hasKey_iff_mem_keys.mpr hk
  have hn : ¬Shape.isConditionKey key := by
    intro hn
    rw [Bool.not_eq_true] at hc
    rw [Fields.hasKey, Shape.get?_eq_none_of_isConditionKey hn hc] at hkey
    cases hkey
  cases h with
  | presentation h => exact isIdle_iff.mpr (.inl h)
  | all => exact isIdle_iff.mpr (.inr rfl)
  | members => exact absurd (by rw [Shape.listsMembers, hkey, Bool.true_or]) hm
  | exclude => exact absurd (by rw [Shape.isCondition, hkey, Bool.or_true, Bool.true_or]) hc
  | @combination connective => exact absurd (by cases connective <;> decide) hn
  | comparison h =>
    cases h with
    | text operator => exact absurd (Filter.isConditionKey_textOperator operator) hn
    | number operator | date operator =>
      cases operator with
      | atLeast | atMost =>
        simp only [Comparison.key] at hkey
        exact absurd (by rw [Shape.hasRange, hkey]; simp) hr
      | _ => exact absurd (by decide) hn

end Condition

namespace Filter

open Condition Reading

variable {payload : Json} {guid : String} {datatype : DataType} {f : Filter}

theorem ownCondition_generic (payload : Json) (guid : String) :
    (generic payload guid).ownCondition = (generic payload guid).condition := by
  rcases (generic payload guid).ownCondition_eq_or_source with h | ⟨xs, ys, hx, ho, hs, -⟩
  · exact h
  · have hw : (Item.unwrap payload).get? "filter" = some (.object ys) := hs
    have hc : (generic payload guid).condition = .object ys := by
      change ((Item.unwrap payload).get? "filter").getD .null = _
      rw [hw, Option.getD_some]
    rw [ho, hc]

theorem custom_cases (hk : (ofPayload payload guid).kind.name = "custom") :
    (∃ fields d, (ofPayload payload guid).condition = .object fields ∧
        Shape.ofFields d fields = .advanced) ∨
      (ofPayload payload guid).ownCondition = (ofPayload payload guid).condition := by
  cases h : ofPayload? payload guid with
  | error cause =>
    rw [ofPayload_of_error h]
    exact .inr (ownCondition_generic payload guid)
  | ok f =>
    rw [ofPayload_of_ok h] at hk ⊢
    obtain ⟨item, t, shape, -, ht, hs, hn, hf⟩ := readFrom?_eq_ok_iff.mp h
    have ha := Item.announces_of_shapedFilter ht hs hf
    cases shape with
    | advanced =>
      obtain rfl := Except.ok.inj hf
      exact .inl ⟨_, _, rfl, Item.shape_eq_of_shape? hs hn⟩
    | invalid => exact absurd rfl hn
    | includeAll | specificItems | period => exact absurd (hk.symm.trans ha) (by decide)
    | condition => exact absurd hk ha
    | dateRange | numericRange =>
      obtain ⟨g, hg, rfl⟩ := map_eq_ok_iff.mp hf
      exact absurd hk (name_ne_custom_of_gives (f := g) (gives_of_conditionFilter hg))

/-- Where a filter that was read is evaluated by the condition of its source, that has all fields of
the filter's own condition, and either equality determines these or they are of an unknown shape. -/
theorem ownCondition_ofPayload_cases (payload : Json) (guid : String) :
    (ofPayload payload guid).ownCondition = (ofPayload payload guid).condition ∨
      ∃ xs ys : Fields, (ofPayload payload guid).condition = .object xs ∧
        (ofPayload payload guid).ownCondition = .object ys ∧
        (ofPayload payload guid).sourceCondition? = some (.object ys) ∧
        (∀ field ∈ xs, ∃ y, ys.get? field.1 = some y ∧ field.2.same y) ∧
        ((Json.object xs).Definite ∨ ∃ d, Shape.ofFields d xs = .advanced) := by
  rcases (ofPayload payload guid).ownCondition_eq_or_source with h | ⟨xs, ys, hx, ho, hs, hsame⟩
  · exact .inl h
  by_cases hk : (ofPayload payload guid).kind.name = "custom"
  · rcases custom_cases hk with ⟨fields, d, hf, ha⟩ | h
    · obtain rfl := Json.object.inj (hx.symm.trans hf)
      exact .inr ⟨xs, ys, hx, ho, hs, hsame, .inr ⟨d, ha⟩⟩
    · exact .inl h
  · have hd := hx ▸ inherited_condition_ofPayload Json.inherited_definite hk
    exact .inr ⟨xs, ys, hx, ho, hs, hsame, .inl hd⟩

theorem condition_of_ownCondition
    (hs : Supported datatype (ofPayload payload guid).ownCondition) :
    Supported datatype (ofPayload payload guid).condition ∧
      ∀ value, holds datatype value (ofPayload payload guid).ownCondition →
        holds datatype value (ofPayload payload guid).condition := by
  rcases ownCondition_ofPayload_cases payload guid with h | ⟨xs, ys, hx, ho, -, hsame, hxs⟩
  · rw [h] at hs ⊢
    exact ⟨hs, fun _ hv => hv⟩
  rw [ho] at hs ⊢
  rw [hx, supported_object_iff]
  simp only [holds_object, List.all_eq_true]
  have hfield {field : String × Json} (hf : field ∈ xs) :
      ∃ y, (field.1, y) ∈ ys ∧ SupportedField datatype field.1 y ∧ field.2.same y := by
    obtain ⟨y, hy, he⟩ := hsame field hf
    exact ⟨y, Fields.mem_of_get? hy, hs.field hy, he⟩
  rcases hxs with hd | ⟨d, ha⟩
  · cases hd with
    | object hnodup hd =>
      constructor
      · intro field hf
        obtain ⟨y, -, hy, he⟩ := hfield hf
        exact ((alike_of_same (hd field hf) he).supportedField_iff field.1).mpr hy
      · intro value hv field hf
        obtain ⟨y, hm, -, he⟩ := hfield hf
        rw [(alike_of_same (hd field hf) he).fieldHolds_eq]
        exact hv _ hm
  · have hidle {field : String × Json} (hf : field ∈ xs) : isIdle field.1 := by
      obtain ⟨y, -, hy, -⟩ := hfield hf
      exact isIdle_of_advanced ha (List.mem_map_of_mem hf) hy
    exact ⟨fun field hf => supportedField_of_isIdle (hidle hf) field.2,
      fun _ _ field hf => fieldHolds_of_isIdle (hidle hf) field.2⟩

/-- The condition that the filter writes itself is no proper part of its source's. -/
def SaysAll (f : Filter) : Prop :=
  ∀ whole, f.sourceCondition? = some whole → ¬f.condition.ProperPart whole

theorem saysAll_of_condition_eq {whole : Json} (hs : f.sourceCondition? = some whole)
    (hc : f.condition = whole) : f.SaysAll := by
  rintro whole' hw ⟨-, key, hk, hn⟩
  obtain rfl := Option.some.inj (hs.symm.trans hw)
  rw [hc] at hn
  rw [hn] at hk
  cases hk

theorem holds_ownCondition_of_saysAll (hp : payload.Distinct)
    (hs : Supported datatype (ofPayload payload guid).ownCondition)
    (h : (ofPayload payload guid).SaysAll) (value : Json) :
    holds datatype value (ofPayload payload guid).ownCondition =
      holds datatype value (ofPayload payload guid).condition := by
  rcases ownCondition_ofPayload_cases payload guid with he | ⟨xs, ys, hx, ho, hsource, hsame, hxs⟩
  · rw [he]
  have hw : (Json.object xs).ContainedIn (.object ys) :=
    ⟨xs, ys, rfl, rfl, fun key x hg => hsame (key, x) (Fields.mem_of_get? hg)⟩
  have hn : ¬(Json.object xs).ProperPart (.object ys) := hx ▸ h _ hsource
  rcases hxs with hd | ⟨d, ha⟩
  · have hy : (Json.object ys).Distinct := by
      rw [sourceCondition?, (carriedWith_ofPayload payload guid).source_eq] at hsource
      exact (Json.distinct_unwrap hp).get? hsource
    rw [hx, ho, (alike_of_same hd ((hw.same_iff hd.distinct hy).mpr hn)).holds_eq]
  · -- Every key of the source is one of the filter's, and says nothing.
    have hown : holds datatype value (.object ys) := by
      rw [ho, supported_object_iff] at hs
      rw [holds_object, List.all_eq_true]
      rintro ⟨key, y⟩ hm
      refine fieldHolds_of_isIdle (isIdle_of_advanced ha ?_ (hs _ hm)) y
      by_contra hk
      refine hn ⟨hw, key, Fields.hasKey_of_mem hm, ?_⟩
      rwa [← Fields.hasKey_iff_mem_keys, Bool.not_eq_true, Fields.hasKey_eq_false_iff] at hk
    have hcond := (condition_of_ownCondition hs).2 value (ho ▸ hown)
    rw [hcond, ho, hown]

/-- The filter was read, is about values of the data type, and has the predicate. -/
structure ReadWith (datatype : DataType) (f : Filter) (p : Predicate) : Prop where
  read : ∃ payload guid, payload.Distinct ∧ f = ofPayload payload guid
  datatype_eq : f.datatype = datatype
  predicate_eq : f.predicate = .ok p

namespace ReadWith

variable {p : Predicate} (h : ReadWith datatype f p)
include h

theorem ofCondition_eq : Predicate.ofCondition datatype f.ownCondition = .ok p := by
  have hb : f.settings.background = none := by
    obtain ⟨payload, guid, -, rfl⟩ := h.read
    exact (carriedWith_ofPayload payload guid).background_eq
  rw [← fullCondition_eq_ownCondition hb, ← h.datatype_eq]
  exact h.predicate_eq

theorem supported_ownCondition : Supported datatype f.ownCondition :=
  Predicate.exists_ofCondition_iff.mp ⟨p, h.ofCondition_eq⟩

theorem accepts_eq (value : Json) : p.accepts value = holds datatype value f.ownCondition :=
  Predicate.accepts_of_ofCondition h.ofCondition_eq value

theorem supported_condition : Supported datatype f.condition := by
  have hs := h.supported_ownCondition
  obtain ⟨payload, guid, -, rfl⟩ := h.read
  exact (condition_of_ownCondition hs).1

theorem holds_of_accepts (value : Json) (hv : p.accepts value) :
    holds datatype value f.condition := by
  have hs := h.supported_ownCondition
  rw [h.accepts_eq] at hv
  obtain ⟨payload, guid, -, rfl⟩ := h.read
  exact (condition_of_ownCondition hs).2 value hv

theorem accepts_eq_holds (ha : f.SaysAll) (value : Json) :
    p.accepts value = holds datatype value f.condition := by
  have hs := h.supported_ownCondition
  rw [h.accepts_eq]
  obtain ⟨payload, guid, hp, rfl⟩ := h.read
  exact holds_ownCondition_of_saysAll hp hs ha value

end ReadWith

section Composition

variable {a b : Filter} {p q : Predicate}

theorem exists_predicate_of_background (ha : ReadWith datatype a p) (hb : ReadWith datatype b q) :
    ∃ r, predicate (a.withSettings { a.settings with background := some b }) = .ok r ∧
      ∀ value, r.accepts value = (p.accepts value && holds datatype value b.condition) := by
  let f := a.withSettings { a.settings with background := some b }
  have hd : f.datatype = datatype := by
    rw [← ha.datatype_eq]
    obtain ⟨kind, settings⟩ := a
    rfl
  have hc : f.fullCondition =
      .object [(Connective.and.key, .array [a.ownCondition, b.condition])] := by
    obtain ⟨kind, settings⟩ := a
    cases kind <;> rfl
  obtain ⟨r, hr, hv⟩ := exists_predicate_of_supported hc hd (supported_combination .and
    (by simp [ha.supported_ownCondition, hb.supported_condition]))
  refine ⟨r, hr, fun value => ?_⟩
  rw [hv, holds_combination, ha.accepts_eq]
  simp [Connective.combine]

variable {filters : List Filter} {predicates : List Predicate}

theorem supported_of_readWith (h : List.Forall₂ (ReadWith datatype) filters predicates) :
    ∀ f ∈ filters, Supported datatype f.condition := by
  induction h with
  | nil => simp
  | cons hf _ ih => exact List.forall_mem_cons.mpr ⟨hf.supported_condition, ih⟩

theorem exists_predicate_of_logical {target : Target} (connective : Connective) (guid : String)
    (ht : target.datatype = datatype) (h : List.Forall₂ (ReadWith datatype) filters predicates) :
    ∃ r, predicate (.ofKind (.logical target connective filters) guid) = .ok r ∧
      ∀ value, r.accepts value =
        connective.combine (filters.map fun f => holds datatype value f.condition) := by
  have hc : fullCondition (.ofKind (.logical target connective filters) guid) =
      .object [(connective.key, .array (filters.map Filter.condition))] := by
    rw [fullCondition_eq_ownCondition rfl, ownCondition_eq_condition rfl, ← conditions_eq_map]
    rfl
  have hs : ∀ item ∈ filters.map Filter.condition, Supported datatype item := by
    rw [List.forall_mem_map]
    exact supported_of_readWith h
  obtain ⟨r, hr, hv⟩ := exists_predicate_of_supported hc ht (supported_combination connective hs)
  refine ⟨r, hr, fun value => ?_⟩
  rw [hv, holds_combination, List.map_map]
  rfl

theorem combine_holds_of_accepts {connective : Connective}
    (h : List.Forall₂ (ReadWith datatype) filters predicates) {value : Json}
    (hv : connective.combine (predicates.map (·.accepts value))) :
    connective.combine (filters.map fun f => holds datatype value f.condition) := by
  refine Connective.combine_mono ?_ hv
  rw [List.forall₂_map_left_iff, List.forall₂_map_right_iff]
  exact h.flip.imp fun p f hf => hf.holds_of_accepts value

theorem map_accepts_eq (h : List.Forall₂ (ReadWith datatype) filters predicates)
    (ha : ∀ f ∈ filters, f.SaysAll) (value : Json) :
    predicates.map (·.accepts value) = filters.map fun f => holds datatype value f.condition := by
  induction h with
  | nil => rfl
  | cons hf _ ih =>
    obtain ⟨hfirst, hrest⟩ := List.forall_mem_cons.mp ha
    rw [List.map_cons, List.map_cons, hf.accepts_eq_holds hfirst, ih hrest]

end Composition

/-- Filters that were read for one data type, and have predicates, compose. A filter with another as
its background has a predicate, and so has a logical filter over any number of them; the predicate
lets pass what the predicates of the parts do, unless a value passes the conditions that the parts
write themselves and not what they were read from. Where their sources say no more, none does. -/
theorem predicate_of_composed (datatype : DataType) :
    (∀ a b p q, ReadWith datatype a p → ReadWith datatype b q →
      ∃ r, predicate (a.withSettings { a.settings with background := some b }) = .ok r ∧
        (∀ value, r.accepts value = (p.accepts value && holds datatype value b.condition)) ∧
        ((∀ value, r.accepts value = (p.accepts value && q.accepts value)) ↔
          ∀ value, p.accepts value → holds datatype value b.condition → q.accepts value) ∧
        (b.SaysAll → ∀ value, r.accepts value = (p.accepts value && q.accepts value))) ∧
    ∀ (target : Target) (connective : Connective) (guid : String) filters predicates,
      target.datatype = datatype → List.Forall₂ (ReadWith datatype) filters predicates →
      ∃ r, predicate (.ofKind (.logical target connective filters) guid) = .ok r ∧
        (∀ value, r.accepts value =
          connective.combine (filters.map fun f => holds datatype value f.condition)) ∧
        ((∀ value, r.accepts value = connective.combine (predicates.map (·.accepts value))) ↔
          ∀ value, connective.combine (filters.map fun f => holds datatype value f.condition) →
            connective.combine (predicates.map (·.accepts value))) ∧
        ((∀ f ∈ filters, f.SaysAll) → ∀ value, r.accepts value =
          connective.combine (predicates.map (·.accepts value))) := by
  constructor
  · intro a b p q ha hb
    obtain ⟨r, hr, hv⟩ := exists_predicate_of_background ha hb
    refine ⟨r, hr, hv, ?_, fun hall value => by rw [hv, hb.accepts_eq_holds hall]⟩
    refine forall_congr' fun value => ?_
    have hq := hb.holds_of_accepts value
    rw [hv, Bool.eq_iff_iff, Bool.and_eq_true, Bool.and_eq_true]
    constructor
    · intro h hp hc
      exact (h.mp ⟨hp, hc⟩).2
    · exact fun h => ⟨fun ⟨hp, hc⟩ => ⟨hp, h hp hc⟩, fun ⟨hp, hpq⟩ => ⟨hp, hq hpq⟩⟩
  · intro target connective guid filters predicates ht h
    obtain ⟨r, hr, hv⟩ := exists_predicate_of_logical connective guid ht h
    refine ⟨r, hr, hv, ?_, fun hall value => by rw [hv, map_accepts_eq h hall]⟩
    refine forall_congr' fun value => ?_
    rw [hv, Bool.eq_iff_iff]
    exact ⟨fun h => h.mp, fun hc => ⟨hc, combine_holds_of_accepts h⟩⟩

/-- A comparison with a list of members for its background, and both as alternatives. -/
theorem predicate_of_composed_alternatives :
    let payload (field : String × Json) : Json := .object
      [("dim", .string "[T.A]"), ("datatype", .string "text"), ("filter", .object [field])]
    let a := ofPayload (payload ("contains", .string "a")) "a"
    let b := ofPayload (payload ("members", .strings ["ab", "b"])) "b"
    let target : Target := .column ⟨"[T.A]", "[T.A]", .text, none⟩
    ∃ p q, ReadWith .text a p ∧ ReadWith .text b q ∧ a.SaysAll ∧ b.SaysAll ∧
      (∃ r, predicate (a.withSettings { a.settings with background := some b }) = .ok r ∧
        ∀ value, r.accepts value = (p.accepts value && q.accepts value)) ∧
      ∃ r, predicate (.ofKind (.logical target .or [a, b]) "l") = .ok r ∧
        ∀ value, r.accepts value = (p.accepts value || q.accepts value) := by
  intro payload a b target
  have hp {field : String × Json} (hd : field.2.Distinct) : (payload field).Distinct := by
    simpa [payload, Fields.keys] using hd
  have ha : ReadWith .text a _ := ⟨⟨_, _, hp (.string "a"), rfl⟩, rfl, rfl⟩
  have hb : ReadWith .text b _ := ⟨⟨_, _, hp (distinct_strings _), rfl⟩, rfl, rfl⟩
  have hsa : a.SaysAll := saysAll_of_condition_eq rfl rfl
  have hsb : b.SaysAll := saysAll_of_condition_eq rfl rfl
  obtain ⟨hbackground, hlogical⟩ := predicate_of_composed .text
  obtain ⟨r, hr, -, -, hv⟩ := hbackground a b _ _ ha hb
  obtain ⟨r', hr', -, -, hv'⟩ := hlogical target .or "l" _ _ rfl (.cons ha (.cons hb .nil))
  refine ⟨_, _, ha, hb, hsa, hsb, ⟨r, hr, hv hsb⟩, r', hr', fun value => ?_⟩
  rw [hv' (by simp [hsa, hsb])]
  simp [Connective.combine]

/-- An exclusion beside a list of members is left to the source, and lost where the filter is the
only part of a logical one or a background. -/
theorem composed_accept_excluded :
    let payload (condition : Fields) : Json := .object
      [("dim", .string "[T.A]"), ("datatype", .string "text"), ("filter", .object condition)]
    let a := ofPayload (payload [("contains", .string "b")]) "a"
    let b := ofPayload (payload [("members", .strings ["a", "b"]),
      ("exclude", .object [("members", .strings ["b"])])]) "b"
    let target : Target := .column ⟨"[T.A]", "[T.A]", .text, none⟩
    ∃ p q r r', ReadWith .text a p ∧ ReadWith .text b q ∧
      predicate (a.withSettings { a.settings with background := some b }) = .ok r ∧
      predicate (.ofKind (.logical target .and [b]) "l") = .ok r' ∧
      p.accepts (.string "b") = true ∧ q.accepts (.string "b") = false ∧
      r.accepts (.string "b") = true ∧ r'.accepts (.string "b") = true := by
  intro payload a b target
  have hp {condition : Fields} (hd : (Json.object condition).Distinct) :
      (payload condition).Distinct := by
    simpa [payload, Fields.keys] using hd
  have ha : ReadWith .text a _ := ⟨⟨_, _, hp (by simp [Fields.keys]), rfl⟩, rfl, rfl⟩
  have hb : ReadWith .text b _ :=
    ⟨⟨_, _, hp (by simp [Fields.keys, distinct_strings]), rfl⟩, rfl, rfl⟩
  exact ⟨_, _, _, _, ha, hb, rfl, rfl, by decide, by decide, by decide, by decide⟩

end Filter

end QueryFilter
