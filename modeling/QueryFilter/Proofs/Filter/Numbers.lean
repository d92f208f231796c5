import QueryFilter.Proofs.Binary64.Rounding
import QueryFilter.Proofs.Filter.Alike
import QueryFilter.Proofs.Filter.Testable

/-! # Numbers that are read and written again

A numeric filter holds the numbers nearest to the operands of its condition, and writes those. Main
statement: an integer operand is written with its own value just when it has at most 53 significant
bits, and with that of the nearest number otherwise.
-/

namespace QueryFilter

open Json (Fields)

namespace Reading

variable {target : Target} {fields : Fields} {kind : Kind}

theorem numericKind_of_comparisonKind (h : comparisonKind target fields = .ok kind)
    (hn : kind.name = "numeric") : numericKind target fields = .ok kind := by
  rcases comparisonKind_eq_ok_iff.mp h with ⟨-, hk⟩ | ⟨column, -, ⟨-, hk⟩ | ⟨-, -, hk⟩⟩
  · exact hk
  · obtain ⟨operator, value, text, -, -, rfl⟩ := textKind_eq_ok_iff.mp hk
    exact absurd hn (by simp [Kind.name])
  · obtain ⟨start, finish, -, -, rfl⟩ := dateRangeKind_eq_ok_iff.mp hk
    exact absurd hn (by simp [Kind.name])

theorem nodup_keys_activeFields (hd : fields.keys.Nodup) : (activeFields fields).keys.Nodup :=
  hd.sublist (List.filter_sublist.map _)

theorem get?_condition_of_numericKind (h : numericKind target fields = .ok kind)
    (hd : fields.keys.Nodup) {c : Comparison} {operand : Json}
    (hg : fields.get? c.key = some operand) (settings : Settings) :
    ∃ x, operand.asNumber? = some x ∧
      (kind.condition settings).get? c.key = some (.number (.ofBinary64 x)) := by
  obtain ⟨first, second, hm, rfl⟩ := numericKind_eq_ok_iff.mp h
  have hp : c.key ∉ Shape.passiveKeys := by cases c <;> decide
  have hf : (c.key, operand) ∈ activeFields fields :=
    mem_activeFields_iff.mpr ⟨Fields.mem_of_get? hg, hp⟩
  obtain ⟨b, hb, hk, hx⟩ := bound_of_mapM_numericBound hm hf
  have hkeys : (Fields.keys ((first :: second.toList).map Condition.ofBound)).Nodup := by
    rw [keys_ofBound_of_mapM hm]
    exact nodup_keys_activeFields hd
  refine ⟨b.value, hx, ?_⟩
  rw [Kind.condition, ofBounds_eq_map hkeys, show c.key = b.operator.key from hk]
  exact Fields.get?_of_mem hkeys (List.mem_map_of_mem (f := Condition.ofBound) hb)

end Reading

namespace Filter

open Binary64 Reading

variable {payload : Json} {guid : String}

/-- What is written under an operator's key has the value of the number that was read there, whether
it is the filter's own number or stands in the source. -/
theorem exists_scaled_eq_of_get? (hd : payload.Distinct)
    (hn : (ofPayload payload guid).kind.name = "numeric") {item : Item} {fields : Fields}
    (hi : Item.ofPayload (Item.unwrap payload) = .ok item)
    (hc : item.conditionFields? = some fields) {c : Comparison} {operand : Json}
    (hg : fields.get? c.key = some operand) :
    ∃ x m, operand.asNumber? = some x ∧
      (ofPayload payload guid).fullCondition.get? c.key = some (.number m) ∧
      m.scaled = x.scaled := by
  have hname : (ofPayload payload guid).kind.name ∈ comparisonKinds := by rw [hn]; decide
  obtain ⟨_, t, _, hi', hc', hk⟩ := exists_comparisonKind_of_ofPayload hname
  cases hi.symm.trans hi'
  cases hc.symm.trans hc'
  have hkeys : fields.keys.Nodup :=
    Item.nodup_keys_of_conditionFields? (Json.distinct_unwrap hd) hi hc
  have hdistinct : (ofPayload payload guid).condition.Distinct :=
    distinct_condition_ofPayload (by rw [hn]; decide)
  have hb := (carriedWith_ofPayload payload guid).background_eq
  generalize ofPayload payload guid = f at *
  obtain ⟨kind, settings⟩ := f
  obtain ⟨x, hx, hown⟩ :=
    get?_condition_of_numericKind (numericKind_of_comparisonKind hk hn) hkeys hg settings
  obtain ⟨m, hm, hs⟩ := exists_number_of_get?_condition hdistinct hown
  refine ⟨x, m, hx, fullCondition_eq_ownCondition hb ▸ hm, ?_⟩
  rw [← Number.scaled_eq_of_same hs, Number.scaled_ofBinary64]

/-- An integer under an operator's key of a numeric filter is written as the number nearest to it,
which has its value just when the integer has at most 53 significant bits. -/
theorem written_integer_iff_fits (payload : Json) (guid : String) (hd : payload.Distinct) :
    let f := ofPayload payload guid
    f.kind.name = "numeric" →
      ∃ item fields, Item.ofPayload (Item.unwrap payload) = .ok item ∧
        item.conditionFields? = some fields ∧
        ∀ (c : Comparison) (n : WordInt), fields.get? c.key = some (.number (.integer n)) →
          ∃ (x : Binary64) (m : Number), x.Nearest (n.val * unitsPerOne) ∧
            f.fullCondition.get? c.key = some (.number m) ∧ m.scaled = x.scaled ∧
            (m.scaled = n.val * unitsPerOne ↔ Fits n.val.natAbs) := by
  intro f hn
  obtain ⟨item, t, fields, hi, hc, -⟩ : ∃ item t fields,
      Item.ofPayload (Item.unwrap payload) = .ok item ∧ item.conditionFields? = some fields ∧
        comparisonKind t fields = .ok f.kind :=
    exists_comparisonKind_of_ofPayload (by rw [hn]; decide)
  refine ⟨item, fields, hi, hc, fun c n hg => ?_⟩
  obtain ⟨x, m, hx, hm, hs⟩ := exists_scaled_eq_of_get? hd hn hi hc hg
  have hx : ofInt? n.val = some x := hx
  exact ⟨x, m, nearest_of_ofInt? hx, hm, hs, hs ▸ scaled_eq_iff_fits hx⟩

/-- The greatest power of two that an unsigned word of 64 bits holds. -/
theorem written_integer_iff_fits_power :
    let n : WordInt := ⟨0x8000000000000000, by decide, by decide⟩
    let condition : Fields := [("to", .number (.integer n)), ("explicit", .bool true)]
    let payload : Json := .object
      [("dim", .string "[T.N]"), ("datatype", .string "numeric"), ("filter", .object condition)]
    let f := ofPayload payload "g"
    payload.Distinct ∧ f.kind.name = "numeric" ∧
      ∃ m, f.fullCondition.get? "to" = some (.number m) ∧ m.scaled = n.val * unitsPerOne := by
  intro n condition payload f
  have hd : payload.Distinct := by simp [payload, condition, Fields.keys]
  have hn : f.kind.name = "numeric" := by decide +kernel
  obtain ⟨item, fields, hi, hc, h⟩ := written_integer_iff_fits payload "g" hd hn
  obtain rfl : _ = item := Except.ok.inj hi
  obtain rfl : condition = fields := Option.some.inj hc
  obtain ⟨x, m, -, hm, -, hiff⟩ := h .atMost n rfl
  exact ⟨hd, hn, m, hm, hiff.mpr ⟨1, 63, by decide, by decide⟩⟩

/-- The least integer of 54 significant bits is written as the even number below it. -/
theorem written_integer_rounded :
    let n : WordInt := ⟨9007199254740993, by decide, by decide⟩
    let payload : Json := .object [("dim", .string "[T.N]"), ("datatype", .string "numeric"),
      ("filter", .object [("from", .number (.integer n))])]
    let f := ofPayload payload "g"
    f.kind.name = "numeric" ∧
      ∃ m, f.fullCondition.get? "from" = some (.number m) ∧
        m.scaled = 9007199254740992 * unitsPerOne ∧ m.scaled ≠ n.val * unitsPerOne := by
  intro n payload f
  have hd : payload.Distinct := by simp [payload, Fields.keys]
  have hn : f.kind.name = "numeric" := by decide +kernel
  have hx : ofInt? n.val = some ⟨false, 0x4340000000000000, by decide⟩ := by decide +kernel
  obtain ⟨x, m, hx', hm, hs⟩ := exists_scaled_eq_of_get? hd hn rfl rfl (c := .atLeast) rfl
  obtain rfl : _ = x := Option.some.inj (hx.symm.trans hx')
  have hv : m.scaled = 9007199254740992 * unitsPerOne := by
    rw [hs]
    decide +kernel
  refine ⟨hn, m, hm, hv, ?_⟩
  rw [hv]
  decide +kernel

end Filter

end QueryFilter
