import QueryFilter.Proofs.Filter.Derivation
import QueryFilter.Proofs.Filter.Kinds

/-! # What a read filter is carried with

Whatever a payload turns into, the filter has the guid that was asked for and the item inside the
payload for its source, and no background.
-/

namespace QueryFilter

open Reading

namespace Filter

variable {f : Filter} {payload : Json} {guid : String}

/-- The guid, the source and the background of the settings that a filter was read with. -/
structure CarriedWith (f : Filter) (settings : Settings) : Prop where
  guid_eq : f.guid = settings.guid
  source_eq : f.settings.source = settings.source
  background_eq : f.settings.background = settings.background

theorem carriedWith_of_membersFilter {column : Column} {fields : Json.Fields} {settings : Settings}
    (h : membersFilter column fields settings = .ok f) : f.CarriedWith settings := by
  obtain ⟨names, excludes, deactivated, rfl⟩ := exists_of_membersFilter h
  exact ⟨rfl, rfl, rfl⟩

theorem carriedWith_of_shapedFilter {item : Item} {t : Target} {settings : Settings} {shape : Shape}
    (h : shapedFilter item t settings shape = .ok f) : f.CarriedWith settings := by
  cases shape with
  | invalid => cases h
  | includeAll | advanced => obtain rfl := Except.ok.inj h; exact ⟨rfl, rfl, rfl⟩
  | specificItems =>
    obtain ⟨hg, hs, hb⟩ := carriedWith_of_membersFilter h
    exact ⟨hg, hs, hb⟩
  | condition | dateRange | numericRange | period =>
    obtain ⟨g, -, rfl⟩ := map_eq_ok_iff.mp h
    exact ⟨rfl, rfl, rfl⟩

theorem readFrom?_eq_ok_iff {supply : Nat → String} :
    readFrom? supply payload guid = .ok f ↔
      ∃ item t shape, Item.ofPayload (Item.unwrap payload) = .ok item ∧ item.target? = some t ∧
        item.shape? = .ok shape ∧ shape ≠ .invalid ∧
        shapedFilter item t (readSettings (Item.unwrap payload) guid) shape = .ok f := by
  unfold readFrom?
  dsimp only
  constructor
  · intro h
    split at h
    · cases h
    next item hi =>
      obtain ⟨shape, hs, h⟩ := bind_eq_ok_iff.mp h
      split at h
      · cases h
      next hn =>
        split at h
        · cases h
        next t ht => exact ⟨item, t, shape, hi, ht, hs, hn, shapedDraft_eq_ok_iff.mp h⟩
  · rintro ⟨item, t, shape, hi, ht, hs, hn, h⟩
    simp only [hi, ht]
    exact bind_eq_ok_iff.mpr ⟨shape, hs, by rw [if_neg hn, shapedDraft_eq_ok_iff.mpr h]⟩

theorem ofPayload_eq (payload : Json) (guid : String) :
    ofPayload payload guid =
      match ofPayload? payload guid with
      | .ok f => f
      | .error _ => generic payload guid := rfl

theorem generic_eq (payload : Json) (guid : String) :
    generic payload guid =
      ⟨.custom ((((Item.unwrap payload).get? "dim").bind Json.asString?).getD "")
        (((Item.unwrap payload).get? "filter").getD .null),
        readSettings (Item.unwrap payload) guid⟩ := rfl

/-- The guids of a supply leave no trace. -/
theorem readFrom_congr (supply other : Nat → String) (payload : Json) (guid : String) :
    readFrom supply payload guid = readFrom other payload guid := by
  have h (f : Filter) : readFrom? supply payload guid = .ok f ↔
      readFrom? other payload guid = .ok f := readFrom?_eq_ok_iff.trans readFrom?_eq_ok_iff.symm
  unfold readFrom
  cases hr : readFrom? supply payload guid with
  | ok f => rw [(h f).mp hr]
  | error cause =>
    cases ho : readFrom? other payload guid with
    | ok f => cases hr.symm.trans ((h f).mpr ho)
    | error cause => rfl

section Congr

variable {payload' : Json}

/-! Only the item inside a payload is read. -/

theorem ofPayload?_congr (h : Item.unwrap payload = Item.unwrap payload') :
    ofPayload? payload guid = ofPayload? payload' guid := by
  unfold ofPayload? readFrom?
  rw [h]

theorem ofPayload_congr (h : Item.unwrap payload = Item.unwrap payload') :
    ofPayload payload guid = ofPayload payload' guid := by
  rw [ofPayload_eq, ofPayload_eq, ofPayload?_congr h, generic_eq, generic_eq, h]

end Congr

theorem exists_shapedFilter_of_ofPayload? (h : ofPayload? payload guid = .ok f) :
    ∃ item t shape,
      shapedFilter item t (readSettings (Item.unwrap payload) guid) shape = .ok f := by
  obtain ⟨item, t, shape, -, -, -, -, h⟩ := readFrom?_eq_ok_iff.mp h
  exact ⟨item, t, shape, h⟩

theorem carriedWith_of_ofPayload? (h : ofPayload? payload guid = .ok f) :
    f.CarriedWith (readSettings (Item.unwrap payload) guid) := by
  obtain ⟨item, t, shape, h⟩ := exists_shapedFilter_of_ofPayload? h
  exact carriedWith_of_shapedFilter h

theorem carriedWith_ofPayload (payload : Json) (guid : String) :
    (ofPayload payload guid).CarriedWith (readSettings (Item.unwrap payload) guid) := by
  rw [ofPayload_eq]
  split
  · next h => exact carriedWith_of_ofPayload? h
  · exact ⟨rfl, rfl, rfl⟩

@[simp] theorem guid_ofPayload (payload : Json) (guid : String) :
    (ofPayload payload guid).guid = guid := (carriedWith_ofPayload payload guid).guid_eq

end Filter

end QueryFilter
