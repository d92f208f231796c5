import QueryFilter.Filter.Writing
import QueryFilter.Proofs.Filter.Distinct
import QueryFilter.Proofs.Filter.Items

/-! # Edited filters

A filter that was read keeps its source when it is edited. The source's condition is written as long
as it contains the filter's own, so an edit after which the condition is made of some, but not all,
fields of the source's is lost, and every other edit is written.
-/

namespace QueryFilter

open Json (Fields)

namespace Json

/-- Both are objects, and every field of the first has an equal value in the second. -/
def ContainedIn (part whole : Json) : Prop :=
  ∃ xs ys : Fields, part = .object xs ∧ whole = .object ys ∧ xs.Within ys

/-- The first is contained in the second, which has a key more. -/
def ProperPart (part whole : Json) : Prop :=
  part.ContainedIn whole ∧ ∃ key, (whole.get? key).isSome ∧ part.get? key = none

variable {part whole : Json}

theorem ContainedIn.get? (h : part.ContainedIn whole) {key : String} {x : Json}
    (hx : part.get? key = some x) : ∃ y, whole.get? key = some y ∧ x.same y := by
  obtain ⟨xs, ys, rfl, rfl, hw⟩ := h
  exact hw key x hx

theorem ContainedIn.same_iff (h : part.ContainedIn whole) (hp : part.Distinct)
    (hw : whole.Distinct) : part.same whole ↔ ¬part.ProperPart whole := by
  rw [ProperPart, and_iff_right h]
  obtain ⟨xs, ys, rfl, rfl, h⟩ := h
  have hx := (distinct_object_iff.mp hp).1
  have hy := (distinct_object_iff.mp hw).1
  rw [same_object_iff hx, and_iff_left h, h.length_eq_iff hx hy]
  simp only [List.subset_def, ← Fields.hasKey_iff_mem_keys, Fields.hasKey,
    ← Option.not_isSome_iff_eq_none, not_exists, not_and, not_not]
  exact ⟨fun h key hk => h hk, fun h key hk => h key hk⟩

theorem Fields.containedIn_iff {xs ys : Fields} (hd : xs.keys.Nodup) :
    xs.containedIn ys ↔ xs.Within ys := by
  rw [within_iff hd, containedIn, List.all_eq_true]
  refine forall₂_congr fun (key, x) _ => ?_
  cases h : ys.get? key <;> simp [h]

theorem distinct_unwrap {payload : Json} (h : payload.Distinct) :
    (Item.unwrap payload).Distinct := by
  unfold Item.unwrap
  split
  · next hi => exact h.get? hi
  · exact h

end Json

namespace Filter

section Sources

variable {f : Filter} {whole : Json}

theorem ownCondition_of_containedIn (hd : f.condition.Distinct)
    (hs : f.sourceCondition? = some whole) (h : f.condition.ContainedIn whole) :
    f.ownCondition = whole := by
  obtain ⟨xs, ys, hx, rfl, hw⟩ := h
  rw [hx] at hd
  rw [ownCondition, hs, hx]
  exact if_pos ((Fields.containedIn_iff (Json.distinct_object_iff.mp hd).1).mpr hw)

theorem ownCondition_of_not_containedIn (hd : f.condition.Distinct)
    (h : ∀ whole, f.sourceCondition? = some whole → ¬f.condition.ContainedIn whole) :
    f.ownCondition = f.condition := by
  unfold ownCondition
  split
  · next ys xs hs hx =>
    rw [hx] at hd
    rw [if_neg, hx]
    intro hc
    have hw := (Fields.containedIn_iff (Json.distinct_object_iff.mp hd).1).mp hc
    exact h _ hs ⟨xs, ys, hx, rfl, hw⟩
  · rfl

theorem exists_number_of_get?_condition (hd : f.condition.Distinct) {key : String} {m : Number}
    (hm : f.condition.get? key = some (.number m)) :
    ∃ n, f.ownCondition.get? key = some (.number n) ∧ m.same n := by
  by_cases hc : ∃ whole, f.sourceCondition? = some whole ∧ f.condition.ContainedIn whole
  · obtain ⟨whole, hw, hc⟩ := hc
    obtain ⟨y, hy, hs⟩ := hc.get? hm
    rw [ownCondition_of_containedIn hd hw hc]
    obtain ⟨n, rfl, hn⟩ := Json.exists_number_of_same hs
    exact ⟨n, hy, hn⟩
  · rw [ownCondition_of_not_containedIn hd fun whole hw hn => hc ⟨whole, hw, hn⟩]
    exact ⟨m, hm, m.same_refl⟩

/-- The condition that is written is the filter's own, unless that is a proper part of the
source's. -/
theorem same_ownCondition_iff (hd : f.condition.Distinct)
    (hs : ∀ whole, f.sourceCondition? = some whole → whole.Distinct) :
    f.condition.same f.ownCondition ↔
      ∀ whole, f.sourceCondition? = some whole → ¬f.condition.ProperPart whole := by
  by_cases hc : ∃ whole, f.sourceCondition? = some whole ∧ f.condition.ContainedIn whole
  · obtain ⟨whole, hw, hc⟩ := hc
    rw [ownCondition_of_containedIn hd hw hc, hc.same_iff hd (hs whole hw)]
    simp only [hw, Option.some.injEq, forall_eq']
  · rw [not_exists] at hc
    have hn : ∀ whole, f.sourceCondition? = some whole → ¬f.condition.ContainedIn whole :=
      fun whole hw h => hc whole ⟨hw, h⟩
    rw [ownCondition_of_not_containedIn hd hn]
    exact iff_of_true hd.same_refl fun whole hw hp => hn whole hw hp.1

end Sources

variable {g : Filter} {payload : Json} {guid : String}

/-- A filter that keeps the source of a filter that was read writes its own condition, unless that
is a proper part of the payload's: then the payload's condition comes back whole. An edit that gives
another value to a field that was taken over from the payload is always written. -/
theorem fullCondition_of_edited (hp : payload.Distinct)
    (hk : (ofPayload payload guid).kind.name ≠ "custom")
    (hc : ∀ condition, g.CarriesAlong condition → condition.Distinct)
    (hs : g.settings.source = (ofPayload payload guid).settings.source)
    (hb : g.settings.background = none) :
    (g.condition.same g.fullCondition ↔
        ∀ whole, (Item.unwrap payload).get? "filter" = some whole →
          ¬g.condition.ProperPart whole) ∧
      ∀ whole, (Item.unwrap payload).get? "filter" = some whole →
        (g.condition.ProperPart whole → g.fullCondition = whole) ∧
        ((ofPayload payload guid).condition.ContainedIn whole →
          ∀ key x y, (ofPayload payload guid).condition.get? key = some x →
            g.condition.get? key = some y → ¬x.same y → g.condition.same g.fullCondition) := by
  have hg := g.distinct_condition hc
  have hsource : g.sourceCondition? = (Item.unwrap payload).get? "filter" := by
    rw [sourceCondition?, hs, (carriedWith_ofPayload payload guid).source_eq, readSettings,
      Option.bind_some]
  have hd : ∀ whole, g.sourceCondition? = some whole → whole.Distinct := by
    intro whole hw
    exact (Json.distinct_unwrap hp).get? (hsource ▸ hw)
  rw [fullCondition_eq_ownCondition hb, same_ownCondition_iff hg hd, hsource]
  refine ⟨Iff.rfl, fun whole hw => ⟨fun hpart => ?_, fun hf key x y hx hy hne => ?_⟩⟩
  · exact ownCondition_of_containedIn hg (hsource.trans hw) hpart.1
  · intro whole' hw' hpart
    obtain rfl := Option.some.inj (hw.symm.trans hw')
    obtain ⟨z, hz, hxz⟩ := hf.get? hx
    obtain ⟨z', hz', hyz⟩ := hpart.1.get? hy
    obtain rfl := Option.some.inj (hz.symm.trans hz')
    have hzd := (hd whole (hsource.trans hw)).get? hz
    have hzy := (hg.get? hy).same_symm hzd hyz
    exact hne (((distinct_condition_ofPayload hk).get? hx).same_trans hxz hzy)

/-- A member list that is exchanged for another one is written, though the payload's condition had
been taken over with an inactive member beside it. -/
theorem fullCondition_of_edited_members :
    let inactive : Fields := [("members", .strings ["b"]), ("turnedOff", .bool true)]
    let whole : Fields := [("members", .strings ["a", "b"]), ("exclude", .object inactive)]
    let payload : Json := .object
      [("dim", .string "[T.A]"), ("datatype", .string "text"), ("filter", .object whole)]
    let f := ofPayload payload "g"
    let g : Filter := ⟨.members ⟨"[T.A]", "[T.A]", .text, none⟩ ["c"], f.settings⟩
    payload.Distinct ∧ f.kind.name ≠ "custom" ∧
      (∀ condition, g.CarriesAlong condition → condition.Distinct) ∧
      g.settings.source = f.settings.source ∧ g.settings.background = none ∧
      f.fullCondition = .object whole ∧ g.condition.same g.fullCondition := by
  intro inactive whole payload f g
  have hp : payload.Distinct := by
    simp [payload, whole, inactive, Fields.keys, Json.strings]
  have hk : f.kind.name ≠ "custom" := by decide
  have hc : ∀ condition, g.CarriesAlong condition → condition.Distinct := by
    intro condition h
    dsimp only [g] at h
    cases h
  have hf : f.condition.ContainedIn (.object whole) := by
    have hw : (Json.object whole).Distinct := hp.get? (show payload.get? "filter" = _ from rfl)
    exact ⟨whole, whole, rfl, rfl, fun key x hx => ⟨x, hx, (hw.get? hx).same_refl⟩⟩
  obtain ⟨-, h⟩ := fullCondition_of_edited hp hk hc rfl rfl
  exact ⟨hp, hk, hc, rfl, rfl, rfl, (h _ rfl).2 hf "members" _ _ rfl rfl (by decide)⟩

/-- A member that was inactive and is selected again is lost: the filter still refuses it. -/
theorem fullCondition_restores_exclusion :
    let inactive : Fields := [("members", .strings ["b"]), ("turnedOff", .bool true)]
    let whole : Fields := [("members", .strings ["a", "b"]), ("exclude", .object inactive)]
    let payload : Json := .object
      [("dim", .string "[T.A]"), ("datatype", .string "text"), ("filter", .object whole)]
    let f := ofPayload payload "g"
    let column : Column := ⟨"[T.A]", "[T.A]", .text, none⟩
    let g : Filter := ⟨.members column ["a", "b"], { f.settings with deactivated := [] }⟩
    f.kind.name ≠ "custom" ∧ g.settings.source = f.settings.source ∧
      g.settings.background = none ∧ g.settings.deactivated ≠ f.settings.deactivated ∧
      f.condition.same g.condition = false ∧ g.fullCondition = .object whole ∧
      g.condition.same g.fullCondition = false ∧
      ∃ p, g.predicate = .ok p ∧ p.accepts (.string "b") = false :=
  ⟨by decide, rfl, rfl, by decide, by decide, rfl, by decide, _, rfl, by decide⟩

end Filter

end QueryFilter
