import Mathlib.Data.List.Basic

/-! # Outcomes of chained steps

When a chain of steps that may be refused gives a result, and when a step for each item of a list
does.
-/

namespace QueryFilter

variable {ε α β : Type}

theorem bind_eq_ok_iff {x : Except ε α} {f : α → Except ε β} {b : β} :
    (x >>= f) = .ok b ↔ ∃ a, x = .ok a ∧ f a = .ok b := by
  cases x <;> simp [bind, Except.bind]

theorem map_eq_ok_iff {x : Except ε α} {f : α → β} {b : β} :
    x.map f = .ok b ↔ ∃ a, x = .ok a ∧ f a = b := by
  cases x <;> simp [Except.map]

theorem mapM_eq_some_iff_filterMap {f : α → Option β} {items : List α} {results : List β} :
    items.mapM f = some results ↔
      (∀ item ∈ items, (f item).isSome) ∧ items.filterMap f = results := by
  induction items generalizing results with
  | nil => simp
  | cons item items ih =>
    cases h : f item with
    | none => simp [h]
    | some b => simp [Option.bind_eq_some_iff, ih, h, and_assoc]

theorem mapM_eq_ok_iff {f : α → Except ε β} {items : List α} {results : List β} :
    items.mapM f = .ok results ↔ items.map f = results.map .ok := by
  induction items generalizing results with
  | nil => cases results <;> simp [pure, Except.pure]
  | cons item items ih => cases results <;> simp [bind_eq_ok_iff, ih, pure, Except.pure]

theorem mapM_eq_ok_iff_mapM {f : α → Except ε β} {g : α → Option β}
    (h : ∀ item b, f item = .ok b ↔ g item = some b) {items : List α} {results : List β} :
    items.mapM f = .ok results ↔ items.mapM g = some results := by
  induction items generalizing results with
  | nil => simp [pure, Except.pure]
  | cons item items ih =>
    simp [bind_eq_ok_iff, Option.bind_eq_some_iff, h, ih, pure, Except.pure]

theorem forM_eq_ok_iff {f : α → Except ε PUnit} {items : List α} :
    items.forM f = .ok () ↔ ∀ item ∈ items, f item = .ok () := by
  induction items with
  | nil => simp [List.forM, pure, Except.pure]
  | cons item items ih =>
    rw [List.forall_mem_cons, ← ih, show (item :: items).forM f = f item >>= fun _ => items.forM f
      from rfl, bind_eq_ok_iff]
    constructor
    · rintro ⟨⟨⟩, hf, hr⟩
      exact ⟨hf, hr⟩
    · rintro ⟨hf, hr⟩
      exact ⟨_, hf, hr⟩

end QueryFilter
