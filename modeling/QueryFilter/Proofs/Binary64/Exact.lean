import QueryFilter.Json.Basic

/-! # Exact conversions

A magnitude is its own nearest magnitude, so an integer that is a number converts to that number. A
number that is written and read again is the same number; only the sign of a zero is lost.
-/

namespace QueryFilter

namespace Binary64

variable {x : Binary64}

theorem binade_pos : 0 < binade := by decide

theorem pow_two_pos (n : Nat) : 0 < Nat.pow 2 n := Nat.pow_pos (by decide)

theorem unitsPerOne_pos : 0 < unitsPerOne := by decide +kernel

theorem significand_lt (x : Binary64) : x.significand < 2 * binade := by
  have : x.rank % binade < binade := Nat.mod_lt _ binade_pos
  unfold significand
  split <;> omega

theorem shift_eq_zero (hx : x.rank < binade) : x.shift = 0 := by
  simp [shift, Nat.div_eq_of_lt hx]

theorem units_eq_rank (hx : x.rank < binade) : x.units = x.rank := by
  simp [units, significand, shift_eq_zero hx, hx]

section Normal

variable (hx : binade ≤ x.rank)
include hx

theorem binade_le_significand : binade ≤ x.significand := by
  rw [significand, if_neg (Nat.not_lt.mpr hx)]
  omega

theorem rank_eq : x.rank = x.shift * binade + x.significand := by
  have hs : x.rank / binade = x.shift + 1 := by
    have := Nat.div_pos hx binade_pos
    rw [shift]
    omega
  have := Nat.div_add_mod x.rank binade
  rw [hs, Nat.mul_comm, Nat.add_mul] at this
  rw [significand, if_neg (Nat.not_lt.mpr hx)]
  omega

theorem log2_units : Nat.log2 x.units = 52 + x.shift := by
  have hp : 0 < Nat.pow 2 x.shift := pow_two_pos _
  have h₁ : binade * Nat.pow 2 x.shift ≤ x.units :=
    Nat.mul_le_mul_right _ (binade_le_significand hx)
  have h₂ : x.units < 2 * binade * Nat.pow 2 x.shift :=
    Nat.mul_lt_mul_of_pos_right x.significand_lt hp
  have hb : binade = Nat.pow 2 52 := by decide
  rw [Nat.log2_eq_iff (Nat.ne_of_gt (Nat.lt_of_lt_of_le (Nat.mul_pos binade_pos hp) h₁))]
  constructor
  · simpa [hb, Nat.pow_add] using h₁
  · have : 2 ^ (52 + x.shift + 1) = 2 * binade * Nat.pow 2 x.shift := by
      simp [hb, Nat.pow_succ, Nat.pow_add]
      omega
    omega

end Normal

theorem roundDiv_one (n : Nat) : roundDiv n 1 = n := by simp [roundDiv, Nat.mod_one]

theorem roundDiv_mul (n : Nat) {den : Nat} (h : 0 < den) : roundDiv (n * den) den = n := by
  simp [roundDiv, Nat.mul_div_cancel n h, h]

theorem log2_lt_of_lt_binade {n : Nat} (h : n < binade) : Nat.log2 n < 52 := by
  rcases Nat.eq_zero_or_pos n with rfl | hn
  · simp
  · exact (Nat.log2_lt (Nat.ne_of_gt hn)).mpr h

theorem nearestRank_units (x : Binary64) : nearestRank x.units 1 = x.rank := by
  rcases Nat.lt_or_ge x.rank binade with hx | hx
  · have hs : Nat.log2 x.rank - 52 = 0 := by
      have := log2_lt_of_lt_binade hx
      omega
    simp [nearestRank, units_eq_rank hx, hs, roundDiv_one]
  · have hs : Nat.log2 (x.units / 1) - 52 = x.shift := by
      rw [Nat.div_one, log2_units hx]
      omega
    have hp : 0 < Nat.pow 2 x.shift := pow_two_pos _
    rw [nearestRank, hs, Nat.one_mul, units, roundDiv_mul _ hp, ← rank_eq hx]

theorem ofUnits?_units (x : Binary64) (negative : Bool) :
    ofUnits? negative x.units 1 = some { x with negative } := by
  simp [ofUnits?, nearestRank_units, x.rank_lt]

theorem units_eq_zero (h : x.rank = 0) : x.units = 0 := by
  rw [units_eq_rank (h ▸ binade_pos), h]

theorem rank_eq_zero_of_units (h : x.units = 0) : x.rank = 0 := by
  rcases Nat.lt_or_ge x.rank binade with hx | hx
  · rwa [units_eq_rank hx] at h
  · have := nearestRank_units x
    rw [h] at this
    exact this.symm.trans (by decide)

/-- Numbers at one place are one number, up to the sign of a zero. -/
theorem eq_or_rank_eq_zero {y : Binary64} (h : x.place = y.place) :
    x = y ∨ x.rank = 0 ∧ y.rank = 0 := by
  obtain ⟨negative, rank, _⟩ := x
  obtain ⟨negative', rank', _⟩ := y
  cases negative <;> cases negative' <;>
    simp only [place, Bool.false_eq_true, if_true, if_false, mk.injEq, true_and, false_and,
      false_or] at h ⊢ <;> omega

/-- The same number, zero without a sign. -/
def withoutZeroSign (x : Binary64) : Binary64 := if x.rank = 0 then zero else x

theorem place_withoutZeroSign (x : Binary64) : x.withoutZeroSign.place = x.place := by
  unfold withoutZeroSign
  split
  · next h => simp [place, h, zero]
  · rfl

theorem same_withoutZeroSign (x : Binary64) : x.withoutZeroSign.same x :=
  same_iff.mpr x.place_withoutZeroSign

theorem compare_withoutZeroSign (x y : Binary64) :
    compare x y.withoutZeroSign = compare x y := by
  rw [compare_eq, compare_eq, place_withoutZeroSign]

theorem toInt?_eq_some {n : Int} (h : x.toInt? = some n) :
    n.natAbs * unitsPerOne = x.units ∧ (n ≠ 0 → decide (n < 0) = x.negative) := by
  unfold toInt? at h
  split at h
  case isFalse => cases h
  next hd =>
    have hu : x.units / unitsPerOne * unitsPerOne = x.units :=
      Nat.div_mul_cancel (Nat.dvd_of_mod_eq_zero hd)
    generalize x.units / unitsPerOne = whole at h hu
    cases hs : x.negative <;> simp only [hs, Bool.false_eq_true, if_true, if_false] at h <;> cases h
    · simpa using hu
    · simpa [Nat.pos_iff_ne_zero] using hu

theorem ofInt?_of_toInt? {n : Int} (h : x.toInt? = some n) :
    ofInt? n = some x.withoutZeroSign := by
  obtain ⟨hu, hs⟩ := toInt?_eq_some h
  rw [ofInt?, hu, ofUnits?_units, withoutZeroSign]
  by_cases hr : x.rank = 0
  · have hz : x.units = 0 := units_eq_zero hr
    have hn : n = 0 := Int.natAbs_eq_zero.mp
      ((Nat.mul_eq_zero.mp (hu.trans hz)).resolve_right (Nat.ne_of_gt unitsPerOne_pos))
    simp [hr, hn, zero]
  · have hn : n ≠ 0 := by
      rintro rfl
      exact hr (rank_eq_zero_of_units (by simpa using hu.symm))
    simp [hr, hs hn]

theorem toInt?_of_rank_eq_zero (h : x.rank = 0) : x.toInt? = some 0 := by
  simp [toInt?, units_eq_zero h]

end Binary64

namespace Number

open Binary64

theorem ofBinary64_of_rank_eq_zero {x : Binary64} (h : x.rank = 0) :
    ofBinary64 x = .integer ⟨0, by decide, by decide⟩ := by
  rw [ofBinary64, toInt?_of_rank_eq_zero h]
  rfl

theorem ofBinary64_withoutZeroSign (x : Binary64) :
    ofBinary64 x.withoutZeroSign = ofBinary64 x := by
  by_cases h : x.rank = 0
  · rw [withoutZeroSign, if_pos h, ofBinary64_of_rank_eq_zero h, ofBinary64_of_rank_eq_zero rfl]
  · rw [withoutZeroSign, if_neg h]

theorem toBinary64?_ofBinary64 (x : Binary64) :
    (ofBinary64 x).toBinary64? = some x.withoutZeroSign := by
  by_cases h : x.rank = 0
  · rw [ofBinary64_of_rank_eq_zero h, toBinary64?]
    exact ofInt?_of_toInt? (toInt?_of_rank_eq_zero h)
  · unfold ofBinary64
    split
    · split
      · next h _ => exact ofInt?_of_toInt? h
      · simp [toBinary64?, withoutZeroSign, h]
    · simp [toBinary64?, withoutZeroSign, h]

end Number

end QueryFilter
