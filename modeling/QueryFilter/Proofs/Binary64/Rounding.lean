import QueryFilter.Proofs.Binary64.Exact

/-! # Rounding integers

An integer converts to the number nearest to it, from the middle between two to the even one. That
is the integer itself just when its significant bits fit a significand. A number is written, as an
integer or as a real, with the value it has.
-/

namespace QueryFilter

namespace Binary64

variable {x y : Binary64} {n s m : Nat}

/-- The integer has at most 53 significant bits. -/
def Fits (n : Nat) : Prop := ∃ k e, k < Nat.pow 2 53 ∧ n = k * Nat.pow 2 e

/-- How far the number is from the value, both in units of `2 ^ -1074`. -/
def distance (x : Binary64) (value : Int) : Nat := (x.scaled - value).natAbs

/-- No number is nearer to the value, and if another one is as near, the rank is even. -/
structure Nearest (x : Binary64) (value : Int) : Prop where
  le : ∀ y : Binary64, x.distance value ≤ y.distance value
  even : ∀ y : Binary64, y.scaled ≠ x.scaled → y.distance value = x.distance value →
    x.rank % 2 = 0

section Powers

theorem two_mul_binade : 2 * binade = Nat.pow 2 53 := by decide

theorem pow_two_add (m n : Nat) : Nat.pow 2 (m + n) = Nat.pow 2 m * Nat.pow 2 n := Nat.pow_add 2 m n

theorem pow_two_le {m n : Nat} (h : m ≤ n) : Nat.pow 2 m ≤ Nat.pow 2 n :=
  Nat.pow_le_pow_right (by decide) h

theorem pow_log2_le (h : Nat.log2 n ≠ 0) : Nat.pow 2 (Nat.log2 n) ≤ n := by
  refine Nat.log2_self_le ?_
  rintro rfl
  exact h Nat.log2_zero

theorem lt_pow_log2 (n : Nat) : n < Nat.pow 2 (Nat.log2 n + 1) := Nat.lt_log2_self

end Powers

section RoundDiv

theorem roundDiv_cases (num den : Nat) :
    2 * (num % den) < den ∧ roundDiv num den = num / den ∨
      den < 2 * (num % den) ∧ roundDiv num den = num / den + 1 ∨
        2 * (num % den) = den ∧ roundDiv num den = num / den + num / den % 2 := by
  unfold roundDiv
  dsimp only
  split
  · omega
  · split <;> omega

/-- No other multiple of the divisor is nearer, and where one is as near, the quotient is even. -/
theorem roundDiv_nearest (num : Nat) {den : Nat} (h : 0 < den) (j : Nat) :
    ((roundDiv num den * den : Nat) - num : Int).natAbs ≤ ((j * den : Nat) - num : Int).natAbs ∧
      (j ≠ roundDiv num den →
        ((j * den : Nat) - num : Int).natAbs = ((roundDiv num den * den : Nat) - num : Int).natAbs →
          roundDiv num den % 2 = 0) := by
  have hn := Nat.div_add_mod' num den
  have hr := Nat.mod_lt num h
  have hs : (num / den + 1) * den = num / den * den + den := Nat.succ_mul _ _
  have hj : j = num / den ∨ j = num / den + 1 ∨ j * den + den ≤ num / den * den ∨
      num / den * den + 2 * den ≤ j * den := by
    rcases Nat.lt_trichotomy j (num / den) with hlt | rfl | hgt
    · exact .inr (.inr (.inl (Nat.succ_mul j den ▸ Nat.mul_le_mul_right den hlt)))
    · exact .inl rfl
    · rcases Nat.eq_or_lt_of_le hgt with rfl | hgt
      · exact .inr (.inl rfl)
      · have hle := Nat.mul_le_mul_right den hgt
        rw [Nat.succ_mul, Nat.succ_mul] at hle
        omega
  have hc := roundDiv_cases num den
  generalize num / den = q, roundDiv num den = rounded, num % den = rest at *
  obtain ⟨hd, rfl⟩ | ⟨hd, rfl⟩ | ⟨hd, rfl⟩ := hc
  · obtain rfl | rfl | hj | hj := hj <;> omega
  · obtain rfl | rfl | hj | hj := hj <;> omega
  · rcases Nat.mod_two_eq_zero_or_one q with hq | hq
    · rw [hq, Nat.add_zero]
      obtain rfl | rfl | hj | hj := hj <;> omega
    · rw [hq]
      obtain rfl | rfl | hj | hj := hj <;> omega

end RoundDiv

/-- A rank puts together a significand, which may have just been rounded up to a power of two, and
the exponent of its unit. -/
theorem units_eq_of_rank_eq (hr : x.rank = s * binade + m) (hm : m ≤ 2 * binade)
    (hs : s = 0 ∨ binade ≤ m) : x.units = m * Nat.pow 2 s := by
  rcases Nat.lt_or_ge x.rank binade with hx | hx
  · obtain rfl : s = 0 := by unfold binade at *; omega
    rw [units_eq_rank hx, hr, Nat.zero_mul, Nat.zero_add]
    exact (Nat.mul_one m).symm
  · have h₁ := rank_eq hx
    have h₂ := binade_le_significand hx
    have h₃ := x.significand_lt
    rcases Nat.lt_or_eq_of_le hm with hm | rfl
    · obtain ⟨hshift, hsig⟩ : x.shift = s ∧ x.significand = m := by unfold binade at *; omega
      rw [units, hshift, hsig]
    · obtain ⟨hshift, hsig⟩ : x.shift = s + 1 ∧ x.significand = binade := by
        unfold binade at *; omega
      rw [units, hshift, hsig, pow_two_add, Nat.mul_comm 2, Nat.mul_assoc,
        Nat.mul_comm (Nat.pow 2 s)]

section Integers

variable {negative : Bool}

theorem quotient_bounds (hs : Nat.log2 n - 52 = s) :
    n / Nat.pow 2 s < 2 * binade ∧ (s = 0 ∨ binade ≤ n / Nat.pow 2 s) := by
  have hp : 0 < Nat.pow 2 s := pow_two_pos s
  constructor
  · rw [Nat.div_lt_iff_lt_mul hp, two_mul_binade, ← pow_two_add]
    exact Nat.lt_of_lt_of_le (lt_pow_log2 n) (pow_two_le (by omega))
  · refine s.eq_zero_or_pos.imp_right fun hpos => ?_
    rw [Nat.le_div_iff_mul_le hp, show binade = Nat.pow 2 52 from rfl, ← pow_two_add]
    exact Nat.le_trans (pow_two_le (by omega)) (pow_log2_le (by omega))

theorem rank_of_ofUnits? {num den : Nat} (h : ofUnits? negative num den = some x) :
    x.negative = negative ∧ x.rank = nearestRank num den := by
  unfold ofUnits? at h
  split at h
  · cases h
    exact ⟨rfl, rfl⟩
  · cases h

theorem units_of_ofUnits? (h : ofUnits? negative n 1 = some x) (hs : Nat.log2 n - 52 = s) :
    x.rank = s * binade + roundDiv n (Nat.pow 2 s) ∧
      x.units = roundDiv n (Nat.pow 2 s) * Nat.pow 2 s := by
  have hr : x.rank = s * binade + roundDiv n (Nat.pow 2 s) := by
    rw [(rank_of_ofUnits? h).2, nearestRank, Nat.div_one, Nat.one_mul, hs]
  have hc := roundDiv_cases n (Nat.pow 2 s)
  obtain ⟨hlt, hge⟩ := quotient_bounds hs
  exact ⟨hr, units_eq_of_rank_eq hr (by omega) (by omega)⟩

theorem Fits.dvd (h : Fits n) : Nat.pow 2 (Nat.log2 n - 52) ∣ n := by
  obtain ⟨k, e, hk, hn⟩ := h
  have he : Nat.log2 n - 52 ≤ e := by
    refine Nat.le_of_not_lt fun hlt => ?_
    have hhigh : n < Nat.pow 2 53 * Nat.pow 2 e :=
      hn ▸ Nat.mul_lt_mul_of_pos_right hk (pow_two_pos e)
    have hlow : Nat.pow 2 (Nat.log2 n) ≤ n := pow_log2_le (by omega)
    have hle : Nat.pow 2 (53 + e) ≤ Nat.pow 2 (Nat.log2 n) := pow_two_le (by omega)
    rw [pow_two_add] at hle
    omega
  have hd : Nat.pow 2 (Nat.log2 n - 52) ∣ k * Nat.pow 2 e :=
    Nat.dvd_trans (Nat.pow_dvd_pow 2 he) (Nat.dvd_mul_left _ k)
  rwa [← hn] at hd

/-- Rounding keeps an integer just when it fits the significand. -/
theorem units_eq_iff_fits (h : ofUnits? negative n 1 = some x) : x.units = n ↔ Fits n := by
  constructor
  · rintro rfl
    exact ⟨x.significand, x.shift, two_mul_binade ▸ x.significand_lt, rfl⟩
  · intro hf
    obtain ⟨m, hm⟩ := hf.dvd
    rw [Nat.mul_comm] at hm
    have hu := (units_of_ofUnits? h rfl).2
    generalize Nat.log2 n - 52 = s at hm hu
    rw [hu, hm, roundDiv_mul m (pow_two_pos s)]

theorem units_nearest (h : ofUnits? negative n 1 = some x) (y : Binary64) :
    ((x.units : Int) - n).natAbs ≤ ((y.units : Int) - n).natAbs ∧
      (y.units ≠ x.units → ((y.units : Int) - n).natAbs = ((x.units : Int) - n).natAbs →
        x.rank % 2 = 0) := by
  obtain ⟨s, hs⟩ : ∃ s, Nat.log2 n - 52 = s := ⟨_, rfl⟩
  obtain ⟨hr, hu⟩ := units_of_ofUnits? h hs
  have hp : 0 < Nat.pow 2 s := pow_two_pos s
  have heven : roundDiv n (Nat.pow 2 s) % 2 = 0 → x.rank % 2 = 0 := by
    unfold binade at hr
    omega
  rcases Nat.lt_or_ge y.shift s with hy | hy
  · -- A finer unit: the other magnitude lies below a power of two that the integer is not below.
    have hlt : y.units < Nat.pow 2 52 * Nat.pow 2 s := by
      have hle : Nat.pow 2 (53 + y.shift) ≤ Nat.pow 2 (52 + s) := pow_two_le (by omega)
      rw [pow_two_add, pow_two_add, ← two_mul_binade] at hle
      exact Nat.lt_of_lt_of_le (Nat.mul_lt_mul_of_pos_right y.significand_lt (pow_two_pos _)) hle
    have hle : Nat.pow 2 52 * Nat.pow 2 s ≤ n := by
      rw [← pow_two_add]
      exact Nat.le_trans (pow_two_le (by omega)) (pow_log2_le (by omega))
    obtain ⟨hn, -⟩ := roundDiv_nearest n hp (Nat.pow 2 52)
    rw [hu]
    omega
  · -- No finer unit: the other magnitude is a multiple of the unit too.
    obtain ⟨d, hd⟩ := Nat.exists_eq_add_of_le' hy
    have hm : y.units = y.significand * Nat.pow 2 d * Nat.pow 2 s := by
      rw [units, hd, pow_two_add, Nat.mul_assoc]
    obtain ⟨hn, he⟩ := roundDiv_nearest n hp (y.significand * Nat.pow 2 d)
    rw [hu, hm]
    refine ⟨hn, fun hne heq => heven (he (fun hj => hne (by rw [hj])) heq)⟩

end Integers

theorem fits_mul_pow_iff (e : Nat) : Fits (n * Nat.pow 2 e) ↔ Fits n := by
  constructor
  · rintro ⟨k, e', hk, hn⟩
    rcases Nat.le_total e e' with he | he
    · obtain ⟨d, rfl⟩ := Nat.exists_eq_add_of_le' he
      rw [pow_two_add, ← Nat.mul_assoc] at hn
      exact ⟨k, d, hk, Nat.eq_of_mul_eq_mul_right (pow_two_pos e) hn⟩
    · obtain ⟨d, rfl⟩ := Nat.exists_eq_add_of_le' he
      rw [pow_two_add, ← Nat.mul_assoc] at hn
      have hd : n * Nat.pow 2 d = k := Nat.eq_of_mul_eq_mul_right (pow_two_pos e') hn
      exact ⟨n, 0, Nat.lt_of_le_of_lt (hd ▸ Nat.le_mul_of_pos_right n (pow_two_pos d)) hk,
        (Nat.mul_one n).symm⟩
  · rintro ⟨k, e', hk, rfl⟩
    exact ⟨k, e' + e, hk, by rw [pow_two_add, Nat.mul_assoc]⟩

theorem fits_mul_unitsPerOne_iff : Fits (n * unitsPerOne) ↔ Fits n := by
  unfold unitsPerOne
  generalize 1074 = e
  exact fits_mul_pow_iff e

theorem signs_agree {n : Int} (hs : n ≠ 0 → decide (n < 0) = x.negative) :
    (n * unitsPerOne : Int) = (n.natAbs * unitsPerOne : Nat) ∧ x.scaled = x.units ∨
      (n * unitsPerOne : Int) = -(n.natAbs * unitsPerOne : Nat) ∧ x.scaled = -x.units := by
  unfold scaled
  rw [Int.natCast_mul, ← Int.neg_mul]
  generalize unitsPerOne = units
  cases hx : x.negative with
  | false =>
    have ha : n = (n.natAbs : Int) := by
      simp only [hx, decide_eq_false_iff_not] at hs
      omega
    exact .inl ⟨by rw [← ha], rfl⟩
  | true =>
    have ha : n = -(n.natAbs : Int) := by
      simp only [hx, decide_eq_true_eq] at hs
      omega
    exact .inr ⟨by rw [← ha], rfl⟩

theorem scaled_eq_iff {n : Int} (hs : n ≠ 0 → decide (n < 0) = x.negative) :
    x.scaled = n * unitsPerOne ↔ x.units = n.natAbs * unitsPerOne := by
  rcases signs_agree hs with ⟨hn, hx⟩ | ⟨hn, hx⟩ <;>
  · rw [hn, hx]
    omega

theorem scaled_cases (x : Binary64) : x.scaled = x.units ∨ x.scaled = -x.units := by
  unfold scaled
  split
  · exact .inr rfl
  · exact .inl rfl

/-- An integer converts to the number nearest to it, and from the middle to the even one. -/
theorem nearest_of_ofInt? {n : Int} (h : ofInt? n = some x) : x.Nearest (n * unitsPerOne) := by
  have hx := signs_agree fun _ => (rank_of_ofUnits? h).1.symm
  constructor
  · intro y
    obtain ⟨hle, -⟩ := units_nearest h y
    have hy := y.scaled_cases
    unfold distance
    omega
  · intro y hne heq
    obtain ⟨hle, heven⟩ := units_nearest h y
    have hzero := (units_nearest h zero).1
    rw [units_eq_zero (x := zero) rfl] at hzero
    have hy := y.scaled_cases
    unfold distance at heq
    exact heven (by omega) (by omega)

/-- The number nearest to an integer is that integer just when it has at most 53 significant
bits. -/
theorem scaled_eq_iff_fits {n : Int} (h : ofInt? n = some x) :
    x.scaled = n * unitsPerOne ↔ Fits n.natAbs := by
  rw [scaled_eq_iff fun _ => (rank_of_ofUnits? h).1.symm, units_eq_iff_fits h,
    fits_mul_unitsPerOne_iff]

theorem scaled_eq_zero (h : x.rank = 0) : x.scaled = 0 := by
  rw [scaled, units_eq_zero h]
  split <;> rfl

theorem scaled_eq_of_same (h : x.same y) : x.scaled = y.scaled := by
  rcases eq_or_rank_eq_zero (same_iff.mp h) with rfl | ⟨hx, hy⟩
  · rfl
  · rw [scaled_eq_zero hx, scaled_eq_zero hy]

end Binary64

namespace Number

open Binary64

/-- The value in units of `2 ^ -1074`. -/
def scaled : Number → Int
  | .integer n => n.val * unitsPerOne
  | .real x => x.scaled

theorem scaled_eq_of_same {m n : Number} (h : m.same n) : m.scaled = n.scaled := by
  cases m <;> cases n <;> simp only [same, decide_eq_true_eq, Bool.false_eq_true] at h
  · rw [h]
  · exact Binary64.scaled_eq_of_same h

theorem scaled_ofBinary64 (x : Binary64) : (ofBinary64 x).scaled = x.scaled := by
  unfold ofBinary64
  split
  · next n hn =>
    split
    · obtain ⟨hu, hs⟩ := toInt?_eq_some hn
      exact ((scaled_eq_iff hs).mpr hu.symm).symm
    · rfl
  · rfl

end Number

end QueryFilter
