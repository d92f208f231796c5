/-! # Finite binary64 numbers

A number is a sign and the rank of its magnitude among the finite magnitudes, so that comparing
magnitudes is comparing ranks. Exact values are counted in units of `2 ^ -1074`, the least
positive magnitude. Quotients are rounded to the nearest number, a half to the even neighbour.
-/

namespace QueryFilter

namespace Binary64

/-- How many magnitudes share one power of two. -/
def binade : Nat := 0x10000000000000

def magnitudes : Nat := 2047 * binade

end Binary64

/-- A finite binary64 number; `rank` is the magnitude's place in increasing order. -/
structure Binary64 where
  negative : Bool
  rank : Nat
  rank_lt : rank < Binary64.magnitudes
deriving DecidableEq

namespace Binary64

def zero : Binary64 := ⟨false, 0, by decide⟩

instance : Inhabited Binary64 := ⟨zero⟩

/-- The integer that the magnitude multiplies a power of two by. -/
def significand (x : Binary64) : Nat :=
  if x.rank < binade then x.rank else binade + x.rank % binade

/-- The exponent of the significand's power of two, counted from `2 ^ -1074`. -/
def shift (x : Binary64) : Nat := x.rank / binade - 1

/-- The magnitude in units of `2 ^ -1074`. -/
def units (x : Binary64) : Nat := x.significand * Nat.pow 2 x.shift

def unitsPerOne : Nat := Nat.pow 2 1074

/-- The value in units of `2 ^ -1074`. -/
def scaled (x : Binary64) : Int := if x.negative then -(x.units : Int) else x.units

/-- The rank with the number's sign; both zeros have the same place. -/
def place (x : Binary64) : Int := if x.negative then -(x.rank : Int) else x.rank

/-- Numeric equality, for which both zeros are one number. -/
def same (x y : Binary64) : Bool := decide (x.place = y.place)

instance : Ord Binary64 := ⟨fun x y => compare x.place y.place⟩

theorem same_iff {x y : Binary64} : x.same y ↔ x.place = y.place := by simp [same]

theorem compare_eq (x y : Binary64) : compare x y = compare x.place y.place := rfl

@[simp] theorem same_refl (x : Binary64) : x.same x := by simp [same]

theorem same_comm (x y : Binary64) : x.same y = y.same x := by simp [same, eq_comm]

/-- The quotient rounded to the nearest integer, a half to the even neighbour. -/
def roundDiv (num den : Nat) : Nat :=
  let below := num / den
  let rest := num % den
  if 2 * rest < den then below
  else if den < 2 * rest then below + 1
  else below + below % 2

/-- The rank nearest to `num / den` units, as if ranks had no limit. -/
def nearestRank (num den : Nat) : Nat :=
  let shift := Nat.log2 (num / den) - 52
  shift * binade + roundDiv num (den * Nat.pow 2 shift)

/-- The number nearest to `num / den` units, or none beyond the greatest magnitude. -/
def ofUnits? (negative : Bool) (num den : Nat) : Option Binary64 :=
  if h : nearestRank num den < magnitudes then some ⟨negative, nearestRank num den, h⟩ else none

def ofInt? (n : Int) : Option Binary64 :=
  ofUnits? (decide (n < 0)) (n.natAbs * unitsPerOne) 1

/-- The number nearest to `coefficient * 10 ^ exponent`. Far outside the range of magnitudes the
power of ten is not computed. -/
def ofDecimal? (negative : Bool) (coefficient : Nat) (exponent : Int) : Option Binary64 :=
  let width : Int := (Nat.toDigits 10 coefficient).length
  if coefficient = 0 ∨ width + exponent < -330 then some ⟨negative, 0, by decide⟩
  else if 320 < width + exponent then none
  else
    ofUnits? negative (coefficient * Nat.pow 10 exponent.toNat * unitsPerOne)
      (Nat.pow 10 (-exponent).toNat)

def toInt? (x : Binary64) : Option Int :=
  if x.units % unitsPerOne = 0 then
    let whole := x.units / unitsPerOne
    some (if x.negative then -(whole : Int) else whole)
  else none

end Binary64

end QueryFilter
