import QueryFilter.Binary64.Basic

/-! # Shortest decimal text

A number is written with the fewest decimal digits that read back as the same number, and among
those with the nearest. A layout says which of two nearest decimals is taken, when powers of ten
are written out, and how a whole number is told from an integer.
-/

namespace QueryFilter

/-- The value `coefficient * 10 ^ exponent`. -/
structure Decimal where
  coefficient : Nat
  exponent : Int
deriving DecidableEq

/-- The choice between two equally near decimals of one length. -/
inductive Tie where
  | even
  | up
deriving DecidableEq

structure Layout where
  tie : Tie
  /-- The decimal exponents of the first digit that are written without an exponent mark;
  without bounds, all. -/
  positional : Option (Int × Int)
  /-- Whole numbers written without an exponent mark end in `.0`. -/
  wholeMark : Bool
deriving DecidableEq

namespace Binary64

/-- Quarters of a unit between the magnitude and the middle to the next greater one. -/
def roomAbove (x : Binary64) : Nat := 2 * Nat.pow 2 x.shift

/-- Quarters of a unit between the magnitude and the middle to the next smaller one. Below a power
of two the neighbours are twice as dense. -/
def roomBelow (x : Binary64) : Nat :=
  if x.significand = binade ∧ 0 < x.shift then Nat.pow 2 x.shift else x.roomAbove

/-- A magnitude of `num / den` quarters of a unit rounds to that of `x`. -/
def covers (x : Binary64) (num den : Nat) : Bool :=
  let low := (4 * x.units - x.roomBelow) * den
  let high := (4 * x.units + x.roomAbove) * den
  if x.significand % 2 = 0 then decide (low ≤ num ∧ num ≤ high) else decide (low < num ∧ num < high)

/-- The least exponent of ten that a shortest decimal needs, negated. -/
def finestGrid : Nat := 340

/-- The multiple of `10 ^ (grid - finestGrid)` next to the magnitude that rounds to it, if any. -/
def onGrid? (x : Binary64) (tie : Tie) (grid : Nat) : Option Nat :=
  let den := Nat.pow 10 finestGrid
  let step := 4 * unitsPerOne * Nat.pow 10 grid
  let value := 4 * x.units * den
  let below := value / step
  let above := below + 1
  match x.covers (below * step) den, x.covers (above * step) den with
  | false, false => none
  | true, false => some below
  | false, true => some above
  | true, true =>
    let rest := 2 * (value % step)
    if rest < step then some below
    else if step < rest then some above
    else match tie with
      | .up => some above
      | .even => some (below + below % 2)

/-- The decimal on the coarsest grid, from the given one down, that has one. -/
def searchFrom (x : Binary64) (tie : Tie) : Nat → Decimal
  | 0 => ⟨((x.onGrid? tie 0).getD 0), -(finestGrid : Int)⟩
  | grid + 1 =>
    match x.onGrid? tie (grid + 1) with
    | some coefficient => ⟨coefficient, (grid + 1 : Nat) - (finestGrid : Int)⟩
    | none => searchFrom x tie grid

/-- The shortest decimal that reads back as the magnitude. -/
def shortest (x : Binary64) (tie : Tie) : Decimal :=
  if x.units = 0 then ⟨0, 0⟩
  else x.searchFrom tie (Nat.toDigits 10 (x.units * Nat.pow 10 finestGrid / unitsPerOne)).length

end Binary64

namespace Layout

def zeros (n : Nat) : List Char := List.replicate n '0'

/-- Digits with a decimal point after the first `whole` of them, filled up with zeros. -/
def positionalText (layout : Layout) (digits : List Char) (exponent : Int) : List Char :=
  let point : Int := digits.length + exponent
  if 0 ≤ exponent then
    digits ++ zeros exponent.toNat ++ (if layout.wholeMark then ['.', '0'] else [])
  else if 0 < point then
    digits.take point.toNat ++ '.' :: digits.drop point.toNat
  else
    '0' :: '.' :: zeros (-point).toNat ++ digits

def exponentText (exponent : Int) : List Char :=
  'e' :: (if exponent < 0 then '-' else '+') :: Nat.toDigits 10 exponent.natAbs

/-- One digit, the others behind a point, and the exponent with its sign. -/
def markedText (digits : List Char) (exponent : Int) : List Char :=
  match digits with
  | [] => exponentText exponent
  | [d] => d :: exponentText exponent
  | d :: ds => d :: '.' :: ds ++ exponentText exponent

def decimalText (layout : Layout) (x : Decimal) : List Char :=
  let digits := Nat.toDigits 10 x.coefficient
  let leading : Int := digits.length - 1 + x.exponent
  let positional := match layout.positional with
    | none => true
    | some (low, high) => decide (low ≤ leading ∧ leading ≤ high)
  if positional then layout.positionalText digits x.exponent else markedText digits leading

end Layout

def Binary64.text (layout : Layout) (x : Binary64) : String :=
  let magnitude := layout.decimalText (x.shortest layout.tie)
  String.ofList (if x.negative then '-' :: magnitude else magnitude)

end QueryFilter
