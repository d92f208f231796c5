import QueryFilter.Binary64.Basic
import QueryFilter.Text.Basic

/-! # Reading numbers from text

A number is an optional sign, digits with at most one point among or beside them, and an optional
exponent. Blanks around it are left out. Text that names no finite number has no reading.
-/

namespace QueryFilter.Binary64

def digitsValue (digits : List Char) : Nat :=
  digits.foldl (fun value d => 10 * value + (d.toNat - '0'.toNat)) 0

/-- An optional sign; `true` for a minus. -/
def readSign : List Char → Bool × List Char
  | '-' :: rest => (true, rest)
  | '+' :: rest => (false, rest)
  | rest => (false, rest)

def readFraction : List Char → List Char × List Char
  | '.' :: rest => (rest.takeWhile Char.isDigit, rest.dropWhile Char.isDigit)
  | rest => ([], rest)

def readExponent? : List Char → Option Int
  | [] => some 0
  | mark :: rest =>
    let (negative, digits) := readSign rest
    if (mark == 'e' || mark == 'E') && !digits.isEmpty && digits.all Char.isDigit then
      let value : Int := digitsValue digits
      some (if negative then -value else value)
    else none

def ofPlainText? (text : List Char) : Option Binary64 := do
  let (negative, unsigned) := readSign text
  let whole := unsigned.takeWhile Char.isDigit
  let (fraction, rest) := readFraction (unsigned.dropWhile Char.isDigit)
  guard !(whole ++ fraction).isEmpty
  let exponent ← readExponent? rest
  ofDecimal? negative (digitsValue (whole ++ fraction)) (exponent - fraction.length)

/-- The finite number that a text names, blanks around it left out. -/
def ofText? (text : String) : Option Binary64 := ofPlainText? (Text.trim text.toList)

end QueryFilter.Binary64
