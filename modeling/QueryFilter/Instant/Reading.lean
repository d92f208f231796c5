import QueryFilter.Instant.Basic
import QueryFilter.Binary64.Reading

/-! # Reading dates

A date is written as a date and time without an offset, as a date and time of fixed widths with an
offset, or as a date alone. Blanks around it are left out. The first two forms and the last are
readers of their own, none calls another.
-/

namespace QueryFilter.Instant

open Binary64 (digitsValue readSign)
open Text (trimStart)

/-- What a reader takes off the front of a text, and the rest. -/
abbrev Reader (α : Type) := List Char → Option (α × List Char)

def literal (c : Char) : Reader Unit
  | [] => none
  | d :: text => if d = c then some ((), text) else none

/-- At least one digit, and no more than the width, behind blanks. -/
def number (width : Nat) : Reader Nat := fun text =>
  let text := trimStart text
  let digits := (text.take width).takeWhile Char.isDigit
  if digits.isEmpty then none else some (digitsValue digits, text.drop digits.length)

def fixedNumber (width : Nat) : Reader Nat := fun text =>
  let digits := (text.take width).takeWhile Char.isDigit
  if digits.length = width then some (digitsValue digits, text.drop width) else none

/-- A year behind blanks: up to four digits, or any number of them behind a sign. -/
def year : Reader Int := fun text =>
  match trimStart text with
  | [] => none
  | c :: rest =>
    if c = '-' || c = '+' then
      let digits := rest.takeWhile Char.isDigit
      let value : Int := digitsValue digits
      if digits.isEmpty then none
      else some (if c = '-' then -value else value, rest.dropWhile Char.isDigit)
    else (number 4 (c :: rest)).map fun (n, rest) => (n, rest)

/-- The nanoseconds that digits behind a point stand for; digits past the ninth are ignored. -/
def fractionNanos (digits : List Char) : Nat :=
  let kept := digits.take 9
  digitsValue kept * Nat.pow 10 (9 - kept.length)

def fraction : Reader Nat
  | '.' :: text =>
    let digits := text.takeWhile Char.isDigit
    if digits.isEmpty then none else some (fractionNanos digits, text.dropWhile Char.isDigit)
  | text => some (0, text)

def date : Reader (Option Int) := fun text => do
  let (y, text) ← year text
  let (_, text) ← literal '-' text
  let (m, text) ← number 2 text
  let (_, text) ← literal '-' text
  let (d, text) ← number 2 text
  return (Calendar.day? y m d, text)

def time : Reader (Option (Nat × Nat)) := fun text => do
  let (h, text) ← number 2 text
  let (_, text) ← literal ':' text
  let (m, text) ← number 2 text
  let (_, text) ← literal ':' text
  let (s, text) ← number 2 text
  let (nanos, text) ← fraction text
  return (Calendar.time? h m s nanos, text)

def ofLocal? (text : List Char) : Option Instant := do
  let (day, text) ← date text
  let (_, text) ← literal 'T' text
  let (clock, text) ← time text
  guard text.isEmpty
  return Calendar.instant (← day) (← clock)

/-- The sign of an offset, a hyphen or a minus; `true` for behind. -/
def offsetSign : Reader Bool
  | '+' :: text => some (false, text)
  | '-' :: text => some (true, text)
  | '\u2212' :: text => some (true, text)
  | _ => none

/-- Seconds ahead of universal time. -/
def offset : Reader Int
  | 'Z' :: text => some (0, text)
  | 'z' :: text => some (0, text)
  | text => do
    let (behind, text) ← offsetSign text
    let (hours, text) ← fixedNumber 2 text
    let (_, text) ← literal ':' text
    let (minutes, text) ← fixedNumber 2 text
    guard (minutes ≤ 59 ∧ hours ≤ 23)
    let ahead : Int := 3600 * hours + 60 * minutes
    return (if behind then -ahead else ahead, text)

def separator : Reader Unit
  | c :: text => if c = 'T' || c = 't' || c = ' ' then some ((), text) else none
  | [] => none

def ofOffset? (text : List Char) : Option Instant := do
  let (y, text) ← fixedNumber 4 text
  let (_, text) ← literal '-' text
  let (mo, text) ← fixedNumber 2 text
  let (_, text) ← literal '-' text
  let (d, text) ← fixedNumber 2 text
  let (_, text) ← separator text
  let (h, text) ← fixedNumber 2 text
  let (_, text) ← literal ':' text
  let (mi, text) ← fixedNumber 2 text
  let (_, text) ← literal ':' text
  let (s, text) ← fixedNumber 2 text
  let (nanos, text) ← fraction text
  let (ahead, text) ← offset text
  guard text.isEmpty
  let there := Calendar.instant (← Calendar.day? y mo d) (← Calendar.time? h mi s nanos)
  return { there with seconds := there.seconds - ahead }

/-- A date alone, which means its first second. -/
def ofDate? (text : List Char) : Option Instant := do
  let (day, text) ← date text
  guard text.isEmpty
  return Calendar.instant (← day) (0, 0)

def ofText? (text : String) : Option Instant :=
  let text := Text.trim text.toList
  ofLocal? text <|> ofOffset? text <|> ofDate? text

end QueryFilter.Instant
