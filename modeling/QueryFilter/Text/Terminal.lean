/-! # What a terminal shows

A text may hold sequences that steer a terminal: an escape and what belongs to it. The shown part of
a text has none of them, and of the control characters only line ends, tabs and form feeds.
Text without an escape loses just the other control characters.
-/

namespace QueryFilter.Text

/-- Where in a terminal sequence a text stands. -/
inductive Sequence where
  | ground
  | escape
  | designation
  | control
  | command
  | device
  | deviceParameter
  | deviceIntermediate
  | string
deriving DecidableEq

def isAscii (c : Char) : Bool := decide (c.toNat < 0x80)

/-- The control characters that a terminal shows as space. -/
def isSpacing (c : Char) : Bool := c == '\t' || c == '\n' || c == '\x0c' || c == '\r'

def isControl (c : Char) : Bool := decide (c.toNat < 0x20 ∨ c.toNat = 0x7F)

def hasTerminator (c : Char) : Bool := (String.utf8EncodeChar c).contains 0x9C

namespace Sequence

def ofIntroducer (c : Char) : Sequence :=
  if c < '0' then .designation
  else if c = '[' then .control
  else if c = ']' then .command
  else if c = 'P' then .device
  else if c = 'X' ∨ c = '^' ∨ c = '_' then .string
  else .ground

/-- The sequence after a graphic character of ASCII. -/
def afterGraphic (c : Char) : Sequence → Sequence
  | .ground => .ground
  | .escape => ofIntroducer c
  | .designation => if c < '0' then .designation else .ground
  | .control => if c < '@' then .control else .ground
  | .command => .command
  | .device =>
    if c < '0' then .deviceIntermediate else if c < '@' then .deviceParameter else .string
  | .deviceParameter =>
    if c < '0' then .deviceIntermediate else if c < '<' then .deviceParameter else .string
  | .deviceIntermediate => if c < '0' then .deviceIntermediate else .string
  | .string => .string

def next (s : Sequence) (c : Char) : Sequence :=
  if c = '\x18' ∨ c = '\x1a' then .ground
  else if c = '\x1b' then .escape
  else if s = .command ∧ c = '\x07' then .ground
  else if s = .string ∧ hasTerminator c then .ground
  else if isControl c || !isAscii c then s
  else s.afterGraphic c

/-- Spacing is shown also within a sequence, as long as it has no body. -/
def shows (s : Sequence) (c : Char) : Bool :=
  match s with
  | .ground => isSpacing c || !isControl c
  | .escape | .designation | .control => isSpacing c
  | _ => false

end Sequence

/-- The shown part of a text. After a shown character everything is shown up to the next control
character, and only there the sequence goes on; a character outside ASCII ends it. -/
def shownFrom (showing : Bool) (s : Sequence) : List Char → List Char
  | [] => []
  | c :: rest =>
    if showing && Sequence.ground.shows c then
      c :: shownFrom true (if isAscii c then s else .ground) rest
    else if s.shows c then c :: shownFrom true (s.next c) rest
    else shownFrom false (s.next c) rest

def shown (text : String) : String := String.ofList (shownFrom false .ground text.toList)

theorem next_ground_of_shows {c : Char} (h : Sequence.ground.shows c) :
    Sequence.ground.next c = .ground := by
  have hc : c ≠ '\x1b' := by rintro rfl; exact absurd h (by decide)
  simp [Sequence.next, Sequence.afterGraphic, hc]

theorem shownFrom_eq_self {text : List Char} (showing : Bool)
    (h : ∀ c ∈ text, Sequence.ground.shows c) : shownFrom showing .ground text = text := by
  induction text generalizing showing with
  | nil => rfl
  | cons c rest ih =>
    have hc : Sequence.ground.shows c := h c (by simp)
    have hr (b : Bool) : shownFrom b .ground rest = rest := ih b fun d hd => h d (by simp [hd])
    cases showing <;> simp [shownFrom, hc, next_ground_of_shows hc, hr]

end QueryFilter.Text
