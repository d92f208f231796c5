/-! # Texts

The characters with the Unicode property White_Space, and trimming a text on both sides: trimmed
text neither starts nor ends with a blank. Whether one text opens, closes or occurs in another:
every text occurs in itself, and the empty text occurs everywhere.
-/

namespace QueryFilter.Text

/-- The White_Space characters as closed ranges of code points. -/
def blankRanges : List (Nat × Nat) :=
  [(0x09, 0x0D), (0x20, 0x20), (0x85, 0x85), (0xA0, 0xA0), (0x1680, 0x1680), (0x2000, 0x200A),
   (0x2028, 0x2029), (0x202F, 0x202F), (0x205F, 0x205F), (0x3000, 0x3000)]

def isBlank (c : Char) : Bool :=
  blankRanges.any fun (low, high) => decide (low ≤ c.toNat ∧ c.toNat ≤ high)

def trimStart (s : List Char) : List Char := s.dropWhile isBlank

def trimEnd (s : List Char) : List Char := (s.reverse.dropWhile isBlank).reverse

def trim (s : List Char) : List Char := trimEnd (trimStart s)

@[simp] theorem trimStart_nil : trimStart [] = [] := rfl

theorem trimStart_of_not_isBlank {c : Char} {s : List Char} (h : isBlank c = false) :
    trimStart (c :: s) = c :: s := by simp [trimStart, h]

theorem trimStart_cons_of_isBlank {c : Char} {s : List Char} (h : isBlank c) :
    trimStart (c :: s) = trimStart s := by simp [trimStart, h]

def opens (part whole : List Char) : Bool := part.isPrefixOf whole

def closes (part whole : List Char) : Bool := part.isSuffixOf whole

def occurs (part : List Char) : List Char → Bool
  | [] => part.isEmpty
  | c :: rest => opens part (c :: rest) || occurs part rest

theorem opens_iff {part whole : List Char} : opens part whole ↔ part <+: whole :=
  List.isPrefixOf_iff_prefix

theorem closes_iff {part whole : List Char} : closes part whole ↔ part <:+ whole :=
  List.isSuffixOf_iff_suffix

theorem occurs_iff {part whole : List Char} : occurs part whole ↔ part <:+: whole := by
  induction whole with
  | nil => simp [occurs]
  | cons c rest ih => rw [occurs, Bool.or_eq_true, ih, opens_iff, List.infix_cons_iff]

end QueryFilter.Text
