import QueryFilter.Instant.Reading

/-! # The written forms of dates

Grammars for the parts of a date and for the three forms in which dates are written. The three forms
exclude each other: only the form with an offset ends in one, and a date alone has no colon, which
the other two have.
-/

namespace QueryFilter.Instant

open Binary64 (digitsValue)
open Text (isBlank)

/-- Blanks, then digits: at least one, and no more than the width. -/
inductive Numeral (width : Nat) : List Char → Nat → Prop
  | mk {blanks digits : List Char} :
      (∀ c ∈ blanks, isBlank c) → (∀ c ∈ digits, c.isDigit) → digits ≠ [] →
      digits.length ≤ width → Numeral width (blanks ++ digits) (digitsValue digits)

/-- Exactly as many digits as the width. -/
inductive FixedNumeral (width : Nat) : List Char → Nat → Prop
  | mk {digits : List Char} :
      (∀ c ∈ digits, c.isDigit) → digits.length = width →
      FixedNumeral width digits (digitsValue digits)

/-- A year of up to four digits, or of any number of digits behind a sign. -/
inductive YearText : List Char → Int → Prop
  | unsigned {text : List Char} {n : Nat} : Numeral 4 text n → YearText text n
  | signed {blanks digits : List Char} {sign : Char} :
      (∀ c ∈ blanks, isBlank c) → sign = '-' ∨ sign = '+' →
      (∀ c ∈ digits, c.isDigit) → digits ≠ [] →
      YearText (blanks ++ sign :: digits)
        (if sign = '-' then -(digitsValue digits : Int) else digitsValue digits)

/-- A year of four digits. -/
inductive FixedYear : List Char → Int → Prop
  | mk {text : List Char} {n : Nat} : FixedNumeral 4 text n → FixedYear text n

/-- A point and digits, or nothing. -/
inductive FractionText : List Char → Nat → Prop
  | none : FractionText [] 0
  | point {digits : List Char} :
      (∀ c ∈ digits, c.isDigit) → digits ≠ [] →
      FractionText ('.' :: digits) (fractionNanos digits)

section Parts

variable (Year : List Char → Int → Prop) (Field : List Char → Nat → Prop)

/-- Year, month and day with hyphens between them, and the day that they name, if there is one. -/
inductive DateText : List Char → Option Int → Prop
  | mk {y m d : List Char} {year : Int} {month day : Nat} :
      Year y year → Field m month → Field d day →
      DateText (y ++ '-' :: (m ++ '-' :: d)) (Calendar.day? year month day)

/-- Hour, minute and second with colons between them and a fraction, and the time of day that they
name, if there is one. -/
inductive TimeText : List Char → Option (Nat × Nat) → Prop
  | mk {h m s f : List Char} {hour minute second nanos : Nat} :
      Field h hour → Field m minute → Field s second → FractionText f nanos →
      TimeText (h ++ ':' :: (m ++ ':' :: (s ++ f))) (Calendar.time? hour minute second nanos)

end Parts

/-- The sign of an offset; `true` for behind universal time. -/
inductive OffsetSign : Char → Bool → Prop
  | plus : OffsetSign '+' false
  | hyphen : OffsetSign '-' true
  | minus : OffsetSign '\u2212' true

/-- The letter for universal time, or a sign, hours and minutes, and how many seconds ahead of
universal time they are, unless they are out of range. -/
inductive OffsetText : List Char → Option Int → Prop
  | universal {c : Char} : c = 'Z' ∨ c = 'z' → OffsetText [c] (some 0)
  | signed {sign : Char} {behind : Bool} {h m : List Char} {hours minutes : Nat} :
      OffsetSign sign behind → FixedNumeral 2 h hours → FixedNumeral 2 m minutes →
      OffsetText (sign :: (h ++ ':' :: m))
        (if minutes ≤ 59 ∧ hours ≤ 23 then
          some (if behind then -(3600 * hours + 60 * minutes) else 3600 * hours + 60 * minutes)
        else none)

/-- The forms in which dates are written. -/
inductive Form
  | localTime
  | withOffset
  | dateAlone

/-- The text is a date in the form, and the instant is the one it names. -/
inductive Form.Names : Form → List Char → Instant → Prop
  | localTime {d t : List Char} {day : Int} {clock : Nat × Nat} :
      DateText YearText (Numeral 2) d (some day) → TimeText (Numeral 2) t (some clock) →
      Names .localTime (d ++ 'T' :: t) (Calendar.instant day clock)
  | withOffset {d t o : List Char} {mark : Char} {day ahead : Int} {clock : Nat × Nat} :
      DateText FixedYear (FixedNumeral 2) d (some day) → mark = 'T' ∨ mark = 't' ∨ mark = ' ' →
      TimeText (FixedNumeral 2) t (some clock) → OffsetText o (some ahead) →
      Names .withOffset (d ++ mark :: (t ++ o))
        ⟨(Calendar.instant day clock).seconds - ahead, (Calendar.instant day clock).nanos⟩
  | dateAlone {d : List Char} {day : Int} :
      DateText YearText (Numeral 2) d (some day) →
      Names .dateAlone d (Calendar.instant day (0, 0))

/-- The text ends with an offset, in range or not. -/
def EndsInOffset (text : List Char) : Prop :=
  ∃ stem mark ahead, text = stem ++ mark ∧ OffsetText mark ahead

variable {text mark : List Char} {c : Char}

theorem char_of_numeral {width n : Nat} (h : Numeral width text n) (hc : c ∈ text) :
    isBlank c ∨ c.isDigit := by
  obtain ⟨hb, hd, -, -⟩ := h
  exact (List.mem_append.mp hc).imp (hb c) (hd c)

theorem char_of_yearText {year : Int} (h : YearText text year) (hc : c ∈ text) :
    isBlank c ∨ c.isDigit ∨ c = '-' ∨ c = '+' := by
  cases h with
  | unsigned h => exact (char_of_numeral h hc).imp_right .inl
  | signed hb hs hd _ =>
    simp only [List.mem_append, List.mem_cons] at hc
    rcases hc with hc | rfl | hc
    · exact .inl (hb c hc)
    · exact .inr (.inr hs)
    · exact .inr (.inl (hd c hc))

theorem char_of_dateText {day : Option Int} (h : DateText YearText (Numeral 2) text day)
    (hc : c ∈ text) : isBlank c ∨ c.isDigit ∨ c = '-' ∨ c = '+' := by
  obtain ⟨hy, hm, hd⟩ := h
  simp only [List.mem_append, List.mem_cons] at hc
  rcases hc with hc | rfl | hc | rfl | hc
  · exact char_of_yearText hy hc
  · exact .inr (.inr (.inl rfl))
  · exact (char_of_numeral hm hc).imp_right .inl
  · exact .inr (.inr (.inl rfl))
  · exact (char_of_numeral hd hc).imp_right .inl

theorem char_of_fractionText {nanos : Nat} (h : FractionText text nanos) (hc : c ∈ text) :
    c.isDigit ∨ c = '.' := by
  cases h with
  | none => cases hc
  | point hd =>
    rcases List.mem_cons.mp hc with rfl | hc
    · exact .inr rfl
    · exact .inl (hd c hc)

theorem char_of_timeText {clock : Option (Nat × Nat)} (h : TimeText (Numeral 2) text clock)
    (hc : c ∈ text) : isBlank c ∨ c.isDigit ∨ c = ':' ∨ c = '.' := by
  obtain ⟨hh, hm, hs, hf⟩ := h
  simp only [List.mem_append, List.mem_cons] at hc
  rcases hc with hc | rfl | hc | rfl | hc | hc
  · exact (char_of_numeral hh hc).imp_right .inl
  · exact .inr (.inr (.inl rfl))
  · exact (char_of_numeral hm hc).imp_right .inl
  · exact .inr (.inr (.inl rfl))
  · exact (char_of_numeral hs hc).imp_right .inl
  · exact .inr ((char_of_fractionText hf hc).imp_right .inr)

theorem colon_mem_of_timeText {Field : List Char → Nat → Prop} {clock : Option (Nat × Nat)}
    (h : TimeText Field text clock) : ':' ∈ text := by
  cases h
  simp

variable {ahead : Option Int}

/-- An offset has a letter that no date or time has, or the colon of times together with a sign. -/
theorem mem_of_offsetText (h : OffsetText mark ahead) :
    'Z' ∈ mark ∨ 'z' ∈ mark ∨ ':' ∈ mark ∧ ('+' ∈ mark ∨ '-' ∈ mark ∨ '\u2212' ∈ mark) := by
  cases h with
  | universal hc => rcases hc with rfl | rfl <;> simp
  | signed hs => cases hs <;> simp

theorem separator_not_mem_offsetText (h : OffsetText mark ahead) : 'T' ∉ mark := by
  have digits {n : Nat} {text : List Char} (hf : FixedNumeral 2 text n) : 'T' ∉ text := by
    obtain ⟨hd, -⟩ := hf
    exact fun hc => absurd (hd 'T' hc) (by decide)
  cases h with
  | universal hc => rcases hc with rfl | rfl <;> decide
  | @signed sign _ _ _ _ _ hs hh hm =>
    have hs : 'T' ≠ sign := by cases hs <;> decide
    simp [digits hh, digits hm, hs]

theorem not_suffix_of_timeText {clock : Option (Nat × Nat)}
    (h : TimeText (Numeral 2) text clock) (ho : OffsetText mark ahead) : ¬mark <:+ text := by
  intro hs
  rcases mem_of_offsetText ho with hc | hc | ⟨-, hc | hc | hc⟩ <;>
  exact absurd (char_of_timeText h (hs.mem hc)) (by decide)

theorem not_suffix_of_dateText {day : Option Int}
    (h : DateText YearText (Numeral 2) text day) (ho : OffsetText mark ahead) : ¬mark <:+ text := by
  intro hs
  rcases mem_of_offsetText ho with hc | hc | ⟨hc, -⟩ <;>
  exact absurd (char_of_dateText h (hs.mem hc)) (by decide)

namespace Form.Names

variable {instant instant' : Instant} {form form' : Form}

theorem endsInOffset_iff (h : form.Names text instant) :
    EndsInOffset text ↔ form = .withOffset := by
  constructor
  · rintro ⟨stem, mark, ahead, he, ho⟩
    cases h with
    | withOffset => rfl
    | dateAlone hd => exact absurd ⟨stem, he.symm⟩ (not_suffix_of_dateText hd ho)
    | @localTime d t _ _ hd ht =>
      -- The offset would end the time, or have the mark between date and time in it.
      have hs : mark <:+ d ++ 'T' :: t := ⟨stem, he.symm⟩
      rcases List.suffix_or_suffix_of_suffix hs (List.suffix_append d ('T' :: t)) with hs | hs
      · rcases List.suffix_cons_iff.mp hs with rfl | hs
        · exact absurd List.mem_cons_self (separator_not_mem_offsetText ho)
        · exact absurd hs (not_suffix_of_timeText ht ho)
      · exact absurd (hs.mem List.mem_cons_self) (separator_not_mem_offsetText ho)
  · rintro rfl
    cases h with
    | @withOffset d t o mark _ _ _ _ _ _ ho => exact ⟨d ++ mark :: t, o, _, by simp, ho⟩

theorem colon_mem_iff (h : form.Names text instant) : ':' ∈ text ↔ form ≠ .dateAlone := by
  cases h with
  | localTime _ ht => simp [colon_mem_of_timeText ht]
  | withOffset _ _ ht => simp [colon_mem_of_timeText ht]
  | dateAlone hd =>
    simp only [ne_eq, not_true_eq_false, iff_false]
    exact fun hc => absurd (char_of_dateText hd hc) (by decide)

/-- A text is a date in one form at most. -/
theorem form_unique (h : form.Names text instant) (h' : form'.Names text instant') :
    form = form' := by
  have ho := h.endsInOffset_iff.symm.trans h'.endsInOffset_iff
  have hc := h.colon_mem_iff.symm.trans h'.colon_mem_iff
  cases form <;> cases form' <;> simp_all

end Form.Names

end QueryFilter.Instant
