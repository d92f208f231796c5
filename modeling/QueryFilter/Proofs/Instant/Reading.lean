import Mathlib.Data.List.DropRight
import Mathlib.Data.List.TakeWhile
import Mathlib.Data.Option.Basic
import QueryFilter.Proofs.Instant.Grammar

/-! # Readers of dates and their grammars

The readers of the three forms accept exactly what the grammars describe. A reader of a number takes
as many digits as it can, so it takes the right ones where no digit follows the number, and nowhere
in a date does one.
-/

namespace QueryFilter

namespace Text

theorem isBlank_eq_false_of_isDigit {c : Char} (h : c.isDigit) : isBlank c = false := by
  simp only [Char.isDigit, Bool.and_eq_true, decide_eq_true_eq, UInt32.le_iff_toNat_le] at h
  have h₁ : 48 ≤ c.toNat := h.1
  have h₂ : c.toNat ≤ 57 := h.2
  simp only [isBlank, blankRanges, List.any_cons, List.any_nil, Bool.or_false, Bool.or_eq_false_iff,
    decide_eq_false_iff_not]
  omega

theorem trimStart_trimStart (s : List Char) : trimStart (trimStart s) = trimStart s :=
  List.dropWhile_idempotent isBlank s

theorem trimStart_append_of_isBlank {blanks rest : List Char} {c : Char}
    (hb : ∀ c ∈ blanks, isBlank c) (hc : isBlank c = false) :
    trimStart (blanks ++ c :: rest) = c :: rest :=
  (List.dropWhile_append_of_pos hb).trans (trimStart_of_not_isBlank hc)

theorem exists_blanks_append (s : List Char) :
    ∃ blanks, (∀ c ∈ blanks, isBlank c) ∧ s = blanks ++ trimStart s :=
  ⟨s.takeWhile isBlank, fun _ hc => List.mem_takeWhile_imp hc,
    List.takeWhile_append_dropWhile.symm⟩

end Text

namespace Instant

open Binary64 (digitsValue)
open Text (isBlank trimStart)

/-- The text does not go on with a digit. -/
def NoDigit (rest : List Char) : Prop := ∀ c ∈ rest.head?, c.isDigit = false

/-- The text goes on neither with a digit nor with a point. -/
def NoFraction (rest : List Char) : Prop := NoDigit rest ∧ rest.head? ≠ some '.'

/-- The reader takes what the grammar describes off the front of a text and leaves the rest; it does
so wherever something follows that ends what is read. -/
structure Reads {α : Type} (read : Reader α) (Written : List Char → α → Prop)
    (Ends : List Char → Prop) : Prop where
  sound : ∀ {text rest : List Char} {a : α}, read text = some (a, rest) →
    ∃ written, Written written a ∧ text = written ++ rest
  complete : ∀ {written rest : List Char} {a : α}, Written written a → Ends rest →
    read (written ++ rest) = some (a, rest)

variable {text rest digits : List Char}

theorem noDigit_nil : NoDigit [] := by
  rintro c ⟨⟩

theorem noDigit_cons {c : Char} (h : c.isDigit = false) : NoDigit (c :: rest) := by
  intro d hd
  cases hd
  exact h

theorem noFraction_nil : NoFraction [] := ⟨noDigit_nil, by simp⟩

theorem NoDigit.take (h : NoDigit rest) (n : Nat) : NoDigit (rest.take n) := by
  cases n with
  | zero => exact noDigit_nil
  | succ n => cases rest <;> exact h

theorem takeWhile_digits (hd : ∀ c ∈ digits, c.isDigit) (hr : NoDigit rest) :
    (digits ++ rest).takeWhile Char.isDigit = digits := by
  rw [List.takeWhile_append_of_pos hd]
  cases rest with
  | nil => simp
  | cons c rest => simp [hr c rfl]

theorem dropWhile_digits (hd : ∀ c ∈ digits, c.isDigit) (hr : NoDigit rest) :
    (digits ++ rest).dropWhile Char.isDigit = rest := by
  rw [List.dropWhile_append_of_pos hd]
  cases rest with
  | nil => simp
  | cons c rest => simp [hr c rfl]

/-! ### Characters -/

theorem literal_eq_some_iff {c : Char} : literal c text = some ((), rest) ↔ text = c :: rest := by
  cases text with
  | nil => simp [literal]
  | cons d text =>
    rw [literal]
    split <;> simp_all

theorem separator_eq_some_iff :
    separator text = some ((), rest) ↔
      ∃ c, (c = 'T' ∨ c = 't' ∨ c = ' ') ∧ text = c :: rest := by
  cases text with
  | nil => simp [separator]
  | cons d text =>
    simp only [separator, Option.ite_none_right_eq_some, Bool.or_eq_true, decide_eq_true_eq,
      Option.some.injEq, Prod.mk.injEq, true_and, List.cons.injEq, or_assoc]
    constructor
    · rintro ⟨hd, rfl⟩; exact ⟨d, hd, rfl, rfl⟩
    · rintro ⟨_, hd, rfl, rfl⟩; exact ⟨hd, rfl⟩

theorem offsetSign_eq_some_iff {behind : Bool} :
    offsetSign text = some (behind, rest) ↔
      ∃ sign, OffsetSign sign behind ∧ text = sign :: rest := by
  constructor
  · intro h
    unfold offsetSign at h
    split at h <;> cases h
    · exact ⟨_, .plus, rfl⟩
    · exact ⟨_, .hyphen, rfl⟩
    · exact ⟨_, .minus, rfl⟩
  · rintro ⟨sign, hs, rfl⟩
    cases hs <;> rfl

/-! ### One reader after another -/

section Steps

variable {α β : Type} {read : Reader α} {Written : List Char → α → Prop}
  {Ends : List Char → Prop} {written : List Char} {a : α} {b : β} {k : α × List Char → Option β}

theorem Reads.exists_of_bind (h : Reads read Written Ends) (hb : (read text >>= k) = some b) :
    ∃ a written rest, Written written a ∧ text = written ++ rest ∧ k (a, rest) = some b := by
  obtain ⟨⟨a, rest⟩, hread, hk⟩ := Option.bind_eq_some_iff.mp hb
  obtain ⟨written, hw, ht⟩ := h.sound hread
  exact ⟨a, written, rest, hw, ht, hk⟩

theorem Reads.bind (h : Reads read Written Ends) (hw : Written written a) (hr : Ends rest)
    (hk : k (a, rest) = some b) : (read (written ++ rest) >>= k) = some b :=
  Option.bind_eq_some_iff.mpr ⟨(a, rest), h.complete hw hr, hk⟩

theorem Reads.bind_last (h : Reads read Written Ends) (hw : Written written a) (hr : Ends [])
    (hk : k (a, []) = some b) : (read written >>= k) = some b := by
  have hb := h.bind hw hr hk
  rwa [List.append_nil] at hb

theorem literal_bind_eq_some_iff {c : Char} {k : Unit × List Char → Option β} :
    (literal c text >>= k) = some b ↔ ∃ rest, text = c :: rest ∧ k ((), rest) = some b := by
  refine Option.bind_eq_some_iff.trans ⟨?_, ?_⟩
  · rintro ⟨⟨_, rest⟩, h, hk⟩
    exact ⟨rest, literal_eq_some_iff.mp h, hk⟩
  · rintro ⟨rest, h, hk⟩
    exact ⟨((), rest), literal_eq_some_iff.mpr h, hk⟩

theorem guard_bind_eq_some_iff {p : Prop} [Decidable p] {k : Unit → Option β} :
    (guard p >>= k) = some b ↔ p ∧ k () = some b := by
  refine Option.bind_eq_some_iff.trans ⟨?_, ?_⟩
  · rintro ⟨u, h, hk⟩
    exact ⟨(Option.guard_eq_some' u).mp h, hk⟩
  · rintro ⟨h, hk⟩
    exact ⟨(), (Option.guard_eq_some' ()).mpr h, hk⟩

end Steps

/-! ### Numbers and fractions -/

theorem leadingDigits_append (width : Nat) (text : List Char) :
    (∀ c ∈ (text.take width).takeWhile Char.isDigit, c.isDigit) ∧
      text = (text.take width).takeWhile Char.isDigit ++
        text.drop ((text.take width).takeWhile Char.isDigit).length := by
  have hp : (text.take width).takeWhile Char.isDigit <+: text :=
    (List.takeWhile_prefix _).trans (List.take_prefix width text)
  exact ⟨fun c hc => List.mem_takeWhile_imp hc, (List.prefix_iff_eq_append.mp hp).symm⟩

theorem trimStart_digits {blanks : List Char} (hb : ∀ c ∈ blanks, isBlank c)
    (hd : ∀ c ∈ digits, c.isDigit) (hn : digits ≠ []) :
    trimStart (blanks ++ digits ++ rest) = digits ++ rest := by
  obtain ⟨c, digits, rfl⟩ := List.exists_cons_of_ne_nil hn
  rw [List.append_assoc, List.cons_append]
  exact Text.trimStart_append_of_isBlank hb
    (Text.isBlank_eq_false_of_isDigit (hd c List.mem_cons_self))

theorem reads_number (width : Nat) : Reads (number width) (Numeral width) NoDigit where
  sound {text rest n} h := by
    obtain ⟨blanks, hb, ht⟩ := Text.exists_blanks_append text
    obtain ⟨hd, ha⟩ := leadingDigits_append width (trimStart text)
    have hl : (((trimStart text).take width).takeWhile Char.isDigit).length ≤ width :=
      Nat.le_trans (List.takeWhile_prefix _).length_le (List.length_take_le width _)
    simp only [number] at h
    split at h
    · cases h
    next hn =>
      cases h
      exact ⟨_, .mk hb hd (by simpa using hn) hl, by rw [List.append_assoc, ← ha, ← ht]⟩
  complete {written rest n} h hr := by
    cases h with
    | @mk blanks digits hb hd hn hl =>
      have hw : ((digits ++ rest).take width).takeWhile Char.isDigit = digits := by
        rw [List.take_append, List.take_of_length_le hl, takeWhile_digits hd (hr.take _)]
      simp only [number, trimStart_digits hb hd hn, hw, List.isEmpty_iff, hn, if_false,
        List.drop_left]

theorem reads_fixedNumber (width : Nat) :
    Reads (fixedNumber width) (FixedNumeral width) NoDigit where
  sound {text rest n} h := by
    obtain ⟨hd, ha⟩ := leadingDigits_append width text
    simp only [fixedNumber] at h
    split at h
    · next hl =>
      cases h
      exact ⟨_, .mk hd hl, by rwa [hl] at ha⟩
    · cases h
  complete {written rest n} h _ := by
    obtain ⟨hd, hl⟩ := h
    simp only [fixedNumber, List.take_left' hl, List.takeWhile_eq_self_iff.mpr hd, hl, if_true,
      List.drop_left' hl]

theorem number_trimStart (width : Nat) (text : List Char) :
    number width (trimStart text) = number width text := by
  rw [number, Text.trimStart_trimStart, number]

theorem Numeral.behind_blanks {width n : Nat} {blanks text : List Char}
    (hb : ∀ c ∈ blanks, isBlank c) (h : Numeral width text n) :
    Numeral width (blanks ++ text) n := by
  obtain ⟨hb', hd, hn, hl⟩ := h
  rw [← List.append_assoc]
  exact .mk (List.forall_mem_append.mpr ⟨hb, hb'⟩) hd hn hl

theorem year_numeral {n : Nat} (h : Numeral 4 text n) (hr : NoDigit rest) :
    year (text ++ rest) = some ((n : Int), rest) := by
  have hw := (reads_number 4).complete h hr
  cases h with
  | @mk blanks digits hb hd hn _ =>
    have ht : trimStart (blanks ++ digits ++ rest) = digits ++ rest := trimStart_digits hb hd hn
    obtain ⟨c, digits, rfl⟩ := List.exists_cons_of_ne_nil hn
    have hc : (decide (c = '-') || decide (c = '+')) = false := by
      have hc : c.isDigit := hd c List.mem_cons_self
      simp only [Bool.or_eq_false_iff, decide_eq_false_iff_not]
      constructor <;> rintro rfl <;> exact absurd hc (by decide)
    rw [← number_trimStart, ht] at hw
    simp only [year, ht, List.cons_append, hc, Bool.false_eq_true, if_false]
    exact Option.map_eq_some_iff.mpr ⟨_, hw, rfl⟩

theorem year_signed {blanks : List Char} {sign : Char} (hb : ∀ c ∈ blanks, isBlank c)
    (hs : sign = '-' ∨ sign = '+') (hd : ∀ c ∈ digits, c.isDigit) (hn : digits ≠ [])
    (hr : NoDigit rest) :
    year (blanks ++ sign :: digits ++ rest) =
      some (if sign = '-' then -(digitsValue digits : Int) else digitsValue digits, rest) := by
  have hblank : isBlank sign = false := by rcases hs with rfl | rfl <;> decide
  have ht : trimStart (blanks ++ sign :: digits ++ rest) = sign :: (digits ++ rest) := by
    rw [List.append_assoc, List.cons_append, Text.trimStart_append_of_isBlank hb hblank]
  have hsign : (decide (sign = '-') || decide (sign = '+')) = true := by simpa using hs
  simp only [year, ht, hsign, if_true, takeWhile_digits hd hr, dropWhile_digits hd hr,
    List.isEmpty_iff, hn, if_false]

theorem reads_year : Reads year YearText NoDigit where
  sound {text rest y} h := by
    obtain ⟨blanks, hb, ht⟩ := Text.exists_blanks_append text
    unfold year at h
    split at h
    · cases h
    next c others hc =>
      rw [hc] at ht
      split at h
      · next hs =>
        have hs : c = '-' ∨ c = '+' := by simpa using hs
        dsimp only at h
        split at h
        · cases h
        next hn =>
          cases h
          refine ⟨_, .signed hb hs (fun d hd => List.mem_takeWhile_imp hd) (by simpa using hn), ?_⟩
          rw [List.append_assoc, List.cons_append, List.takeWhile_append_dropWhile, ← ht]
      · obtain ⟨⟨n, rest'⟩, hn, h⟩ := Option.map_eq_some_iff.mp h
        cases h
        obtain ⟨written, hw, he⟩ := (reads_number 4).sound hn
        exact ⟨_, .unsigned (hw.behind_blanks hb), by rw [List.append_assoc, ← he, ← ht]⟩
  complete {written rest y} h hr := by
    cases h with
    | unsigned h => exact year_numeral h hr
    | signed hb hs hd hn => exact year_signed hb hs hd hn hr

theorem FractionText.noDigit_append {nanos : Nat} (h : FractionText text nanos)
    (hr : NoDigit rest) : NoDigit (text ++ rest) := by
  cases h with
  | none => exact hr
  | point => exact noDigit_cons rfl

theorem reads_fraction : Reads fraction FractionText NoFraction where
  sound {text rest nanos} h := by
    unfold fraction at h
    split at h
    · next text =>
      dsimp only at h
      split at h
      · cases h
      next hn =>
        cases h
        refine ⟨_, .point (fun d hd => List.mem_takeWhile_imp hd) (by simpa using hn), ?_⟩
        rw [List.cons_append, List.takeWhile_append_dropWhile]
    · cases h
      exact ⟨[], .none, rfl⟩
  complete {written rest nanos} h hr := by
    cases h with
    | none =>
      rw [List.nil_append]
      unfold fraction
      split
      · next text => exact absurd rfl hr.2
      · rfl
    | point hd hn =>
      simp only [fraction, List.cons_append, takeWhile_digits hd hr.1, dropWhile_digits hd hr.1,
        List.isEmpty_iff, hn, if_false]

/-! ### Dates, times and offsets -/

/-- A date by readers of its year and of its other fields. -/
def dateOf (year : Reader Int) (field : Reader Nat) : Reader (Option Int) := fun text => do
  let (y, text) ← year text
  let (_, text) ← literal '-' text
  let (m, text) ← field text
  let (_, text) ← literal '-' text
  let (d, text) ← field text
  return (Calendar.day? y m d, text)

/-- A time by a reader of its fields. -/
def timeOf (field : Reader Nat) : Reader (Option (Nat × Nat)) := fun text => do
  let (h, text) ← field text
  let (_, text) ← literal ':' text
  let (m, text) ← field text
  let (_, text) ← literal ':' text
  let (s, text) ← field text
  let (nanos, text) ← fraction text
  return (Calendar.time? h m s nanos, text)

def fixedYear : Reader Int := fun text => do
  let (n, text) ← fixedNumber 4 text
  return (n, text)

theorem ofOffset?_eq (text : List Char) :
    ofOffset? text = (do
      let (day, text) ← dateOf fixedYear (fixedNumber 2) text
      let (_, text) ← separator text
      let (clock, text) ← timeOf (fixedNumber 2) text
      let (ahead, text) ← offset text
      guard text.isEmpty
      let there := Calendar.instant (← day) (← clock)
      return { there with seconds := there.seconds - ahead }) := by
  simp only [ofOffset?, dateOf, timeOf, fixedYear, bind_assoc, pure_bind]

theorem reads_fixedYear : Reads fixedYear FixedYear NoDigit where
  sound h := by
    obtain ⟨n, y, _, hy, rfl, h₁⟩ := (reads_fixedNumber 4).exists_of_bind h
    cases h₁
    exact ⟨y, .mk hy, rfl⟩
  complete := by
    rintro written rest _ ⟨hy⟩ hr
    exact (reads_fixedNumber 4).bind hy hr rfl

section Fields

variable {year : Reader Int} {field : Reader Nat} {Year : List Char → Int → Prop}
  {Field : List Char → Nat → Prop}

theorem reads_dateOf (hyear : Reads year Year NoDigit) (hfield : Reads field Field NoDigit) :
    Reads (dateOf year field) (DateText Year Field) NoDigit where
  sound h := by
    obtain ⟨_, y, _, hy, rfl, h₁⟩ := hyear.exists_of_bind h
    obtain ⟨_, rfl, h₂⟩ := literal_bind_eq_some_iff.mp h₁
    obtain ⟨_, m, _, hm, rfl, h₃⟩ := hfield.exists_of_bind h₂
    obtain ⟨_, rfl, h₄⟩ := literal_bind_eq_some_iff.mp h₃
    obtain ⟨_, d, _, hd, rfl, h₅⟩ := hfield.exists_of_bind h₄
    cases h₅
    exact ⟨_, .mk hy hm hd, by simp⟩
  complete := by
    rintro _ rest _ ⟨hy, hm, hd⟩ hr
    simp only [List.cons_append, List.append_assoc]
    refine hyear.bind hy (noDigit_cons rfl) (literal_bind_eq_some_iff.mpr ⟨_, rfl, ?_⟩)
    refine hfield.bind hm (noDigit_cons rfl) (literal_bind_eq_some_iff.mpr ⟨_, rfl, ?_⟩)
    exact hfield.bind hd hr rfl

theorem reads_timeOf (hfield : Reads field Field NoDigit) :
    Reads (timeOf field) (TimeText Field) NoFraction where
  sound h := by
    obtain ⟨_, hourText, _, hh, rfl, h₁⟩ := hfield.exists_of_bind h
    obtain ⟨_, rfl, h₂⟩ := literal_bind_eq_some_iff.mp h₁
    obtain ⟨_, m, _, hm, rfl, h₃⟩ := hfield.exists_of_bind h₂
    obtain ⟨_, rfl, h₄⟩ := literal_bind_eq_some_iff.mp h₃
    obtain ⟨_, s, _, hs, rfl, h₅⟩ := hfield.exists_of_bind h₄
    obtain ⟨_, f, _, hf, rfl, h₆⟩ := reads_fraction.exists_of_bind h₅
    cases h₆
    exact ⟨_, .mk hh hm hs hf, by simp⟩
  complete := by
    rintro _ rest _ ⟨hh, hm, hs, hf⟩ hr
    simp only [List.cons_append, List.append_assoc]
    refine hfield.bind hh (noDigit_cons rfl) (literal_bind_eq_some_iff.mpr ⟨_, rfl, ?_⟩)
    refine hfield.bind hm (noDigit_cons rfl) (literal_bind_eq_some_iff.mpr ⟨_, rfl, ?_⟩)
    refine hfield.bind hs (hf.noDigit_append hr.1) ?_
    exact reads_fraction.bind hf hr rfl

end Fields

theorem reads_date : Reads date (DateText YearText (Numeral 2)) NoDigit :=
  reads_dateOf reads_year (reads_number 2)

theorem reads_time : Reads time (TimeText (Numeral 2)) NoFraction :=
  reads_timeOf (reads_number 2)

theorem OffsetText.noFraction {ahead : Option Int} (h : OffsetText text ahead) :
    NoFraction text := by
  cases h with
  | universal hc => rcases hc with rfl | rfl <;> exact ⟨noDigit_cons rfl, by simp⟩
  | signed hs => cases hs <;> exact ⟨noDigit_cons rfl, by simp⟩

theorem reads_offset :
    Reads offset (fun written ahead => OffsetText written (some ahead)) NoDigit where
  sound {text rest ahead} h := by
    unfold offset at h
    split at h
    · cases h; exact ⟨_, .universal (.inl rfl), rfl⟩
    · cases h; exact ⟨_, .universal (.inr rfl), rfl⟩
    obtain ⟨⟨behind, _⟩, h₁, h₂⟩ := Option.bind_eq_some_iff.mp h
    obtain ⟨sign, hs, rfl⟩ := offsetSign_eq_some_iff.mp h₁
    obtain ⟨hours, _, _, hh, rfl, h₃⟩ := (reads_fixedNumber 2).exists_of_bind h₂
    obtain ⟨_, rfl, h₄⟩ := literal_bind_eq_some_iff.mp h₃
    obtain ⟨minutes, _, _, hm, rfl, h₅⟩ := (reads_fixedNumber 2).exists_of_bind h₄
    obtain ⟨hg, h₆⟩ := guard_bind_eq_some_iff.mp h₅
    cases h₆
    have ho := OffsetText.signed hs hh hm
    rw [if_pos hg] at ho
    exact ⟨_, ho, by simp⟩
  complete {written rest ahead} h hr := by
    generalize hv : some ahead = value at h
    cases h with
    | universal hc =>
      cases hv
      rcases hc with rfl | rfl <;> rfl
    | @signed sign behind h m hours minutes hs hh hm =>
      split at hv
      next hg =>
        cases hv
        simp only [List.cons_append, List.append_assoc]
        unfold offset
        split
        · next hz => cases hs <;> cases hz
        · next hz => cases hs <;> cases hz
        refine Option.bind_eq_some_iff.mpr ⟨_, offsetSign_eq_some_iff.mpr ⟨_, hs, rfl⟩, ?_⟩
        refine (reads_fixedNumber 2).bind hh (noDigit_cons rfl) ?_
        refine literal_bind_eq_some_iff.mpr ⟨_, rfl, (reads_fixedNumber 2).bind hm hr ?_⟩
        exact guard_bind_eq_some_iff.mpr ⟨hg, rfl⟩
      · cases hv

/-! ### The three forms -/

variable {instant : Instant}

theorem ofLocal?_eq_some_iff :
    ofLocal? text = some instant ↔ Form.localTime.Names text instant := by
  constructor
  · intro h
    obtain ⟨_, d, _, hd, rfl, h₁⟩ := reads_date.exists_of_bind h
    obtain ⟨_, rfl, h₂⟩ := literal_bind_eq_some_iff.mp h₁
    obtain ⟨_, t, rest, ht, rfl, h₃⟩ := reads_time.exists_of_bind h₂
    obtain ⟨hr, h₄⟩ := guard_bind_eq_some_iff.mp h₃
    obtain ⟨day, rfl, h₅⟩ := Option.bind_eq_some_iff.mp h₄
    obtain ⟨clock, rfl, h₆⟩ := Option.bind_eq_some_iff.mp h₅
    cases h₆
    obtain rfl := List.isEmpty_iff.mp hr
    rw [List.append_nil]
    exact .localTime hd ht
  · intro h
    cases h with
    | localTime hd ht =>
      refine reads_date.bind hd (noDigit_cons rfl) (literal_bind_eq_some_iff.mpr ⟨_, rfl, ?_⟩)
      exact reads_time.bind_last ht noFraction_nil (guard_bind_eq_some_iff.mpr ⟨rfl, rfl⟩)

theorem ofOffset?_eq_some_iff :
    ofOffset? text = some instant ↔ Form.withOffset.Names text instant := by
  have hdate := reads_dateOf reads_fixedYear (reads_fixedNumber 2)
  have htime := reads_timeOf (reads_fixedNumber 2)
  rw [ofOffset?_eq]
  constructor
  · intro h
    obtain ⟨_, d, _, hd, rfl, h₁⟩ := hdate.exists_of_bind h
    obtain ⟨⟨_, _⟩, hsep, h₂⟩ := Option.bind_eq_some_iff.mp h₁
    obtain ⟨mark, hmark, rfl⟩ := separator_eq_some_iff.mp hsep
    obtain ⟨_, t, _, ht, rfl, h₃⟩ := htime.exists_of_bind h₂
    obtain ⟨ahead, o, rest, ho, rfl, h₄⟩ := reads_offset.exists_of_bind h₃
    obtain ⟨hr, h₅⟩ := guard_bind_eq_some_iff.mp h₄
    obtain ⟨day, rfl, h₆⟩ := Option.bind_eq_some_iff.mp h₅
    obtain ⟨clock, rfl, h₇⟩ := Option.bind_eq_some_iff.mp h₆
    cases h₇
    obtain rfl := List.isEmpty_iff.mp hr
    rw [List.append_nil]
    exact .withOffset hd hmark ht ho
  · intro h
    cases h with
    | @withOffset _ _ _ mark _ _ _ hd hmark ht ho =>
      have hdigit : mark.isDigit = false := by rcases hmark with rfl | rfl | rfl <;> rfl
      refine hdate.bind hd (noDigit_cons hdigit) ?_
      refine Option.bind_eq_some_iff.mpr ⟨_, separator_eq_some_iff.mpr ⟨_, hmark, rfl⟩, ?_⟩
      refine htime.bind ht ho.noFraction ?_
      exact reads_offset.bind_last ho noDigit_nil (guard_bind_eq_some_iff.mpr ⟨rfl, rfl⟩)

theorem ofDate?_eq_some_iff :
    ofDate? text = some instant ↔ Form.dateAlone.Names text instant := by
  constructor
  · intro h
    obtain ⟨_, d, rest, hd, rfl, h₁⟩ := reads_date.exists_of_bind h
    obtain ⟨hr, h₂⟩ := guard_bind_eq_some_iff.mp h₁
    obtain ⟨day, rfl, h₃⟩ := Option.bind_eq_some_iff.mp h₂
    cases h₃
    obtain rfl := List.isEmpty_iff.mp hr
    rw [List.append_nil]
    exact .dateAlone hd
  · intro h
    cases h with
    | dateAlone hd =>
      exact reads_date.bind_last hd noDigit_nil (guard_bind_eq_some_iff.mpr ⟨rfl, rfl⟩)

end Instant

end QueryFilter
