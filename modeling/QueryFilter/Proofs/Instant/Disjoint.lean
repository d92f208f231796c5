import QueryFilter.Condition.Matching
import QueryFilter.Proofs.Instant.Forms

/-! # Dates are no numbers

In the text of a date a hyphen follows the digits of the year, and in that of a number no hyphen
follows a digit. So no text names both.
-/

namespace QueryFilter

namespace Text

theorem isBlank_of_trimStart_eq_cons {s rest : List Char} {c : Char}
    (h : trimStart s = c :: rest) : isBlank c = false := by
  have ht := trimStart_trimStart s
  rw [h] at ht
  by_contra hb
  have hb : isBlank c = true := by simpa using hb
  rw [trimStart_cons_of_isBlank hb] at ht
  have hl : (trimStart rest).length ≤ rest.length := List.length_dropWhile_le isBlank rest
  rw [ht, List.length_cons] at hl
  omega

theorem trimStart_trim (s : List Char) : trimStart (trim s) = trim s := by
  have hp : trim s <+: trimStart s := by
    rw [trim, trimEnd, ← List.reverse_suffix, List.reverse_reverse]
    exact List.dropWhile_suffix isBlank
  cases ht : trim s with
  | nil => rfl
  | cons c rest =>
    obtain ⟨others, ho⟩ := hp
    rw [ht, List.cons_append] at ho
    exact trimStart_of_not_isBlank (isBlank_of_trimStart_eq_cons ho.symm)

end Text

open Binary64 (readSign ofPlainText?)
open Text (trimStart)

/-- Digits with a hyphen behind them come first. -/
def Hyphenated (text : List Char) : Prop :=
  ∃ digits rest, (∀ c ∈ digits, c.isDigit) ∧ text = digits ++ '-' :: rest

theorem Binary64.ofPlainText?_eq_none {text : List Char} (h : Hyphenated (readSign text).2) :
    ofPlainText? text = none := by
  obtain ⟨digits, rest, hd, ht⟩ := h
  have hn : Instant.NoDigit ('-' :: rest) := Instant.noDigit_cons rfl
  have hw : (readSign text).2.takeWhile Char.isDigit = digits := by
    rw [ht, Instant.takeWhile_digits hd hn]
  have hr : (readSign text).2.dropWhile Char.isDigit = '-' :: rest := by
    rw [ht, Instant.dropWhile_digits hd hn]
  unfold ofPlainText?
  generalize readSign text = signed at hw hr
  obtain ⟨negative, unsigned⟩ := signed
  dsimp only at hw hr ⊢
  rw [hw, hr]
  cases digits <;> rfl

namespace Instant

variable {text rest : List Char}

theorem readSign_of_isDigit {c : Char} (h : c.isDigit) :
    readSign (c :: rest) = (false, c :: rest) := by
  unfold readSign
  split
  · next he => cases he; exact absurd h (by decide)
  · next he => cases he; exact absurd h (by decide)
  · rfl

theorem FixedNumeral.numeral {width n : Nat} (h : FixedNumeral width text n) (hw : 0 < width) :
    Numeral width text n := by
  obtain ⟨hd, hl⟩ := h
  have hn := List.length_pos_iff.mp (hl ▸ hw)
  exact @Numeral.mk width [] _ (List.forall_mem_nil _) hd hn hl.le

theorem hyphenated_of_yearText {year : Int} (h : YearText text year)
    (ht : trimStart (text ++ '-' :: rest) = text ++ '-' :: rest) :
    Hyphenated (readSign (text ++ '-' :: rest)).2 := by
  cases h with
  | unsigned h =>
    cases h with
    | @mk blanks digits hb hd hn _ =>
      refine ⟨digits, rest, hd, ?_⟩
      rw [← ht, trimStart_digits hb hd hn]
      obtain ⟨c, digits, rfl⟩ := List.exists_cons_of_ne_nil hn
      rw [List.cons_append, readSign_of_isDigit (hd c List.mem_cons_self)]
  | @signed blanks digits sign hb hs hd hn =>
    refine ⟨digits, rest, hd, ?_⟩
    have hblank : Text.isBlank sign = false := by rcases hs with rfl | rfl <;> decide
    rw [← ht, List.append_assoc, List.cons_append, Text.trimStart_append_of_isBlank hb hblank]
    rcases hs with rfl | rfl <;> rfl

theorem hyphenated_of_dateText {Year : List Char → Int → Prop} {Field : List Char → Nat → Prop}
    {day : Option Int} (hyear : ∀ y year, Year y year → YearText y year)
    (h : DateText Year Field text day) (ht : trimStart (text ++ rest) = text ++ rest) :
    Hyphenated (readSign (text ++ rest)).2 := by
  obtain ⟨hy, -, -⟩ := h
  rw [List.append_assoc, List.cons_append] at ht ⊢
  exact hyphenated_of_yearText (hyear _ _ hy) ht

theorem Form.Names.hyphenated {form : Form} {instant : Instant} (h : form.Names text instant)
    (ht : trimStart text = text) : Hyphenated (readSign text).2 := by
  cases h with
  | localTime hd _ => exact hyphenated_of_dateText (fun _ _ => id) hd ht
  | withOffset hd _ _ _ =>
    refine hyphenated_of_dateText ?_ hd ht
    rintro y _ ⟨hy⟩
    exact .unsigned (hy.numeral (by decide))
  | dateAlone hd =>
    rw [← List.append_nil text] at ht ⊢
    exact hyphenated_of_dateText (fun _ _ => id) hd ht

theorem hyphenated_of_ofText? {s : String} {instant : Instant} (h : ofText? s = some instant) :
    Hyphenated (readSign (Text.trim s.toList)).2 := by
  rw [ofText?_eq_findSome?] at h
  obtain ⟨form, -, hr⟩ := List.exists_of_findSome?_eq_some h
  exact (Form.read?_eq_some_iff.mp hr).hyphenated (Text.trimStart_trim s.toList)

end Instant

theorem Json.asInstant?_eq_none {value : Json} {x : Binary64} (h : value.asNumber? = some x) :
    value.asInstant? = none := by
  cases value with
  | string s =>
    cases hi : Instant.ofText? s with
    | none => exact hi
    | some instant =>
      have hn := Binary64.ofPlainText?_eq_none (Instant.hyphenated_of_ofText? hi)
      simp [asNumber?, Binary64.ofText?, hn] at h
  | _ => rfl

end QueryFilter
