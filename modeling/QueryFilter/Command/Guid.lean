/-! # Fresh guids

Guids in their usual form, made of a seed and a position. The form leaves 122 bits free, so as many
positions of one seed as there are guids have guids of their own.
-/

namespace QueryFilter.Command

/-- The last hexadecimal digits of a number, as many as the width. -/
def hexDigits : Nat → Nat → List Char
  | 0, _ => []
  | width + 1, n => hexDigits width (n / 16) ++ [Nat.digitChar (n % 16)]

/-- A guid of the random kind whose free bits are the sum of seed and position. -/
def freshGuid (seed position : Nat) : String :=
  let bits := seed + position
  String.ofList (hexDigits 8 (bits >>> 90) ++ '-' :: (hexDigits 4 (bits >>> 74) ++ '-' ::
    '4' :: (hexDigits 3 (bits >>> 62) ++ '-' ::
      (hexDigits 4 (0x8000 + (bits >>> 48) % 0x4000) ++ '-' :: hexDigits 12 bits))))

/-- How many guids there are. -/
def guidCount : Nat := Nat.pow 2 122

theorem length_hexDigits (width n : Nat) : (hexDigits width n).length = width := by
  induction width generalizing n with
  | zero => rfl
  | succ width ih => rw [hexDigits, List.length_append, ih, List.length_singleton]

theorem hexDigits_eq_iff {width m n : Nat} :
    hexDigits width m = hexDigits width n ↔ m % Nat.pow 16 width = n % Nat.pow 16 width := by
  induction width generalizing m n with
  | zero =>
    have h (n : Nat) : n % Nat.pow 16 0 = 0 := Nat.mod_one n
    rw [h, h]
    exact iff_of_true rfl rfl
  | succ width ih =>
    have digit : ∀ a < 16, ∀ b < 16, Nat.digitChar a = Nat.digitChar b → a = b := by decide
    have hm : m % 16 < 16 := Nat.mod_lt m (by decide)
    have hn : n % 16 < 16 := Nat.mod_lt n (by decide)
    have hp : Nat.pow 16 (width + 1) = 16 * Nat.pow 16 width := Nat.mul_comm ..
    rw [hp, Nat.mod_mul, Nat.mod_mul]
    constructor
    · intro h
      obtain ⟨hh, hl⟩ := List.append_inj' h rfl
      rw [digit _ hm _ hn (List.singleton_inj.mp hl), ih.mp hh]
    · intro h
      have hl : m % 16 = n % 16 := by omega
      have hh : m / 16 % Nat.pow 16 width = n / 16 % Nat.pow 16 width := by omega
      rw [hexDigits, hexDigits, hl, ih.mpr hh]

theorem hexDigits_append_eq_iff {width m n : Nat} {rest rest' : List Char} :
    hexDigits width m ++ '-' :: rest = hexDigits width n ++ '-' :: rest' ↔
      m % Nat.pow 16 width = n % Nat.pow 16 width ∧ rest = rest' := by
  constructor
  · intro h
    obtain ⟨hd, hr⟩ := List.append_inj h (by rw [length_hexDigits, length_hexDigits])
    exact ⟨hexDigits_eq_iff.mp hd, List.tail_eq_of_cons_eq hr⟩
  · rintro ⟨hd, rfl⟩
    rw [hexDigits_eq_iff.mpr hd]

theorem freshGuid_eq_iff {seed m n : Nat} :
    freshGuid seed m = freshGuid seed n ↔ (seed + m) % guidCount = (seed + n) % guidCount := by
  have h3 : Nat.pow 16 3 = 0x1000 := rfl
  have h4 : Nat.pow 16 4 = 0x10000 := rfl
  have h8 : Nat.pow 16 8 = 0x100000000 := rfl
  have h12 : Nat.pow 16 12 = 0x1000000000000 := rfl
  have hc : guidCount = 0x4000000000000000000000000000000 := rfl
  simp only [freshGuid, String.ofList_inj, hexDigits_append_eq_iff, hexDigits_eq_iff,
    List.cons.injEq, true_and, h3, h4, h8, h12, hc]
  generalize seed + m = x, seed + n = y
  omega

/-- Positions of one seed are told apart by their guids. -/
theorem eq_of_freshGuid_eq {seed m n : Nat} (h : freshGuid seed m = freshGuid seed n)
    (hm : m < guidCount) (hn : n < guidCount) : m = n := by
  have hb := freshGuid_eq_iff.mp h
  have hc : guidCount = 0x4000000000000000000000000000000 := rfl
  rw [hc] at hb hm hn
  omega

end QueryFilter.Command
