import CouponDesk.Text.Basic
import Mathlib.Data.List.Induction
import Mathlib.Tactic.IntervalCases
import Mathlib.Tactic.Ring

/-!
# Numerals read back

The decimal numeral of a number consists of digits, has no leading zero, and denotes the number.
The hexadecimal one of a byte denotes it too.
-/

set_option autoImplicit false

namespace CouponDesk.Numeral

theorem isDigit_digit {n : Nat} (small : n < 10) : (digit n).isDigit = true := by
  interval_cases n <;> rfl

theorem toNat_digit {n : Nat} (small : n < 10) : (digit n).toNat - '0'.toNat = n := by
  interval_cases n <;> rfl

theorem digit_ne_zero {n : Nat} (small : n < 10) (positive : n ≠ 0) : digit n ≠ '0' := by
  interval_cases n
  · exact absurd rfl positive
  all_goals decide

theorem ofDigits_append (cs ds : List Char) :
    ofDigits (cs ++ ds) = ofDigits cs * 10 ^ ds.length + ofDigits ds := by
  induction ds using List.reverseRecOn with
  | nil => simp [ofDigits]
  | append_singleton ds d ih =>
      have last (es : List Char) :
          ofDigits (es ++ [d]) = 10 * ofDigits es + (d.toNat - '0'.toNat) := by
        simp only [ofDigits, List.foldl_append, List.foldl_cons, List.foldl_nil]
      rw [← List.append_assoc, last, ih, last, List.length_append, List.length_singleton, pow_succ]
      ring

theorem ofDigits_digits (n : Nat) : ofDigits (digits n) = n := by
  induction n using Nat.strong_induction_on with
  | _ n ih =>
      rw [digits]
      split_ifs with small
      · simp only [ofDigits, List.foldl_cons, List.foldl_nil, toNat_digit small]
        omega
      · have shorter : n / 10 < n := by omega
        have last : n % 10 < 10 := Nat.mod_lt n (by decide)
        have single : ofDigits [digit (n % 10)] = n % 10 := by
          rw [ofDigits, List.foldl_cons, List.foldl_nil, toNat_digit last]
          omega
        rw [ofDigits_append, ih _ shorter, single, List.length_singleton]
        omega

theorem isDigit_iff {c : Char} : c.isDigit = true ↔ 48 ≤ c.toNat ∧ c.toNat ≤ 57 := by
  simp [Char.isDigit, UInt32.le_iff_toNat_le]

theorem ofDigits_lt {cs : List Char} (digits : ∀ c ∈ cs, c.isDigit = true) :
    ofDigits cs < 10 ^ cs.length := by
  induction cs using List.reverseRecOn with
  | nil => decide
  | append_singleton cs c ih =>
      have front := ih fun d member => digits d (List.mem_append_left _ member)
      have last : c.toNat ≤ 57 := (isDigit_iff.mp (digits c (by simp))).2
      have single : ofDigits [c] = c.toNat - 48 := by simp [ofDigits]
      rw [ofDigits_append, single, List.length_append, List.length_singleton, pow_succ]
      omega

theorem isDigit_of_mem_digits (n : Nat) : ∀ c ∈ digits n, c.isDigit = true := by
  induction n using Nat.strong_induction_on with
  | _ n ih =>
      intro c member
      rw [digits] at member
      split_ifs at member with small
      · obtain rfl := List.mem_singleton.mp member
        exact isDigit_digit small
      · rcases List.mem_append.mp member with front | last
        · exact ih _ (by omega) c front
        · obtain rfl := List.mem_singleton.mp last
          exact isDigit_digit (Nat.mod_lt n (by decide))

theorem digits_ne_nil (n : Nat) : digits n ≠ [] := by
  rw [digits]
  split_ifs <;> simp

theorem head?_digits {n : Nat} (positive : n ≠ 0) : (digits n).head? ≠ some '0' := by
  induction n using Nat.strong_induction_on with
  | _ n ih =>
      rw [digits]
      split_ifs with small
      · simpa using digit_ne_zero small positive
      · have front := ih (n / 10) (by omega) (by omega)
        cases written : digits (n / 10) with
        | nil => exact absurd written (digits_ne_nil _)
        | cons c rest =>
            rw [written] at front
            simpa using front

/-- Only zero itself is written with a zero in front. -/
theorem length_digits_or (n : Nat) : (digits n).length = 1 ∨ (digits n).head? ≠ some '0' := by
  by_cases zero : n = 0
  · subst zero
    exact Or.inl (by rw [digits]; rfl)
  · exact Or.inr (head?_digits zero)

/-- A numeral has no more digits than a power of ten above the number has zeros. -/
theorem length_digits_le {n width : Nat} (positive : 0 < width) (fits : n < 10 ^ width) :
    (digits n).length ≤ width := by
  induction n using Nat.strong_induction_on generalizing width with
  | _ n ih =>
      rw [digits]
      split_ifs with small
      · exact positive
      · obtain ⟨width, rfl⟩ : ∃ w, width = w + 1 := ⟨width - 1, by omega⟩
        have wider : 0 < width := by
          by_contra zero
          obtain rfl : width = 0 := by omega
          omega
        have shorter : n / 10 < 10 ^ width := by
          rw [pow_succ] at fits
          omega
        have front := ih (n / 10) (by omega) wider shorter
        rw [List.length_append, List.length_singleton]
        omega

/-! ## Numerals of a fixed width -/

theorem ofDigits_padded (width n : Nat) : ofDigits (padded width n) = n := by
  have zeros (count : Nat) : ofDigits (List.replicate count '0') = 0 := by
    induction count with
    | zero => rfl
    | succ count ih =>
        rw [List.replicate_succ', ofDigits_append, ih]
        rfl
  rw [padded, ofDigits_append, zeros, ofDigits_digits, Nat.zero_mul, Nat.zero_add]

theorem isDigit_of_mem_padded (width n : Nat) : ∀ c ∈ padded width n, c.isDigit = true := by
  intro c member
  rcases List.mem_append.mp member with zero | digit
  · rw [List.eq_of_mem_replicate zero]
    rfl
  · exact isDigit_of_mem_digits n c digit

theorem length_padded {width n : Nat} (positive : 0 < width) (fits : n < 10 ^ width) :
    (padded width n).length = width := by
  have few := length_digits_le positive fits
  rw [padded, List.length_append, List.length_replicate]
  omega

theorem padded_ne_nil (width n : Nat) : padded width n ≠ [] := by
  simp [padded, digits_ne_nil]

theorem ungroup_digits {isDigit : Char → Bool} {cs : List Char} (nonempty : cs ≠ [])
    (digits : ∀ c ∈ cs, isDigit c = true) (plain : isDigit '_' = false) :
    ungroup isDigit cs = some cs := by
  induction cs with
  | nil => exact absurd rfl nonempty
  | cons c rest ih =>
      have first : isDigit c = true := digits c List.mem_cons_self
      cases rest with
      | nil => simp [ungroup, first]
      | cons d rest =>
          have second : isDigit d = true := digits d (by simp)
          have apart : d ≠ '_' := by
            rintro rfl
            rw [plain] at second
            cases second
          have later := ih (by simp) fun c member => digits c (List.mem_cons_of_mem _ member)
          simp [ungroup, first, apart, later]

/-! ## Code points -/

theorem hexValue?_hexDigit {n : Nat} (small : n < 16) : hexValue? (hexDigit n) = some n := by
  interval_cases n <;> rfl

theorem hexValue?_lowerHexDigit {n : Nat} (small : n < 16) :
    hexValue? (lowerHexDigit n) = some n := by
  interval_cases n <;> rfl

/-- Four digits hold every code point of one byte, whichever case they are written in. -/
theorem ofHex?_pair {n : Nat} {c d : Char} (high : hexValue? c = some (n / 16))
    (low : hexValue? d = some (n % 16)) : ofHex? ['0', '0', c, d] = some n := by
  have zero : hexValue? '0' = some 0 := rfl
  simp only [ofHex?, List.foldlM_cons, List.foldlM_nil, zero, high, low, Option.map_some,
    Option.bind_eq_bind, Option.bind_some, Option.pure_def, Option.some.injEq]
  omega

theorem ofHex?_byte {n : Nat} (small : n < 256) :
    ofHex? ['0', '0', hexDigit (n / 16), hexDigit (n % 16)] = some n :=
  ofHex?_pair (hexValue?_hexDigit (by omega)) (hexValue?_hexDigit (by omega))

theorem ofHex?_lowerByte {n : Nat} (small : n < 256) :
    ofHex? ['0', '0', lowerHexDigit (n / 16), lowerHexDigit (n % 16)] = some n :=
  ofHex?_pair (hexValue?_lowerHexDigit (by omega)) (hexValue?_lowerHexDigit (by omega))

theorem scalar?_toNat (c : Char) : scalar? c.toNat = some c := by
  have valid : c.toNat < 0xD800 ∨ (0xE000 ≤ c.toNat ∧ c.toNat < 0x110000) := by
    rcases c.valid with low | ⟨high, top⟩
    · exact Or.inl low
    · exact Or.inr ⟨high, top⟩
  rw [scalar?, if_pos valid, Char.ofNat_toNat]

theorem scalar?_eq_some_iff {n : Nat} {c : Char} : scalar? n = some c ↔ c.toNat = n := by
  constructor
  · intro found
    unfold scalar? at found
    split_ifs at found with valid
    obtain rfl := Option.some.inj found
    have isScalar : n.isValidChar := by
      rcases valid with low | high
      · exact Or.inl low
      · exact Or.inr ⟨by omega, high.2⟩
    rw [Char.ofNat, dif_pos isScalar]
    rfl
  · rintro rfl
    exact scalar?_toNat c

/-- A surrogate is no character. -/
theorem scalar?_surrogate {n : Nat} (low : 0xD800 ≤ n) (high : n < 0xE000) :
    scalar? n = none := by
  rw [scalar?, if_neg (by omega)]

end CouponDesk.Numeral
