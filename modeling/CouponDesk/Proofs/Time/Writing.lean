import CouponDesk.Proofs.Time.Reading

/-!
# Writing time stamps

The text of an instant is a time stamp that names it, so it is read back as that instant.
-/

set_option autoImplicit false

namespace CouponDesk.Stamp.Grammar

theorem blank_nil : Blank [] := by simp [Blank]

theorem separator_self (c : Char) : Separator c [c] := .mk blank_nil

theorem digits_padded (width n : Nat) : Digits (Numeral.padded width n) n where
  nonempty := Numeral.padded_ne_nil width n
  digits := Numeral.isDigit_of_mem_padded width n
  value := Numeral.ofDigits_padded width n

theorem field_padded {n : Nat} (fits : n < 100) : Field (Numeral.padded 2 n) n := by
  have few : (Numeral.padded 2 n).length ≤ 2 := (Numeral.length_padded (by decide) fits).le
  have field := Field.mk blank_nil (digits_padded 2 n) few
  rwa [List.nil_append] at field

theorem year_yearText (year : Int) : Year (yearText year) year := by
  unfold yearText
  split_ifs with plain negative
  · obtain ⟨n, rfl⟩ := Int.eq_ofNat_of_zero_le plain.1
    have fits : n < 10 ^ 4 := by omega
    exact .plain (digits_padded 4 n) (Numeral.length_padded (by decide) fits).le
  · obtain ⟨n, rfl⟩ : ∃ n : Nat, year = -n := ⟨year.natAbs, by omega⟩
    rw [Int.natAbs_neg, Int.natAbs_natCast]
    exact .negative (digits_padded 4 n)
  · obtain ⟨n, rfl⟩ := Int.eq_ofNat_of_zero_le (Int.not_lt.mp negative)
    exact .positive (digits_padded 4 n)

/-- A fraction is written in full. -/
theorem exists_fraction {nano : Nat} (fits : nano < 1000000000) :
    ∃ digits, Fraction (fractionText nano) digits ∧
      Numeral.ofDigits digits * 1000000000 / 10 ^ digits.length = nano := by
  have padded (width n : Nat) (positive : 0 < width) (room : n < 10 ^ width)
      (scaled : n * 1000000000 / 10 ^ width = nano) :
      ∃ digits, Fraction ('.' :: Numeral.padded width n) digits ∧
        Numeral.ofDigits digits * 1000000000 / 10 ^ digits.length = nano := by
    refine ⟨_, .point (Numeral.padded_ne_nil width n) (Numeral.isDigit_of_mem_padded width n), ?_⟩
    rw [Numeral.ofDigits_padded, Numeral.length_padded positive room, scaled]
  unfold fractionText
  split_ifs with zero millis micros
  · exact ⟨[], .none, by simp [zero, Numeral.ofDigits]⟩
  · exact padded 3 _ (by decide) (by omega) (by omega)
  · exact padded 6 _ (by decide) (by omega) (by omega)
  · exact padded 9 _ (by decide) fits (by omega)

theorem written_write (t : Instant) :
    ∃ face, Written (write t.toReading) face 0 ∧ face.Names 0 t := by
  obtain ⟨date, low, high, second, nano, leap⟩ := t.valid
  obtain ⟨digits, fractions, exact⟩ :=
    exists_fraction (Nat.mod_lt t.nano (show 0 < 1000000000 by decide))
  obtain ⟨month, day⟩ : t.date.month < 100 ∧ t.date.day < 100 := by
    have months := date.month_le
    have days := Nat.le_trans date.2 (Date.daysInMonth_le _ _)
    omega
  let face : Face := ⟨t.date, t.second / 3600, t.second / 60 % 60,
    t.second % 60 + t.nano / 1000000000, digits⟩
  have dates : DateText _ face.date := .mk blank_nil (year_yearText t.date.year)
    (separator_self '-') (field_padded month) (separator_self '-') (field_padded day)
  have shown : Shown _ face := .mk dates (Or.inl rfl) (field_padded (by simp only [face]; omega))
    (separator_self ':') (field_padded (by simp only [face]; omega)) (separator_self ':')
    (field_padded (by simp only [face]; omega)) fractions
  have written := Written.mk shown blank_nil (.zulu (Or.inl rfl)) blank_nil
  refine ⟨face, by simpa [write, face] using written, ?_⟩
  refine ⟨date, ⟨low, high⟩, ?_, ?_, ?_, ?_, ?_⟩
  · simp only [face]
    omega
  · simp only [face]
    omega
  · simp only [face]
    omega
  · simp only [face, Reading.elapsed]
    omega
  · simp only [face, exact]
    split_ifs <;> omega

end CouponDesk.Stamp.Grammar

namespace CouponDesk.Instant

theorem denotes_text (t : Instant) : Stamp.Denotes t.text t := by
  obtain ⟨face, written, names⟩ := Stamp.Grammar.written_write t
  refine ⟨face, 0, ?_, names⟩
  rwa [text, String.toList_ofList]

end CouponDesk.Instant
