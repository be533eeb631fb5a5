import CouponDesk.Json.Reader
import CouponDesk.Proofs.Json.Grammar
import CouponDesk.Proofs.Text.Numerals
import CouponDesk.Proofs.Text.Scanning

/-!
# Reading JSON numbers

A literal is read as a number exactly if it is one of the grammar: `number?_eq_some_iff`.
-/

set_option autoImplicit false

namespace CouponDesk.Json.Grammar

variable {cs source source' : List Char} {v : Value}

/-! ## Parts of a number -/

theorem areDigits_iff : areDigits cs = true ↔ Digits cs := by
  unfold areDigits
  constructor
  · intro digits
    simp only [Bool.and_eq_true, Bool.not_eq_true', List.isEmpty_eq_false_iff,
      List.all_eq_true] at digits
    exact ⟨digits.1, digits.2⟩
  · rintro ⟨nonempty, all⟩
    simp only [Bool.and_eq_true, Bool.not_eq_true', List.isEmpty_eq_false_iff, List.all_eq_true]
    exact ⟨nonempty, all⟩

theorem Digits.head (digits : Digits source) :
    ∃ d tail, source = d :: tail ∧ d.isDigit = true := by
  obtain ⟨d, tail, rfl⟩ := List.exists_cons_of_ne_nil digits.nonempty
  exact ⟨d, tail, rfl, digits.all d List.mem_cons_self⟩

theorem isExponent_iff : isExponent cs = true ↔ cs = [] ∨ Exponent cs := by
  constructor
  · intro accepted
    unfold isExponent at accepted
    split at accepted
    · exact Or.inl rfl
    all_goals
      simp only [Bool.and_eq_true, Bool.or_eq_true, decide_eq_true_eq, areDigits_iff] at accepted
    · exact Or.inr (.signed accepted.1 (Or.inl rfl) accepted.2)
    · exact Or.inr (.signed accepted.1 (Or.inr rfl) accepted.2)
    · exact Or.inr (.plain accepted.1 accepted.2)
  · rintro (rfl | exponent)
    · rfl
    · cases exponent with
      | plain begins written =>
          obtain ⟨d, tail, rfl, digit⟩ := written.head
          have other (sign : Char) (apart : sign.isDigit = false) : d ≠ sign := by
            rintro rfl
            rw [digit] at apart
            cases apart
          rw [isExponent]
          · simp [begins, areDigits_iff.mpr written]
          · exact fun _ same => other '+' rfl (List.cons.inj same).1
          · exact fun _ same => other '-' rfl (List.cons.inj same).1
      | signed begins signs written =>
          rcases signs with rfl | rfl <;>
            simp [isExponent, begins, areDigits_iff.mpr written]

theorem Exponent.stops (exponent : Exponent source) : Text.Stops Char.isDigit source := by
  cases exponent with
  | plain begins => rcases begins with rfl | rfl <;> exact Text.stops_cons.mpr rfl
  | signed begins => rcases begins with rfl | rfl <;> exact Text.stops_cons.mpr rfl

theorem isFraction_iff : isFraction cs = true ↔ cs = [] ∨ Scaled cs := by
  constructor
  · intro accepted
    unfold isFraction at accepted
    split at accepted
    next tail =>
      simp only [Bool.and_eq_true, areDigits_iff, isExponent_iff] at accepted
      obtain ⟨digits, none | exponent⟩ := accepted
      · have whole := List.takeWhile_append_dropWhile (p := Char.isDigit) (l := tail)
        rw [none, List.append_nil] at whole
        rw [whole] at digits
        exact Or.inr (.fraction (.point digits))
      · have both := Scaled.both (.point digits) exponent
        rw [List.cons_append, List.takeWhile_append_dropWhile] at both
        exact Or.inr both
    next =>
      rcases isExponent_iff.mp accepted with none | exponent
      · exact Or.inl none
      · exact Or.inr (.exponent exponent)
  · rintro (rfl | scaled)
    · rfl
    · cases scaled with
      | fraction fraction =>
          obtain ⟨digits⟩ := fraction
          have run := Text.takeWhile_run digits.all Text.stops_nil
          have rest := Text.dropWhile_run digits.all Text.stops_nil
          rw [List.append_nil] at run rest
          simp [isFraction, run, rest, areDigits_iff.mpr digits, isExponent]
      | both fraction exponent =>
          obtain ⟨digits⟩ := fraction
          rw [List.cons_append, isFraction, Text.takeWhile_run digits.all exponent.stops,
            Text.dropWhile_run digits.all exponent.stops, areDigits_iff.mpr digits,
            isExponent_iff.mpr (Or.inr exponent), Bool.and_true]
      | exponent exponent =>
          have accepted := isExponent_iff.mpr (Or.inr exponent)
          have point : ∀ tail, cs ≠ '.' :: tail := by
            rintro tail rfl
            cases exponent with
            | plain begins => rcases begins with begins | begins <;> cases begins
            | signed begins => rcases begins with begins | begins <;> cases begins
          rw [isFraction]
          · exact accepted
          · exact point

theorem Scaled.stops (scaled : Scaled source) : Text.Stops Char.isDigit source := by
  cases scaled with
  | fraction fraction =>
      obtain ⟨-⟩ := fraction
      exact Text.stops_cons.mpr rfl
  | both fraction =>
      obtain ⟨-⟩ := fraction
      exact Text.stops_cons.mpr rfl
  | exponent exponent => exact exponent.stops

/-! ## Numbers without a sign -/

theorem Whole.eq_zero (whole : Whole source) (zero : Numeral.ofDigits source = 0) :
    source = ['0'] := by
  obtain ⟨d, tail, rfl, digit⟩ := whole.head
  have low := (Numeral.isDigit_iff.mp digit).1
  have split := Numeral.ofDigits_append [d] tail
  have single : Numeral.ofDigits [d] = d.toNat - 48 := by simp [Numeral.ofDigits]
  have power : 0 < 10 ^ tail.length := Nat.pow_pos (by decide)
  have none : d.toNat - 48 = 0 := by
    rw [List.singleton_append, zero, single] at split
    by_contra positive
    have large := Nat.mul_pos (Nat.pos_of_ne_zero positive) power
    omega
  obtain rfl : d = '0' := Char.toNat_inj.mp (by
    show d.toNat = 48
    omega)
  rcases whole.leading with short | other
  · rw [List.length_eq_zero_iff.mp (Nat.succ_inj.mp short)]
  · exact absurd rfl other

/-- What a literal denotes, given its whole digits and what follows them. -/
theorem unsigned?_append (negative : Bool) (whole : Whole source)
    (tail : source' = [] ∨ Scaled source') :
    unsigned? negative (source ++ source') =
      if source'.isEmpty && !(negative && Numeral.ofDigits source = 0) then
        some (.integer (if negative then -Numeral.ofDigits source else Numeral.ofDigits source))
      else some (.real (String.ofList
        ((if negative then ['-'] else []) ++ (source ++ source')))) := by
  have stops : Text.Stops Char.isDigit source' := by
    rcases tail with rfl | scaled
    · exact Text.stops_nil
    · exact scaled.stops
  have accepted : (areDigits source && (source.length = 1 || source.head? ≠ some '0') &&
      isFraction source') = true := by
    rw [areDigits_iff.mpr whole.toDigits, isFraction_iff.mpr tail]
    simpa using whole.leading
  rw [unsigned?]
  simp only [Text.takeWhile_run whole.all stops, Text.dropWhile_run whole.all stops]
  rw [if_pos accepted]

theorem unsigned?_whole (negative : Bool) (whole : Whole source) :
    unsigned? negative source =
      if negative && Numeral.ofDigits source = 0 then some (.real (String.ofList ('-' :: source)))
      else some (.integer
        (if negative then -Numeral.ofDigits source else Numeral.ofDigits source)) := by
  have read := unsigned?_append negative whole (Or.inl rfl)
  rw [List.append_nil] at read
  rw [read]
  cases negative
  · rfl
  · by_cases zero : Numeral.ofDigits source = 0 <;> simp [zero]

theorem unsigned?_scaled (negative : Bool) (whole : Whole source) (scaled : Scaled source') :
    unsigned? negative (source ++ source') =
      some (.real (String.ofList ((if negative then ['-'] else []) ++ (source ++ source')))) := by
  have more : source'.isEmpty = false := by
    cases scaled with
    | fraction fraction => cases fraction; rfl
    | exponent exponent => cases exponent <;> rfl
    | both fraction => cases fraction; rfl
  rw [unsigned?_append negative whole (Or.inr scaled), more, Bool.false_and]
  rfl

/-- Only whole digits with what may follow them are a literal. -/
theorem unsigned?_sound {negative : Bool} (read : unsigned? negative cs = some v) :
    Whole cs ∨ ∃ source source', cs = source ++ source' ∧ Whole source ∧ Scaled source' := by
  simp only [unsigned?] at read
  split at read
  next accepted =>
    simp only [Bool.and_eq_true, Bool.or_eq_true, decide_eq_true_eq, areDigits_iff,
      isFraction_iff] at accepted
    obtain ⟨⟨digits, leading⟩, none | scaled⟩ := accepted
    · have whole := List.takeWhile_append_dropWhile (p := Char.isDigit) (l := cs)
      rw [none, List.append_nil] at whole
      rw [whole] at digits leading
      exact Or.inl ⟨digits, leading⟩
    · exact Or.inr ⟨_, _, List.takeWhile_append_dropWhile.symm, ⟨digits, leading⟩, scaled⟩
  next => cases read

/-! ## Numbers -/

theorem number?_plain (whole : Whole source) (source' : List Char) :
    number? (source ++ source') = unsigned? false (source ++ source') := by
  obtain ⟨d, tail, rfl, digit⟩ := whole.head
  rw [number?]
  rintro rest same
  obtain rfl := (List.cons.inj same).1
  cases digit

theorem number?_number (number : Number source v) : number? source = some v := by
  cases number with
  | natural whole =>
      have plain := number?_plain whole []
      rw [List.append_nil] at plain
      rw [plain, unsigned?_whole false whole]
      rfl
  | negative whole positive =>
      rw [number?, unsigned?_whole true whole]
      simp [positive]
  | negativeZero => rfl
  | real whole scaled =>
      rw [number?_plain whole, unsigned?_scaled false whole scaled]
      rfl
  | negativeReal whole scaled =>
      rw [number?, unsigned?_scaled true whole scaled]
      rfl

theorem number_of_unsigned (read : unsigned? false source = some v) : Number source v := by
  rcases unsigned?_sound read with whole | ⟨source, source', rfl, whole, scaled⟩
  · rw [unsigned?_whole false whole] at read
    obtain rfl := Option.some.inj read
    exact .natural whole
  · rw [unsigned?_scaled false whole scaled] at read
    obtain rfl := Option.some.inj read
    exact .real whole scaled

theorem number_of_signed (read : unsigned? true source = some v) : Number ('-' :: source) v := by
  rcases unsigned?_sound read with whole | ⟨source, source', rfl, whole, scaled⟩
  · rw [unsigned?_whole true whole] at read
    by_cases zero : Numeral.ofDigits source = 0
    · obtain rfl := whole.eq_zero zero
      obtain rfl := Option.some.inj read
      exact .negativeZero
    · rw [if_neg (by simp [zero])] at read
      obtain rfl := Option.some.inj read
      exact .negative whole zero
  · rw [unsigned?_scaled true whole scaled] at read
    obtain rfl := Option.some.inj read
    exact .negativeReal whole scaled

theorem number?_eq_some_iff : number? source = some v ↔ Number source v := by
  refine ⟨fun read => ?_, number?_number⟩
  unfold number? at read
  split at read
  · exact number_of_signed read
  · exact number_of_unsigned read

/-! ## Characters of a number -/

theorem isNumberChar_of_isDigit {c : Char} (digit : c.isDigit = true) : isNumberChar c = true := by
  simp [isNumberChar, digit]

theorem Digits.characters (digits : Digits source) : ∀ c ∈ source, isNumberChar c = true :=
  fun c member => isNumberChar_of_isDigit (digits.all c member)

theorem Exponent.characters (exponent : Exponent source) :
    ∀ c ∈ source, isNumberChar c = true := by
  cases exponent with
  | @plain letter begins digits written =>
      have first : isNumberChar letter = true := by rcases begins with rfl | rfl <;> rfl
      exact List.forall_mem_cons.mpr ⟨first, written.characters⟩
  | @signed letter sign begins signs digits written =>
      have first : isNumberChar letter = true := by rcases begins with rfl | rfl <;> rfl
      have second : isNumberChar sign = true := by rcases signs with rfl | rfl <;> rfl
      exact List.forall_mem_cons.mpr
        ⟨first, List.forall_mem_cons.mpr ⟨second, written.characters⟩⟩

theorem Fraction.characters (fraction : Fraction source) :
    ∀ c ∈ source, isNumberChar c = true := by
  obtain ⟨written⟩ := fraction
  exact List.forall_mem_cons.mpr ⟨rfl, written.characters⟩

theorem Scaled.characters (scaled : Scaled source) : ∀ c ∈ source, isNumberChar c = true := by
  cases scaled with
  | fraction fraction => exact fraction.characters
  | exponent exponent => exact exponent.characters
  | both fraction exponent =>
      exact List.forall_mem_append.mpr ⟨fraction.characters, exponent.characters⟩

theorem Number.characters (number : Number source v) : ∀ c ∈ source, isNumberChar c = true := by
  cases number with
  | natural whole => exact whole.characters
  | negative whole => exact List.forall_mem_cons.mpr ⟨rfl, whole.characters⟩
  | negativeZero => exact List.all_eq_true.mp rfl
  | real whole scaled =>
      exact List.forall_mem_append.mpr ⟨whole.characters, scaled.characters⟩
  | negativeReal whole scaled =>
      exact List.forall_mem_cons.mpr
        ⟨rfl, List.forall_mem_append.mpr ⟨whole.characters, scaled.characters⟩⟩

/-- A number begins with a digit or a minus sign. -/
theorem Number.head (number : Number source v) :
    ∃ c tail, source = c :: tail ∧ (c = '-' ∨ c.isDigit = true) := by
  cases number with
  | natural whole =>
      obtain ⟨d, tail, same, digit⟩ := whole.head
      exact ⟨d, tail, same, Or.inr digit⟩
  | real whole =>
      obtain ⟨d, tail, rfl, digit⟩ := whole.head
      exact ⟨d, _, List.cons_append, Or.inr digit⟩
  | _ => exact ⟨'-', _, rfl, Or.inl rfl⟩

end CouponDesk.Json.Grammar
