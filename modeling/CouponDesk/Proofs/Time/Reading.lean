import CouponDesk.Proofs.Text.Numerals
import CouponDesk.Proofs.Text.Scanning
import CouponDesk.Proofs.Time.Notation
import CouponDesk.Time.Stamp

/-!
# Reading time stamps

The reader of time stamps accepts exactly the texts of the notation whose clock reading exists, and
returns the instant that they name: `ofText?_eq_some_iff`.  For each piece of the notation, what a
reader takes is such a piece, and such a piece is taken whole where the text does not go on with
more of it.
-/

set_option autoImplicit false

namespace CouponDesk.Stamp.Grammar

variable {cs rest source blanks : List Char} {width limit n : Nat} {separator : Char}
  {seconds : Int}

/-! ## White space -/

theorem exists_blank (cs : List Char) :
    ∃ blanks, cs = blanks ++ Text.dropBlank cs ∧ Blank blanks :=
  ⟨cs.takeWhile Text.isBlank, List.takeWhile_append_dropWhile.symm,
    fun _ => List.mem_takeWhile_imp⟩

theorem dropBlank_run (blank : Blank blanks) (stops : Text.Stops Text.isBlank rest) :
    Text.dropBlank (blanks ++ rest) = rest :=
  Text.dropWhile_run blank stops

theorem isBlank_of_isDigit {c : Char} (digit : c.isDigit = true) : Text.isBlank c = false := by
  obtain ⟨low, high⟩ := Numeral.isDigit_iff.mp digit
  simp only [Text.isBlank, Text.blankRanges, List.any_cons, List.any_nil]
  simp
  omega

theorem isDigit_of_isBlank {c : Char} (blank : Text.isBlank c = true) : c.isDigit = false := by
  by_contra digit
  rw [isBlank_of_isDigit (by simpa using digit)] at blank
  cases blank

/-! ## Numbers -/

theorem Digits.stops (digits : Digits source n) : Text.Stops Text.isBlank (source ++ rest) := by
  obtain ⟨c, tail, rfl⟩ := List.exists_cons_of_ne_nil digits.nonempty
  exact Text.stops_cons.mpr (isBlank_of_isDigit (digits.digits c List.mem_cons_self))

theorem number?_sound (read : number? width cs = some (n, rest)) :
    ∃ source, cs = source ++ rest ∧ Digits source n ∧ source.length ≤ width := by
  simp only [number?, List.isEmpty_iff] at read
  split_ifs at read with empty
  obtain ⟨value, after⟩ := Prod.mk.inj (Option.some.inj read)
  have front := (List.takeWhile_prefix Char.isDigit).trans (List.take_prefix width cs)
  have short := (List.takeWhile_prefix Char.isDigit (l := cs.take width)).length_le
  refine ⟨_, ?_, ⟨empty, fun c => List.mem_takeWhile_imp, value⟩, ?_⟩
  · rw [← after, List.prefix_iff_eq_append.mp front]
  · exact short.trans (List.length_take_le _ _)

theorem number?_digits (digits : Digits source n) (few : source.length ≤ width)
    (stops : Text.Stops Char.isDigit rest) :
    number? width (source ++ rest) = some (n, rest) := by
  have later : Text.Stops Char.isDigit (rest.take (width - source.length)) := by
    intro c first
    cases rest with
    | nil => simp at first
    | cons d rest =>
        cases count : width - source.length with
        | zero => simp [count] at first
        | succ k =>
            obtain rfl : d = c := by simpa [count] using first
            exact Text.stops_cons.mp stops
  have taken : ((source ++ rest).take width).takeWhile Char.isDigit = source := by
    rw [List.take_append, List.take_of_length_le few]
    exact Text.takeWhile_run digits.digits later
  have some : source.isEmpty = false := by simpa using digits.nonempty
  simp only [number?, taken, some, Bool.false_eq_true, if_false, digits.value, List.drop_left]

theorem field?_sound (read : field? limit cs = some (n, rest)) :
    ∃ source, cs = source ++ rest ∧ Field source n ∧ n ≤ limit := by
  obtain ⟨number, fits⟩ := Option.filter_eq_some_iff.mp read
  obtain ⟨source, after, digits, few⟩ := number?_sound number
  obtain ⟨blanks, before, blank⟩ := exists_blank cs
  refine ⟨blanks ++ source, ?_, .mk blank digits few, by simpa using fits⟩
  rw [before, after, List.append_assoc]

theorem field?_field (field : Field source n) (fits : n ≤ limit)
    (stops : Text.Stops Char.isDigit rest) :
    field? limit (source ++ rest) = some (n, rest) := by
  obtain ⟨blank, digits, few⟩ := field
  rw [field?, List.append_assoc, dropBlank_run blank digits.stops,
    number?_digits digits few stops, Option.filter_some, if_pos (by simpa using fits)]

theorem after?_sound (read : after? separator cs = some rest) :
    ∃ source, cs = source ++ rest ∧ Separator separator source := by
  obtain ⟨blanks, before, blank⟩ := exists_blank cs
  unfold after? at read
  split at read
  next c tail found =>
    split_ifs at read with same
    obtain rfl := Option.some.inj read
    refine ⟨blanks ++ [separator], ?_, .mk blank⟩
    rw [before, found, same, List.append_assoc, List.singleton_append]
  next => cases read

theorem after?_separator (written : Separator separator source)
    (visible : Text.isBlank separator = false) : after? separator (source ++ rest) = some rest := by
  obtain ⟨blank⟩ := written
  rw [after?, List.append_assoc, List.singleton_append,
    dropBlank_run blank (Text.stops_cons.mpr visible)]
  simp

/-- A separator ends a row of digits, and so does white space before it. -/
theorem Separator.stops (written : Separator separator source)
    (other : separator.isDigit = false) : Text.Stops Char.isDigit (source ++ rest) := by
  obtain ⟨blank⟩ := written
  rw [List.append_assoc]
  refine Text.stops_run (fun c member => isDigit_of_isBlank (blank c member)) ?_
  exact Text.stops_cons.mpr other

theorem map_number?_sound {f : Nat → Int} {year : Int}
    (read : (number? width cs).map (fun (n, rest) => (f n, rest)) = some (year, rest)) :
    ∃ source n, cs = source ++ rest ∧ Digits source n ∧ source.length ≤ width ∧ year = f n := by
  obtain ⟨⟨n, after⟩, number, same⟩ := Option.map_eq_some_iff.mp read
  obtain ⟨rfl, rfl⟩ := Prod.mk.inj same
  obtain ⟨source, written, digits, few⟩ := number?_sound number
  exact ⟨source, n, written, digits, few, rfl⟩

theorem year?_sound {year : Int} (read : year? cs = some (year, rest)) :
    ∃ blanks source, cs = blanks ++ (source ++ rest) ∧ Blank blanks ∧ Year source year := by
  obtain ⟨blanks, before, blank⟩ := exists_blank cs
  unfold year? at read
  split at read
  next tail found =>
    obtain ⟨source, n, rfl, digits, -, rfl⟩ := map_number?_sound (f := fun n => -n) read
    exact ⟨blanks, '-' :: source, by rw [before, found]; rfl, blank, .negative digits⟩
  next tail found =>
    obtain ⟨source, n, rfl, digits, -, rfl⟩ := map_number?_sound (f := fun n => n) read
    exact ⟨blanks, '+' :: source, by rw [before, found]; rfl, blank, .positive digits⟩
  next =>
    obtain ⟨source, n, found, digits, few, rfl⟩ := map_number?_sound (f := fun n => n) read
    exact ⟨blanks, source, by rw [before, found], blank, .plain digits few⟩

theorem year?_year {year : Int} (blank : Blank blanks) (written : Year source year)
    (stops : Text.Stops Char.isDigit rest) :
    year? (blanks ++ (source ++ rest)) = some (year, rest) := by
  cases written with
  | @positive source n digits =>
      have few : source.length ≤ (source ++ rest).length := by simp
      have read := number?_digits digits few stops
      have visible : Text.isBlank '+' = false := by decide
      rw [year?, List.cons_append, dropBlank_run blank (Text.stops_cons.mpr visible)]
      simp only [read, Option.map_some]
  | @negative source n digits =>
      have few : source.length ≤ (source ++ rest).length := by simp
      have read := number?_digits digits few stops
      have visible : Text.isBlank '-' = false := by decide
      rw [year?, List.cons_append, dropBlank_run blank (Text.stops_cons.mpr visible)]
      simp only [read, Option.map_some]
  | plain digits few =>
      have read := number?_digits digits few stops
      obtain ⟨c, tail, rfl⟩ := List.exists_cons_of_ne_nil digits.nonempty
      have digit := digits.digits c List.mem_cons_self
      rw [year?, dropBlank_run blank digits.stops]
      split
      next found =>
        obtain rfl := (List.cons.inj found).1
        cases digit
      next found =>
        obtain rfl := (List.cons.inj found).1
        cases digit
      next => simp only [read, Option.map_some]

/-! ## Fractions of a second -/

theorem cut_fraction {digits : List Char} (all : ∀ c ∈ digits, c.isDigit = true) :
    Numeral.ofDigits (digits.take 9) * Nat.pow 10 (9 - (digits.take 9).length) =
      Numeral.ofDigits digits * 1000000000 / 10 ^ digits.length := by
  rcases Nat.lt_or_ge digits.length 9 with short | long
  · have billion : 1000000000 = 10 ^ (9 - digits.length) * 10 ^ digits.length := by
      rw [← pow_add, Nat.sub_add_cancel short.le]
      rfl
    rw [List.take_of_length_le short.le, billion, ← Nat.mul_assoc,
      Nat.mul_div_cancel _ (Nat.pow_pos (by decide))]
    rfl
  · have kept : (digits.take 9).length = 9 := by rw [List.length_take, Nat.min_eq_left long]
    have dropped : Numeral.ofDigits (digits.drop 9) < 10 ^ (digits.drop 9).length :=
      Numeral.ofDigits_lt fun c member => all c (List.mem_of_mem_drop member)
    have whole : Numeral.ofDigits digits =
        Numeral.ofDigits (digits.take 9) * 10 ^ (digits.drop 9).length +
          Numeral.ofDigits (digits.drop 9) := by
      rw [← Numeral.ofDigits_append, List.take_append_drop]
    have size : 10 ^ digits.length = 10 ^ (digits.drop 9).length * 1000000000 := by
      rw [List.length_drop, show (1000000000 : Nat) = 10 ^ 9 from rfl, ← pow_add,
        Nat.sub_add_cancel long]
    rw [kept, size, Nat.mul_div_mul_right _ _ (by decide), whole, Nat.add_comm,
      Nat.add_mul_div_right _ _ (Nat.pow_pos (by decide)), Nat.div_eq_of_lt dropped]
    simp

theorem fraction_lt {digits : List Char} (all : ∀ c ∈ digits, c.isDigit = true) :
    Numeral.ofDigits digits * 1000000000 / 10 ^ digits.length < 1000000000 := by
  rw [Nat.div_lt_iff_lt_mul (Nat.pow_pos (by decide)), Nat.mul_comm]
  exact Nat.mul_lt_mul_of_pos_left (Numeral.ofDigits_lt all) (by decide)

theorem Fraction.all {digits : List Char} (written : Fraction source digits) :
    ∀ c ∈ digits, c.isDigit = true := by
  cases written with
  | none => simp
  | point _ all => exact all

theorem nano?_sound (read : nano? cs = some (n, rest)) :
    ∃ source digits, cs = source ++ rest ∧ Fraction source digits ∧
      n = Numeral.ofDigits digits * 1000000000 / 10 ^ digits.length := by
  unfold nano? at read
  split at read
  next tail =>
    simp only [List.isEmpty_iff] at read
    split_ifs at read with empty
    obtain ⟨rfl, rfl⟩ := Prod.mk.inj (Option.some.inj read)
    have all : ∀ c ∈ tail.takeWhile Char.isDigit, c.isDigit = true :=
      fun c => List.mem_takeWhile_imp
    refine ⟨'.' :: tail.takeWhile Char.isDigit, _, ?_, .point empty all, cut_fraction all⟩
    rw [List.cons_append, List.takeWhile_append_dropWhile]
  next =>
    obtain ⟨rfl, rfl⟩ := Prod.mk.inj (Option.some.inj read)
    exact ⟨[], [], rfl, .none, rfl⟩

def isFractional (c : Char) : Bool := c.isDigit || c = '.'

theorem stops_of_isFractional (stops : Text.Stops isFractional rest) :
    Text.Stops Char.isDigit rest := by
  intro c first
  have other := stops c first
  simp only [isFractional, Bool.or_eq_false_iff] at other
  exact other.1

theorem isFractional_of_isBlank {c : Char} (blank : Text.isBlank c = true) :
    isFractional c = false := by
  have point : c ≠ '.' := by
    rintro rfl
    revert blank
    decide
  simp [isFractional, isDigit_of_isBlank blank, point]

theorem nano?_fraction {digits : List Char} (written : Fraction source digits)
    (stops : Text.Stops isFractional rest) :
    nano? (source ++ rest) =
      some (Numeral.ofDigits digits * 1000000000 / 10 ^ digits.length, rest) := by
  cases written with
  | none =>
      rw [List.nil_append, nano?]
      · rfl
      · rintro tail rfl
        exact absurd (Text.stops_cons.mp stops) (by decide)
  | point nonempty all =>
      have ends := stops_of_isFractional stops
      have some : digits.isEmpty = false := by simpa using nonempty
      simp only [List.cons_append, nano?, Text.takeWhile_run all ends, Text.dropWhile_run all ends,
        some, Bool.false_eq_true, if_false, cut_fraction all]

theorem Fraction.stops {digits : List Char} (written : Fraction source digits)
    (stops : Text.Stops Char.isDigit rest) : Text.Stops Char.isDigit (source ++ rest) := by
  cases written with
  | none => exact stops
  | point => exact Text.stops_cons.mpr (by decide)

/-! ## Offsets -/

theorem twoDigits?_sound (read : twoDigits? cs = some (n, rest)) :
    ∃ a b, cs = a :: b :: rest ∧ Digits [a, b] n := by
  unfold twoDigits? at read
  split at read
  next a b tail =>
    split_ifs at read with digits
    obtain ⟨rfl, rfl⟩ := Prod.mk.inj (Option.some.inj read)
    rw [Bool.and_eq_true] at digits
    exact ⟨a, b, rfl, by simp, by simpa using digits, rfl⟩
  next => cases read

theorem twoDigits?_digits {a b : Char} (digits : Digits [a, b] n) (rest : List Char) :
    twoDigits? (a :: b :: rest) = some (n, rest) := by
  have both : (a.isDigit && b.isDigit) = true := by simpa using digits.digits
  rw [twoDigits?, if_pos both, digits.value]

theorem clock?_sound (read : clock? cs = some (seconds, rest)) :
    ∃ source, cs = source ++ rest ∧ Ahead source seconds := by
  simp only [clock?, Option.bind_eq_bind, Option.bind_eq_some_iff] at read
  obtain ⟨⟨hours, tail⟩, first, ⟨minutes, tail'⟩, second, read⟩ := read
  split_ifs at read with limits
  obtain ⟨rfl, rfl⟩ := Prod.mk.inj (Option.some.inj read)
  obtain ⟨a, b, rfl, hourDigits⟩ := twoDigits?_sound first
  obtain ⟨c, d, found, minuteDigits⟩ := twoDigits?_sound second
  have between : ∀ x ∈ tail.takeWhile (fun x => x = ':' || Text.isBlank x),
      x = ':' ∨ Text.isBlank x = true := by
    intro x member
    simpa using List.mem_takeWhile_imp member
  have parts : tail.takeWhile (fun x => x = ':' || Text.isBlank x) ++ c :: d :: tail' = tail := by
    rw [← found, List.takeWhile_append_dropWhile]
  refine ⟨a :: b :: (tail.takeWhile (fun x => x = ':' || Text.isBlank x) ++ [c, d]), ?_, ?_⟩
  · simp only [List.cons_append, List.append_assoc, List.nil_append, parts]
  · simpa using Ahead.mk hourDigits between minuteDigits (by omega) limits.1

theorem clock?_ahead (written : Ahead source seconds) (rest : List Char) :
    clock? (source ++ rest) = some (seconds, rest) := by
  obtain @⟨a, b, c, d, gap, hours, minutes, first, between, second, hourOfDay, minuteOfHour⟩ :=
    written
  have digit : c.isDigit = true := second.digits c List.mem_cons_self
  have colon : c ≠ ':' := by
    rintro rfl
    cases digit
  have stops : Text.Stops (fun x => x = ':' || Text.isBlank x) (c :: d :: rest) :=
    Text.stops_cons.mpr (by simp [colon, isBlank_of_isDigit digit])
  have dropped := Text.dropWhile_run (p := fun x => x = ':' || Text.isBlank x)
    (fun x member => by simpa using between x member) stops
  have hourRead := twoDigits?_digits first (gap ++ c :: d :: rest)
  have minuteRead := twoDigits?_digits second rest
  have limits : minutes ≤ 59 ∧ hours * 3600 + minutes * 60 < 86400 := ⟨minuteOfHour, by omega⟩
  simp [clock?, hourRead, dropped, minuteRead, limits]

theorem offset?_sound (read : offset? cs = some (seconds, rest)) :
    ∃ source, cs = source ++ rest ∧ Offset source seconds := by
  unfold offset? at read
  split at read
  next =>
    obtain ⟨rfl, rfl⟩ := Prod.mk.inj (Option.some.inj read)
    exact ⟨['Z'], rfl, .zulu (Or.inl rfl)⟩
  next =>
    obtain ⟨rfl, rfl⟩ := Prod.mk.inj (Option.some.inj read)
    exact ⟨['z'], rfl, .zulu (Or.inr rfl)⟩
  next =>
    obtain ⟨source, rfl, ahead⟩ := clock?_sound read
    exact ⟨'+' :: source, rfl, .ahead ahead⟩
  next =>
    obtain ⟨⟨n, tail⟩, clock, same⟩ := Option.map_eq_some_iff.mp read
    obtain ⟨rfl, rfl⟩ := Prod.mk.inj same
    obtain ⟨source, rfl, ahead⟩ := clock?_sound clock
    exact ⟨'-' :: source, rfl, .behind (Or.inl rfl) ahead⟩
  next =>
    obtain ⟨⟨n, tail⟩, clock, same⟩ := Option.map_eq_some_iff.mp read
    obtain ⟨rfl, rfl⟩ := Prod.mk.inj same
    obtain ⟨source, rfl, ahead⟩ := clock?_sound clock
    exact ⟨'\u2212' :: source, rfl, .behind (Or.inr rfl) ahead⟩
  next a b c tail _ _ _ _ _ =>
    split_ifs at read with letters
    obtain ⟨rfl, rfl⟩ := Prod.mk.inj (Option.some.inj read)
    exact ⟨[a, b, c], rfl, .universal letters⟩
  next => cases read

theorem offset?_offset (written : Offset source seconds) (rest : List Char) :
    offset? (source ++ rest) = some (seconds, rest) := by
  cases written with
  | zulu letter => rcases letter with rfl | rfl <;> rfl
  | ahead clock =>
      rw [List.cons_append, offset?, clock?_ahead clock]
  | behind minus clock =>
      rcases minus with rfl | rfl <;>
        rw [List.cons_append, offset?, clock?_ahead clock, Option.map_some]
  | universal letters =>
      obtain ⟨a, tail, rfl, first, letters⟩ := List.map_eq_cons_iff.mp letters
      obtain ⟨b, tail, rfl, second, letters⟩ := List.map_eq_cons_iff.mp letters
      obtain ⟨c, tail, rfl, third, letters⟩ := List.map_eq_cons_iff.mp letters
      obtain rfl := List.map_eq_nil_iff.mp letters
      have other (d : Char) (apart : d.toUpper ≠ 'U') : a ≠ d := by
        rintro rfl
        exact apart first
      rw [List.cons_append, List.cons_append, List.cons_append, List.nil_append, offset?]
      · simp [first, second, third]
      · exact other 'Z' (by decide)
      · exact other 'z' (by decide)
      · exact other '+' (by decide)
      · exact other '-' (by decide)
      · exact other '\u2212' (by decide)

theorem Ahead.bounds (written : Ahead source seconds) : 0 ≤ seconds ∧ seconds < 86400 := by
  obtain ⟨-, -, -, hourOfDay, minuteOfHour⟩ := written
  omega

theorem Offset.nearBy (written : Offset source seconds) : Reading.NearBy seconds := by
  unfold Reading.NearBy
  cases written with
  | zulu => omega
  | universal => omega
  | ahead clock =>
      have bounds := clock.bounds
      omega
  | behind _ clock =>
      have bounds := clock.bounds
      omega

theorem eq_of_toUpper {c : Char} (upper : c.toUpper = 'U') : c = 'U' ∨ c = 'u' := by
  unfold Char.toUpper at upper
  split at upper
  next =>
    have shifted := congrArg Char.val upper
    simp only at shifted
    refine Or.inr (Char.ext ?_)
    calc c.val = c.val + ('A'.val - 'a'.val) - ('A'.val - 'a'.val) :=
          (UInt32.add_sub_cancel _ _).symm
      _ = 'U'.val - ('A'.val - 'a'.val) := by rw [shifted]
      _ = 'u'.val := by decide
  next => exact Or.inl upper

theorem Offset.head (written : Offset source seconds) :
    ∃ c tail, source = c :: tail ∧ c ∈ ['Z', 'z', '+', '-', '\u2212', 'U', 'u'] := by
  cases written with
  | zulu letter => rcases letter with rfl | rfl <;> exact ⟨_, _, rfl, by simp⟩
  | ahead => exact ⟨_, _, rfl, by simp⟩
  | behind minus => rcases minus with rfl | rfl <;> exact ⟨_, _, rfl, by simp⟩
  | universal letters =>
      obtain ⟨a, tail, rfl, first, -⟩ := List.map_eq_cons_iff.mp letters
      rcases eq_of_toUpper first with rfl | rfl <;> exact ⟨_, _, rfl, by simp⟩

/-- An offset is neither taken for white space nor for more digits of the second. -/
theorem Offset.stops (written : Offset source seconds) (rest : List Char) :
    Text.Stops Text.isBlank (source ++ rest) ∧ Text.Stops isFractional (source ++ rest) := by
  obtain ⟨c, tail, rfl, first⟩ := written.head
  have other : ['Z', 'z', '+', '-', '\u2212', 'U', 'u'].all
      (fun c => !Text.isBlank c && !isFractional c) = true := by decide
  have both := List.all_eq_true.mp other c first
  simpa using both

end CouponDesk.Stamp.Grammar

/-! ## Whole time stamps -/

namespace CouponDesk.Stamp

structure Face.OnClock (face : Face) : Prop where
  hour : face.hour ≤ 23
  minute : face.minute ≤ 59
  second : face.second ≤ 60

def Face.reading (face : Face) : Reading :=
  ⟨face.date, face.hour * 3600 + face.minute * 60 + (face.second - face.second / 60),
    Numeral.ofDigits face.fraction * 1000000000 / 10 ^ face.fraction.length +
      face.second / 60 * 1000000000⟩

namespace Grammar

variable {cs rest source : List Char} {date : Date} {face : Face}

theorem local?_sound {here : Reading} (read : local? cs = some (here, rest)) :
    ∃ source face, cs = source ++ rest ∧ Shown source face ∧ face.OnClock ∧
      here = face.reading := by
  simp only [Stamp.local?, Option.bind_eq_bind, Option.bind_eq_some_iff] at read
  obtain ⟨⟨year, _⟩, yearRead, _, dashRead, ⟨month, _⟩, monthRead, _, dashRead', ⟨day, afterDay⟩,
    dayRead, read⟩ := read
  obtain ⟨blanks, _, rfl, blank, years⟩ := year?_sound yearRead
  obtain ⟨_, rfl, dash⟩ := after?_sound dashRead
  obtain ⟨_, rfl, months, -⟩ := field?_sound monthRead
  obtain ⟨_, rfl, dash'⟩ := after?_sound dashRead'
  obtain ⟨_, rfl, days, -⟩ := field?_sound dayRead
  have dates : DateText _ ⟨year, month, day⟩ := .mk blank years dash months dash' days
  cases afterDay with
  | nil => cases read
  | cons mark afterMark =>
      simp only at read
      split_ifs at read with wrong
      · cases read
      simp only [Option.bind_eq_some_iff] at read
      obtain ⟨⟨hour, _⟩, hourRead, _, colonRead, ⟨minute, _⟩, minuteRead, _, colonRead',
        ⟨second, _⟩, secondRead, ⟨nano, _⟩, nanoRead, same⟩ := read
      obtain ⟨_, rfl, hours, hourFits⟩ := field?_sound hourRead
      obtain ⟨_, rfl, colon⟩ := after?_sound colonRead
      obtain ⟨_, rfl, minutes, minuteFits⟩ := field?_sound minuteRead
      obtain ⟨_, rfl, colon'⟩ := after?_sound colonRead'
      obtain ⟨_, rfl, seconds, secondFits⟩ := field?_sound secondRead
      obtain ⟨_, digits, rfl, fractions, rfl⟩ := nano?_sound nanoRead
      obtain ⟨rfl, rfl⟩ := Prod.mk.inj (Option.some.inj same)
      have marks : mark = 'T' ∨ mark = 't' ∨ mark = ' ' := by tauto
      have shown : Shown _ ⟨⟨year, month, day⟩, hour, minute, second, digits⟩ :=
        .mk dates marks hours colon minutes colon' seconds fractions
      exact ⟨_, _, by simp, shown, ⟨hourFits, minuteFits, secondFits⟩, rfl⟩

theorem local?_shown (shown : Shown source face) (onClock : face.OnClock)
    (month : face.date.month ≤ 12) (day : face.date.day ≤ 31)
    (stops : Text.Stops isFractional rest) :
    local? (source ++ rest) = some (face.reading, rest) := by
  obtain ⟨dates, marks, hours, colon, minutes, colon', seconds, fractions⟩ := shown
  obtain ⟨blank, years, dash, months, dash', days⟩ := dates
  have wrong (mark : Char) (marks : mark = 'T' ∨ mark = 't' ∨ mark = ' ') :
      ¬ (mark ≠ 'T' ∧ mark ≠ 't' ∧ mark ≠ ' ') := by tauto
  have digitStops (mark : Char) (marks : mark = 'T' ∨ mark = 't' ∨ mark = ' ') (tail : List Char) :
      Text.Stops Char.isDigit (mark :: tail) := by
    rcases marks with rfl | rfl | rfl <;> exact Text.stops_cons.mpr (by decide)
  simp only [local?, List.append_assoc, List.cons_append, Option.bind_eq_bind,
    year?_year blank years (dash.stops (by decide)), after?_separator dash (by decide),
    field?_field months month (dash'.stops (by decide)), after?_separator dash' (by decide),
    field?_field days day (digitStops _ marks _), Option.bind_some, if_neg (wrong _ marks),
    field?_field hours onClock.hour (colon.stops (by decide)),
    after?_separator colon (by decide),
    field?_field minutes onClock.minute (colon'.stops (by decide)),
    after?_separator colon' (by decide),
    field?_field seconds onClock.second (fractions.stops (stops_of_isFractional stops)),
    nano?_fraction fractions stops]
  rfl

theorem Shown.digits (shown : Shown source face) : ∀ c ∈ face.fraction, c.isDigit = true := by
  obtain ⟨-, -, -, -, -, -, -, fractions⟩ := shown
  exact fractions.all

end Grammar

variable {face : Face} {offset : Int} {t : Instant}

/-- A clock that shows a time has a reading if it can show the date. -/
theorem Face.valid_reading (onClock : face.OnClock)
    (digits : ∀ c ∈ face.fraction, c.isDigit = true) :
    face.reading.Valid ↔
      face.date.Exists ∧ -262143 ≤ face.date.year ∧ face.date.year ≤ 262142 := by
  have fraction := Grammar.fraction_lt digits
  obtain ⟨hour, minute, second⟩ := onClock
  constructor
  · exact fun valid => ⟨valid.1, valid.2.1, valid.2.2.1⟩
  · rintro ⟨date, low, high⟩
    rcases Nat.lt_or_ge face.second 60 with plain | leap
    · have none : face.second / 60 = 0 := Nat.div_eq_of_lt plain
      refine ⟨date, low, high, ?_, ?_, ?_⟩ <;> simp only [reading, none] <;> omega
    · have last : face.second = 60 := Nat.le_antisymm second leap
      refine ⟨date, low, high, ?_, ?_, ?_⟩ <;> simp only [reading, last] <;> omega

/-- An instant is named by what a clock shows if the clock has a reading, and the reading in
universal time is that of the instant. -/
theorem Face.names_iff (onClock : face.OnClock)
    (digits : ∀ c ∈ face.fraction, c.isDigit = true) (near : Reading.NearBy offset) :
    face.Names offset t ↔
      face.reading.Valid ∧ face.reading.toUniversal offset = t.toReading := by
  have valid := face.valid_reading onClock digits
  have elapsed : face.reading.elapsed =
      face.date.number * 86400 + face.hour * 3600 + face.minute * 60 + min face.second 59 := by
    have second := onClock.second
    unfold Reading.elapsed reading
    simp only
    omega
  have nano : face.reading.nano =
      Numeral.ofDigits face.fraction * 1000000000 / 10 ^ face.fraction.length +
        if face.second = 60 then 1000000000 else 0 := by
    have second := onClock.second
    unfold reading
    split_ifs <;> simp only <;> omega
  constructor
  · intro names
    have shown := valid.mpr ⟨names.date, names.year⟩
    refine ⟨shown, Reading.elapsed_inj (Reading.date_toUniversal names.date) t.valid.1
      (Reading.second_toUniversal shown.2.2.2.1 near) t.valid.2.2.2.1 ?_ ?_⟩
    · rw [Reading.elapsed_toUniversal names.date shown.2.2.2.1 near, elapsed, names.elapsed]
    · rw [Reading.nano_toUniversal, nano, names.nano]
  · rintro ⟨shown, same⟩
    obtain ⟨date, year⟩ := valid.mp shown
    refine ⟨date, year, onClock.hour, onClock.minute, onClock.second, ?_, ?_⟩
    · rw [← same, Reading.elapsed_toUniversal date shown.2.2.2.1 near, elapsed]
    · rw [← same, Reading.nano_toUniversal, nano]

theorem ofReading?_eq_some_iff {r : Reading} :
    Instant.ofReading? r = some t ↔ r = t.toReading := by
  unfold Instant.ofReading?
  split_ifs with valid
  · rw [Option.some.injEq]
    refine ⟨fun same => same ▸ rfl, ?_⟩
    rintro rfl
    rfl
  · refine ⟨nofun, ?_⟩
    rintro rfl
    exact absurd t.valid valid

theorem read?_eq_some_iff {cs : List Char} :
    read? cs = some t ↔ ∃ face offset, Grammar.Written cs face offset ∧ face.Names offset t := by
  constructor
  · intro read
    simp only [read?, Option.bind_eq_bind, Option.bind_eq_some_iff] at read
    obtain ⟨⟨here, afterClock⟩, clockRead, ⟨offset, afterOffset⟩, offsetRead, read⟩ := read
    split_ifs at read with fits
    obtain ⟨source, face, rfl, shown, onClock, rfl⟩ := Grammar.local?_sound clockRead
    obtain ⟨gap, gapEnds, before⟩ := Grammar.exists_blank afterClock
    obtain ⟨written, offsetEnds, offsets⟩ := Grammar.offset?_sound offsetRead
    obtain ⟨blanks, textEnds, after⟩ := Grammar.exists_blank afterOffset
    rw [List.isEmpty_iff.mp fits.2, List.append_nil] at textEnds
    simp only at offsetEnds
    rw [gapEnds, offsetEnds, textEnds]
    exact ⟨face, offset, .mk shown before offsets after,
      (face.names_iff onClock shown.digits offsets.nearBy).mpr
        ⟨fits.1, ofReading?_eq_some_iff.mp read⟩⟩
  · rintro ⟨face, offset, written, names⟩
    obtain @⟨source, gap, written, blanks, _, _, shown, before, offsets, after⟩ := written
    have onClock : face.OnClock := ⟨names.hour, names.minute, names.second⟩
    obtain ⟨valid, same⟩ := (face.names_iff onClock shown.digits offsets.nearBy).mp names
    have day := Nat.le_trans names.date.2 (Date.daysInMonth_le _ _)
    obtain ⟨visible, other⟩ := offsets.stops blanks
    have clockEnds := Text.stops_run
      (fun c member => Grammar.isFractional_of_isBlank (before c member)) other
    have clockRead := Grammar.local?_shown shown onClock names.date.month_le.2 day clockEnds
    have offsetRead := Grammar.offset?_offset offsets blanks
    have textEnds := Grammar.dropBlank_run after Text.stops_nil
    rw [List.append_nil] at textEnds
    simp [read?, clockRead, Grammar.dropBlank_run before visible, offsetRead, textEnds,
      valid, same, ofReading?_eq_some_iff]

/-- The texts that are read as an instant are those of the notation that name it. -/
theorem ofText?_eq_some_iff {text : String} : Instant.ofText? text = some t ↔ Denotes text t :=
  read?_eq_some_iff

end CouponDesk.Stamp
