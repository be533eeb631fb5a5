import CouponDesk.Proofs.Time.Calendar
import CouponDesk.Text.Basic

/-!
# The notation of time stamps

The relaxed RFC 3339 notation as rules that relate a text to the numbers written in it, and the
instant that these numbers name.  The value of a row of digits and the characters that count as
white space apart, nothing is shared with the reader or the writer.
-/

set_option autoImplicit false

namespace CouponDesk.Stamp

/-- What a clock shows: a date, a time, and the digits of a fraction of a second. -/
structure Face where
  date : Date
  hour : Nat
  minute : Nat
  second : Nat
  fraction : List Char

/-! ## What is written -/

namespace Grammar

def Blank (source : List Char) : Prop := ∀ c ∈ source, Text.isBlank c = true

structure Digits (source : List Char) (n : Nat) : Prop where
  nonempty : source ≠ []
  digits : ∀ c ∈ source, c.isDigit = true
  value : Numeral.ofDigits source = n

/-- A year: up to four digits, or any number of them after a sign. -/
inductive Year : List Char → Int → Prop
  | plain {source : List Char} {n : Nat} (digits : Digits source n) (few : source.length ≤ 4) :
      Year source n
  | positive {source : List Char} {n : Nat} (digits : Digits source n) : Year ('+' :: source) n
  | negative {source : List Char} {n : Nat} (digits : Digits source n) : Year ('-' :: source) (-n)

inductive Field : List Char → Nat → Prop
  | mk {blanks source : List Char} {n : Nat} (blank : Blank blanks) (digits : Digits source n)
      (few : source.length ≤ 2) : Field (blanks ++ source) n

inductive Separator (separator : Char) : List Char → Prop
  | mk {blanks : List Char} (blank : Blank blanks) : Separator separator (blanks ++ [separator])

inductive DateText : List Char → Date → Prop
  | mk {blanks year dash month dash' day : List Char} {date : Date} (blank : Blank blanks)
      (years : Year year date.year) (afterYear : Separator '-' dash)
      (months : Field month date.month) (afterMonth : Separator '-' dash')
      (days : Field day date.day) :
      DateText (blanks ++ (year ++ (dash ++ (month ++ (dash' ++ day))))) date

inductive Fraction : List Char → List Char → Prop
  | none : Fraction [] []
  | point {digits : List Char} (nonempty : digits ≠ []) (all : ∀ c ∈ digits, c.isDigit = true) :
      Fraction ('.' :: digits) digits

/-- Two digits for the hours and two for the minutes of an offset, as a number of seconds.  Colons
and white space may stand between them. -/
inductive Ahead : List Char → Int → Prop
  | mk {a b c d : Char} {gap : List Char} {hours minutes : Nat} (first : Digits [a, b] hours)
      (between : ∀ c ∈ gap, c = ':' ∨ Text.isBlank c = true) (second : Digits [c, d] minutes)
      (hourOfDay : hours ≤ 23) (minuteOfHour : minutes ≤ 59) :
      Ahead (a :: b :: (gap ++ [c, d])) (hours * 3600 + minutes * 60)

inductive Offset : List Char → Int → Prop
  | zulu {c : Char} (letter : c = 'Z' ∨ c = 'z') : Offset [c] 0
  | universal {source : List Char} (letters : source.map Char.toUpper = ['U', 'T', 'C']) :
      Offset source 0
  | ahead {source : List Char} {seconds : Int} (clock : Ahead source seconds) :
      Offset ('+' :: source) seconds
  | behind {sign : Char} (minus : sign = '-' ∨ sign = '\u2212') {source : List Char}
      {seconds : Int} (clock : Ahead source seconds) : Offset (sign :: source) (-seconds)

inductive Shown : List Char → Face → Prop
  | mk {date hour colon minute colon' second fraction : List Char} {mark : Char} {face : Face}
      (dates : DateText date face.date) (marks : mark = 'T' ∨ mark = 't' ∨ mark = ' ')
      (hours : Field hour face.hour) (afterHour : Separator ':' colon)
      (minutes : Field minute face.minute) (afterMinute : Separator ':' colon')
      (seconds : Field second face.second) (fractions : Fraction fraction face.fraction) :
      Shown (date ++ mark :: (hour ++ (colon ++ (minute ++ (colon' ++ (second ++ fraction)))))) face

/-- A whole time stamp: what a clock shows, and how many seconds it is ahead of universal time. -/
inductive Written : List Char → Face → Int → Prop
  | mk {source gap offset blanks : List Char} {face : Face} {seconds : Int}
      (shown : Shown source face) (before : Blank gap) (offsets : Offset offset seconds)
      (after : Blank blanks) : Written (source ++ (gap ++ (offset ++ blanks))) face seconds

end Grammar

/-! ## What it means -/

/-- The instant at which a clock that is some seconds ahead of universal time shows a face.  It must
be one that the clock can show.  The seconds are counted in universal time, where the sixty-first
second of a minute has the number of the sixtieth and is told apart by the nanoseconds.  These are
the fraction of the second, whatever number of digits it has, cut off after the ninth. -/
structure Face.Names (face : Face) (offset : Int) (t : Instant) : Prop where
  date : face.date.Exists
  year : -262143 ≤ face.date.year ∧ face.date.year ≤ 262142
  hour : face.hour ≤ 23
  minute : face.minute ≤ 59
  second : face.second ≤ 60
  elapsed : t.elapsed =
    face.date.number * 86400 + face.hour * 3600 + face.minute * 60 + min face.second 59 - offset
  nano : t.nano = Numeral.ofDigits face.fraction * 1000000000 / 10 ^ face.fraction.length +
    if face.second = 60 then 1000000000 else 0

/-- A text is a time stamp that names an instant. -/
def Denotes (text : String) (t : Instant) : Prop :=
  ∃ (face : Face) (offset : Int), Grammar.Written text.toList face offset ∧ face.Names offset t

end CouponDesk.Stamp

namespace CouponDesk.Instant

variable {t u : Instant}

/-- An instant is known by its seconds and its nanoseconds. -/
theorem eq_of_elapsed (elapsed : t.elapsed = u.elapsed) (nano : t.nano = u.nano) : t = u := by
  obtain ⟨dateT, -, -, fitsT, -⟩ := t.valid
  obtain ⟨dateU, -, -, fitsU, -⟩ := u.valid
  have same : t.toReading = u.toReading :=
    Reading.elapsed_inj dateT dateU fitsT fitsU elapsed nano
  cases t
  cases u
  cases same
  rfl

end CouponDesk.Instant

namespace CouponDesk.Stamp

/-- No two instants are named alike. -/
theorem Face.Names.unique {face : Face} {offset : Int} {t u : Instant}
    (names : face.Names offset t) (other : face.Names offset u) : t = u :=
  Instant.eq_of_elapsed (names.elapsed.trans other.elapsed.symm)
    (names.nano.trans other.nano.symm)

end CouponDesk.Stamp
