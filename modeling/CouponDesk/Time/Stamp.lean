import CouponDesk.Text.Basic
import CouponDesk.Time.Instant

/-!
# Time stamps

The text of an instant.  It is written in one way: the date, a `T`, the time with three, six or
nine digits after the point or none, and a `Z`; a year outside four digits has a sign.  The
reader is lenient: it takes any offset below a day, white space around the numbers, and numbers
of fewer digits.
-/

set_option autoImplicit false

namespace CouponDesk.Stamp

/-! ## Writing -/

/-- A year: four digits, and a sign before a year that needs more or lies before the year zero. -/
def yearText (year : Int) : List Char :=
  if 0 ≤ year ∧ year ≤ 9999 then Numeral.padded 4 year.toNat
  else (if year < 0 then '-' else '+') :: Numeral.padded 4 year.natAbs

/-- A fraction of a second in the fewest groups of three digits. -/
def fractionText (nano : Nat) : List Char :=
  if nano = 0 then []
  else if nano % 1000000 = 0 then '.' :: Numeral.padded 3 (nano / 1000000)
  else if nano % 1000 = 0 then '.' :: Numeral.padded 6 (nano / 1000)
  else '.' :: Numeral.padded 9 nano

def write (r : Reading) : List Char :=
  let leap := r.nano / 1000000000
  yearText r.date.year ++ '-' :: Numeral.padded 2 r.date.month ++
    '-' :: Numeral.padded 2 r.date.day ++ 'T' :: Numeral.padded 2 (r.second / 3600) ++
    ':' :: Numeral.padded 2 (r.second / 60 % 60) ++
    ':' :: Numeral.padded 2 (r.second % 60 + leap) ++
    fractionText (r.nano % 1000000000) ++ ['Z']

/-! ## Reading -/

def number? (width : Nat) (cs : List Char) : Option (Nat × List Char) :=
  let digits := (cs.take width).takeWhile Char.isDigit
  if digits.isEmpty then none else some (Numeral.ofDigits digits, cs.drop digits.length)

def field? (limit : Nat) (cs : List Char) : Option (Nat × List Char) :=
  (number? 2 (Text.dropBlank cs)).filter fun (n, _) => n ≤ limit

def after? (separator : Char) (cs : List Char) : Option (List Char) :=
  match Text.dropBlank cs with
  | c :: rest => if c = separator then some rest else none
  | [] => none

/-- A year: up to four digits, or any number of them after a sign. -/
def year? (cs : List Char) : Option (Int × List Char) :=
  match Text.dropBlank cs with
  | '-' :: rest => (number? rest.length rest).map fun (n, rest) => (-n, rest)
  | '+' :: rest => (number? rest.length rest).map fun (n, rest) => (n, rest)
  | rest => (number? 4 rest).map fun (n, rest) => (n, rest)

/-- The nanoseconds of a fraction of a second, which may be missing.  Digits after the ninth are
dropped. -/
def nano? : List Char → Option (Nat × List Char)
  | '.' :: rest =>
      let digits := rest.takeWhile Char.isDigit
      if digits.isEmpty then none
      else
        let kept := digits.take 9
        some (Numeral.ofDigits kept * Nat.pow 10 (9 - kept.length), rest.dropWhile Char.isDigit)
  | rest => some (0, rest)

def twoDigits? : List Char → Option (Nat × List Char)
  | a :: b :: rest =>
      if a.isDigit && b.isDigit then some (Numeral.ofDigits [a, b], rest) else none
  | _ => none

/-- Hours and minutes of an offset, in seconds.  Colons and white space may stand between them. -/
def clock? (cs : List Char) : Option (Int × List Char) := do
  let (hours, rest) ← twoDigits? cs
  let (minutes, rest) ← twoDigits? (rest.dropWhile fun c => c = ':' || Text.isBlank c)
  let seconds : Nat := hours * 3600 + minutes * 60
  if minutes ≤ 59 ∧ seconds < 86400 then return (seconds, rest) else none

/-- An offset from universal time in seconds, and what follows it. -/
def offset? : List Char → Option (Int × List Char)
  | 'Z' :: rest | 'z' :: rest => some (0, rest)
  | '+' :: rest => clock? rest
  | '-' :: rest | '\u2212' :: rest => (clock? rest).map fun (seconds, rest) => (-seconds, rest)
  | a :: b :: c :: rest =>
      if [a, b, c].map Char.toUpper = ['U', 'T', 'C'] then some (0, rest) else none
  | _ => none

/-- A date and a time at the start of a text, and what follows them.  The sixty-first second of a
minute counts as a leap second. -/
def local? (cs : List Char) : Option (Reading × List Char) := do
  let (year, rest) ← year? cs
  let (month, rest) ← field? 12 (← after? '-' rest)
  let (day, rest) ← field? 31 (← after? '-' rest)
  let mark :: rest := rest | none
  if mark ≠ 'T' ∧ mark ≠ 't' ∧ mark ≠ ' ' then none
  let (hour, rest) ← field? 23 rest
  let (minute, rest) ← field? 59 (← after? ':' rest)
  let (second, rest) ← field? 60 (← after? ':' rest)
  let (nano, rest) ← nano? rest
  let leap := second / 60
  return (⟨⟨year, month, day⟩, hour * 3600 + minute * 60 + (second - leap),
    nano + leap * 1000000000⟩, rest)

/-- The reading in universal time that a text denotes, if it is one that a clock can show both
there and at the given offset. -/
def read? (cs : List Char) : Option Instant := do
  let (here, rest) ← local? cs
  let (offset, rest) ← offset? (Text.dropBlank rest)
  if here.Valid ∧ (Text.dropBlank rest).isEmpty then Instant.ofReading? (here.toUniversal offset)
  else none

end CouponDesk.Stamp

namespace CouponDesk.Instant

def text (t : Instant) : String := String.ofList (Stamp.write t.toReading)

def ofText? (text : String) : Option Instant := Stamp.read? text.toList

end CouponDesk.Instant
