/-!
# Instants

The Gregorian calendar, and points in universal time, exact to the nanosecond.  Years are counted
through zero, so the year before the year zero is minus one.  A leap second is the sixty-first
second of a minute; it has the number of the second before it and counts its nanoseconds on past
one second.
-/

set_option autoImplicit false

namespace CouponDesk

/-! ## Dates -/

/-- A year, a month and a day, which need not exist. -/
structure Date where
  year : Int
  month : Nat
  day : Nat
deriving DecidableEq, Repr

namespace Date

def isLeap (year : Int) : Bool := year % 4 = 0 && (year % 100 ≠ 0 || year % 400 = 0)

def daysInMonth (year : Int) (month : Nat) : Nat :=
  match month with
  | 1 | 3 | 5 | 7 | 8 | 10 | 12 => 31
  | 4 | 6 | 9 | 11 => 30
  | 2 => if isLeap year then 29 else 28
  | _ => 0

def Exists (d : Date) : Prop := 1 ≤ d.day ∧ d.day ≤ daysInMonth d.year d.month

instance (d : Date) : Decidable d.Exists := inferInstanceAs (Decidable (_ ∧ _))

def next (d : Date) : Date :=
  if d.day < daysInMonth d.year d.month then { d with day := d.day + 1 }
  else if d.month < 12 then ⟨d.year, d.month + 1, 1⟩
  else ⟨d.year + 1, 1, 1⟩

def previous (d : Date) : Date :=
  if 1 < d.day then { d with day := d.day - 1 }
  else if 1 < d.month then ⟨d.year, d.month - 1, daysInMonth d.year (d.month - 1)⟩
  else ⟨d.year - 1, 12, 31⟩

end Date

/-! ## Readings of a clock -/

structure Reading where
  date : Date
  second : Nat
  nano : Nat
deriving DecidableEq, Repr

namespace Reading

def Valid (r : Reading) : Prop :=
  r.date.Exists ∧ -262143 ≤ r.date.year ∧ r.date.year ≤ 262142 ∧ r.second < 86400 ∧
    r.nano < 2000000000 ∧ (1000000000 ≤ r.nano → r.second % 60 = 59)

instance (r : Reading) : Decidable r.Valid := by
  unfold Valid
  infer_instance

/-- The reading in universal time of a clock that is `offset` seconds ahead of it. -/
def toUniversal (r : Reading) (offset : Int) : Reading :=
  let second := r.second - offset
  if second < 0 then { r with date := r.date.previous, second := (second + 86400).toNat }
  else if 86400 ≤ second then { r with date := r.date.next, second := (second - 86400).toNat }
  else { r with second := second.toNat }

end Reading

structure Instant extends Reading where
  valid : toReading.Valid
deriving DecidableEq

namespace Instant

def ofReading? (r : Reading) : Option Instant :=
  if valid : r.Valid then some ⟨r, valid⟩ else none

end Instant

end CouponDesk
