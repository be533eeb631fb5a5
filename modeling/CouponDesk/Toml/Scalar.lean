import CouponDesk.Coupon
import CouponDesk.Text.Basic
import CouponDesk.Time.Instant
import CouponDesk.Toml.Value

/-!
# TOML numbers, booleans and moments

The values that are written without quotes or brackets.  None of their characters can follow
such a value, so a value is always the longest run of them, except that a date and a time may be
separated by a space.
-/

set_option autoImplicit false

namespace CouponDesk.Toml.Scalar

def isScalarChar (c : Char) : Bool :=
  c.isAlphanum || c = '+' || c = '-' || c = '_' || c = '.' || c = ':'

/-! ## Integers -/

def isDigitIn (base : Nat) (c : Char) : Bool := (Numeral.hexValue? c).any (· < base)

def inBase? (base : Nat) (cs : List Char) : Option Nat :=
  (Numeral.ungroup (isDigitIn base) cs).map
    (List.foldl (fun n c => base * n + (Numeral.hexValue? c).getD 0) 0)

/-- Grouped decimal digits without a leading zero. -/
def decimal? (cs : List Char) : Option (List Char) :=
  (Numeral.ungroup Char.isDigit cs).filter fun digits =>
    digits.length = 1 || digits.head? ≠ some '0'

def fitting (n : Int) : Option Value := if FitsAmount n then some (.integer n) else none

/-- An integer; only a decimal one may have a sign. -/
def integer? : List Char → Option Value
  | '0' :: 'x' :: cs => (inBase? 16 cs).bind fun n => fitting n
  | '0' :: 'o' :: cs => (inBase? 8 cs).bind fun n => fitting n
  | '0' :: 'b' :: cs => (inBase? 2 cs).bind fun n => fitting n
  | '+' :: cs => (decimal? cs).bind fun digits => fitting (Numeral.ofDigits digits)
  | '-' :: cs => (decimal? cs).bind fun digits => fitting (-Numeral.ofDigits digits)
  | cs => (decimal? cs).bind fun digits => fitting (Numeral.ofDigits digits)

/-! ## Floats -/

/-- The least number that rounds to no finite double. -/
def overflow : Nat := (Nat.pow 2 54 - 1) * Nat.pow 2 970

/-- Whether `digits * 10 ^ exponent` is at least `overflow`.  Far from the limit the number of
digits decides. -/
def overflows (digits : List Char) (exponent : Int) : Bool :=
  let digits := digits.dropWhile (· = '0')
  let size : Int := digits.length + exponent
  if digits.isEmpty || size ≤ 308 then false
  else if 310 ≤ size then true
  else if 0 ≤ exponent then overflow ≤ Numeral.ofDigits digits * Nat.pow 10 exponent.toNat
  else overflow * Nat.pow 10 (-exponent).toNat ≤ Numeral.ofDigits digits

def exponent? : List Char → Option Int
  | '+' :: cs => (Numeral.ungroup Char.isDigit cs).map fun digits => Numeral.ofDigits digits
  | '-' :: cs => (Numeral.ungroup Char.isDigit cs).map fun digits => -Numeral.ofDigits digits
  | cs => (Numeral.ungroup Char.isDigit cs).map fun digits => Numeral.ofDigits digits

def isGroupChar (c : Char) : Bool := c.isDigit || c = '_'

/-- The digits and the exponent of a float without a sign: a whole part, and then a fraction or an
exponent or both. -/
def magnitude? (cs : List Char) : Option (List Char × Int) := do
  let whole ← decimal? (cs.takeWhile isGroupChar)
  match cs.dropWhile isGroupChar with
  | '.' :: rest =>
      let fraction ← Numeral.ungroup Char.isDigit (rest.takeWhile isGroupChar)
      let scale : Int := fraction.length
      match rest.dropWhile isGroupChar with
      | [] => return (whole ++ fraction, -scale)
      | e :: rest =>
          if e = 'e' ∨ e = 'E' then return (whole ++ fraction, (← exponent? rest) - scale)
          else none
  | e :: rest => if e = 'e' ∨ e = 'E' then return (whole, ← exponent? rest) else none
  | [] => none

/-- A float.  One above all finite doubles is refused, one below them is not. -/
def float? (cs : List Char) : Option Value :=
  let literal := Value.float (String.ofList cs)
  let (negative, rest) := match cs with
    | '+' :: rest => (false, rest)
    | '-' :: rest => (true, rest)
    | rest => (false, rest)
  if rest = ['i', 'n', 'f'] ∨ rest = ['n', 'a', 'n'] then some literal
  else
    match magnitude? rest with
    | some (digits, exponent) =>
        if !negative && overflows digits exponent then none else some literal
    | none => none

/-! ## Moments -/

def pair? (a b : Char) : Option Nat :=
  if a.isDigit && b.isDigit then some (Numeral.ofDigits [a, b]) else none

def afterDate? : List Char → Option (List Char)
  | a :: b :: c :: d :: '-' :: e :: f :: '-' :: g :: h :: rest => do
      let century ← pair? a b
      let year ← pair? c d
      let month ← pair? e f
      let day ← pair? g h
      if Date.Exists ⟨century * 100 + year, month, day⟩ then some rest else none
  | _ => none

def afterFraction? : List Char → Option (List Char)
  | '.' :: rest =>
      if (rest.takeWhile Char.isDigit).isEmpty then none else some (rest.dropWhile Char.isDigit)
  | rest => some rest

/-- The text after a time of day at its start.  A minute may have a sixty-first second. -/
def afterTime? : List Char → Option (List Char)
  | a :: b :: ':' :: c :: d :: ':' :: e :: f :: rest => do
      let hour ← pair? a b
      let minute ← pair? c d
      let second ← pair? e f
      if hour ≤ 23 ∧ minute ≤ 59 ∧ second ≤ 60 then afterFraction? rest else none
  | _ => none

def isOffset : List Char → Bool
  | [] | ['Z'] | ['z'] => true
  | [sign, a, b, ':', c, d] =>
      (sign = '+' || sign = '-') && (pair? a b).any (· ≤ 23) && (pair? c d).any (· ≤ 59)
  | _ => false

def isMoment (cs : List Char) : Bool :=
  match afterDate? cs with
  | some [] => true
  | some (mark :: rest) =>
      (mark = 'T' || mark = 't' || mark = ' ') && (afterTime? rest).any isOffset
  | none => (afterTime? cs).any List.isEmpty

/-! ## Scalars -/

def ofToken? (cs : List Char) : Option Value :=
  if cs = ['t', 'r', 'u', 'e'] then some (.boolean true)
  else if cs = ['f', 'a', 'l', 's', 'e'] then some (.boolean false)
  else if isMoment cs then some (.moment (String.ofList cs))
  else (integer? cs).or (float? cs)

/-- Splits a text after the token at its start.  A date and a digit one space after it belong
together. -/
def splitToken (cs : List Char) : List Char × List Char :=
  let token := cs.takeWhile isScalarChar
  match cs.dropWhile isScalarChar with
  | ' ' :: c :: rest =>
      if afterDate? token = some [] ∧ c.isDigit then
        (token ++ ' ' :: (c :: rest).takeWhile isScalarChar, (c :: rest).dropWhile isScalarChar)
      else (token, ' ' :: c :: rest)
  | rest => (token, rest)

def read? (cs : List Char) : Option (Value × List Char) :=
  let (token, rest) := splitToken cs
  (ofToken? token).map fun value => (value, rest)

end CouponDesk.Toml.Scalar
