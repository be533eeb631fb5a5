import CouponDesk.Fault

/-!
# Errors and outcomes

An error is a domain answer (missing coupon, name taken, duplicate claim, no stock, refused
amount), a configuration fault, or a failure after which the whole transaction may be run
again.  `Error.kind` classifies it, `Error.message` words it, and `Outcome.of` sorts the
result of a claim into five outcomes.  A claim that takes too long names its deadline, a duration
in its largest unit that is not zero, with the rest as an exact decimal fraction.
-/

set_option autoImplicit false

namespace CouponDesk

/-! ## Durations -/

structure Duration where
  seconds : Nat
  nanos : Nat
  nanos_lt : nanos < 1000000000 := by omega
deriving DecidableEq, Repr

namespace Duration

def zero : Duration := ⟨0, 0, by omega⟩

def ofMillis (ms : Nat) : Duration :=
  ⟨ms / 1000, ms % 1000 * 1000000, by omega⟩

def ceilMillis (d : Duration) : Nat :=
  d.seconds * 1000 + (d.nanos + 999999) / 1000000

/-- The decimal fraction `rest / 10 ^ width` after its point, without trailing zeros; nothing
when it is zero. -/
def fraction (width rest : Nat) : List Char :=
  if rest = 0 then []
  else '.' :: ((Numeral.padded width rest).reverse.dropWhile (· = '0')).reverse

def text (d : Duration) : String :=
  String.ofList <|
    if 0 < d.seconds then
      Numeral.digits d.seconds ++ fraction 9 d.nanos ++ ['s']
    else if 1000000 ≤ d.nanos then
      Numeral.digits (d.nanos / 1000000) ++ fraction 6 (d.nanos % 1000000) ++ ['m', 's']
    else if 1000 ≤ d.nanos then
      Numeral.digits (d.nanos / 1000) ++ fraction 3 (d.nanos % 1000) ++ ['µ', 's']
    else
      Numeral.digits d.nanos ++ ['n', 's']

end Duration

/-! ## Errors -/

inductive Error
  | couponNotFound (name : String)
  | couponExists (name : String)
  | alreadyClaimed (user coupon : String)
  | noStock (name : String)
  | invalidAmount (amount : Int)
  | config (fault : ConfigFault)
  | timeout (coupon : String) (deadline : Duration)
  | database (fault : DatabaseFault)
  | transient (fault : TransientFault)
deriving DecidableEq, Repr

inductive ErrorKind
  | notFound
  | conflict
  | alreadyClaimed
  | noStock
  | invalid
  | transient
deriving DecidableEq, Repr

namespace ErrorKind

def code : ErrorKind → String
  | .notFound => "not_found"
  | .conflict => "conflict"
  | .alreadyClaimed => "already_claimed"
  | .noStock => "no_stock"
  | .invalid => "invalid"
  | .transient => "transient_failure"

end ErrorKind

namespace Error

def kind : Error → ErrorKind
  | .couponNotFound _ => .notFound
  | .couponExists _ => .conflict
  | .alreadyClaimed _ _ => .alreadyClaimed
  | .noStock _ => .noStock
  | .invalidAmount _ | .config _ => .invalid
  | .timeout _ _ | .database _ | .transient _ => .transient

def retryable (e : Error) : Bool := e.kind = .transient

def message : Error → String
  | .couponNotFound name => "Coupon not found: " ++ name
  | .couponExists name => "Coupon already exists: " ++ name
  | .alreadyClaimed user coupon => "User " ++ user ++ " has already claimed coupon " ++ coupon
  | .noStock name => "Coupon " ++ name ++ " has no remaining stock"
  | .invalidAmount amount => "Invalid amount: " ++ String.ofList (Numeral.signed amount)
  | .config fault => "Configuration error: " ++ fault.text
  | .timeout coupon deadline =>
      "Claim on coupon " ++ coupon ++ " did not finish within " ++ deadline.text
  | .database fault => "Database error: " ++ fault.text
  | .transient fault => "Datastore failure: " ++ fault.text

end Error

inductive Outcome
  | success
  | noStock
  | alreadyClaimed
  | couponNotFound
  | transientFailure
deriving DecidableEq, Repr

namespace Outcome

/-- The outcome that an error amounts to.  A claim creates no coupon and its arguments need no
check, so the kinds `conflict` and `invalid` count as failures of the machinery. -/
def ofError (e : Error) : Outcome :=
  match e.kind with
  | .noStock => .noStock
  | .alreadyClaimed => .alreadyClaimed
  | .notFound => .couponNotFound
  | .conflict | .invalid | .transient => .transientFailure

def of {α : Type} : Except Error α → Outcome
  | .ok _ => .success
  | .error e => ofError e

def code : Outcome → String
  | .success => "success"
  | .noStock => "no_stock"
  | .alreadyClaimed => "already_claimed"
  | .couponNotFound => "coupon_not_found"
  | .transientFailure => "transient_failure"

end Outcome

end CouponDesk
