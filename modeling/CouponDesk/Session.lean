import CouponDesk.Coupon
import CouponDesk.Settings.Basic
import CouponDesk.Toml.Listing

/-!
# Sessions

What a run of the program does once its datastore is there: it creates the seeded coupons that do
not exist yet and carries out one command.  The store is given by its operations, so a session
can be run on any.
-/

set_option autoImplicit false

namespace CouponDesk

inductive Command
  | claim (coupon user : String)
  | details (coupon : String)
  /-- The details of every seeded coupon. -/
  | overview
deriving DecidableEq, Repr

namespace Command

def ofArgs? : List String → Option Command
  | ["claim", coupon, user] => some (.claim coupon user)
  | ["show", coupon] => some (.details coupon)
  | [] => some .overview
  | _ => none

end Command

namespace Session

variable {m : Type → Type} [Monad m]

/-- Creates the seeded coupons in order; those that exist already stay as they are. -/
def seed (create : String → Int → m (Except Error Coupon)) : List Seed → m (Except Error Unit)
  | [] => return .ok ()
  | s :: rest => do
      match ← create s.name s.amount with
      | .ok _ | .error (.couponExists _) => seed create rest
      | .error e => return .error e

def printed (d : Details) : String := d.toml ++ "\n"

def printAll (details : String → m (Except Error Details)) :
    List Seed → m (String × Except Error Unit)
  | [] => return ("", .ok ())
  | s :: rest => do
      match ← details s.name with
      | .ok d =>
          let (output, result) ← printAll details rest
          return (printed d ++ output, result)
      | .error e => return ("", .error e)

/-- Carries out a command: what it prints, and whether it fails.  The outcome of a claim is never a
failure. -/
def carryOut (claim : String → String → m (Except Error Claim))
    (details : String → m (Except Error Details)) (seeds : List Seed) :
    Command → m (String × Except Error Unit)
  | .claim coupon user => do
      return ((Outcome.of (← claim user coupon)).code ++ "\n", .ok ())
  | .details coupon => do
      match ← details coupon with
      | .ok d => return (printed d, .ok ())
      | .error e => return ("", .error e)
  | .overview => printAll details seeds

end Session

end CouponDesk
