import CouponDesk.Coupon
import CouponDesk.Error

/-!
# Statements

What the desk sends to a relational datastore, and what comes back: each statement has its own
type of answer, and any of them may be answered with a fault instead.  A program is a sequence of
statements as a value.
-/

set_option autoImplicit false

namespace CouponDesk.Relational

/-- The kinds of datastore.  They differ in how a row is locked, in whether an insert returns its
row, and in the wording of statements. -/
inductive Dialect
  | postgres
  | mysql
  | sqlite
deriving DecidableEq, Repr

namespace Dialect

def returnsInserted : Dialect → Bool
  | .postgres => true
  | .mysql | .sqlite => false

def locksRows : Dialect → Bool
  | .postgres | .mysql => true
  | .sqlite => false

end Dialect

inductive SchemaObject
  | couponTable
  | claimTable
  | claimKey
  | claimsByCoupon
deriving DecidableEq, Repr

inductive Statement
  | begin
  | commit
  | rollback
  | findCoupon (name : String) (locking : Bool)
  /-- Writes the row of a coupon without changing it. -/
  | touchCoupon (name : String)
  | takeUnit (name : String)
  | addCoupon (row : Coupon) (createdAt : Int)
  | addCouponReturning (row : Coupon) (createdAt : Int)
  | addClaim (user coupon : String) (createdAt : Int)
  | addClaimReturning (user coupon : String) (createdAt : Int)
  | findClaim (id : Nat)
  | listUsers (coupon : String)
  | countClaims (coupon : String)
  | define (object : SchemaObject)
deriving DecidableEq, Repr

/-- What a write reports: the id of the last row inserted and the number of rows changed. -/
structure Effect where
  lastId : Nat
  affected : Nat
deriving DecidableEq, Repr

namespace Statement

def Answer : Statement → Type
  | .findCoupon _ _ | .addCouponReturning _ _ => Option Coupon
  | .findClaim _ | .addClaimReturning _ _ _ => Option Claim
  | .touchCoupon _ | .takeUnit _ | .addCoupon _ _ | .addClaim _ _ _ | .define _ => Effect
  | .listUsers _ => List String
  | .countClaims _ => Nat
  | .begin | .commit | .rollback => Unit

abbrev Reply (q : Statement) : Type := Except DatabaseFault q.Answer

end Statement

/-! ## Programs -/

/-- What is sent next, and how it goes on from each reply.  A program can be stopped between any two
of its statements, so those of several can be carried out among each other. -/
inductive Program (α : Type) : Type
  | done (value : α)
  | ask (q : Statement) (resume : q.Reply → Program α)

namespace Program

variable {α β : Type}

def bind : Program α → (α → Program β) → Program β
  | .done value, next => next value
  | .ask q resume, next => .ask q fun reply => (resume reply).bind next

instance : Monad Program where
  pure := .done
  bind := bind

def send (q : Statement) : Program q.Reply := .ask q .done

def run {m : Type → Type} [Monad m] (send : (q : Statement) → m q.Reply) : Program α → m α
  | .done value => pure value
  | .ask q resume => do
      let reply ← send q
      (resume reply).run send

end Program

end CouponDesk.Relational
