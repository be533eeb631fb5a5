import CouponDesk.Relational.Pool
import CouponDesk.Relational.Statement

/-!
# Pools with faults

A pool on which any statement may fail, and any attempt at a claim may run out of time.  Which of
them do is listed in advance.
-/

set_option autoImplicit false

namespace CouponDesk.Relational

/-- A fault of the datastore.  It is no answer about the data: nothing is said to exist that does
not. -/
structure Hitch where
  fault : DatabaseFault
  honest : fault ≠ .violation .unique

namespace Program

variable {α : Type}

/-- At most the first `n` statements of a program.  Its value counts if it takes fewer; the reply to
the last of `n` comes too late. -/
def cut : Nat → Program α → Program (Option α)
  | 0, _ => .done none
  | _ + 1, .done value => .done (some value)
  | n + 1, .ask q resume => .ask q fun reply => (resume reply).cut n

end Program

structure FaultyPool where
  pool : Pool
  /-- The faults of the statements to come, in order; a statement without one is carried out. -/
  faults : List (Option Hitch) := []
  /-- The statements left to the attempts to come, in order, before their time is over; an attempt
  without such a number has time enough. -/
  cuts : List (Option Nat) := []

namespace FaultyPool

/-- The pool after a statement failed: a transaction that cannot be ended is lost. -/
def afterFault (p : Pool) : Option Nat → Statement → Pool
  | some t, .commit | some t, .rollback => p.dropTxn t
  | _, _ => p

def send (who : Option Nat) (q : Statement) : StateM FaultyPool q.Reply := fun s =>
  match s.faults with
  | some hitch :: rest =>
      (.error hitch.fault, { s with pool := afterFault s.pool who q, faults := rest })
  | faults =>
      let (reply, pool) := s.pool.send who q
      (reply, { s with pool, faults := faults.tail })

/-- One attempt at a claim.  Where its time is over it is dropped, and its transaction with it. -/
def claimOnce (now : Int) (user coupon : String) (deadline : Duration) :
    StateM FaultyPool (Except Error Claim) := fun s =>
  let who := some s.pool.freshTxn
  match s.cuts with
  | some n :: rest =>
      let program := attempt (Records.perform .sqlite Program.send now) user coupon
      match (program.cut n).run (send who) { s with cuts := rest } with
      | (some result, s) => (result, s)
      | (none, after) =>
          (.error (.timeout coupon deadline),
            { after with pool := after.pool.dropTxn s.pool.freshTxn })
  | cuts =>
      attempt (Records.perform .sqlite (send who) now) user coupon { s with cuts := cuts.tail }

def claim (now : Int) (user coupon : String) (deadline : Duration) (maxAttempts : Nat) :
    StateM FaultyPool (Except Error Claim) :=
  Retry.run (fun _ => pure ()) (claimOnce now user coupon deadline) maxAttempts

end FaultyPool

end CouponDesk.Relational
