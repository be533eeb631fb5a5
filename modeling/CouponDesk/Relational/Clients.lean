import CouponDesk.Relational.Pool
import CouponDesk.Relational.Statement

/-!
# Clients

Those who use a pool at the same time: creations of coupons, and attempts at claims.  Each is a
program of statements, and an `Event` lets one of them send its next statement, or has this one
fail, or abandons the client; so any interleaving of their statements is a list of events.  An
attempt makes its requests in a transaction of its own, which is dropped with it.
-/

set_option autoImplicit false

namespace CouponDesk.Relational

def program (now : Int) (user coupon : String) (stage : Stage) : Program Stage :=
  match stage.turn user coupon with
  | .answer result => .done (.settled result)
  | .ask request resume => do
      return resume (← Records.perform .sqlite Program.send now request)

/-- An attempt at a claim: its stage, and what it still has to send before the next one. -/
structure Attempt where
  user : String
  coupon : String
  /-- The time at which its claim is created. -/
  now : Int
  stage : Stage
  rest : Program Stage

namespace Attempt

def enter (a : Attempt) (stage : Stage) : Attempt :=
  { a with stage, rest := program a.now a.user a.coupon stage }

def proceed (a : Attempt) : Program Stage → Attempt
  | .done next => a.enter next
  | rest => { a with rest }

def isOver (a : Attempt) : Bool :=
  match a.stage with
  | .settled _ => true
  | _ => false

/-- The pool after a statement of an attempt: with its end its transaction is dropped. -/
def leave (a : Attempt) (c : Nat) (pool : Pool) : Pool := if a.isOver then pool.dropTxn c else pool

end Attempt

inductive Client
  | creation (rest : Program (Except Error Coupon))
  | attempt (a : Attempt)
  | gone

structure Clients where
  pool : Pool := {}
  all : List Client := []

abbrev Reception := Option Nat → (q : Statement) → StateM Pool q.Reply

def failing (f : DatabaseFault) : Reception := fun _ _ p => (.error f, p)

inductive Event
  | create (name : String) (amount now : Int)
  | claim (user coupon : String) (now : Int)
  | send (client : Nat)
  | fail (client : Nat) (f : DatabaseFault)
  /-- A client is abandoned between two statements. -/
  | drop (client : Nat)

namespace Clients

def put (s : Clients) (c : Nat) (client : Client) (pool : Pool) : Clients :=
  { pool, all := s.all.set c client }

def receive (s : Clients) (c : Nat) (how : Reception) : Option Clients :=
  match s.all[c]? with
  | some (.creation (.ask q resume)) =>
      let (reply, pool) := how none q s.pool
      some (s.put c (.creation (resume reply)) pool)
  | some (.attempt a) =>
      match a.rest with
      | .ask q resume =>
          let (reply, pool) := how (some c) q s.pool
          let a := a.proceed (resume reply)
          some (s.put c (.attempt a) (a.leave c pool))
      | .done _ => none
  | _ => none

def drop (s : Clients) (c : Nat) : Option Clients :=
  match s.all[c]? with
  | some (.attempt _) => some (s.put c .gone (s.pool.dropTxn c))
  | some (.creation _) => some (s.put c .gone s.pool)
  | _ => none

def act (s : Clients) : Event → Option Clients
  | .create name amount now =>
      let client := .creation (Records.createCoupon .sqlite Program.send now name amount)
      some { s with all := s.all ++ [client] }
  | .claim user coupon now =>
      let client := .attempt
        { user, coupon, now, stage := .opening, rest := program now user coupon .opening }
      some { s with all := s.all ++ [client] }
  | .send c => s.receive c Pool.send
  | .fail c f => s.receive c (failing f)
  | .drop c => s.drop c

def run : List Event → Clients → Option Clients
  | [], s => some s
  | event :: rest, s => do
      let next ← s.act event
      run rest next

end Clients

end CouponDesk.Relational
