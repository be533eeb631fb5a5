import CouponDesk.Relational.Clients

/-!
# Callers

Those who use the operations of the store one by one, in any order and as often as they like:
outside transactions, inside transactions of their own, or as whole attempts at claims.  Each
operation is a program of statements, and an event lets a caller send its next statement, has this
one fail, or drops the caller with its transaction; so any interleaving of statements is a list of
events.
-/

set_option autoImplicit false

namespace CouponDesk.Relational

/-- What can be asked of a store outside any transaction. -/
inductive Operation
  | create (name : String) (amount : Int)
  | get (name : String)
  | claimants (name : String)
  | count (name : String)

def Operation.program (d : Dialect) (now : Int) : Operation → Program Unit
  | .create name amount => do
      let _ ← Records.createCoupon d Program.send now name amount
  | .get name => do
      let _ ← Records.get Program.send name
  | .claimants name => do
      let _ ← Records.claimants Program.send name
  | .count name => do
      let _ ← Records.count Program.send name

def goesOn : (r : Request) → r.Reply → Bool
  | .begin, reply => reply.isOk
  | .lock _, _ | .insert _ _, _ | .decrement _, _ => true
  | .commit, _ | .rollback, _ => false

def requestProgram (d : Dialect) (now : Int) (r : Request) : Program Bool := do
  return goesOn r (← Records.perform d Program.send now r)

/-- The statements of a whole attempt, after which no transaction is left. -/
def attemptProgram (d : Dialect) (now : Int) (user coupon : String) : Program Bool := do
  let _ ← attempt (Records.perform d Program.send now) user coupon
  return false

inductive Caller
  | outside (rest : Program Unit)
  | inside
  | working (rest : Program Bool)
  | gone

namespace Caller

def proceed : Program Bool → Caller
  | .done true => .inside
  | .done false => .gone
  | rest => .working rest

/-- The pool after a statement in a transaction: a caller that is gone leaves none behind. -/
def leave (caller : Caller) (c : Nat) (pool : Pool) : Pool :=
  match caller with
  | .gone => pool.dropTxn c
  | _ => pool

def next? : Caller → Option (Bool × Statement)
  | .outside (.ask q _) => some (false, q)
  | .working (.ask q _) => some (true, q)
  | _ => none

end Caller

structure Callers where
  pool : Pool := {}
  all : List Caller := []

namespace Callers

inductive Event
  | operate (op : Operation) (now : Int)
  | begin
  | ask (caller : Nat) (r : Request) (now : Int)
  | claim (user coupon : String) (now : Int)
  | send (caller : Nat)
  | fail (caller : Nat) (f : DatabaseFault)
  /-- A caller is dropped, and its transaction with it. -/
  | drop (caller : Nat)

def put (s : Callers) (c : Nat) (caller : Caller) (pool : Pool) : Callers :=
  { pool, all := s.all.set c caller }

def add (s : Callers) (caller : Caller) : Callers := { s with all := s.all ++ [caller] }

def receive (s : Callers) (c : Nat) (how : Reception) : Option Callers :=
  match s.all[c]? with
  | some (.outside (.ask q resume)) =>
      let (reply, pool) := how none q s.pool
      some (s.put c (.outside (resume reply)) pool)
  | some (.working (.ask q resume)) =>
      let (reply, pool) := how (some c) q s.pool
      let caller := .proceed (resume reply)
      some (s.put c caller (caller.leave c pool))
  | _ => none

def ask (d : Dialect) (s : Callers) (c : Nat) (r : Request) (now : Int) : Option Callers :=
  match s.all[c]? with
  | some .inside =>
      if r = .begin then none else some (s.put c (.proceed (requestProgram d now r)) s.pool)
  | _ => none

def drop (s : Callers) (c : Nat) : Option Callers :=
  match s.all[c]? with
  | some .gone | none => none
  | some (.outside _) => some (s.put c .gone s.pool)
  | some .inside | some (.working _) => some (s.put c .gone (s.pool.dropTxn c))

def act (d : Dialect) (how : Reception) (s : Callers) : Event → Option Callers
  | .operate op now => some (s.add (.outside (op.program d now)))
  | .begin => some (s.add (.proceed (requestProgram d 0 .begin)))
  | .ask c r now => s.ask d c r now
  | .claim user coupon now => some (s.add (.proceed (attemptProgram d now user coupon)))
  | .send c => s.receive c how
  | .fail c f => s.receive c (failing f)
  | .drop c => s.drop c

def run (d : Dialect) (how : Reception) : List Event → Callers → Option Callers
  | [], s => some s
  | event :: rest, s => do
      let next ← s.act d how event
      run d how rest next

end Callers

end CouponDesk.Relational
