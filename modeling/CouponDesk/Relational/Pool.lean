import CouponDesk.Relational.Records
import CouponDesk.Relational.Tables

/-!
# A pool of connections

Tables reached through a limited number of connections.  There is one write lock: the first
write of a transaction takes it, and the transaction keeps it to its end and works on its own
copy of the tables, which nobody else sees before the commit.  All others read the committed
tables.  A write of another transaction, or of a statement outside any transaction, cannot be
made while the lock is held, and no statement outside the open transactions while they occupy
all connections.
-/

set_option autoImplicit false

namespace CouponDesk.Relational

structure Pool where
  committed : Tables := {}
  /-- The transaction that holds the write lock, and the tables as it has left them. -/
  writer : Option (Nat × Tables) := none
  opened : List Nat := []
  size : Nat := 1
  readOnly : Bool := false
  closed : Bool := false
deriving DecidableEq, Repr

namespace Pool

/-- How long a connection or the write lock is waited for, in milliseconds. -/
def patience : Nat := 5000

/-- What a write is answered with on a datastore that may only be read. -/
def refused : DatabaseFault := .execution "attempt to write a readonly database"

def locked : DatabaseFault := .execution "database is locked"

/-! ## Statements -/

/-- The tables as a transaction sees them, or a statement outside any transaction. -/
def seen (p : Pool) (who : Option Nat) : Tables :=
  match p.writer with
  | some (t, working) => if who = some t then working else p.committed
  | none => p.committed

def lockedOut (p : Pool) (who : Option Nat) : Bool :=
  p.writer.any fun (t, _) => who ≠ some t

def isExhausted (p : Pool) : Bool := p.size ≤ p.opened.length

/-- Why no connection can be had for something outside the open transactions. -/
def unavailable? (p : Pool) : Option DatabaseFault :=
  if p.closed then some .poolClosed
  else if p.isExhausted then some .poolTimedOut
  else none

def obstacle? (p : Pool) (who : Option Nat) (q : Statement) : Option DatabaseFault :=
  match who, p.unavailable? with
  | none, some f => some f
  | _, _ =>
      if (p.seen who).writes q then
        if p.readOnly then some refused
        else if p.lockedOut who then some locked
        else none
      else none

/-- The pool after a write left the tables in a state: a transaction keeps it to itself, a
statement outside any transaction commits it at once. -/
def put (p : Pool) (who : Option Nat) (tables : Tables) : Pool :=
  match who with
  | some t => { p with writer := some (t, tables) }
  | none => { p with committed := tables }

def openTxn (p : Pool) (t : Nat) : Except DatabaseFault Unit × Pool :=
  match p.unavailable? with
  | some f => (.error f, p)
  | none => (.ok (), { p with opened := p.opened ++ [t] })

def dropTxn (p : Pool) (t : Nat) : Pool :=
  { p with
    opened := p.opened.filter (· ≠ t)
    writer := p.writer.filter (·.1 ≠ t) }

def commitTxn (p : Pool) (t : Nat) : Pool :=
  { p.dropTxn t with committed := p.seen (some t) }

def send (who : Option Nat) (q : Statement) : StateM Pool q.Reply := fun p =>
  match who, q with
  | some t, .begin => p.openTxn t
  | some t, .commit => (.ok (), p.commitTxn t)
  | some t, .rollback => (.ok (), p.dropTxn t)
  | who, q =>
      match p.obstacle? who q with
      | some f => (.error f, p)
      | none =>
          let (reply, tables) := (p.seen who).exec q
          (reply, if (p.seen who).writes q then p.put who tables else p)

def close (p : Pool) : Pool := { p with closed := true }

def shutdown (p : Pool) : Pool := { p with opened := [], writer := none }

/-! ## Claims -/

def freshTxn (p : Pool) : Nat := p.opened.foldl max 0 + 1

/-- Whether an attempt would have to wait for the end of a transaction that is open now. -/
def isBusy (p : Pool) : Bool := p.isExhausted || p.writer.isSome

/-- One attempt at a claim, within a deadline.  It takes no time unless it has to wait, and then
waits in vain, because what it waits for does not end meanwhile. -/
def claimOnce (now : Int) (user coupon : String) (deadline : Duration) :
    StateM Pool (Except Error Claim) := fun p =>
  let late : Except Error Claim := .error (.timeout coupon deadline)
  if p.closed then (Records.fault .poolClosed, p)
  else if deadline.ceilMillis = 0 then (late, p)
  else if p.isBusy then
    if deadline.ceilMillis ≤ patience then (late, p)
    else (Records.fault (if p.isExhausted then .poolTimedOut else locked), p)
  else attempt (Records.perform .sqlite (send (some p.freshTxn)) now) user coupon p

/-- A claim in up to `maxAttempts` attempts.  The pauses between them change nothing. -/
def claim (now : Int) (user coupon : String) (deadline : Duration) (maxAttempts : Nat) :
    StateM Pool (Except Error Claim) :=
  Retry.run (fun _ => pure ()) (claimOnce now user coupon deadline) maxAttempts

end Pool

end CouponDesk.Relational
