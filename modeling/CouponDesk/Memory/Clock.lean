import CouponDesk.Memory.System

/-!
# Running calls on a virtual clock

One way of choosing the steps of a system.  A call goes on as long as it can; when a lock becomes
free, those that wait for it go on in their order in the line, each to the end of its attempt
before the next.  The clock stands still while anything can go on, and then moves straight to the
next timer.
-/

set_option autoImplicit false

namespace CouponDesk.Memory.System

def drive (c : Nat) : Nat → System → System
  | 0, s => s
  | steps + 1, s =>
      match s.advance c with
      | some next => drive c steps next
      | none => s

def cutIfDue (s : System) (c : Nat) : System :=
  match (s.calls[c]?).bind Call.timer? with
  | some due => if due ≤ s.now then (s.expire c).getD s else s
  | none => s

/-- Lets a call go on until it waits, pauses or is over.  An attempt has at most seven steps, the
one that joins a line included.  With a deadline of zero it cannot wait. -/
def proceed (s : System) (c : Nat) : System := (s.drive c (Stage.opening.rank + 1)).cutIfDue c

def granted? (s : System) : Option Nat :=
  s.store.line.findSome? fun ticket =>
    match ticket.txn with
    | .attempt c _ => if s.store.holds ticket.txn ticket.coupon then some c else none
    | .manual _ => none

def settleUpTo : Nat → System → System
  | 0, s => s
  | count + 1, s =>
      match s.granted? with
      | some c => settleUpTo count (s.proceed c)
      | none => s

def settle (s : System) : System := s.settleUpTo s.calls.length

/-! ## Timers -/

/-- The earlier of two timers; of equal ones the first. -/
def earlier : Option (Nat × Nat) → Option (Nat × Nat) → Option (Nat × Nat)
  | some a, some b => if b.1 < a.1 then some b else some a
  | some a, none => some a
  | none, b => b

def nextTimerFrom (c : Nat) : List Call → Option (Nat × Nat)
  | [] => none
  | call :: rest => earlier (call.timer?.map fun due => (due, c)) (nextTimerFrom (c + 1) rest)

def nextTimer (s : System) : Option (Nat × Nat) := nextTimerFrom 0 s.calls

def fire (s : System) (c : Nat) : System :=
  match s.expire c with
  | some next => next.settle
  | none =>
      match s.wake c with
      | some next => (next.proceed c).settle
      | none => s

def timersLeft (s : System) : Nat :=
  s.calls.foldr (fun call count => call.timersLeft + count) 0

def moveTo (s : System) (time : Nat) : System := { s with now := max s.now time }

/-- Waits until a condition holds, but at most up to a time, letting at most `count` timers go
off. -/
def waitUpTo (stop : System → Bool) (limit : Nat) : Nat → System → System
  | 0, s => if stop s then s else s.moveTo limit
  | count + 1, s =>
      if stop s then s
      else
        match s.nextTimer with
        | some (due, c) =>
            if due ≤ limit then waitUpTo stop limit count ((s.moveTo due).fire c)
            else s.moveTo limit
        | none => s.moveTo limit

def waitUntil (s : System) (stop : System → Bool) (limit : Nat) : System :=
  s.waitUpTo stop limit s.timersLeft

def awaitUpTo (stop : System → Bool) : Nat → System → System
  | 0, s => s
  | count + 1, s =>
      if stop s then s
      else
        match s.nextTimer with
        | some (due, c) => awaitUpTo stop count ((s.moveTo due).fire c)
        | none => s

def await (s : System) (stop : System → Bool) : System := s.awaitUpTo stop s.timersLeft

/-! ## What a caller sees -/

def isFinished (s : System) (c : Nat) : Bool := (s.calls[c]?).any Call.isFinished

def outcome? (s : System) (c : Nat) : Option (Except Error Claim × Nat) :=
  (s.calls[c]?).bind Call.outcome?

def spawn (s : System) (user coupon : String) (deadline : Duration) (limit : Nat) :
    Nat × System :=
  (s.calls.length, ((s.start user coupon deadline limit).proceed s.calls.length).settle)

def join (s : System) (c : Nat) : Option (Except Error Claim × Nat) × System :=
  let s := s.await (·.isFinished c)
  (s.outcome? c, s)

def claim (s : System) (user coupon : String) (deadline : Duration) (limit : Nat) :
    Option (Except Error Claim × Nat) × System :=
  let (c, s) := s.spawn user coupon deadline limit
  s.join c

def claimAll (s : System) (requests : List (String × String)) (deadline : Duration)
    (limit : Nat) : List (Option (Except Error Claim × Nat)) × System :=
  let (calls, s) := requests.foldl
    (fun (calls, s) (user, coupon) =>
      let (c, s) := s.spawn user coupon deadline limit
      (calls ++ [c], s))
    ([], s)
  let s := s.await fun s => calls.all s.isFinished
  (calls.map s.outcome?, s)

def sleep (s : System) (ms : Nat) : System := s.waitUntil (fun _ => false) (s.now + ms)

def abort (s : System) (c : Nat) : System := ((s.cancel c).getD s).settle

/-- Asks for a coupon's lock in a hand-driven transaction, and gives up after `patience`
milliseconds: then there is no reply, and the transaction goes on without the lock. -/
def lock (s : System) (number : Nat) (name : String) (patience : Nat) :
    Option (Except Error Coupon) × System :=
  let t := TxnId.manual number
  match s.store.lock t name with
  | (some reply, store) => (some reply, { s with store })
  | (none, store) =>
      let s := { s with store }.waitUntil (fun s => s.store.holds t name) (s.now + patience)
      match s.store.lock t name with
      | (some reply, store) => (some reply, { s with store })
      | (none, store) => (none, { s with store := store.leave t name }.settle)

def transact {α : Type} (s : System) (f : Store → α × Store) : α × System :=
  let (reply, store) := f s.store
  (reply, { s with store }.settle)

def shutdown (s : System) : System :=
  let s := (List.range s.calls.length).foldl (fun s c => (s.cancel c).getD s) s
  { s with store := s.store.live.foldl (fun store entry => store.close entry.1) s.store }

end CouponDesk.Memory.System
