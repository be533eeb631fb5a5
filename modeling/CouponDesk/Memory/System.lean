import CouponDesk.Claiming.Retry
import CouponDesk.Memory.Store

/-!
# Calls on the store in memory

A call is a caller's claim: attempts at one coupon, each within a deadline, repeated as
`Retry.pause?` says.  The system is the store with all calls made so far and a clock in whole
milliseconds.  Its steps are small: `advance` performs one request of one call, `expire` cuts an
attempt off, `wake` ends a pause, `cancel` abandons a call, and hand-driven transactions act on
the store between them.  An `Action` is one such step, and `act` refuses those that are not
possible in a state; any interleaving of calls and transactions is a list of actions.
-/

set_option autoImplicit false

namespace CouponDesk.Memory

inductive Phase
  /-- An attempt is under way, to be cut off at `expires`. -/
  | trying (stage : Stage) (expires : Nat)
  | resting (wakes : Nat)
  | finished (result : Except Error Claim) (at_ : Nat)
  | cancelled

structure Call where
  user : String
  coupon : String
  deadline : Duration
  limit : Nat
  started : Nat
  /-- The number of the attempt under way, or of the last one made. -/
  attempt : Nat
  phase : Phase

namespace Call

def expiry (call : Call) (now : Nat) : Nat := now + call.deadline.ceilMillis

def conclude (call : Call) (now : Nat) (result : Except Error Claim) : Call :=
  match Retry.pause? call.limit call.attempt result with
  | some ms => { call with phase := .resting (now + ms) }
  | none => { call with phase := .finished result now }

def proceed (call : Call) (now expires : Nat) : Stage → Call
  | .settled result => call.conclude now result
  | stage => { call with phase := .trying stage expires }

def outcome? (call : Call) : Option (Except Error Claim × Nat) :=
  match call.phase with
  | .finished result at_ => some (result, at_ - call.started)
  | _ => none

def isFinished (call : Call) : Bool := call.outcome?.isSome

def timer? (call : Call) : Option Nat :=
  match call.phase with
  | .trying _ expires => some expires
  | .resting wakes => some wakes
  | _ => none

def timersLeft (call : Call) : Nat :=
  match call.phase with
  | .trying _ _ => 2 * (call.limit - call.attempt) + 1
  | .resting _ => 2 * (call.limit - call.attempt)
  | _ => 0

end Call

structure System where
  store : Store := {}
  calls : List Call := []
  now : Nat := 0

namespace System

def txnOf (c : Nat) (call : Call) : TxnId := .attempt c call.attempt

def putCall (s : System) (c : Nat) (call : Call) : System :=
  { s with calls := s.calls.set c call }

def start (s : System) (user coupon : String) (deadline : Duration) (limit : Nat) : System :=
  let call : Call :=
    { user, coupon, deadline, limit, started := s.now, attempt := 1,
      phase := .trying .opening (s.now + deadline.ceilMillis) }
  { s with calls := s.calls ++ [call] }

/-- Performs the next request of a call.  There is none while the call waits for a lock, pauses
or is over. -/
def advance (s : System) (c : Nat) : Option System := do
  let call ← s.calls[c]?
  let .trying stage expires := call.phase | none
  match stage.turn call.user call.coupon with
  | .answer result => return s.putCall c (call.conclude s.now result)
  | .ask request resume =>
      if s.store.waits (txnOf c call) call.coupon then none
      else
        match s.store.perform (txnOf c call) request with
        | (some reply, store) =>
            return { s with store }.putCall c (call.proceed s.now expires (resume reply))
        | (none, store) => return { s with store }

def expire (s : System) (c : Nat) : Option System := do
  let call ← s.calls[c]?
  let .trying _ _ := call.phase | none
  let result := .error (.timeout call.coupon call.deadline)
  return { s with store := s.store.close (txnOf c call) }.putCall c (call.conclude s.now result)

def wake (s : System) (c : Nat) : Option System := do
  let call ← s.calls[c]?
  let .resting _ := call.phase | none
  return s.putCall c
    { call with attempt := call.attempt + 1, phase := .trying .opening (call.expiry s.now) }

def cancel (s : System) (c : Nat) : Option System := do
  let call ← s.calls[c]?
  match call.phase with
  | .trying _ _ =>
      return { s with store := s.store.close (txnOf c call) }.putCall c
        { call with phase := .cancelled }
  | .resting _ => return s.putCall c { call with phase := .cancelled }
  | _ => none

def begin (s : System) (number : Nat) : Option System :=
  if s.store.isLive (.manual number) then none
  else some { s with store := s.store.begin (.manual number) }

def withTxn (s : System) (number : Nat) (f : Store → TxnId → Store) : Option System :=
  if s.store.isLive (.manual number) then
    some { s with store := f s.store (.manual number) }
  else none

end System

inductive Action
  | create (name : String) (amount : Int)
  | failCommits (count : Nat)
  | begin (number : Nat)
  | lock (number : Nat) (name : String)
  | leave (number : Nat) (name : String)
  | insert (number : Nat) (user name : String)
  | decrement (number : Nat) (name : String)
  | commit (number : Nat)
  | rollback (number : Nat)
  | start (user coupon : String) (deadline : Duration) (limit : Nat)
  | advance (call : Nat)
  | expire (call : Nat)
  | wake (call : Nat)
  | cancel (call : Nat)
  | pass (ms : Nat)

namespace System

def act (s : System) : Action → Option System
  | .create name amount => some { s with store := (s.store.create name amount).2 }
  | .failCommits count => some { s with store := s.store.failCommits count }
  | .begin number => s.begin number
  | .lock number name => s.withTxn number fun store t => (store.lock t name).2
  | .leave number name => s.withTxn number fun store t => store.leave t name
  | .insert number user name => s.withTxn number fun store t => (store.insert t user name).2
  | .decrement number name => s.withTxn number fun store t => (store.decrement t name).2
  | .commit number => s.withTxn number fun store t => (store.commit t).2
  | .rollback number => s.withTxn number fun store t => store.close t
  | .start user coupon deadline limit => some (s.start user coupon deadline limit)
  | .advance c => s.advance c
  | .expire c => s.expire c
  | .wake c => s.wake c
  | .cancel c => s.cancel c
  | .pass ms => some { s with now := s.now + ms }

def run : List Action → System → Option System
  | [], s => some s
  | action :: rest, s => do
      let next ← s.act action
      run rest next

end System

end CouponDesk.Memory
