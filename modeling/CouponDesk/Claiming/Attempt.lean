import CouponDesk.Coupon
import CouponDesk.Error

/-!
# One attempt at a claim

An attempt is one transaction: it begins, locks the coupon, checks the stock under the lock,
inserts the claim, takes one unit and commits; anything that fails before the commit is rolled
back, and the failure stays the answer whatever the rollback says.

The attempt is described against any store.  A `Stage` is a point between two requests, and
`Stage.turn` says which request comes next and how its reply leads on.  `Stage.run` performs the
requests one after another in any monad; a store whose locks make an attempt wait goes through
the stages itself.
-/

set_option autoImplicit false

namespace CouponDesk

inductive Request
  | begin
  | lock (coupon : String)
  | insert (user coupon : String)
  | decrement (coupon : String)
  | commit
  | rollback
deriving DecidableEq, Repr

namespace Request

def Answer : Request → Type
  | .lock _ | .decrement _ => Coupon
  | .insert _ _ => Claim
  | .begin | .commit | .rollback => Unit

abbrev Reply (r : Request) : Type := Except Error r.Answer

end Request

/-- The points at which an attempt stands between two requests. -/
inductive Stage
  | opening
  | locking
  | inserting
  | taking (claim : Claim)
  | committing (claim : Claim)
  | undoing (error : Error)
  | settled (result : Except Error Claim)

inductive Turn
  | answer (result : Except Error Claim)
  | ask (request : Request) (resume : request.Reply → Stage)

namespace Stage

/-- The stage after the locked row is known: without stock there is nothing to insert. -/
def checkStock (coupon : String) (row : Coupon) : Stage :=
  if row.remaining ≤ 0 then .undoing (.noStock coupon) else .inserting

def turn (user coupon : String) : Stage → Turn
  | .opening => .ask .begin fun
      | .ok _ => .locking
      | .error e => .settled (.error e)
  | .locking => .ask (.lock coupon) fun
      | .ok row => checkStock coupon row
      | .error e => .undoing e
  | .inserting => .ask (.insert user coupon) fun
      | .ok claim => .taking claim
      | .error e => .undoing e
  | .taking claim => .ask (.decrement coupon) fun
      | .ok _ => .committing claim
      | .error e => .undoing e
  | .committing claim => .ask .commit fun
      | .ok _ => .settled (.ok claim)
      | .error e => .settled (.error e)
  | .undoing e => .ask .rollback fun _ => .settled (.error e)
  | .settled result => .answer result

def rank : Stage → Nat
  | .opening => 6
  | .locking => 5
  | .inserting => 4
  | .taking _ => 3
  | .committing _ => 2
  | .undoing _ => 1
  | .settled _ => 0

theorem rank_checkStock_lt (coupon : String) (row : Coupon) : (checkStock coupon row).rank < 5 := by
  unfold checkStock
  split <;> simp [rank]

/-- Every reply brings an attempt nearer to its end. -/
theorem rank_resume_lt {user coupon : String} {stage : Stage} {request : Request}
    {resume : request.Reply → Stage} (asks : stage.turn user coupon = .ask request resume)
    (reply : request.Reply) : (resume reply).rank < stage.rank := by
  cases stage <;> simp only [turn, Turn.ask.injEq, reduceCtorEq] at asks
  case locking =>
    obtain ⟨rfl, asks⟩ := asks
    cases asks
    cases reply with
    | ok row => exact rank_checkStock_lt coupon row
    | error e => simp [rank]
  all_goals
    obtain ⟨rfl, asks⟩ := asks
    cases asks
    cases reply <;> simp [rank]

def run {m : Type → Type} [Monad m] (perform : (r : Request) → m r.Reply)
    (user coupon : String) (stage : Stage) : m (Except Error Claim) :=
  match _ : stage.turn user coupon with
  | .answer result => pure result
  | .ask request resume => do
      let reply ← perform request
      run perform user coupon (resume reply)
termination_by stage.rank
decreasing_by exact rank_resume_lt ‹_› reply

end Stage

def attempt {m : Type → Type} [Monad m] (perform : (r : Request) → m r.Reply)
    (user coupon : String) : m (Except Error Claim) :=
  Stage.opening.run perform user coupon

/-- One attempt that must finish within a deadline.  If the deadline passes while the attempt waits
for a reply, there is none; the attempt is dropped, and its transaction with it. -/
def attemptWithin {m : Type → Type} [Monad m] (perform : (r : Request) → OptionT m r.Reply)
    (drop : m Unit) (deadline : Duration) (user coupon : String) : m (Except Error Claim) := do
  match ← (attempt perform user coupon).run with
  | some result => return result
  | none =>
      drop
      return .error (.timeout coupon deadline)

end CouponDesk
