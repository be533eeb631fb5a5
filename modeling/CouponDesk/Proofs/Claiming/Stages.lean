import CouponDesk.Claiming.Retry

/-!
# The stages of an attempt, one after another

What `Stage.run` does at a stage, in any monad: it makes the request of the stage, and goes on at
the stage that the reply leads to.  And what repeating does: one attempt after another.
-/

set_option autoImplicit false

namespace CouponDesk.Stage

/-- An attempt asks for no lock but that of its own coupon. -/
theorem turn_lock {user coupon name : String} {stage : Stage}
    {resume : (Request.lock name).Reply → Stage}
    (asks : stage.turn user coupon = .ask (.lock name) resume) : name = coupon := by
  cases stage <;> simp only [turn, Turn.ask.injEq, Request.lock.injEq, reduceCtorEq,
    false_and] at asks
  exact asks.1.symm

variable {m : Type → Type} [Monad m] (perform : (r : Request) → m r.Reply) (user coupon : String)

theorem run_of_ask (stage : Stage) (request : Request) (resume : request.Reply → Stage)
    (asks : stage.turn user coupon = .ask request resume) :
    stage.run perform user coupon =
      perform request >>= fun reply => (resume reply).run perform user coupon := by
  rw [run]
  split
  · simp_all
  · rename_i turned
    rw [asks] at turned
    cases turned
    rfl

@[simp]
theorem run_settled (result : Except Error Claim) :
    (settled result).run perform user coupon = pure result := by
  rw [run]
  split
  · simp_all [turn]
  · simp_all [turn]

end CouponDesk.Stage

namespace CouponDesk.Retry

/-- One attempt, and then the rest. -/
theorem runFrom_eq {m : Type → Type} [Monad m] (pause : Nat → m Unit)
    (once : m (Except Error Claim)) (limit attempt : Nat) :
    runFrom pause once limit attempt = once >>= fun result =>
      match pause? limit attempt result with
      | some ms => pause ms >>= fun _ => runFrom pause once limit (attempt + 1)
      | none => pure result := by
  rw [runFrom]
  refine congrArg (once >>= ·) (funext fun result => ?_)
  split
  · rename_i again
    rw [again]
  · rename_i stands
    rw [stands]

end CouponDesk.Retry
