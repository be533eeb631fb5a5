import CouponDesk.Proofs.Claiming.Stages
import CouponDesk.Relational.Clients

/-!
# Programs of records

The operations on records are written for any way of sending statements.  Taken as programs and
carried out, they come to the same as if their statements had been sent right away; so what is
proved about programs whose statements are carried out among each other is about these
operations.
-/

set_option autoImplicit false

namespace CouponDesk.Relational

/-- One stateful computation after another, from a state. -/
theorem bind_state {σ α β : Type} (first : StateM σ α) (next : α → StateM σ β) (s : σ) :
    (first >>= next) s = next (first s).1 (first s).2 := rfl

variable {m : Type → Type} [Monad m] (send : (q : Statement) → m q.Reply)

namespace Program

variable {α β : Type}

@[simp]
theorem run_pure (value : α) : (pure value : Program α).run send = pure value := rfl

@[simp]
theorem run_send [LawfulMonad m] (q : Statement) : (Program.send q).run send = send q := by
  simp [Program.send, run]

@[simp]
theorem run_bind [LawfulMonad m] (p : Program α) (next : α → Program β) :
    (p >>= next).run send = p.run send >>= fun value => (next value).run send := by
  induction p with
  | done value => simp [run, Bind.bind, Program.bind]
  | ask q resume ih =>
      change send q >>= (fun reply => ((resume reply).bind next).run send) = _
      simp only [run, bind_assoc]
      exact bind_congr ih

/-- All statements that a program may ever send are of a certain kind. -/
def Only (kind : Statement → Prop) : Program α → Prop
  | .done _ => True
  | .ask q resume => kind q ∧ ∀ reply, (resume reply).Only kind

theorem only_bind (kind : Statement → Prop) (p : Program α) (next : α → Program β)
    (first : p.Only kind) (second : ∀ value, (next value).Only kind) : (p >>= next).Only kind := by
  induction p with
  | done value => exact second value
  | ask q resume ih => exact ⟨first.1, fun reply => ih reply (first.2 reply)⟩

theorem Only.mono {kind kind' : Statement → Prop} {p : Program α} (only : p.Only kind)
    (weaker : ∀ q, kind q → kind' q) : p.Only kind' := by
  induction p with
  | done value => trivial
  | ask q resume ih => exact ⟨weaker q only.1, fun reply => ih reply (only.2 reply)⟩

theorem run_ite (c : Prop) [Decidable c] (p p' : Program α) :
    (if c then p else p').run send = if c then p.run send else p'.run send := by
  split <;> rfl

end Program

namespace Records

open Program

variable [LawfulMonad m]

theorem run_findCoupon (name : String) :
    (findCoupon Program.send name).run send = findCoupon send name := by
  unfold findCoupon
  rw [run_bind, run_send]
  refine bind_congr fun reply => ?_
  cases reply <;> rfl

theorem run_findForUpdate (d : Dialect) (name : String) :
    (findForUpdate d Program.send name).run send = findForUpdate d send name := by
  unfold findForUpdate
  simp only [run_ite, run_bind, run_send]
  congr 1 <;> refine bind_congr fun reply => ?_
  · cases reply <;> rfl
  · cases reply with
    | ok effect => exact run_findCoupon send name
    | error f => rfl

theorem run_takeUnit (name : String) :
    (takeUnit Program.send name).run send = takeUnit send name := by
  unfold takeUnit
  rw [run_bind, run_send]
  refine bind_congr fun reply => ?_
  cases reply with
  | error f => rfl
  | ok effect =>
      dsimp only
      rw [run_bind, run_findCoupon]
      refine bind_congr fun found => ?_
      split
      · rfl
      · rfl
      · split <;> rfl

theorem run_addClaim (d : Dialect) (user coupon : String) (now : Int) :
    (addClaim d Program.send user coupon now).run send = addClaim d send user coupon now := by
  unfold addClaim
  simp only [run_ite, run_bind, run_send]
  congr 1 <;> refine bind_congr fun reply => ?_
  · split <;> rfl
  · cases reply with
    | error f => rfl
    | ok effect =>
        simp only [run_ite, run_bind, run_send, run_pure]
        split
        · rfl
        · split
          · rfl
          · refine bind_congr fun found => ?_
            split <;> rfl

theorem run_insertClaim (d : Dialect) (now : Int) (user coupon : String) :
    (insertClaim d Program.send now user coupon).run send = insertClaim d send now user coupon := by
  unfold insertClaim
  rw [run_bind, run_addClaim]
  refine bind_congr fun reply => ?_
  split <;> rfl

/-- An attempt's requests, carried out as programs, are the requests that it makes on its store. -/
theorem run_perform (d : Dialect) (now : Int) (r : Request) :
    (perform d Program.send now r).run send = perform d send now r := by
  cases r with
  | lock coupon =>
      change run send (findForUpdate d Program.send coupon >>= fun row? =>
        pure (required coupon row?)) = _
      rw [run_bind, run_findForUpdate]
      rfl
  | insert user coupon => exact run_insertClaim send d now user coupon
  | decrement coupon => exact run_takeUnit send coupon
  | begin =>
      change run send (Program.send .begin >>= fun reply => pure (reply.mapError Error.database)) = _
      rw [run_bind, run_send]
      rfl
  | commit =>
      change run send (Program.send .commit >>= fun reply => pure (reply.mapError Error.database)) = _
      rw [run_bind, run_send]
      rfl
  | rollback =>
      change run send (Program.send .rollback >>= fun reply => pure (reply.mapError Error.database)) = _
      rw [run_bind, run_send]
      rfl

end Records

end CouponDesk.Relational
