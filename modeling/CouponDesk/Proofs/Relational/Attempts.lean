import CouponDesk.Proofs.Relational.Programs
import CouponDesk.Proofs.Relational.Tables

/-!
# What an attempt does to the tables

Under the write lock an attempt works on tables that start as the committed ones and that nobody
else changes.  `Attempt.Holds` says what it has made of them when it comes to a stage, whichever of
its statements fail on the way: nothing, a claim, or a claim and the unit for it.
-/

set_option autoImplicit false

namespace CouponDesk.Relational

/-! ## Programs under the write lock -/

/-- A statement inside a transaction, the guarded update only where there is a unit to take. -/
def Statement.Guarded (w : Tables) : Statement → Prop
  | .begin | .commit | .rollback => False
  | .takeUnit name => (w.takeUnit name).1 = 1
  | _ => True

namespace Program

variable {α β : Type}

/-- What a program ensures on tables that nobody else changes, whichever of its statements fail. -/
def Ensures (post : Tables → α → Prop) : Program α → Tables → Prop
  | .done value, w => post w value
  | .ask q resume, w =>
      q.Guarded w ∧ (∀ f, (resume (.error f)).Ensures post w) ∧
        (resume (w.exec q).1).Ensures post (w.exec q).2

theorem ensures_send (q : Statement) (post : Tables → q.Reply → Prop) (w : Tables) :
    (Program.send q).Ensures post w ↔
      q.Guarded w ∧ (∀ f, post w (.error f)) ∧ post (w.exec q).2 (w.exec q).1 := Iff.rfl

theorem ensures_bind (p : Program α) (next : α → Program β) (post : Tables → β → Prop)
    (w : Tables) :
    (p >>= next).Ensures post w ↔ p.Ensures (fun w value => (next value).Ensures post w) w := by
  induction p generalizing w with
  | done value => exact Iff.rfl
  | ask q resume ih => exact and_congr Iff.rfl (and_congr (forall_congr' fun f => ih _ w) (ih _ _))

theorem Ensures.mono {post post' : Tables → α → Prop} {p : Program α} {w : Tables}
    (ensures : p.Ensures post w) (weaker : ∀ w value, post w value → post' w value) :
    p.Ensures post' w := by
  induction p generalizing w with
  | done value => exact weaker w value ensures
  | ask q resume ih =>
      obtain ⟨guarded, fails, succeeds⟩ := ensures
      exact ⟨guarded, fun f => ih _ (fails f), ih _ succeeds⟩

end Program

namespace Records

open Program

variable (w : Tables) (name user coupon : String) (now : Int)

theorem ensures_findCoupon :
    (findCoupon Program.send name).Ensures (fun w' reply =>
      w' = w ∧ (reply = .ok (w.coupon? name) ∨ ∃ f, reply = .error (.database f))) w := by
  unfold findCoupon
  rw [ensures_bind, ensures_send]
  exact ⟨trivial, fun f => ⟨rfl, Or.inr ⟨f, rfl⟩⟩, rfl, Or.inl rfl⟩

/-- The guarded update takes one unit where there is one, unless a statement fails. -/
theorem ensures_takeUnit (sound : w.Sound) (stocked : w.Stocked name) :
    (takeUnit Program.send name).Ensures (fun w' reply =>
      (∃ row, reply = .ok row) ∧ w' = (w.takeUnit name).2 ∨ ∃ f, reply = .error (.database f))
      w := by
  obtain ⟨row, found, left⟩ := stocked
  have affected := sound.takeUnit_affected row found left
  unfold takeUnit
  rw [ensures_bind, ensures_send]
  refine ⟨affected, fun f => Or.inr ⟨f, rfl⟩, ?_⟩
  change (findCoupon Program.send name >>= _).Ensures _ (w.takeUnit name).2
  rw [ensures_bind]
  refine (ensures_findCoupon _ name).mono ?_
  rintro w' reply ⟨rfl, rfl | ⟨f, rfl⟩⟩
  · rw [Tables.coupon?_takeUnit, found]
    change Ensures _ (if (w.takeUnit name).1 = 0 then _ else _) _
    rw [affected]
    exact Or.inl ⟨⟨_, rfl⟩, rfl⟩
  · exact Or.inr ⟨f, rfl⟩

theorem ensures_addClaim :
    (addClaim .sqlite Program.send user coupon now).Ensures (fun w' reply =>
      (∃ row, w.addClaim user coupon now = .ok (row, w')) ∨ ∃ f, reply = .error f) w := by
  unfold addClaim
  rw [if_neg (by decide), ensures_bind, ensures_send]
  refine ⟨trivial, fun f => Or.inr ⟨f, rfl⟩, ?_⟩
  cases added : w.addClaim user coupon now with
  | error broken =>
      simp only [Tables.exec, added]
      exact Or.inr ⟨_, rfl⟩
  | ok inserted =>
      obtain ⟨row, after⟩ := inserted
      simp only [Tables.exec, added, Nat.one_ne_zero, if_false]
      split
      · exact Or.inr ⟨_, rfl⟩
      · rw [ensures_bind, ensures_send]
        refine ⟨trivial, fun f => Or.inr ⟨f, rfl⟩, ?_⟩
        simp only [Tables.exec]
        split
        · exact Or.inl ⟨row, rfl⟩
        · exact Or.inr ⟨_, rfl⟩
        · exact Or.inr ⟨_, rfl⟩

theorem ensures_insertClaim :
    (insertClaim .sqlite Program.send now user coupon).Ensures (fun w' reply =>
      (∃ row, w.addClaim user coupon now = .ok (row, w')) ∨ ∃ e, reply = .error e) w := by
  unfold insertClaim
  rw [ensures_bind]
  refine (ensures_addClaim w user coupon now).mono ?_
  rintro w' reply (⟨row, added⟩ | ⟨f, rfl⟩)
  · split <;> exact Or.inl ⟨row, added⟩
  · split
    · rename_i answered
      cases answered
    all_goals exact Or.inr ⟨_, rfl⟩

end Records

/-! ## The stages of an attempt -/

namespace Attempt

/-- The working tables of an attempt that has the write lock, when it comes to a stage; the
committed tables are `c`. -/
def Holds (a : Attempt) (c w : Tables) : Stage → Prop
  | .inserting => w = c ∧ c.Stocked a.coupon
  | .taking _ => c.Stocked a.coupon ∧ ∃ row, c.addClaim a.user a.coupon a.now = .ok (row, w)
  | .committing _ =>
      c.Stocked a.coupon ∧ ∃ row between,
        c.addClaim a.user a.coupon a.now = .ok (row, between) ∧ w = (between.takeUnit a.coupon).2
  | .undoing _ => True
  | .opening | .locking | .settled _ => False

/-- After its stock check an attempt is never turned down for want of a unit. -/
def Follows : Stage → Stage → Prop
  | .taking claim, next => next = .committing claim ∨ ∃ f, next = .undoing (.database f)
  | _, _ => True

/-- What an attempt leads to from the stage where it is. -/
def Reaches (a : Attempt) (c w : Tables) (next : Stage) : Prop :=
  a.Holds c w next ∧ Follows a.stage next

variable {a : Attempt} {c w : Tables}

theorem ensures_inserting (stage : a.stage = .inserting) (holds : a.Holds c w .inserting) :
    (program a.now a.user a.coupon .inserting).Ensures (a.Reaches c) w := by
  obtain ⟨rfl, stocked⟩ := holds
  refine (Program.ensures_bind (Records.insertClaim .sqlite Program.send a.now a.user a.coupon)
    _ _ w).mpr ?_
  refine (Records.ensures_insertClaim w a.user a.coupon a.now).mono ?_
  unfold Reaches
  rw [stage]
  rintro w' reply (added | ⟨e, rfl⟩)
  · cases reply with
    | ok claim => exact ⟨⟨stocked, added⟩, trivial⟩
    | error e => exact ⟨trivial, trivial⟩
  · exact ⟨trivial, trivial⟩

theorem stocked_of_added (row : ClaimRow) (added : c.addClaim a.user a.coupon a.now = .ok (row, w))
    (stocked : c.Stocked a.coupon) : w.Stocked a.coupon := by
  obtain ⟨-, -, -, rfl⟩ := Tables.addClaim_ok a.user a.coupon a.now row w added
  exact stocked

theorem ensures_taking (claim : Claim) (stage : a.stage = .taking claim) (inStep : c.InStep)
    (holds : a.Holds c w (.taking claim)) :
    (program a.now a.user a.coupon (.taking claim)).Ensures (a.Reaches c) w := by
  obtain ⟨stocked, row, added⟩ := holds
  have sound := inStep.sound.addClaim a.user a.coupon a.now row w added
  refine (Program.ensures_bind (Records.takeUnit Program.send a.coupon) _ _ w).mpr ?_
  refine (Records.ensures_takeUnit w a.coupon sound (stocked_of_added row added stocked)).mono ?_
  unfold Reaches
  rw [stage]
  rintro w' reply (⟨⟨row', rfl⟩, took⟩ | ⟨f, rfl⟩)
  · exact ⟨⟨stocked, row, w, added, took⟩, Or.inl rfl⟩
  · exact ⟨trivial, Or.inr ⟨f, rfl⟩⟩

/-- The first statement of a locked lookup writes, and takes the lock before anything is read. -/
theorem program_locking (stage : a.stage = .locking) :
    ∃ resume, program a.now a.user a.coupon .locking = .ask (.touchCoupon a.coupon) resume ∧
      (∀ f, resume (.error f) = .done (.undoing (.database f))) ∧
      ∀ effect, (resume (.ok effect)).Ensures (a.Reaches c) c := by
  refine ⟨_, rfl, fun f => rfl, fun effect => ?_⟩
  refine (Program.ensures_bind (Records.findCoupon Program.send a.coupon >>= fun row? =>
    .done (Records.required a.coupon row?)) _ _ c).mpr ((Program.ensures_bind _ _ _ c).mpr ?_)
  refine (Records.ensures_findCoupon c a.coupon).mono ?_
  unfold Reaches
  rw [stage]
  rintro w' reply ⟨rfl, rfl | ⟨f, rfl⟩⟩
  · cases found : w'.coupon? a.coupon with
    | none => exact ⟨trivial, trivial⟩
    | some row =>
        change a.Holds w' w' (Stage.checkStock a.coupon row) ∧ _
        unfold Stage.checkStock
        split
        · exact ⟨trivial, trivial⟩
        · exact ⟨⟨rfl, row, found, by omega⟩, trivial⟩
  · exact ⟨trivial, trivial⟩

end Attempt

end CouponDesk.Relational
