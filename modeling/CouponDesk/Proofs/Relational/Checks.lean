import CouponDesk.Proofs.Relational.Growth
import CouponDesk.Proofs.Relational.Programs
import CouponDesk.Relational.Callers

/-!
# The checks on stock

The checks declared on the table of coupons are a second line that is never reached.  A coupon is
only inserted with its full, positive stock, and a unit only taken where one is left: the guards
are in the statements.  So it makes no difference to a statement of the store whether a datastore
leaves the checks out or makes them at every write.
-/

set_option autoImplicit false

namespace CouponDesk.Relational

/-- A statement that inserts coupons only in rows that satisfy the checks. -/
def Statement.Modest : Statement → Prop
  | .addCoupon row _ | .addCouponReturning row _ => Tables.isSound row = true
  | _ => True

def Statement.AddsNoCoupon : Statement → Prop
  | .addCoupon _ _ | .addCouponReturning _ _ => False
  | _ => True

theorem Statement.AddsNoCoupon.modest {q : Statement} (none_added : q.AddsNoCoupon) : q.Modest := by
  cases q <;> trivial

namespace Tables

def insertCoupon (t : Tables) (row : Coupon) : Except Constraint Tables :=
  if (t.coupon? row.name).isSome then .error .unique
  else .ok { t with coupons := t.coupons ++ [row] }

/-- What a statement comes to on a datastore with keys and references, but without checks. -/
def unchecked (t : Tables) : (q : Statement) → q.Reply × Tables
  | .addCoupon row _ =>
      match t.insertCoupon row with
      | .ok after => (.ok ⟨0, 1⟩, after)
      | .error broken => (.error (.violation broken), t)
  | .addCouponReturning row _ =>
      match t.insertCoupon row with
      | .ok after => (.ok (some row), after)
      | .error broken => (.error (.violation broken), t)
  | q => t.exec q

/-- The rows of coupons that a statement writes, as it would leave them. -/
def written (t : Tables) : Statement → List Coupon
  | .addCoupon row _ | .addCouponReturning row _ => [row]
  | .touchCoupon name => t.coupons.filter (·.name = name)
  | .takeUnit name => (t.coupons.filter (canTake name)).map fun row =>
      { row with remaining := row.remaining - 1 }
  | _ => []

structure Obeys (t : Tables) (q : Statement) : Prop where
  /-- All rows that it writes satisfy them. -/
  written : ∀ row ∈ t.written q,
    0 < row.total ∧ 0 ≤ row.remaining ∧ row.remaining ≤ row.total
  /-- It leaves no other rows but those that were there. -/
  only : ∀ row ∈ (t.unchecked q).2.coupons, row ∈ t.coupons ∨ row ∈ t.written q
  /-- It changes no total, and takes no coupon or claim back. -/
  grows : t.Grows (t.unchecked q).2

/-- What a statement comes to on a datastore that makes the checks at every write. -/
def enforcing (t : Tables) (q : Statement) : q.Reply × Tables :=
  if (t.written q).all isSound then t.unchecked q else (.error (.violation .check), t)

variable {t : Tables} {q : Statement}

/-! ## Statements with their guards -/

theorem isSound_iff (row : Coupon) :
    isSound row = true ↔ 0 < row.total ∧ 0 ≤ row.remaining ∧ row.remaining ≤ row.total := by
  simp [isSound, and_assoc]

theorem exec_eq_unchecked (t : Tables) (modest : q.Modest) : t.exec q = t.unchecked q := by
  have insert : ∀ row, isSound row = true → t.addCoupon row = t.insertCoupon row := by
    intro row sound
    unfold Tables.addCoupon insertCoupon
    rw [if_neg (not_not.mpr sound)]
  cases q with
  | addCoupon row now =>
      cases inserted : t.insertCoupon row <;>
        simp only [exec, unchecked, insert row modest, inserted]
  | addCouponReturning row now =>
      cases inserted : t.insertCoupon row <;>
        simp only [exec, unchecked, insert row modest, inserted]
  | _ => rfl

theorem insertCoupon_ok (row : Coupon) (after : Tables)
    (inserted : t.insertCoupon row = .ok after) :
    after = { t with coupons := t.coupons ++ [row] } := by
  unfold insertCoupon at inserted
  split at inserted
  · cases inserted
  · cases inserted
    rfl

theorem Change.mem_written {t' : Tables} (change : t.Change q t') (row : Coupon)
    (member : row ∈ t'.coupons) : row ∈ t.coupons ∨ row ∈ t.written q := by
  cases change with
  | kept => exact Or.inl member
  | coupon given now _ inserts added =>
      obtain ⟨-, -, -, -, rfl⟩ := addCoupon_ok given t' added
      rcases inserts with rfl | rfl
      · exact List.mem_append.mp member
      · exact List.mem_append.mp member
  | unit name takes =>
      subst takes
      obtain ⟨old, oldMember, rfl⟩ := List.mem_map.mp member
      split
      · rename_i able
        exact Or.inr (List.mem_map_of_mem (List.mem_filter.mpr ⟨oldMember, able⟩))
      · exact Or.inl oldMember
  | claim user coupon now given _ added =>
      obtain ⟨-, -, -, rfl⟩ := addClaim_ok user coupon now given t' added
      exact Or.inl member
  | defined object =>
      unfold define at member
      split at member <;> exact Or.inl member

theorem mem_unchecked (t : Tables) (q : Statement) (row : Coupon)
    (member : row ∈ (t.unchecked q).2.coupons) : row ∈ t.coupons ∨ row ∈ t.written q := by
  have inserted : ∀ given after, t.insertCoupon given = .ok after → row ∈ after.coupons →
      row ∈ t.coupons ∨ row ∈ [given] := by
    intro given after added member
    rw [insertCoupon_ok given after added] at member
    exact List.mem_append.mp member
  cases q with
  | addCoupon given now =>
      simp only [unchecked] at member
      split at member
      · exact inserted given _ ‹_› member
      · exact Or.inl member
  | addCouponReturning given now =>
      simp only [unchecked] at member
      split at member
      · exact inserted given _ ‹_› member
      · exact Or.inl member
  | _ => exact (t.exec_change _).mem_written row member

theorem Sound.written (sound : t.Sound) (modest : q.Modest) :
    ∀ row ∈ t.written q, isSound row = true := by
  intro row member
  cases q with
  | addCoupon given now =>
      rw [List.mem_singleton.mp member]
      exact modest
  | addCouponReturning given now =>
      rw [List.mem_singleton.mp member]
      exact modest
  | touchCoupon name =>
      rw [isSound_iff]
      exact sound.stock row (List.mem_filter.mp member).1
  | takeUnit name =>
      obtain ⟨old, listed, rfl⟩ := List.mem_map.mp member
      obtain ⟨oldMember, able⟩ := List.mem_filter.mp listed
      have stock := sound.stock old oldMember
      simp only [canTake, Bool.and_eq_true, decide_eq_true_eq] at able
      rw [isSound_iff]
      dsimp only
      omega
  | _ => cases member

theorem Sound.obeys (sound : t.Sound) (modest : q.Modest) : t.Obeys q where
  written := fun row member => (isSound_iff row).mp (sound.written modest row member)
  only := t.mem_unchecked q
  grows := by
    rw [← t.exec_eq_unchecked modest]
    exact t.grows_exec q

theorem Sound.enforcing_eq (sound : t.Sound) (modest : q.Modest) :
    t.enforcing q = t.unchecked q := by
  unfold enforcing
  rw [if_pos (List.all_eq_true.mpr (sound.written modest))]

theorem Change.sound {t' : Tables} (change : t.Change q t') (sound : t.Sound) : t'.Sound := by
  cases change with
  | kept => exact sound
  | coupon row now _ inserts added => exact sound.addCoupon row t' added
  | unit name takes => exact sound.takeUnit name
  | claim user coupon now row _ added => exact sound.addClaim user coupon now row t' added
  | defined object =>
      unfold define
      split
      · exact sound
      · exact ⟨sound.names, sound.stock, sound.once, sound.named, sound.ids, sound.idBound⟩

theorem Sound.exec (sound : t.Sound) (q : Statement) : (t.exec q).2.Sound :=
  (t.exec_change q).sound sound

end Tables

/-! ## Programs with their guards -/

namespace Records

open Program

theorem only_findCoupon (name : String) :
    (findCoupon Program.send name).Only Statement.AddsNoCoupon := by
  unfold findCoupon
  refine only_bind _ _ _ ⟨trivial, fun _ => trivial⟩ fun reply => ?_
  cases reply <;> trivial

/-- A coupon is inserted with its full stock, after its amount was found positive. -/
theorem only_createCoupon (d : Dialect) (now : Int) (name : String) (amount : Int) :
    (createCoupon d Program.send now name amount).Only Statement.Modest := by
  unfold createCoupon
  split
  · trivial
  · rename_i positive
    have sound : Tables.isSound (.fresh name amount) = true := by
      rw [Tables.isSound_iff]
      simp only [Coupon.fresh]
      omega
    refine only_bind _ _ _ ?_ ?_
    · unfold addCoupon
      split
      · refine only_bind _ _ _ ⟨sound, fun _ => trivial⟩ fun reply => ?_
        split <;> trivial
      · refine only_bind _ _ _ ⟨sound, fun _ => trivial⟩ fun reply => ?_
        split
        · trivial
        · split
          · trivial
          · refine only_bind _ _ _ ⟨trivial, fun _ => trivial⟩ fun reply => ?_
            split <;> trivial
    · intro reply
      split <;> trivial

theorem only_findForUpdate (d : Dialect) (name : String) :
    (findForUpdate d Program.send name).Only Statement.AddsNoCoupon := by
  unfold findForUpdate
  split
  · refine only_bind _ _ _ ⟨trivial, fun _ => trivial⟩ fun reply => ?_
    split <;> trivial
  · refine only_bind _ _ _ ⟨trivial, fun _ => trivial⟩ fun reply => ?_
    split
    · trivial
    · exact only_findCoupon name

theorem only_takeUnit (name : String) :
    (takeUnit Program.send name).Only Statement.AddsNoCoupon := by
  unfold takeUnit
  refine only_bind _ _ _ ⟨trivial, fun _ => trivial⟩ fun reply => ?_
  split
  · trivial
  · refine only_bind _ _ _ (only_findCoupon name) fun found => ?_
    split
    · trivial
    · trivial
    · split <;> trivial

theorem only_insertClaim (d : Dialect) (now : Int) (user coupon : String) :
    (insertClaim d Program.send now user coupon).Only Statement.AddsNoCoupon := by
  unfold insertClaim
  refine only_bind _ _ _ ?_ fun reply => ?_
  · unfold addClaim
    split
    · refine only_bind _ _ _ ⟨trivial, fun _ => trivial⟩ fun reply => ?_
      split <;> trivial
    · refine only_bind _ _ _ ⟨trivial, fun _ => trivial⟩ fun reply => ?_
      split
      · trivial
      · split
        · trivial
        · split
          · trivial
          · refine only_bind _ _ _ ⟨trivial, fun _ => trivial⟩ fun found => ?_
            split <;> trivial
  · split <;> trivial

theorem only_perform (d : Dialect) (now : Int) (r : Request) :
    (perform d Program.send now r).Only Statement.AddsNoCoupon := by
  cases r with
  | lock coupon => exact only_bind _ _ _ (only_findForUpdate d coupon) fun _ => trivial
  | insert user coupon => exact only_insertClaim d now user coupon
  | decrement coupon => exact only_takeUnit coupon
  | begin => exact ⟨trivial, fun _ => trivial⟩
  | commit => exact ⟨trivial, fun _ => trivial⟩
  | rollback => exact ⟨trivial, fun _ => trivial⟩

end Records

theorem only_run (kind : Statement → Prop) (perform : (r : Request) → Program r.Reply)
    (each : ∀ r, (perform r).Only kind) (user coupon : String) (stage : Stage) :
    (stage.run perform user coupon).Only kind := by
  cases turned : stage.turn user coupon with
  | answer result =>
      cases stage <;> simp only [Stage.turn, reduceCtorEq] at turned
      rw [Stage.run_settled]
      trivial
  | ask request resume =>
      rw [Stage.run_of_ask _ _ _ stage request resume turned]
      refine Program.only_bind _ _ _ (each request) fun reply => ?_
      have lower := Stage.rank_resume_lt turned reply
      exact only_run kind perform each user coupon (resume reply)
termination_by stage.rank

theorem only_operation (d : Dialect) (now : Int) (op : Operation) :
    (op.program d now).Only Statement.Modest := by
  cases op with
  | create name amount =>
      exact Program.only_bind _ _ _ (Records.only_createCoupon d now name amount) fun _ => trivial
  | get name =>
      refine Program.only_bind _ _ _ ?_ fun _ => trivial
      have found := (Records.only_findCoupon name).mono fun _ => Statement.AddsNoCoupon.modest
      exact Program.only_bind _ _ _ found fun _ => trivial
  | claimants name =>
      refine Program.only_bind _ _ _ ?_ fun _ => trivial
      refine Program.only_bind _ _ _ ⟨trivial, fun _ => trivial⟩ fun reply => ?_
      split <;> trivial
  | count name =>
      refine Program.only_bind _ _ _ ?_ fun _ => trivial
      refine Program.only_bind _ _ _ ⟨trivial, fun _ => trivial⟩ fun reply => ?_
      split <;> trivial

/-! ## Callers -/

def Caller.Modest : Caller → Prop
  | .outside rest => rest.Only Statement.Modest
  | .working rest => rest.Only Statement.Modest
  | .inside | .gone => True

theorem Caller.Modest.next {caller : Caller} (modest : caller.Modest) (own : Bool) (q : Statement)
    (next : caller.next? = some (own, q)) : q.Modest := by
  unfold Caller.next? at next
  split at next
  · cases next
    exact modest.1
  · cases next
    exact modest.1
  · cases next

theorem modest_proceed (rest : Program Bool) (only : rest.Only Statement.Modest) :
    (Caller.proceed rest).Modest := by
  cases rest with
  | done goesOn => cases goesOn <;> trivial
  | ask q resume => exact only

theorem modest_perform (d : Dialect) (now : Int) (r : Request) :
    (Records.perform d Program.send now r).Only Statement.Modest :=
  (Records.only_perform d now r).mono fun _ => Statement.AddsNoCoupon.modest

theorem modest_request (d : Dialect) (now : Int) (r : Request) :
    (Caller.proceed (requestProgram d now r)).Modest :=
  modest_proceed _ (Program.only_bind _ _ _ (modest_perform d now r) fun _ => trivial)

theorem modest_attempt (d : Dialect) (now : Int) (user coupon : String) :
    (Caller.proceed (attemptProgram d now user coupon)).Modest := by
  refine modest_proceed _ (Program.only_bind _ _ _ ?_ fun _ => trivial)
  exact only_run _ _ (modest_perform d now) user coupon .opening

end CouponDesk.Relational
