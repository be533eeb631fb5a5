import CouponDesk.Proofs.Memory.Operations
import CouponDesk.Proofs.Memory.Staging

/-!
# Refused operations

Which operations a store refuses, and with which error where several would do.  A refusal leaves no
trace: what is refused might as well not have been tried.  The commit stands apart, for it ends its
transaction in any case.
-/

set_option autoImplicit false

namespace CouponDesk.Memory

def refusalOf {α : Type} : Except Error α → Option Error
  | .ok _ => none
  | .error e => some e

namespace Store

/-- The error with which an operation other than a commit is refused. -/
def rejection? (s : Store) : Operation → Option Error
  | .create name amount => refusalOf (s.create name amount).1
  | .ask _ .commit => none
  | .ask t request => (s.perform t request).1.bind refusalOf
  | _ => none

def accepted : List Operation → Store → List Operation
  | [], _ => []
  | op :: rest, s =>
      if (s.rejection? op).isSome then accepted rest (s.after op)
      else op :: accepted rest (s.after op)

variable {s s' : Store} (t : TxnId) (user name : String) (amount : Int) (e : Error)

/-! ## The errors -/

theorem refused_iff {α : Type} (given e : Error) :
    ((.error given : Except Error α), s) = (.error e, s') ↔ s' = s ∧ e = given := by
  rw [Prod.mk.injEq, Except.error.injEq, and_comm, eq_comm, @eq_comm _ given]

theorem create_eq_error_iff :
    s.create name amount = (.error e, s') ↔
      s' = s ∧ (amount ≤ 0 ∧ e = .invalidAmount amount ∨
        0 < amount ∧ (s.coupon? name).isSome ∧ e = .couponExists name) := by
  unfold create
  by_cases refused : amount ≤ 0
  · rw [if_pos refused, refused_iff]
    simp [refused, Int.not_lt.mpr refused]
  · rw [if_neg refused]
    cases s.coupon? name with
    | none => simp [refused]
    | some row =>
        dsimp only
        rw [refused_iff]
        simp [refused, Int.not_le.mp refused]

theorem lock_eq_error_iff :
    s.lock t name = (some (.error e), s') ↔
      s' = s ∧ s.coupon? name = none ∧ e = .couponNotFound name := by
  cases found : s.coupon? name with
  | none =>
      rw [lock_missing s t name found]
      simp [and_comm, eq_comm]
  | some row =>
      rw [lock_found s t name row found]
      split <;> simp

theorem insert_eq_error_iff :
    s.insert t user name = (.error e, s') ↔
      s' = s ∧ (s.coupon? name = none ∧ e = .couponNotFound name ∨
        (s.coupon? name).isSome ∧
          ((user, name) ∈ s.keys ∨ (user, name) ∈ (s.txn t).staged.map Claim.key) ∧
          e = .alreadyClaimed user name) := by
  cases found : s.coupon? name with
  | none =>
      rw [insert_missing t user name found, refused_iff]
      simp
  | some row =>
      rw [insert_found t user name row found]
      by_cases claimed : (user, name) ∈ s.keys ∨ (user, name) ∈ (s.txn t).staged.map Claim.key
      · rw [if_pos claimed, refused_iff]
        simp only [claimed, true_and, Option.isSome_some, reduceCtorEq, false_and, false_or]
      · rw [if_neg claimed]
        simp only [claimed, false_and, and_false, reduceCtorEq, Prod.mk.injEq, or_self]

/-- A lock is held on coupons that exist only, so a missing coupon is never noticed. -/
theorem Sound.decrement_eq_error_iff (sound : s.Sound) :
    s.decrement t name = (.error e, s') ↔
      s' = s ∧ (s.holds t name = false ∧ e = .transient (.unlocked name) ∨
        s.holds t name = true ∧
          (∃ row, s.coupon? name = some row ∧ (s.view t row).remaining = 0) ∧
          e = .noStock name) := by
  cases holds : s.holds t name with
  | false =>
      rw [decrement_unheld t name holds, refused_iff]
      simp
  | true =>
      have ticket := ticket_of_holds s t name holds
      obtain ⟨row, found⟩ := Option.isSome_iff_exists.mp (sound.locks.named _ ticket)
      have named := (coupon?_some s name row found).2
      have enough := sound.locks.enough t name row found
      have empty : row.remaining ≤ (s.txn t).taken.count name ↔ (s.view t row).remaining = 0 := by
        simp only [view, named]
        omega
      rw [decrement_held t name row found holds]
      by_cases soldOut : (s.view t row).remaining = 0
      · rw [if_pos (empty.mpr soldOut), refused_iff]
        simp [soldOut, found]
      · rw [if_neg (mt empty.mp soldOut)]
        simp [soldOut, found]

/-! ## No trace -/

theorem eq_error_of_refusalOf {α : Type} {reply : Except Error α}
    (given : refusalOf reply = some e) : reply = .error e := by
  cases reply with
  | ok value => cases given
  | error other => exact congrArg Except.error (Option.some.inj given)

/-- A refused operation changes nothing: no table, no lock, no id, nothing that is staged. -/
theorem Sound.after_of_rejected (sound : s.Sound) (op : Operation)
    (rejected : s.rejection? op = some e) : s.after op = s := by
  cases op with
  | create name amount =>
      have reply := eq_error_of_refusalOf e rejected
      exact ((create_eq_error_iff name amount e).mp (Prod.ext reply rfl)).1
  | ask t request =>
      cases request with
      | lock name =>
          obtain ⟨given, replied, failed⟩ := Option.bind_eq_some_iff.mp rejected
          rw [eq_error_of_refusalOf e failed] at replied
          exact ((lock_eq_error_iff t name e).mp (Prod.ext replied rfl)).1
      | insert user name =>
          have reply := eq_error_of_refusalOf e rejected
          exact ((insert_eq_error_iff t user name e).mp (Prod.ext reply rfl)).1
      | decrement name =>
          have reply := eq_error_of_refusalOf e rejected
          exact ((sound.decrement_eq_error_iff t name e).mp (Prod.ext reply rfl)).1
      | _ => cases rejected
  | _ => cases rejected

/-- Without the operations that are refused, a list of operations comes to the same. -/
theorem Sound.carryOut_accepted (sound : s.Sound) (ops : List Operation)
    (carried : s.carryOut ops = some s') : s.carryOut (s.accepted ops) = some s' := by
  induction ops generalizing s with
  | nil => exact carried
  | cons op rest ih =>
      obtain ⟨admitted, carried⟩ := Option.ite_none_right_eq_some.mp carried
      have next := ih (after_sound sound op admitted) carried
      unfold accepted
      cases rejected : s.rejection? op with
      | some e =>
          rw [sound.after_of_rejected e op rejected] at next ⊢
          exact next
      | none => exact Option.ite_none_right_eq_some.mpr ⟨admitted, next⟩

/-- What a store refuses, with which error, and what becomes of it. -/
structure Refuses (s : Store) : Prop where
  create : ∀ name amount e s', s.create name amount = (.error e, s') ↔
    s' = s ∧ (amount ≤ 0 ∧ e = .invalidAmount amount ∨
      0 < amount ∧ (s.coupon? name).isSome ∧ e = .couponExists name)
  checked : ∀ name amount, s.createChecked name amount = s.create name amount
  lock : ∀ t name e s', s.lock t name = (some (.error e), s') ↔
    s' = s ∧ s.coupon? name = none ∧ e = .couponNotFound name
  decrement : ∀ t name e s', s.decrement t name = (.error e, s') ↔
    s' = s ∧ (s.holds t name = false ∧ e = .transient (.unlocked name) ∨
      s.holds t name = true ∧
        (∃ row, s.coupon? name = some row ∧ (s.view t row).remaining = 0) ∧
        e = .noStock name)
  insert : ∀ t user name e s', s.insert t user name = (.error e, s') ↔
    s' = s ∧ (s.coupon? name = none ∧ e = .couponNotFound name ∨
      (s.coupon? name).isSome ∧
        ((user, name) ∈ s.keys ∨ (user, name) ∈ (s.txn t).staged.map Claim.key) ∧
        e = .alreadyClaimed user name)
  /-- Nothing but the commit is refused and yet does something. -/
  traceless : ∀ op e, s.rejection? op = some e → s.after op = s
  /-- After a refusal a transaction commits all that it had staged. -/
  goesOn : ∀ op e, s.rejection? op = some e → ∀ t, s.isLive t = true → s.failing = 0 →
    (∀ claim ∈ (s.txn t).staged, claim.key ∉ s.keys) →
      (s.after op).isLive t = true ∧
        (s.after op).commit t = (.ok (), (s.close t).apply (s.txn t))
  dropped : ∀ ops s', s.carryOut ops = some s' → s.carryOut (s.accepted ops) = some s'

theorem Sound.refuses (sound : s.Sound) : s.Refuses where
  create := fun name amount e s' => create_eq_error_iff name amount e
  checked := createChecked_eq s
  lock := fun t name e s' => lock_eq_error_iff t name e
  decrement := fun t name e s' => sound.decrement_eq_error_iff t name e
  insert := fun t user name e s' => insert_eq_error_iff t user name e
  traceless := fun op e => sound.after_of_rejected e op
  goesOn := by
    intro op e rejected t live due free
    have unclaimed : (s.txn t).staged.find? (·.key ∈ s.keys) = none := by
      rw [List.find?_eq_none]
      simpa using free
    rw [sound.after_of_rejected e op rejected, sound.commit_eq t, if_neg (by omega), unclaimed]
    exact ⟨live, rfl⟩
  dropped := fun ops s' => sound.carryOut_accepted ops

end Store

namespace System

variable {s s' : System}

theorem act_of_rejected (sound : s.Sound) (action : Action) (op : Operation) (e : Error)
    (operates : s.operation? action = some op) (rejected : s.store.rejection? op = some e)
    (step : s.act action = some s') : s'.store = s.store := by
  rw [(act_after sound action op operates step).2]
  exact sound.store.after_of_rejected e op rejected

/-- In every state of a run the right error is given, and what is refused leaves no trace, whether
a transaction is driven by hand or by a call. -/
theorem run_refuses (actions : List Action) (runs : run actions {} = some s) :
    s.store.Refuses ∧
      ∀ action op e s', s.operation? action = some op → s.store.rejection? op = some e →
        s.act action = some s' → s'.store = s.store := by
  have sound := run_sound actions runs
  refine ⟨sound.store.refuses, ?_⟩
  intro action op e s' operates rejected step
  exact act_of_rejected sound action op e operates rejected step

/-- A transaction stages a claim and the last unit; whatever it tries then is refused. -/
def rebuffs : List Action :=
  [.create "SOLO" 1, .begin 0, .lock 0 "SOLO", .insert 0 "first" "SOLO", .decrement 0 "SOLO",
    .create "SOLO" 0, .create "SOLO" 5, .lock 0 "NONE", .decrement 0 "NONE", .decrement 0 "SOLO",
    .insert 0 "first" "NONE", .insert 0 "first" "SOLO"]

theorem run_refuses_rebuffs :
    ∃ s before after, run rebuffs {} = some s ∧ s.store.Refuses ∧
      run (rebuffs.take 5) {} = some before ∧ s.store = before.store ∧
      s.store.rejection? (.create "SOLO" 0) = some (.invalidAmount 0) ∧
      s.store.rejection? (.ask (.manual 0) (.decrement "SOLO")) = some (.noStock "SOLO") ∧
      s.store.rejection? (.ask (.manual 0) (.insert "first" "SOLO")) =
        some (.alreadyClaimed "first" "SOLO") ∧
      s.act (.commit 0) = some after ∧ after.store.claims = [⟨1, "first", "SOLO"⟩] :=
  ⟨_, _, _, rfl, (run_refuses rebuffs rfl).1, rfl, rfl, rfl, rfl, rfl, rfl, rfl⟩

end System

end CouponDesk.Memory
