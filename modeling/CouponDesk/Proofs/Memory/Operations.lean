import CouponDesk.Proofs.Memory.Locks

/-!
# Operations on the store

What a run does to the store, taken apart from the calls and the clock: a list of operations, each
by one transaction or from outside.  A list of operations may be more than a run of the system can
do, for its attempts follow no protocol; what holds of all such lists holds of every run.
-/

set_option autoImplicit false

namespace CouponDesk.Memory

inductive Operation
  | create (name : String) (amount : Int)
  | failCommits (count : Nat)
  | ask (t : TxnId) (request : Request)
  /-- A transaction gives up waiting for a lock. -/
  | leave (t : TxnId) (name : String)
  | drop (t : TxnId)
deriving DecidableEq

def Operation.txn? : Operation → Option TxnId
  | .ask t _ | .leave t _ | .drop t => some t
  | .create _ _ | .failCommits _ => none

namespace Store

/-- Whether an operation is possible: a transaction begins once, and does nothing else before. -/
def admits (s : Store) : Operation → Bool
  | .ask t .begin => !s.isLive t
  | .ask t _ | .leave t _ => s.isLive t
  | .create _ _ | .failCommits _ | .drop _ => true

def after (s : Store) : Operation → Store
  | .create name amount => (s.create name amount).2
  | .failCommits count => s.failCommits count
  | .ask t request => (s.perform t request).2
  | .leave t name => s.leave t name
  | .drop t => s.close t

def carryOut : List Operation → Store → Option Store
  | [], s => some s
  | op :: rest, s => if s.admits op then carryOut rest (s.after op) else none

variable {s s' : Store}

theorem perform_change (t : TxnId) (request : Request)
    (admitted : s.admits (.ask t request) = true) : s.Change t (s.perform t request).2 := by
  cases request with
  | begin => exact .opened (by simpa [admits] using admitted)
  | lock name => exact s.lock_change t name admitted
  | insert user name => exact s.insert_change t user name admitted
  | decrement name => exact s.decrement_change t name admitted
  | commit => exact s.commit_change t
  | rollback => exact .closed

theorem after_change (op : Operation) (t : TxnId) (own : op.txn? = some t)
    (admitted : s.admits op = true) : s.Change t (s.after op) := by
  cases op <;> simp only [Operation.txn?, Option.some.injEq, reduceCtorEq] at own <;> subst own
  case ask request => exact perform_change _ request admitted
  case leave name => exact s.leave_change _ name
  case drop => exact .closed

theorem after_sound (sound : s.Sound) (op : Operation) (admitted : s.admits op = true) :
    (s.after op).Sound := by
  cases acting : op.txn? with
  | some t => exact (after_change op t acting admitted).sound sound
  | none =>
      cases op <;> simp only [Operation.txn?, reduceCtorEq] at acting
      case create name amount => exact create_sound s name amount sound
      case failCommits count => exact failCommits_sound s count sound

/-! ## What the operations of a transaction come to -/

variable (t : TxnId) (user name : String)

theorem insert_missing (missing : s.coupon? name = none) :
    s.insert t user name = (.error (.couponNotFound name), s) := by
  unfold insert
  rw [missing]

theorem insert_found (row : Coupon) (found : s.coupon? name = some row) :
    s.insert t user name =
      if (user, name) ∈ s.keys ∨ (user, name) ∈ (s.txn t).staged.map Claim.key then
        (.error (.alreadyClaimed user name), s)
      else (.ok ⟨s.lastId + 1, user, name⟩, s.draw t user name) := by
  unfold insert
  rw [found]
  rfl

theorem decrement_unheld (unheld : s.holds t name = false) :
    s.decrement t name = (.error (.transient (.unlocked name)), s) := by
  unfold decrement
  rw [if_pos (by simp [unheld])]

theorem decrement_held (row : Coupon) (found : s.coupon? name = some row)
    (holds : s.holds t name = true) :
    s.decrement t name =
      if row.remaining ≤ (s.txn t).taken.count name then (.error (.noStock name), s)
      else
        (.ok { row with remaining := row.remaining - (s.txn t).taken.count name - 1 },
          s.take t name) := by
  have named := (coupon?_some s name row found).2
  have empty : (s.view t row).remaining ≤ 0 ↔ row.remaining ≤ (s.txn t).taken.count name := by
    simp only [view, named]
    omega
  unfold decrement
  rw [if_neg (by simp [holds]), found]
  simp only [empty]
  congr 1
  simp only [view, named]
  rfl

theorem decrement_cases (s : Store) (t : TxnId) (name : String) :
    (s.decrement t name).2 = s ∨ (s.decrement t name).2 = s.take t name := by
  unfold decrement
  split
  · exact Or.inl rfl
  · split
    · exact Or.inl rfl
    · dsimp only
      split
      · exact Or.inl rfl
      · exact Or.inr rfl

/-- No unit too many is staged, so a commit has only the staged keys to fear. -/
theorem Sound.refusal?_eq (sound : s.Sound) :
    s.refusal? (s.txn t) = ((s.txn t).staged.find? (·.key ∈ s.keys)).map fun claim =>
      .alreadyClaimed claim.user claim.coupon := by
  unfold refusal?
  split
  · rename_i name lacking
    have taken := List.mem_of_find?_eq_some lacking
    have ticket := ticket_of_holds s t name (sound.locks.taken t name taken)
    obtain ⟨row, found⟩ := Option.isSome_iff_exists.mp (sound.locks.named _ ticket)
    have enough := sound.locks.enough t name row found
    have short := List.find?_some lacking
    simp only [found, decide_eq_true_eq] at short
    omega
  · cases (s.txn t).staged.find? (·.key ∈ s.keys) <;> rfl

theorem Sound.commit_eq (sound : s.Sound) :
    s.commit t =
      if 0 < s.failing then
        (.error (.transient .injectedCommit), { s.close t with failing := s.failing - 1 })
      else
        match (s.txn t).staged.find? (·.key ∈ s.keys) with
        | some claim => (.error (.alreadyClaimed claim.user claim.coupon), s.close t)
        | none => (.ok (), (s.close t).apply (s.txn t)) := by
  have refusal : (s.close t).refusal? (s.txn t) = s.refusal? (s.txn t) := rfl
  simp only [commit, refusal, sound.refusal?_eq t]
  congr 1
  cases (s.txn t).staged.find? (·.key ∈ s.keys) <;> rfl

theorem Supports.asks {user coupon : String} {stage : Stage}
    (supports : s.Supports t user coupon stage) :
    ∃ request resume, stage.turn user coupon = .ask request resume := by
  cases stage with
  | settled result => exact supports.elim
  | _ => exact ⟨_, _, rfl⟩

/-- What an attempt does at a stage: it makes its request, which is possible, and goes on with the
reply if there is one. -/
theorem ask_cases {user coupon : String} {stage next : Stage}
    (supports : s.Supports t user coupon stage)
    (asked : s.ask t user coupon stage = some (s', next)) :
    ∃ request resume, stage.turn user coupon = .ask request resume ∧
      s.admits (.ask t request) = true ∧ s' = (s.perform t request).2 ∧
      ((∃ reply, (s.perform t request).1 = some reply ∧ next = resume reply) ∨
        (s.perform t request).1 = none ∧ next = stage) := by
  obtain ⟨request, resume, turned⟩ := supports.asks
  refine ⟨request, resume, turned, ?_, ?_⟩
  · cases stage <;> simp only [Stage.turn, Turn.ask.injEq, reduceCtorEq] at turned <;>
      obtain ⟨rfl, -⟩ := turned
    case opening =>
      have fresh : s.isLive t = false := supports
      simp [admits, fresh]
    all_goals exact supports.1
  · simp only [ask, turned] at asked
    split at asked
    · cases asked
    · split at asked <;> rename_i replied <;> rw [replied] <;> cases asked
      · exact ⟨rfl, Or.inl ⟨_, rfl, rfl⟩⟩
      · exact ⟨rfl, Or.inr ⟨rfl, rfl⟩⟩

/-! ## Lists of operations -/

/-- What every operation keeps of the operations before it and the store after it, every list of
operations keeps. -/
theorem carryOut_keeps (holds : List Operation → Store → Prop) (allowed : Operation → Prop)
    (kept : ∀ past s op, allowed op → s.admits op = true → holds past s →
      holds (past ++ [op]) (s.after op))
    (ops : List Operation) (all : ∀ op ∈ ops, allowed op) (past : List Operation)
    (first : holds past s) (carried : s.carryOut ops = some s') : holds (past ++ ops) s' := by
  induction ops generalizing s past with
  | nil =>
      rw [← Option.some.inj carried, List.append_nil]
      exact first
  | cons op rest ih =>
      obtain ⟨admitted, carried⟩ := Option.ite_none_right_eq_some.mp carried
      have next := kept past s op (all op List.mem_cons_self) admitted first
      have last := ih (fun other member => all other (List.mem_cons_of_mem op member))
        (past ++ [op]) next carried
      rwa [List.append_assoc, List.singleton_append] at last

theorem carryOut_sound (sound : s.Sound) (ops : List Operation)
    (carried : s.carryOut ops = some s') : s'.Sound :=
  carryOut_keeps (fun _ => Sound) (fun _ => True)
    (fun _ _ op _ admitted sound => after_sound sound op admitted) ops (fun _ _ => trivial) []
    sound carried

theorem carryOut_single (op : Operation) (admitted : s.admits op = true) :
    s.carryOut [op] = some (s.after op) := by
  simp [carryOut, admitted]

theorem carryOut_append (first second : List Operation) :
    s.carryOut (first ++ second) = (s.carryOut first).bind (carryOut second) := by
  induction first generalizing s with
  | nil => rfl
  | cons op rest ih =>
      simp only [List.cons_append, carryOut]
      split
      · exact ih
      · rfl

end Store

/-! ## The operations of a run -/

def System.operation? (s : System) : Action → Option Operation
  | .create name amount => some (.create name amount)
  | .failCommits count => some (.failCommits count)
  | .begin number => some (.ask (.manual number) .begin)
  | .lock number name => some (.ask (.manual number) (.lock name))
  | .leave number name => some (.leave (.manual number) name)
  | .insert number user name => some (.ask (.manual number) (.insert user name))
  | .decrement number name => some (.ask (.manual number) (.decrement name))
  | .commit number => some (.ask (.manual number) .commit)
  | .rollback number => some (.ask (.manual number) .rollback)
  | .advance c => do
      let call ← s.calls[c]?
      let .trying stage _ := call.phase | none
      match stage.turn call.user call.coupon with
      | .ask request _ => some (.ask (txnOf c call) request)
      | .answer _ => none
  | .expire c | .cancel c => do
      let call ← s.calls[c]?
      let .trying _ _ := call.phase | none
      some (.drop (txnOf c call))
  | .start _ _ _ _ | .wake _ | .pass _ => none

def Step.operation? (step : Step) : Option Operation := step.before.operation? step.action

namespace System

def operations (actions : List Action) (s : System) : List Operation :=
  (trace actions s).filterMap Step.operation?

variable {s s' : System}

/-- A request of an attempt is possible, and what it does to the store does not depend on how the
attempt goes on. -/
theorem advance_operates (sound : s.Sound) (c : Nat) (call : Call) (stage : Stage) (expires : Nat)
    (store : Store) (next : Stage) (known : s.calls[c]? = some call)
    (trying : call.phase = .trying stage expires)
    (asked : s.store.ask (txnOf c call) call.user call.coupon stage = some (store, next)) :
    s.store.carryOut (s.operation? (.advance c)).toList = some store := by
  have supports := (sound.calls c call known).stage stage expires trying
  obtain ⟨request, resume, turned, admitted, performed, -⟩ := Store.ask_cases _ supports asked
  have op : s.operation? (.advance c) = some (.ask (txnOf c call) request) := by
    simp [operation?, known, trying, turned]
  rw [op, Option.toList_some, performed]
  exact Store.carryOut_single _ admitted

theorem act_operates (sound : s.Sound) (action : Action) (step : s.act action = some s') :
    s.store.carryOut (s.operation? action).toList = some s'.store := by
  cases action with
  | create name amount =>
      rw [← Option.some.inj step]
      rfl
  | failCommits count =>
      rw [← Option.some.inj step]
      rfl
  | begin number =>
      simp only [act, begin] at step
      split at step
      · cases step
      · rename_i fresh
        rw [← Option.some.inj step]
        simp [operation?, Store.carryOut, Store.admits, Store.after, Store.perform, fresh]
  | lock number name =>
      simp only [act] at step
      obtain ⟨live, rfl⟩ := withTxn_eq_some number _ step
      exact Store.carryOut_single (.ask _ (.lock name)) live
  | leave number name =>
      simp only [act] at step
      obtain ⟨live, rfl⟩ := withTxn_eq_some number _ step
      exact Store.carryOut_single (.leave _ name) live
  | insert number user name =>
      simp only [act] at step
      obtain ⟨live, rfl⟩ := withTxn_eq_some number _ step
      exact Store.carryOut_single (.ask _ (.insert user name)) live
  | decrement number name =>
      simp only [act] at step
      obtain ⟨live, rfl⟩ := withTxn_eq_some number _ step
      exact Store.carryOut_single (.ask _ (.decrement name)) live
  | commit number =>
      simp only [act] at step
      obtain ⟨live, rfl⟩ := withTxn_eq_some number _ step
      exact Store.carryOut_single (.ask _ .commit) live
  | rollback number =>
      simp only [act] at step
      obtain ⟨live, rfl⟩ := withTxn_eq_some number _ step
      exact Store.carryOut_single (.ask _ .rollback) live
  | advance c =>
      cases act_does _ step with
      | byHand _ number store hand change => cases hand
      | advance _ call stage expires store next known trying asked =>
          exact advance_operates sound c call stage expires store next known trying asked
  | expire c =>
      cases act_does _ step with
      | byHand _ number store hand change => cases hand
      | expire _ call stage expires known trying =>
          simp [operation?, known, trying, Store.carryOut, Store.admits, Store.after, putCall]
  | cancel c =>
      cases act_does _ step with
      | byHand _ number store hand change => cases hand
      | cancel _ call stage expires known trying =>
          simp [operation?, known, trying, Store.carryOut, Store.admits, Store.after, putCall]
      | cancelPause _ call wakes known resting =>
          simp [operation?, known, resting, Store.carryOut, putCall]
  | start user coupon deadline limit =>
      rw [← Option.some.inj step]
      rfl
  | wake c =>
      cases act_does _ step with
      | byHand _ number store hand change => cases hand
      | wake _ call wakes known resting => rfl
  | pass ms =>
      rw [← Option.some.inj step]
      rfl

theorem act_after (sound : s.Sound) (action : Action) (op : Operation)
    (operates : s.operation? action = some op) (step : s.act action = some s') :
    s.store.admits op = true ∧ s'.store = s.store.after op := by
  have carried := act_operates sound action step
  rw [operates] at carried
  obtain ⟨admitted, done⟩ := Option.ite_none_right_eq_some.mp carried
  exact ⟨admitted, (Option.some.inj done).symm⟩

/-- A run does to the store what its operations do. -/
theorem run_operates (sound : s.Sound) (actions : List Action) (runs : run actions s = some s') :
    s.store.carryOut (operations actions s) = some s'.store := by
  induction actions generalizing s with
  | nil =>
      rw [← Option.some.inj runs]
      rfl
  | cons action rest ih =>
      obtain ⟨next, step, runs⟩ := Option.bind_eq_some_iff.mp runs
      have split : operations (action :: rest) s =
          (s.operation? action).toList ++ operations rest next := by
        simp only [operations, trace, step, List.filterMap_cons, Step.operation?]
        cases s.operation? action <;> rfl
      rw [split, Store.carryOut_append, act_operates sound action step, Option.bind_some]
      exact ih ((act_does action step).sound sound) runs

end System

end CouponDesk.Memory
