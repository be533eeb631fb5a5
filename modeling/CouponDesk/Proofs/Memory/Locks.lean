import CouponDesk.Proofs.Memory.Alone
import CouponDesk.Proofs.Memory.Effects

/-!
# Row locks

A lock has one holder, who has it until the end of its transaction; meanwhile nobody else can take
units of the coupon, and nobody else can change its row.  A transaction that has ended in any way
is in no line any more: where none is live, all locks are free, and a claim finds its way at once.
-/

set_option autoImplicit false

namespace CouponDesk.Memory

/-- Transactions that have ended in the course of a run: by hand, with no new beginning under the
same number since, or as an attempt of a call, in any of the ways in which an attempt ends. -/
inductive Ended (actions : List Action) : TxnId → Prop
  | byHand (number : Nat) (before later : List Action) (last : Action)
      (ends : last = .commit number ∨ last = .rollback number)
      (split : actions = before ++ last :: later) (closed : .begin number ∉ later) :
      Ended actions (.manual number)
  | attempt (a : Attempt) (ending : Ending)
      (ends : Ends (System.trace actions {}) a ending) :
      Ended actions (.attempt a.call a.number)

namespace System

variable {s s' : System} {t : TxnId} {name : String}

def commits? (s : System) : Action → Option TxnId
  | .commit number => some (.manual number)
  | .advance c => do
      let call ← s.calls[c]?
      let .trying (.committing _) _ := call.phase | none
      return txnOf c call
  | _ => none

/-! ## While a lock is held -/

theorem withTxn_eq_some (number : Nat) (f : Store → TxnId → Store)
    (step : s.withTxn number f = some s') :
    s.store.isLive (.manual number) = true ∧ s' = { s with store := f s.store (.manual number) } := by
  unfold withTxn at step
  split at step
  · exact ⟨‹_›, (Option.some.inj step).symm⟩
  · cases step

theorem act_commit (number : Nat) (step : s.act (.commit number) = some s') :
    s'.store = (s.store.commit (.manual number)).2 := by
  simp only [act] at step
  obtain ⟨-, rfl⟩ := withTxn_eq_some number _ step
  rfl

/-- Only `begin` brings a hand-driven transaction to life: its other actions need it to live. -/
theorem live_of_hand (number : Nat) (action : Action) (hand : action.hand? = some number)
    (other : action ≠ .begin number) (step : s.act action = some s') :
    s.store.isLive (.manual number) = true := by
  cases action <;> simp only [Action.hand?, Option.some.injEq, reduceCtorEq] at hand <;>
    subst hand <;> simp only [act] at step
  case begin => exact absurd rfl other
  all_goals exact (withTxn_eq_some _ _ step).1

theorem ask_committing_eq_some {store store' : Store} {user coupon : String} {claim : Claim}
    {next : Stage}
    (asked : store.ask t user coupon (.committing claim) = some (store', next)) :
    store' = (store.commit t).2 := by
  simp only [Store.ask, Stage.turn, Store.perform] at asked
  split at asked
  · cases asked
  · exact (Prod.mk.inj (Option.some.inj asked)).1.symm

/-- Of the actions of a hand-driven transaction only the commit changes a row. -/
theorem hand_row (number : Nat) (action : Action) (hand : action.hand? = some number)
    (other : action ≠ .commit number) (step : s.act action = some s') (name : String) :
    s'.store.coupon? name = s.store.coupon? name := by
  cases action <;> simp only [Action.hand?, Option.some.injEq, reduceCtorEq] at hand <;>
    subst hand <;> simp only [act] at step
  case begin =>
    unfold begin at step
    split at step
    · cases step
    · cases step
      rfl
  all_goals obtain ⟨-, rfl⟩ := withTxn_eq_some _ _ step
  case lock given =>
    cases found : s.store.coupon? given with
    | none => simp [Store.lock_missing _ _ given found]
    | some row => simp [Store.lock_found _ _ given row found, Store.coupon?_join]
  case leave given =>
    unfold Store.leave
    split <;> rfl
  case insert user given =>
    exact Store.coupon?_congr (s.store.insert_keeps _ user given).2 name
  case decrement given =>
    exact Store.coupon?_congr (s.store.decrement_keeps _ given).2 name
  case commit => exact absurd rfl other
  case rollback => rfl

/-- While a lock is held, the row under it changes by the commit of its holder only. -/
theorem act_row (sound : s.Sound) (holds : s.store.holds t name = true) (action : Action)
    (step : s.act action = some s') :
    s'.store.coupon? name = s.store.coupon? name ∨
      s.commits? action = some t ∧ s'.store = (s.store.commit t).2 := by
  cases act_does action step with
  | create given amount =>
      have named := sound.store.locks.named _ (Store.ticket_of_holds _ t name holds)
      obtain ⟨row, found⟩ := Option.isSome_iff_exists.mp named
      exact Or.inl ((Store.coupon?_create _ given amount name row found).trans found.symm)
  | byHand _ number store hand change =>
      by_cases commits : action = .commit number
      · subst commits
        by_cases own : t = .manual number
        · subst own
          exact Or.inr ⟨rfl, act_commit number step⟩
        · exact Or.inl (change.row_of_holds sound.store t own name holds)
      · exact Or.inl (hand_row number action hand commits step name)
  | advance c call stage expires store next known trying asked =>
      obtain ⟨supports, move⟩ := sound.move known trying asked
      rcases move.grants supports with ⟨same, -⟩ | ⟨claim, rfl, -⟩
      · exact Or.inl (same.coupon? name)
      · by_cases own : t = txnOf c call
        · subst own
          have tries : s.commits? (.advance c) = some (txnOf c call) := by
            simp [commits?, known, trying]
          exact Or.inr ⟨tries, ask_committing_eq_some asked⟩
        · exact Or.inl ((move.change supports).row_of_holds sound.store t own name holds)
  | _ => exact Or.inl rfl

theorem Does.keeps_lock {action : Action} (does : s.Does action s') (sound : s.Sound)
    (holds : s.store.holds t name = true) (live : s'.store.isLive t = true) :
    s'.store.holds t name = true := by
  rcases does.store sound with ⟨u, change⟩ | ⟨given, amount, -, created⟩ | ⟨count, set⟩
  · exact change.keeps_lock t name (Or.inr live) holds
  · rw [created]
    rcases Store.create_cases s.store given amount with kept | ⟨-, -, added⟩
    · rw [kept]
      exact holds
    · rw [added]
      exact holds
  · rw [set]
    exact holds

/-! ## Asking for a lock -/

theorem lock_again (sound : s.Sound) (holds : s.store.holds t name = true) :
    ∃ row, s.store.coupon? name = some row ∧
      s.store.lock t name = (some (.ok (s.store.view t row)), s.store) := by
  have ticket := Store.ticket_of_holds _ t name holds
  have stays : s.store.join t name = s.store := if_pos ticket
  obtain ⟨row, found⟩ := Option.isSome_iff_exists.mp (sound.store.locks.named _ ticket)
  refine ⟨row, found, ?_⟩
  rw [Store.lock_found _ t name row found, stays, if_pos holds]

theorem holds_of_locked (store : Store) (row : Coupon)
    (granted : (store.lock t name).1 = some (.ok row)) : (store.lock t name).2.holds t name = true := by
  cases found : store.coupon? name with
  | none =>
      rw [Store.lock_missing store t name found] at granted
      cases granted
  | some row' =>
      rw [Store.lock_found store t name row' found] at granted ⊢
      by_contra refused
      rw [if_neg refused] at granted
      cases granted

/-! ## After the end of a transaction -/

theorem run_append (first second : List Action) (s : System) :
    run (first ++ second) s = (run first s).bind (run second) := by
  induction first generalizing s with
  | nil => rfl
  | cons action rest ih =>
      simp only [List.cons_append, run, Option.bind_eq_bind, Option.bind_assoc, ih]

/-- A hand-driven transaction that is not live stays so until the next `begin`. -/
theorem act_not_live (number : Nat) (action : Action) (other : action ≠ .begin number)
    (step : s.act action = some s') (sound : s.Sound)
    (dead : s.store.isLive (.manual number) = false) :
    s'.store.isLive (.manual number) = false := by
  have unowned : ∀ c call, TxnId.manual number ≠ txnOf c call := fun c call => TxnId.noConfusion
  have dropped : ∀ c call, (s.store.close (txnOf c call)).isLive (.manual number) = false := by
    intro c call
    rw [Store.isLive_close, dead, Bool.and_false]
  cases act_does action step with
  | create given amount =>
      rcases Store.create_cases s.store given amount with kept | ⟨-, -, added⟩
      · rw [kept]
        exact dead
      · rw [added]
        exact dead
  | byHand _ driven store hand change =>
      by_cases own : driven = number
      · subst own
        rw [live_of_hand driven action hand other step] at dead
        cases dead
      · have apart : TxnId.manual number ≠ .manual driven := by
          simpa using fun same => own same.symm
        exact (change.isLive_of_ne _ apart).trans dead
  | advance c call stage expires store next known trying asked =>
      obtain ⟨supports, move⟩ := sound.move known trying asked
      exact ((move.change supports).isLive_of_ne _ (unowned c call)).trans dead
  | expire c call stage expires known trying => exact dropped c call
  | cancel c call stage expires known trying => exact dropped c call
  | _ => exact dead

theorem run_not_live (number : Nat) (actions : List Action) (others : .begin number ∉ actions)
    (runs : run actions s = some s') (sound : s.Sound)
    (dead : s.store.isLive (.manual number) = false) :
    s'.store.isLive (.manual number) = false := by
  induction actions generalizing s with
  | nil =>
      cases runs
      exact dead
  | cons action rest ih =>
      rw [List.mem_cons, not_or] at others
      obtain ⟨next, step, runs⟩ := Option.bind_eq_some_iff.mp runs
      refine ih others.2 runs ((act_does action step).sound sound) ?_
      exact act_not_live number action (Ne.symm others.1) step sound dead

theorem Sound.not_live_of_past (sound : s.Sound) (a : Attempt) (past : s.Past a) :
    s.store.isLive (.attempt a.call a.number) = false := by
  obtain ⟨call, known, ended⟩ := past
  cases live : s.store.isLive (.attempt a.call a.number) with
  | false => rfl
  | true =>
      obtain ⟨same, stage, expires, trying⟩ := (sound.calls a.call call known).live a.number live
      rcases ended with earlier | ⟨-, stopped⟩
      · omega
      · exact absurd trying (stopped stage expires)

theorem not_live_of_last (number : Nat) (last : Action)
    (ends : last = .commit number ∨ last = .rollback number) (step : s.act last = some s') :
    s'.store.isLive (.manual number) = false := by
  have closed : (s.store.close (.manual number)).isLive (.manual number) = false := by
    simp [Store.isLive_close]
  rcases ends with rfl | rfl
  · rw [act_commit number step]
    unfold Store.isLive at closed ⊢
    rw [(s.store.commit_ends _).2, closed]
  · simp only [act] at step
    obtain ⟨-, rfl⟩ := withTxn_eq_some number _ step
    exact closed

/-- A transaction that has ended is not live, in whatever way it came to its end. -/
theorem not_live_of_ended (actions : List Action) (runs : run actions {} = some s)
    (ended : Ended actions t) : s.store.isLive t = false := by
  cases ended with
  | attempt a ending ends =>
      exact (run_sound actions runs).not_live_of_past a
        ((trace_closes actions runs).1 a ending ends)
  | byHand number before later last ends split closed =>
      subst split
      rw [run_append] at runs
      obtain ⟨start, first, runs⟩ := Option.bind_eq_some_iff.mp runs
      obtain ⟨next, step, runs⟩ := Option.bind_eq_some_iff.mp runs
      have sound := (act_does last step).sound (run_sound before first)
      exact run_not_live number later closed runs sound (not_live_of_last number last ends step)

theorem Sound.no_lock_of_not_live (sound : s.Sound) (dead : s.store.isLive t = false)
    (name : String) : s.store.holds t name = false ∧ s.store.waits t name = false := by
  refine ⟨?_, Store.waits_eq_false_of_not_live sound.store dead⟩
  rw [Bool.eq_false_iff]
  intro holds
  have live := sound.store.locks.live _ (Store.ticket_of_holds _ t name holds)
  rw [dead] at live
  cases live

/-! ## All together -/

/-- What is known of the locks in the state that a run leads to. -/
structure LocksSafe (actions : List Action) (s : System) : Prop where
  exclusive : ∀ t name, s.store.holds t name = true →
    s.store.isLive t = true ∧ ∀ u, s.store.holds u name = true → u = t
  /-- Whoever is answered with a row has the lock, and has it as long as it lives. -/
  granted : ∀ t name row, (s.store.lock t name).1 = some (.ok row) →
    (s.store.lock t name).2.holds t name = true
  kept : ∀ t name action s', s.store.holds t name = true → s.act action = some s' →
    s'.store.isLive t = true → s'.store.holds t name = true
  taken : ∀ t, ∀ name ∈ (s.store.txn t).taken, s.store.holds t name = true
  /-- The row of a locked coupon changes by a commit of the holder, or not at all. -/
  row : ∀ t name action s', s.store.holds t name = true → s.act action = some s' →
    s'.store.coupon? name = s.store.coupon? name ∨
      s.commits? action = some t ∧ s'.store = (s.store.commit t).2
  again : ∀ t name, s.store.holds t name = true →
    ∃ row, s.store.coupon? name = some row ∧
      s.store.lock t name = (some (.ok (s.store.view t row)), s.store)
  ended : ∀ t, Ended actions t →
    s.store.isLive t = false ∧ ∀ name, s.store.holds t name = false ∧ s.store.waits t name = false
  free : (∀ t, s.store.isLive t = false) → ∀ name, s.store.holder? name = none
  /-- Where nothing is live, a call makes its first attempt in seven steps at most, none of which
  waits and none of which takes time; its deadline plays no part. -/
  decided : (∀ t, s.store.isLive t = false) → ∀ user coupon deadline limit,
    s.spawn user coupon deadline limit =
        (s.calls.length, s.decided user coupon deadline limit) ∧
      (∃ steps, steps ≤ 7 ∧
        run (.start user coupon deadline limit :: List.replicate steps (.advance s.calls.length)) s =
          some (s.decided user coupon deadline limit)) ∧
      (s.store.verdict user coupon).1 ≠ .error (.timeout coupon deadline) ∧
      s.claim user coupon deadline 1 =
        (some ((s.store.verdict user coupon).1, 0), s.decided user coupon deadline 1)

/-- In whatever order transactions are driven by hand and calls are made, cut off and abandoned
beside them, locks are exclusive, and none is left behind. -/
theorem run_locksSafe (actions : List Action) (runs : run actions {} = some s) :
    LocksSafe actions s := by
  have sound := run_sound actions runs
  have quiet : (∀ t, s.store.isLive t = false) → s.store.Quiet := sound.store.quiet
  constructor
  case exclusive =>
    intro t name holds
    refine ⟨sound.store.locks.live _ (Store.ticket_of_holds _ t name holds), ?_⟩
    exact fun u other => Store.holder_unique _ u t name other holds
  case granted => exact fun t name row granted => holds_of_locked s.store row granted
  case kept =>
    exact fun t name action s' holds step live =>
      (act_does action step).keeps_lock sound holds live
  case taken => exact sound.store.locks.taken
  case row => exact fun t name action s' holds step => act_row sound holds action step
  case again => exact fun t name holds => lock_again sound holds
  case ended =>
    intro t ended
    have dead := not_live_of_ended actions runs ended
    exact ⟨dead, sound.no_lock_of_not_live dead⟩
  case free => exact fun dead name => (quiet dead).holder? name
  case decided =>
    intro dead user coupon deadline limit
    refine ⟨spawn_of_quiet user coupon deadline limit (quiet dead), ?_,
      s.store.verdict_ne_timeout user coupon deadline, ?_⟩
    · obtain ⟨steps, few, driven⟩ := drive_runs s.calls.length (Stage.opening.rank + 1)
        (s.start user coupon deadline limit)
      rw [drive_of_quiet user coupon deadline limit (quiet dead)] at driven
      exact ⟨steps, few, driven⟩
    · refine claim_of_quiet user coupon deadline 1 (quiet dead) ?_
      cases (s.store.verdict user coupon).1 <;> simp [Retry.pause?]

/-- One attempt times out and another is abandoned while they wait behind a transaction that is
driven by hand, and a third transaction is rolled back there. -/
def crowd : List Action :=
  [.create "SOLO" 2, .begin 0, .lock 0 "SOLO", .decrement 0 "SOLO",
    .start "first" "SOLO" .zero 1, .advance 0, .advance 0, .start "second" "SOLO" .zero 1,
    .advance 1, .advance 1, .begin 1, .lock 1 "SOLO", .expire 0, .cancel 1, .rollback 1]

theorem run_locksSafe_crowd :
    ∃ s s', run crowd {} = some s ∧ LocksSafe crowd s ∧
      s.store.line = [⟨"SOLO", .manual 0⟩] ∧ (s.store.txn (.manual 0)).taken = ["SOLO"] ∧
      Ended crowd (.manual 1) ∧ Ended crowd (.attempt 0 1) ∧ Ended crowd (.attempt 1 1) ∧
      s.act (.commit 0) = some s' ∧ LocksSafe (crowd ++ [.commit 0]) s' ∧ s'.store.live = [] ∧
      (s'.store.verdict "third" "SOLO").1 = .ok ⟨1, "third", "SOLO"⟩ :=
  ⟨_, _, rfl, run_locksSafe crowd rfl, rfl, rfl,
    .byHand 1 (crowd.take 14) [] (.rollback 1) (Or.inr rfl) rfl (by simp),
    .attempt ⟨0, 1⟩ (.answered (.error (.timeout "SOLO" .zero)))
      ⟨_, List.mem_of_getElem? (i := 12) rfl, rfl, rfl⟩,
    .attempt ⟨1, 1⟩ .cancelled ⟨_, List.mem_of_getElem? (i := 13) rfl, rfl, rfl⟩,
    rfl, run_locksSafe (crowd ++ [.commit 0]) rfl, rfl, rfl⟩

end System

end CouponDesk.Memory
