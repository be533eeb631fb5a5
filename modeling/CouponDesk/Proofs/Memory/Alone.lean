import CouponDesk.Memory.Clock
import CouponDesk.Proofs.Claiming.Stages
import CouponDesk.Proofs.Memory.Reachable

/-!
# A transaction alone

On a store where no other transaction is live nobody stands in the line before the one that is, so
each of its requests has a reply at once.  A claim that finds the store quiet is therefore decided
in one go: `Store.verdict` is its answer and what it leaves behind.
-/

set_option autoImplicit false

namespace CouponDesk.Memory

namespace Store

/-- No transaction is live, and nobody waits. -/
structure Quiet (s : Store) : Prop where
  line : s.line = []
  live : s.live = []

/-- One transaction is live, with these writes, and only its own tickets are in the line. -/
structure Solo (s : Store) (t : TxnId) (writes : Txn) : Prop where
  line : ∀ ticket ∈ s.line, ticket.txn = t
  live : s.live = [(t, writes)]

theorem Sound.quiet {s : Store} (sound : s.Sound) (dead : ∀ t, s.isLive t = false) : s.Quiet where
  line := by
    rw [List.eq_nil_iff_forall_not_mem]
    intro ticket member
    have live := sound.locks.live ticket member
    rw [dead] at live
    cases live
  live := by
    rw [List.eq_nil_iff_forall_not_mem]
    rintro ⟨t, writes⟩ member
    have absent : s.live.lookup t = none := by simpa [isLive] using dead t
    rw [List.lookup_eq_none_iff] at absent
    simpa using absent (t, writes) member

theorem Quiet.holder? {s : Store} (quiet : s.Quiet) (name : String) : s.holder? name = none := by
  simp [Store.holder?, quiet.line]

theorem Quiet.begin {s : Store} (quiet : s.Quiet) (t : TxnId) : (s.begin t).Solo t {} where
  line := by simp [Store.begin, quiet.line]
  live := by simp [Store.begin, quiet.live]

/-! ## The operations of a transaction alone -/

namespace Solo

variable {s : Store} {t : TxnId} {writes : Txn}

theorem isLive (solo : s.Solo t writes) : s.isLive t = true := by
  simp [Store.isLive, solo.live]

theorem txn (solo : s.Solo t writes) : s.txn t = writes := by
  simp [Store.txn, solo.live]

/-- A ticket of a transaction alone is the first for its coupon. -/
theorem holds_iff (solo : s.Solo t writes) (name : String) :
    s.holds t name = true ↔ ⟨name, t⟩ ∈ s.line := by
  refine ⟨ticket_of_holds s t name, fun member => ?_⟩
  rw [Store.holds_iff]
  cases found : s.line.find? (·.coupon = name) with
  | none =>
      rw [List.find?_eq_none] at found
      simpa using found _ member
  | some ticket =>
      have own := solo.line ticket (List.mem_of_find?_eq_some found)
      have named : ticket.coupon = name := by simpa using List.find?_some found
      rw [← own, ← named]

theorem join (solo : s.Solo t writes) (name : String) : (s.join t name).Solo t writes := by
  unfold Store.join
  split
  · exact solo
  · refine ⟨?_, solo.live⟩
    intro ticket member
    rcases List.mem_append.mp member with old | new
    · exact solo.line ticket old
    · rw [List.mem_singleton.mp new]

theorem holds_join (solo : s.Solo t writes) (name : String) :
    (s.join t name).holds t name = true := by
  rw [(solo.join name).holds_iff]
  unfold Store.join
  split
  · assumption
  · simp

theorem lock (solo : s.Solo t writes) (name : String) (row : Coupon)
    (found : s.coupon? name = some row) :
    s.lock t name = (some (.ok (s.view t row)), s.join t name) := by
  rw [lock_found s t name row found, if_pos (solo.holds_join name)]
  simp [view, txn_join]

theorem draw (solo : s.Solo t writes) (user name : String) :
    (s.draw t user name).Solo t
      { writes with staged := writes.staged ++ [⟨s.lastId + 1, user, name⟩] } where
  line := solo.line
  live := by simp [Store.draw, putTxn, solo.live, solo.txn]

theorem take (solo : s.Solo t writes) (name : String) :
    (s.take t name).Solo t { writes with taken := name :: writes.taken } where
  line := solo.line
  live := by simp [Store.take, putTxn, solo.live, solo.txn]

theorem close (solo : s.Solo t writes) : s.close t = { s with line := [], live := [] } := by
  have line : s.line.filter (·.txn ≠ t) = [] := by
    simpa [List.filter_eq_nil_iff] using solo.line
  simp only [Store.close, line, solo.live]
  simp

end Solo

/-! ## A claim on a quiet store -/

/-- What a claim comes to that no transaction disturbs: its answer, and the store afterwards. -/
def verdict (s : Store) (user name : String) : Except Error Claim × Store :=
  match s.coupon? name with
  | none => (.error (.couponNotFound name), s)
  | some row =>
      if row.remaining ≤ 0 then (.error (.noStock name), s)
      else if s.keys.any (· = (user, name)) then (.error (.alreadyClaimed user name), s)
      else if 0 < s.failing then
        (.error (.transient .injectedCommit),
          { s with lastId := s.lastId + 1, failing := s.failing - 1 })
      else
        let claim : Claim := ⟨s.lastId + 1, user, name⟩
        (.ok claim,
          { s with lastId := s.lastId + 1 }.apply { taken := [name], staged := [claim] })

theorem verdict_found (s : Store) (user name : String) (row : Coupon)
    (found : s.coupon? name = some row) :
    s.verdict user name =
      if row.remaining ≤ 0 then (.error (.noStock name), s)
      else if (user, name) ∈ s.keys then (.error (.alreadyClaimed user name), s)
      else if 0 < s.failing then
        (.error (.transient .injectedCommit),
          { s with lastId := s.lastId + 1, failing := s.failing - 1 })
      else
        (.ok ⟨s.lastId + 1, user, name⟩,
          { s with lastId := s.lastId + 1 }.apply
            { taken := [name], staged := [⟨s.lastId + 1, user, name⟩] }) := by
  have claimed : s.keys.any (· = (user, name)) = true ↔ (user, name) ∈ s.keys := by simp
  unfold verdict
  simp only [found, claimed]

theorem Quiet.verdict {s : Store} (quiet : s.Quiet) (user name : String) :
    (s.verdict user name).2.Quiet := by
  unfold Store.verdict
  split
  · exact quiet
  · split_ifs
    · exact quiet
    · exact quiet
    · exact ⟨quiet.line, quiet.live⟩
    · exact ⟨quiet.line, quiet.live⟩

/-- Only a failure that was injected leaves room for another attempt. -/
theorem verdict_final (s : Store) (user name : String) (due : s.failing = 0) (e : Error)
    (refused : (s.verdict user name).1 = .error e) : e.retryable = false := by
  unfold verdict at refused
  split at refused
  · cases refused
    rfl
  · split_ifs at refused with empty claimed injected
    · cases refused
      rfl
    · cases refused
      rfl
    · omega

theorem verdict_ne_timeout (s : Store) (user name : String) (deadline : Duration) :
    (s.verdict user name).1 ≠ .error (.timeout name deadline) := by
  unfold verdict
  split
  · simp
  · split_ifs <;> simp

def answer (t : TxnId) (r : Request) : StateT Store Option r.Reply := fun s =>
  match s.perform t r with
  | (some reply, s') => some (reply, s')
  | (none, _) => none

variable {s : Store} {t : TxnId} {user coupon : String}

theorem run_answer (stage : Stage) (request : Request) (resume : request.Reply → Stage)
    (reply : request.Reply) (s' : Store) (asks : stage.turn user coupon = .ask request resume)
    (performs : s.perform t request = (some reply, s')) :
    stage.run (answer t) user coupon s = (resume reply).run (answer t) user coupon s' := by
  rw [Stage.run_of_ask (answer t) user coupon stage request resume asks]
  change (answer t request s).bind _ = _
  simp only [answer, performs]
  rfl

def deserted (s : Store) : Store := { s with line := [], live := [] }

theorem Quiet.deserted (quiet : s.Quiet) : s.deserted = s := by
  simp only [Store.deserted, ← quiet.line, ← quiet.live]

/-! ## An attempt that does not wait -/

theorem run_undoing (e : Error) :
    (Stage.undoing e).run (answer t) user coupon s = some (.error e, s.close t) := by
  rw [run_answer (.undoing e) .rollback _ (.ok ()) _ rfl rfl, Stage.run_settled]
  rfl

theorem run_committing (claim : Claim) (writes : s.txn t = { taken := [coupon], staged := [claim] })
    (row : Coupon) (found : s.coupon? coupon = some row) (stock : 0 < row.remaining)
    (unclaimed : claim.key ∉ s.keys) :
    (Stage.committing claim).run (answer t) user coupon s =
      some (if 0 < s.failing then
          (.error (.transient .injectedCommit), { s.close t with failing := s.failing - 1 })
        else (.ok claim, (s.close t).apply { taken := [coupon], staged := [claim] })) := by
  have allowed : (s.close t).refusal? { taken := [coupon], staged := [claim] } = none := by
    rw [refusal?_single (s := s.close t) claim row found stock]
    exact if_neg unclaimed
  by_cases injected : 0 < s.failing
  · have lost : s.commit t = (.error (.transient .injectedCommit),
        { s.close t with failing := s.failing - 1 }) := if_pos injected
    rw [run_answer (.committing claim) .commit _ (.error (.transient .injectedCommit)) _ rfl
      (by rw [perform, lost]; rfl), Stage.run_settled, if_pos injected]
    rfl
  · have granted : s.commit t =
        (.ok (), (s.close t).apply { taken := [coupon], staged := [claim] }) := by
      unfold commit
      dsimp only
      rw [writes, allowed]
      exact if_neg injected
    rw [run_answer (.committing claim) .commit _ (.ok ()) _ rfl
      (by rw [perform, granted]; rfl), Stage.run_settled, if_neg injected]
    rfl

theorem run_inserting (live : s.isLive t = true) (idle : s.txn t = {}) (row : Coupon)
    (found : s.coupon? coupon = some row) (stock : 0 < row.remaining)
    (holds : s.holds t coupon = true) :
    Stage.inserting.run (answer t) user coupon s = some ((s.close t).verdict user coupon) := by
  have known : (s.close t).coupon? coupon = some row := found
  rw [verdict_found _ user coupon row known, if_neg (show ¬ row.remaining ≤ 0 by omega)]
  by_cases claimed : (user, coupon) ∈ s.keys
  · have repeated : s.perform t (.insert user coupon) =
        (some (.error (.alreadyClaimed user coupon)), s) := by
      rw [perform, insert_repeated row found claimed]
      rfl
    rw [run_answer .inserting (.insert user coupon) _ _ _ rfl repeated, run_undoing]
    exact congrArg some (if_pos claimed).symm
  · have drawn : s.perform t (.insert user coupon) =
        (some (.ok ⟨s.lastId + 1, user, coupon⟩), s.draw t user coupon) := by
      rw [perform, insert_draws row found claimed idle]
      rfl
    have staged : (s.draw t user coupon).txn t = { staged := [⟨s.lastId + 1, user, coupon⟩] } := by
      rw [txn_draw t user coupon live, idle]
      rfl
    have room : (((s.draw t user coupon).txn t).taken.count coupon : Int) < row.remaining := by
      simpa [staged] using stock
    obtain ⟨left, taken⟩ := decrement_takes (s := s.draw t user coupon) row found holds room
    have took : (s.draw t user coupon).perform t (.decrement coupon) =
        (some (.ok left), (s.draw t user coupon).take t coupon) := by
      rw [perform, taken]
      rfl
    have alive : (s.draw t user coupon).isLive t = true := (isLive_putTxn s t t _).trans live
    have writes : ((s.draw t user coupon).take t coupon).txn t =
        { taken := [coupon], staged := [⟨s.lastId + 1, user, coupon⟩] } := by
      rw [txn_take t coupon alive, staged]
    have unclaimed : ¬ (user, coupon) ∈ (s.close t).keys := claimed
    rw [run_answer .inserting (.insert user coupon) _ _ _ rfl drawn,
      run_answer (.taking _) (.decrement coupon) _ _ _ rfl took,
      run_committing _ writes row found stock claimed, close_take_self, close_draw_self,
      if_neg unclaimed]
    rfl

/-- An attempt that is granted the lock of its coupon comes to the verdict of the store without its
transaction. -/
theorem run_locking (live : s.isLive t = true) (idle : s.txn t = {})
    (granted : (s.join t coupon).holds t coupon = true) :
    Stage.locking.run (answer t) user coupon s = some ((s.close t).verdict user coupon) := by
  cases found : s.coupon? coupon with
  | none =>
      have missing : (s.close t).coupon? coupon = none := found
      rw [run_answer .locking (.lock coupon) _ _ _ rfl (lock_missing s t coupon found), run_undoing]
      simp only [verdict, missing]
  | some row =>
      have known : (s.close t).coupon? coupon = some row := found
      have locked : s.perform t (.lock coupon) =
          (some (.ok ((s.join t coupon).view t row)), s.join t coupon) := by
        rw [perform, lock_found s t coupon row found, if_pos granted]
        rfl
      have whole : ((s.join t coupon).view t row).remaining = row.remaining := by
        simp [view, txn_join, idle]
      rw [run_answer .locking (.lock coupon) _ _ _ rfl locked]
      dsimp only [Stage.checkStock]
      rw [whole]
      by_cases empty : row.remaining ≤ 0
      · rw [if_pos empty, run_undoing, close_join_self, verdict_found _ user coupon row known,
          if_pos empty]
      · rw [if_neg empty, run_inserting ((isLive_join s t t coupon).trans live)
          ((txn_join s t coupon).trans idle) row ((coupon?_join s t coupon coupon).trans found)
          (by omega) granted, close_join_self]

theorem holds_join_of_free (free : s.holder? coupon = none) :
    (s.join t coupon).holds t coupon = true := by
  have nobody : s.line.find? (·.coupon = coupon) = none := by
    simpa [holder?] using free
  have absent : ⟨coupon, t⟩ ∉ s.line := by
    intro member
    simpa using List.find?_eq_none.mp nobody _ member
  unfold join
  rw [if_neg absent, holds_iff]
  simp [List.find?_append, nobody]

theorem Sound.close_of_not_live (sound : s.Sound) (dead : s.isLive t = false) : s.close t = s := by
  have line : s.line.filter (·.txn ≠ t) = s.line := by
    rw [List.filter_eq_self]
    intro ticket member
    have live := sound.locks.live ticket member
    rw [decide_eq_true_eq]
    rintro rfl
    rw [dead] at live
    cases live
  have live : s.live.filter (·.1 ≠ t) = s.live := by
    rw [List.filter_eq_self]
    intro entry member
    have absent : s.live.lookup t = none := by simpa [isLive] using dead
    rw [decide_eq_true_eq]
    rintro rfl
    simpa using List.lookup_eq_none_iff.mp absent entry member
  simp only [close, line, live]

/-- An attempt that begins when the lock of its coupon is free never waits, and comes to the
verdict. -/
theorem attempt_of_free (dead : s.isLive t = false) (closed : s.close t = s)
    (free : s.holder? coupon = none) :
    CouponDesk.attempt (answer t) user coupon s = some (s.verdict user coupon) := by
  have live : (s.begin t).isLive t = true := by
    rw [isLive_begin]
    simp
  have idle : (s.begin t).txn t = {} := (txn_begin s t t).trans (txn_of_not_live s t dead)
  unfold CouponDesk.attempt
  rw [run_answer .opening .begin _ (.ok ()) _ rfl rfl, run_locking live idle
    (holds_join_of_free (s := s.begin t) free), close_begin_self, closed]

/-- An attempt that finds the store quiet never waits, and comes to the verdict. -/
theorem Quiet.attempt (quiet : s.Quiet) :
    CouponDesk.attempt (answer t) user coupon s = some (s.verdict user coupon) := by
  refine attempt_of_free ?_ ?_ (quiet.holder? coupon)
  · simp [isLive, quiet.live]
  · simp only [close, quiet.line, quiet.live, List.filter_nil]
    simp only [← quiet.line, ← quiet.live]

/-! ## Attempts that never wait -/

theorem insert_keeps (s : Store) (t : TxnId) (user name : String) :
    (s.insert t user name).2.line = s.line ∧ (s.insert t user name).2.coupons = s.coupons := by
  unfold insert
  split
  · simp
  · dsimp only
    split <;> simp [putTxn]

theorem decrement_keeps (s : Store) (t : TxnId) (name : String) :
    (s.decrement t name).2.line = s.line ∧ (s.decrement t name).2.coupons = s.coupons := by
  unfold decrement
  split
  · simp
  · split
    · simp
    · dsimp only
      split <;> simp [putTxn]

theorem commit_ends (s : Store) (t : TxnId) :
    (s.commit t).2.line = (s.close t).line ∧ (s.commit t).2.live = (s.close t).live := by
  unfold commit
  dsimp only
  split
  · simp
  · split <;> simp [apply]

theorem waits_of_line {s' : Store} (line : s'.line = s.line) (name : String) :
    s'.waits t name = s.waits t name := by
  unfold waits holds holder?
  rw [line]

/-- An attempt whose request was answered is not left waiting. -/
theorem perform_ready {s' : Store} (request : Request) (reply : request.Reply)
    (own : ∀ name, request = .lock name → name = coupon) (ready : s.waits t coupon = false)
    (performs : s.perform t request = (some reply, s')) : s'.waits t coupon = false := by
  have gone : (s.close t).waits t coupon = false := by
    simp [waits, ticket_close]
  cases request with
  | begin =>
      cases performs
      exact ready
  | lock name =>
      obtain rfl := own name rfl
      rw [perform] at performs
      cases found : s.coupon? name with
      | none =>
          rw [lock_missing s t name found] at performs
          cases performs
          exact ready
      | some row =>
          rw [lock_found s t name row found] at performs
          by_cases holds : (s.join t name).holds t name = true
          · rw [if_pos holds] at performs
            cases performs
            exact waits_eq_false_of_holds holds
          · rw [if_neg holds] at performs
            cases performs
  | insert user name =>
      have after : (s.insert t user name).2 = s' := congrArg Prod.snd performs
      rw [← after, waits_of_line (s.insert_keeps t user name).1, ready]
  | decrement name =>
      have after : (s.decrement t name).2 = s' := congrArg Prod.snd performs
      rw [← after, waits_of_line (s.decrement_keeps t name).1, ready]
  | commit =>
      have after : (s.commit t).2 = s' := congrArg Prod.snd performs
      rw [← after, waits_of_line (s.commit_ends t).1, gone]
  | rollback =>
      have after : s.close t = s' := congrArg Prod.snd performs
      rw [← after, gone]

end Store

namespace System

variable {s : System}

theorem advance_of_perform (c : Nat) (call : Call) (stage : Stage) (expires : Nat)
    (request : Request) (resume : request.Reply → Stage) (reply : request.Reply) (store : Store)
    (known : s.calls[c]? = some call) (trying : call.phase = .trying stage expires)
    (asks : stage.turn call.user call.coupon = .ask request resume)
    (ready : s.store.waits (txnOf c call) call.coupon = false)
    (performs : s.store.perform (txnOf c call) request = (some reply, store)) :
    s.advance c =
      some (({ s with store } : System).putCall c (call.proceed s.now expires (resume reply))) := by
  unfold advance
  simp [known, trying, asks, ready, performs]

theorem advance_of_stopped (c : Nat) (call : Call) (known : s.calls[c]? = some call)
    (stopped : ∀ stage expires, call.phase ≠ .trying stage expires) : s.advance c = none := by
  unfold advance
  cases phase : call.phase with
  | trying stage expires => exact absurd phase (stopped stage expires)
  | _ => simp [known, phase]

theorem drive_of_stopped (c fuel : Nat) (call : Call) (known : s.calls[c]? = some call)
    (stopped : ∀ stage expires, call.phase ≠ .trying stage expires) : s.drive c fuel = s := by
  cases fuel with
  | zero => rfl
  | succ fuel =>
      unfold drive
      rw [advance_of_stopped c call known stopped]

/-- A call whose attempt has all its replies at once makes it to the end. -/
theorem drive_of_run (fuel c : Nat) (call : Call) (stage : Stage) (expires : Nat)
    (known : s.calls[c]? = some (call.proceed s.now expires stage)) (enough : stage.rank < fuel)
    (ready : s.store.waits (txnOf c call) call.coupon = false) (result : Except Error Claim)
    (store : Store)
    (runs : stage.run (Store.answer (txnOf c call)) call.user call.coupon s.store =
      some (result, store)) :
    s.drive c fuel = ({ s with store } : System).putCall c (call.conclude s.now result) := by
  -- The induction is on the fuel; every reply lowers the rank of the stage, which bounds it.
  induction fuel generalizing s stage with
  | zero => exact absurd enough (Nat.not_lt_zero _)
  | succ fuel ih =>
      cases turned : stage.turn call.user call.coupon with
      | answer answered =>
          cases stage <;> simp only [Stage.turn, reduceCtorEq] at turned
          rw [Stage.run_settled] at runs
          cases runs
          rw [drive_of_stopped c (fuel + 1) _ known (call.conclude_over s.now _)]
          exact (putCall_self c _ known).symm
      | ask request resume =>
          have open_ : ∀ result, stage ≠ .settled result := by
            rintro result rfl
            cases turned
          rw [call.proceed_open s.now expires stage open_] at known
          rw [Stage.run_of_ask _ _ _ stage request resume turned] at runs
          obtain ⟨⟨reply, between⟩, asked, runs⟩ := Option.bind_eq_some_iff.mp runs
          have performs : s.store.perform (txnOf c call) request = (some reply, between) := by
            unfold Store.answer at asked
            split at asked
            · rename_i performed
              cases asked
              exact performed
            · cases asked
          have own : ∀ name, request = .lock name → name = call.coupon := by
            rintro name rfl
            exact Stage.turn_lock turned
          have advanced := advance_of_perform c _ stage expires request resume reply between known
            rfl turned ready performs
          have lower := Stage.rank_resume_lt turned reply
          unfold drive
          rw [advanced]
          dsimp only
          rw [ih (resume reply) (getElem?_putCall_self c _ _ known) (by omega)
            (Store.perform_ready request reply own ready performs) runs]
          simp [putCall]

theorem drive_runs (c fuel : Nat) (s : System) :
    ∃ steps, steps ≤ fuel ∧ run (List.replicate steps (.advance c)) s = some (s.drive c fuel) := by
  induction fuel generalizing s with
  | zero => exact ⟨0, Nat.le_refl 0, rfl⟩
  | succ fuel ih =>
      unfold drive
      cases advanced : s.advance c with
      | none => exact ⟨0, Nat.zero_le _, rfl⟩
      | some next =>
          obtain ⟨steps, few, runs⟩ := ih next
          refine ⟨steps + 1, Nat.succ_le_succ few, ?_⟩
          rw [List.replicate_succ]
          simp only [run, act, advanced, Option.bind_eq_bind, Option.bind_some]
          exact runs

/-! ## A call that finds the store quiet -/

def firstCall (s : System) (user coupon : String) (deadline : Duration) (limit : Nat) : Call :=
  { user, coupon, deadline, limit, started := s.now, attempt := 1,
    phase := .trying .opening (s.now + deadline.ceilMillis) }

/-- The system after a call whose first attempt came to the verdict, in no time. -/
def decided (s : System) (user coupon : String) (deadline : Duration) (limit : Nat) : System where
  store := (s.store.verdict user coupon).2
  calls := s.calls ++
    [(s.firstCall user coupon deadline limit).conclude s.now (s.store.verdict user coupon).1]
  now := s.now

variable (user coupon : String) (deadline : Duration) (limit : Nat)

theorem drive_of_attempt
    (runs : CouponDesk.attempt (Store.answer (.attempt s.calls.length 1)) user coupon s.store =
      some (s.store.verdict user coupon))
    (ready : s.store.waits (.attempt s.calls.length 1) coupon = false) :
    (s.start user coupon deadline limit).drive s.calls.length (Stage.opening.rank + 1) =
      s.decided user coupon deadline limit := by
  have known : (s.start user coupon deadline limit).calls[s.calls.length]? =
      some (s.firstCall user coupon deadline limit) := by
    simp [start, firstCall]
  rw [drive_of_run _ _ (s.firstCall user coupon deadline limit) .opening _ known
    (Nat.lt_succ_self _) ready (s.store.verdict user coupon).1 (s.store.verdict user coupon).2 runs]
  simp [decided, putCall, start]

theorem drive_of_quiet (quiet : s.store.Quiet) :
    (s.start user coupon deadline limit).drive s.calls.length (Stage.opening.rank + 1) =
      s.decided user coupon deadline limit :=
  drive_of_attempt user coupon deadline limit quiet.attempt (by simp [Store.waits, quiet.line])

/-- Where the lock is free, the first attempt goes through at once, whatever else is going on. -/
theorem drive_of_free (sound : s.Sound) (free : s.store.holder? coupon = none) :
    (s.start user coupon deadline limit).drive s.calls.length (Stage.opening.rank + 1) =
      s.decided user coupon deadline limit := by
  have dead : s.store.isLive (.attempt s.calls.length 1) = false := by
    rw [Bool.eq_false_iff]
    exact fun live => Nat.lt_irrefl _ (sound.owned _ 1 live)
  exact drive_of_attempt user coupon deadline limit
    (Store.attempt_of_free dead (sound.store.close_of_not_live dead) free)
    (Store.waits_eq_false_of_not_live sound.store dead)

theorem cutIfDue_of_stopped (c : Nat) (call : Call) (known : s.calls[c]? = some call)
    (stopped : ∀ stage expires, call.phase ≠ .trying stage expires) : s.cutIfDue c = s := by
  have spared : s.expire c = none := by
    unfold expire
    cases phase : call.phase with
    | trying stage expires => exact absurd phase (stopped stage expires)
    | _ => simp [known, phase]
  unfold cutIfDue
  split
  · split <;> simp [spared]
  · rfl

/-- Where only hand-driven transactions stand in the line, no call can go on. -/
theorem settle_of_manual (manual : ∀ ticket ∈ s.store.line, ∃ number, ticket.txn = .manual number) :
    s.settle = s := by
  have nobody : s.granted? = none := by
    rw [granted?, List.findSome?_eq_none_iff]
    intro ticket member
    obtain ⟨number, own⟩ := manual ticket member
    simp only [own]
  unfold settle
  cases s.calls.length with
  | zero => rfl
  | succ count =>
      unfold settleUpTo
      rw [nobody]

theorem settle_of_quiet (quiet : s.store.Quiet) : s.settle = s :=
  settle_of_manual (by simp [quiet.line])

theorem spawn_of_quiet (quiet : s.store.Quiet) :
    s.spawn user coupon deadline limit =
      (s.calls.length, s.decided user coupon deadline limit) := by
  have known : (s.decided user coupon deadline limit).calls[s.calls.length]? =
      some ((s.firstCall user coupon deadline limit).conclude s.now
        (s.store.verdict user coupon).1) := by
    simp [decided]
  unfold spawn proceed
  rw [drive_of_quiet user coupon deadline limit quiet,
    cutIfDue_of_stopped _ _ known (Call.conclude_over _ _ _),
    settle_of_quiet (s := s.decided user coupon deadline limit) (quiet.verdict user coupon)]

/-- When no other attempt can follow, the caller has the verdict at once. -/
theorem claim_of_quiet (quiet : s.store.Quiet)
    (stands : Retry.pause? limit 1 (s.store.verdict user coupon).1 = none) :
    s.claim user coupon deadline limit =
      (some ((s.store.verdict user coupon).1, 0), s.decided user coupon deadline limit) := by
  have outcome : (s.decided user coupon deadline limit).outcome? s.calls.length =
      some ((s.store.verdict user coupon).1, 0) := by
    simp [System.outcome?, decided, Call.conclude, firstCall, stands, Call.outcome?]
  have answered : (s.decided user coupon deadline limit).isFinished s.calls.length = true := by
    simp [isFinished, decided, Call.conclude, firstCall, stands, Call.isFinished, Call.outcome?]
  have awaited : ∀ count, (s.decided user coupon deadline limit).awaitUpTo
      (·.isFinished s.calls.length) count = s.decided user coupon deadline limit := by
    intro count
    cases count <;> simp [awaitUpTo, answered]
  simp [claim, spawn_of_quiet user coupon deadline limit quiet, join, await, awaited, outcome]

end System

end CouponDesk.Memory
