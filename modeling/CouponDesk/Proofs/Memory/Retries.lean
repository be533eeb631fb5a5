import CouponDesk.Proofs.Claiming.Repeating
import CouponDesk.Proofs.Memory.Alone
import CouponDesk.Proofs.Memory.Progress

/-!
# Repeated attempts of a caller alone

A caller whom nobody disturbs makes its attempts one after another, each decided in no time, and
sleeps in between until its own timer goes off.  What this comes to is told by the effort alone: the
store after so many attempts, and the length of the pauses.  Commits that are made to fail use up
attempts and ids, one each, and nothing else.
-/

set_option autoImplicit false

namespace CouponDesk

def Retry.pauses (attempts : Nat) : Nat := backoff * (attempts * (attempts - 1) / 2)

namespace Memory

/-- The attempts of a caller so far: the store they leave, their number, and the milliseconds of
the pauses between them. -/
structure Effort where
  store : Store
  attempts : Nat := 0
  paused : Nat := 0

namespace Effort

variable (user coupon : String)

def attempt : StateM Effort (Except Error Claim) := fun effort =>
  ((effort.store.verdict user coupon).1,
    { effort with
      store := (effort.store.verdict user coupon).2
      attempts := effort.attempts + 1 })

def rest (ms : Nat) : StateM Effort Unit := fun effort =>
  ((), { effort with paused := effort.paused + ms })

def finish (limit : Nat) (effort : Effort) : Except Error Claim × Effort :=
  Retry.runFrom rest (attempt user coupon) limit (effort.attempts + 1) effort

end Effort

/-! ## The timers of a caller alone -/

namespace Call

theorem timer?_of_over {call : Call} (ended : call.isOpen = false) : call.timer? = none := by
  unfold isOpen at ended
  unfold timer?
  split at ended <;> simp_all

end Call

namespace System

theorem nextTimerFrom_append (calls : List Call) (last : Call)
    (ended : ∀ call ∈ calls, call.isOpen = false) (c : Nat) :
    nextTimerFrom c (calls ++ [last]) = last.timer?.map fun due => (due, c + calls.length) := by
  induction calls generalizing c with
  | nil =>
    simp only [List.nil_append, nextTimerFrom, List.length_nil, Nat.add_zero]
    cases last.timer? <;> rfl
  | cons call calls ih =>
    have own : call.timer? = none := Call.timer?_of_over (ended call List.mem_cons_self)
    have others : nextTimerFrom (c + 1) (calls ++ [last]) =
        last.timer?.map fun due => (due, c + (call :: calls).length) := by
      rw [ih (fun other member => ended other (List.mem_cons_of_mem _ member)), List.length_cons,
        Nat.add_assoc, Nat.add_comm 1]
    simp only [List.cons_append, nextTimerFrom, own, Option.map_none, others]
    cases last.timer? <;> rfl

section

variable {s : System} {call : Call} {result : Except Error Claim} {store : Store}

/-- An attempt that begins on a quiet store is decided before anything else happens. -/
theorem settle_proceed_of_quiet (c expires : Nat) (known : s.calls[c]? = some call)
    (opening : call.phase = .trying .opening expires) (quiet : s.store.Quiet)
    (decides : s.store.verdict call.user call.coupon = (result, store)) :
    (s.proceed c).settle =
      ({ s with store } : System).putCall c (call.conclude s.now result) := by
  have still : call.proceed s.now expires .opening = call :=
    call.proceed_self s.now expires .opening opening fun result => Stage.noConfusion
  have ready : s.store.waits (txnOf c call) call.coupon = false := by
    simp [Store.waits, quiet.line]
  have runs : Stage.opening.run (Store.answer (txnOf c call)) call.user call.coupon s.store =
      some (result, store) := decides ▸ quiet.attempt
  have driven := drive_of_run (Stage.opening.rank + 1) c call .opening expires
    (known.trans (congrArg some still.symm)) (Nat.lt_succ_self _) ready result store runs
  have after : store.Quiet := by
    have kept := quiet.verdict call.user call.coupon
    rwa [decides] at kept
  have concluded : (({ s with store } : System).putCall c (call.conclude s.now result)).calls[c]? =
      some (call.conclude s.now result) := getElem?_putCall_self c call _ known
  unfold proceed
  rw [driven, cutIfDue_of_stopped c _ concluded (call.conclude_over s.now result)]
  exact settle_of_quiet after

/-- When a pause ends on a quiet store, the next attempt is decided. -/
theorem fire_of_resting (c wakes : Nat) (known : s.calls[c]? = some call)
    (resting : call.phase = .resting wakes) (quiet : s.store.Quiet)
    (decides : s.store.verdict call.user call.coupon = (result, store)) :
    s.fire c = ({ s with store } : System).putCall c
      (({ call with attempt := call.attempt + 1 } : Call).conclude s.now result) := by
  let next : Call :=
    { call with attempt := call.attempt + 1, phase := .trying .opening (call.expiry s.now) }
  have spared : s.expire c = none := by
    simp [expire, known, resting]
  have woken : s.wake c = some (s.putCall c next) := wake_eq c call wakes known resting
  have begun : (s.putCall c next).calls[c]? = some next := getElem?_putCall_self c call next known
  have fired : s.fire c = ((s.putCall c next).proceed c).settle := by
    simp only [fire, spared, woken]
  rw [fired, settle_proceed_of_quiet c _ begun rfl quiet decides]
  simp only [putCall, List.set_set]
  rfl

end

section

variable (s : System) (call : Call)

/-- The system in which one more call has made the attempts of an effort and got this result from
the last of them. -/
def made (effort : Effort) (result : Except Error Claim) : System where
  store := effort.store
  calls := s.calls ++
    [({ call with attempt := effort.attempts } : Call).conclude (s.now + effort.paused) result]
  now := s.now + effort.paused

variable {s call} (effort : Effort) (result : Except Error Claim)

theorem getElem?_made : (s.made call effort result).calls[s.calls.length]? =
    some (({ call with attempt := effort.attempts } : Call).conclude (s.now + effort.paused)
      result) := by
  simp [made]

variable {result} {ms : Nat} (again : Retry.pause? call.limit effort.attempts result = some ms)

include again

theorem nextTimer_made (ended : ∀ other ∈ s.calls, other.isOpen = false) :
    (s.made call effort result).nextTimer = some (s.now + effort.paused + ms, s.calls.length) := by
  unfold nextTimer made
  rw [nextTimerFrom_append _ _ ended]
  simp [Call.conclude, again, Call.timer?]

/-- The timers left to a caller are enough for the attempts left to it. -/
theorem timersLeft_made :
    call.limit - effort.attempts ≤ (s.made call effort result).timersLeft := by
  have own : call.limit - effort.attempts ≤
      (({ call with attempt := effort.attempts } : Call).conclude
        (s.now + effort.paused) result).timersLeft := by
    simp only [Call.conclude, again, Call.timersLeft]
    omega
  refine own.trans ?_
  unfold timersLeft made
  rw [List.foldr_append]
  induction s.calls with
  | nil => exact Nat.le_refl _
  | cons other calls ih => exact ih.trans (Nat.le_add_left _ _)

/-- The pause after an attempt ends, and the next attempt is decided. -/
theorem fire_made (quiet : effort.store.Quiet) :
    ((s.made call effort result).moveTo (s.now + effort.paused + ms)).fire s.calls.length =
      s.made call (Effort.attempt call.user call.coupon (Effort.rest ms effort).2).2
        (Effort.attempt call.user call.coupon (Effort.rest ms effort).2).1 := by
  have moved : (s.made call effort result).moveTo (s.now + effort.paused + ms) =
      { store := effort.store
        calls := s.calls ++ [{ call with
          attempt := effort.attempts, phase := .resting (s.now + effort.paused + ms) }]
        now := s.now + (effort.paused + ms) } := by
    simp only [moveTo, made, Call.conclude, again, System.mk.injEq, true_and]
    omega
  obtain ⟨⟨answer, store⟩, decided⟩ :
      ∃ verdict, effort.store.verdict call.user call.coupon = verdict := ⟨_, rfl⟩
  rw [moved, fire_of_resting s.calls.length _ List.getElem?_concat_length rfl quiet decided]
  simp only [putCall, made, Effort.attempt, Effort.rest, decided, List.set_append_right _ _ le_rfl,
    Nat.sub_self, List.set_cons_zero]
  rfl

end

section

variable {s : System} {call : Call}

theorem isFinished_made (effort : Effort) (result : Except Error Claim) :
    (s.made call effort result).isFinished s.calls.length =
      (Retry.pause? call.limit effort.attempts result).isNone := by
  unfold isFinished
  rw [getElem?_made, Call.conclude]
  cases Retry.pause? call.limit effort.attempts result <;> rfl

theorem outcome?_made (effort : Effort) (result : Except Error Claim)
    (started : call.started = s.now)
    (stands : Retry.pause? call.limit effort.attempts result = none) :
    (s.made call effort result).outcome? s.calls.length = some (result, effort.paused) := by
  unfold outcome?
  rw [getElem?_made, Call.conclude, stands]
  simp [Call.outcome?, started]

/-- A caller alone waits for no timer but its own, until a result stands. -/
theorem awaitUpTo_made (ended : ∀ other ∈ s.calls, other.isOpen = false) (call : Call)
    (count : Nat) (effort : Effort) (quiet : effort.store.Quiet)
    (enough : ∀ ms, Retry.pause? call.limit (effort.attempts + 1)
      (Effort.attempt call.user call.coupon effort).1 = some ms →
      call.limit - (effort.attempts + 1) ≤ count) :
    let first := Effort.attempt call.user call.coupon effort
    let last := Effort.finish call.user call.coupon call.limit effort
    (s.made call first.2 first.1).awaitUpTo (·.isFinished s.calls.length) count =
        s.made call last.2 last.1 ∧
      Retry.pause? call.limit last.2.attempts last.1 = none := by
  intro first last
  have left : first.2.store.Quiet := quiet.verdict call.user call.coupon
  cases again : Retry.pause? call.limit (effort.attempts + 1) first.1 with
  | none =>
    have ends : last = first := Retry.runFrom_of_stands rfl again
    have finished : (s.made call first.2 first.1).isFinished s.calls.length = true := by
      rw [isFinished_made]
      exact congrArg Option.isNone again
    rw [ends]
    refine ⟨?_, again⟩
    cases count <;> simp [awaitUpTo, finished]
  | some ms =>
    have lower := Retry.lt_of_pause?_eq_some again
    have more := enough ms again
    have goesOn : last = (Effort.rest ms first.2).2.finish call.user call.coupon call.limit :=
      Retry.runFrom_of_again rfl again
    have unfinished : (s.made call first.2 first.1).isFinished s.calls.length = false := by
      rw [isFinished_made]
      exact congrArg Option.isNone again
    cases count with
    | zero => omega
    | succ count =>
      unfold awaitUpTo
      simp only [unfinished, nextTimer_made first.2 again ended, fire_made first.2 again left,
        goesOn, Bool.false_eq_true, if_false]
      refine awaitUpTo_made ended call count _ left fun _ _ => ?_
      change call.limit - (effort.attempts + 1 + 1) ≤ count
      omega

/-- What a claim comes to whose caller is alone: the attempts of an effort, one after another. -/
theorem claim_alone (ended : ∀ other ∈ s.calls, other.isOpen = false) (quiet : s.store.Quiet)
    (user coupon : String) (deadline : Duration) (limit : Nat) :
    let last := Effort.finish user coupon limit { store := s.store }
    s.claim user coupon deadline limit =
      (some (last.1, last.2.paused),
        s.made (s.firstCall user coupon deadline limit) last.2 last.1) ∧
      Retry.pause? limit last.2.attempts last.1 = none := by
  intro last
  let call := s.firstCall user coupon deadline limit
  let first := Effort.attempt user coupon { store := s.store }
  have spawned : s.spawn user coupon deadline limit =
      (s.calls.length, s.made call first.2 first.1) :=
    s.spawn_of_quiet user coupon deadline limit quiet
  obtain ⟨awaited, stands⟩ := awaitUpTo_made ended call
    (s.made call first.2 first.1).timersLeft { store := s.store } quiet
    fun ms again => timersLeft_made first.2 again
  have awaited : (s.made call first.2 first.1).await (·.isFinished s.calls.length) =
      s.made call last.2 last.1 := awaited
  refine ⟨?_, stands⟩
  simp only [claim, spawned, join, awaited, outcome?_made last.2 last.1 rfl stands]
  rfl

end

end System

/-! ## Commits made to fail -/

namespace Store

structure Eligible (s : Store) (user coupon : String) : Prop where
  stock : ∃ row, s.coupon? coupon = some row ∧ 0 < row.remaining
  unclaimed : (user, coupon) ∉ s.keys

/-- The store after so many commits that were made to fail. -/
def lose (s : Store) (count : Nat) : Store :=
  { s with lastId := s.lastId + count, failing := s.failing - count }

def grant (s : Store) (user coupon : String) : Store :=
  { s with lastId := s.lastId + 1 }.apply
    { taken := [coupon], staged := [⟨s.lastId + 1, user, coupon⟩] }

variable {s : Store} {user coupon : String}

theorem lose_lose (s : Store) (before after : Nat) :
    (s.lose before).lose after = s.lose (before + after) := by
  simp [lose, Nat.add_assoc, Nat.sub_sub]

theorem Eligible.lose (eligible : s.Eligible user coupon) (count : Nat) :
    (s.lose count).Eligible user coupon := ⟨eligible.stock, eligible.unclaimed⟩

theorem Eligible.verdict_of_failing (eligible : s.Eligible user coupon) (failing : 0 < s.failing) :
    s.verdict user coupon = (.error (.transient .injectedCommit), s.lose 1) := by
  obtain ⟨row, found, stock⟩ := eligible.stock
  rw [verdict_found s user coupon row found, if_neg (not_le.mpr stock),
    if_neg eligible.unclaimed, if_pos failing]
  rfl

theorem Eligible.verdict_of_working (eligible : s.Eligible user coupon) (working : s.failing = 0) :
    s.verdict user coupon = (.ok ⟨s.lastId + 1, user, coupon⟩, s.grant user coupon) := by
  obtain ⟨row, found, stock⟩ := eligible.stock
  rw [verdict_found s user coupon row found, if_neg (not_le.mpr stock),
    if_neg eligible.unclaimed, if_neg (by omega)]
  rfl

end Store

namespace Effort

/-- The effort after so many more attempts that failed, with the pause after each. -/
def afterFailures (effort : Effort) (count : Nat) : Effort where
  store := effort.store.lose count
  attempts := effort.attempts + count
  paused := effort.paused + Retry.backoff * ∑ i ∈ Finset.range count, (effort.attempts + 1 + i)

variable {effort : Effort} {user coupon : String} {limit : Nat}

theorem attempt_eq {result : Except Error Claim} {store : Store}
    (decides : effort.store.verdict user coupon = (result, store)) :
    attempt user coupon effort =
      (result, { effort with store, attempts := effort.attempts + 1 }) := by
  rw [attempt, decides]

theorem attempt_of_failing (eligible : effort.store.Eligible user coupon)
    (failing : 0 < effort.store.failing) :
    attempt user coupon effort = (.error (.transient .injectedCommit),
      { effort with store := effort.store.lose 1, attempts := effort.attempts + 1 }) :=
  attempt_eq (eligible.verdict_of_failing failing)

/-- One more failed attempt, and the pause after it. -/
theorem rest_attempt (effort : Effort) (count : Nat) :
    (rest (Retry.backoff * (effort.attempts + count + 1))
      { effort.afterFailures count with
        store := (effort.afterFailures count).store.lose 1
        attempts := (effort.afterFailures count).attempts + 1 }).2 =
      effort.afterFailures (count + 1) := by
  simp only [rest, afterFailures, Store.lose_lose, Finset.sum_range_succ, Nat.mul_add,
    Nat.add_assoc, Nat.add_comm 1]

/-- As long as commits fail and attempts are left, one attempt follows on another. -/
theorem finish_afterFailures (eligible : effort.store.Eligible user coupon) (count : Nat)
    (failing : count ≤ effort.store.failing) (allowed : effort.attempts + count < limit) :
    effort.finish user coupon limit = (effort.afterFailures count).finish user coupon limit := by
  induction count with
  | zero => rfl
  | succ count ih =>
    have lost : attempt user coupon (effort.afterFailures count) = _ :=
      attempt_of_failing (eligible.lose count) (Nat.sub_pos_of_lt failing)
    have again : Retry.pause? limit (effort.attempts + count + 1)
        (.error (.transient .injectedCommit)) =
        some (Retry.backoff * (effort.attempts + count + 1)) := if_pos ⟨rfl, allowed⟩
    rw [ih (by omega) (by omega), ← rest_attempt effort count]
    exact Retry.runFrom_of_again lost again

/-- The attempts end with the first commit that is let through. -/
theorem finish_of_working (eligible : effort.store.Eligible user coupon)
    (working : effort.store.failing = 0) :
    effort.finish user coupon limit = (.ok ⟨effort.store.lastId + 1, user, coupon⟩,
      { effort with store := effort.store.grant user coupon, attempts := effort.attempts + 1 }) :=
  Retry.runFrom_of_stands (attempt_eq (eligible.verdict_of_working working)) rfl

/-- The last attempt allowed ends with the failure of its commit. -/
theorem finish_of_failing (eligible : effort.store.Eligible user coupon)
    (failing : 0 < effort.store.failing) (last : limit ≤ effort.attempts + 1) :
    effort.finish user coupon limit = (.error (.transient .injectedCommit),
      { effort with store := effort.store.lose 1, attempts := effort.attempts + 1 }) :=
  Retry.runFrom_of_stands (attempt_of_failing eligible failing)
    (if_neg fun again => absurd again.2 (not_lt.mpr last))

theorem paused_afterFailures (store : Store) (count : Nat) :
    (afterFailures { store } count).paused = Retry.pauses (count + 1) := by
  have gauss := Finset.sum_range_id (count + 1)
  rw [Finset.sum_range_succ'] at gauss
  unfold afterFailures Retry.pauses
  rw [← gauss]
  simp [Nat.add_comm]

variable {store : Store}

/-- A claim that lacks nothing is granted after the commits that are made to fail, if they leave an
attempt. -/
theorem finish_granted (eligible : store.Eligible user coupon) (enough : store.failing < limit) :
    finish user coupon limit { store } =
      (.ok ⟨store.lastId + store.failing + 1, user, coupon⟩,
        ⟨(store.lose store.failing).grant user coupon, store.failing + 1,
          Retry.pauses (store.failing + 1)⟩) := by
  rw [finish_afterFailures eligible store.failing le_rfl (by rwa [Nat.zero_add]),
    finish_of_working (eligible.lose _) (Nat.sub_self _), paused_afterFailures]
  simp [afterFailures, Store.lose]

/-- It fails when no attempt is left by the commits that are made to fail. -/
theorem finish_lost (eligible : store.Eligible user coupon) (allowed : 0 < limit)
    (enough : limit ≤ store.failing) :
    finish user coupon limit { store } =
      (.error (.transient .injectedCommit), ⟨store.lose limit, limit, Retry.pauses limit⟩) := by
  obtain ⟨before, rfl⟩ := Nat.exists_eq_add_of_le' allowed
  have failing : 0 < (store.lose before).failing := Nat.sub_pos_of_lt enough
  have last : before + 1 ≤ (afterFailures { store } before).attempts + 1 := by
    simp [afterFailures]
  rw [finish_afterFailures eligible before (Nat.le_of_succ_le enough) (by simp),
    finish_of_failing (eligible.lose _) failing last, paused_afterFailures]
  simp [afterFailures, Store.lose_lose]

/-- A claim that lacks something else is refused at once. -/
theorem finish_refused (limit : Nat) {e : Error} (final : e.retryable = false)
    (refused : store.verdict user coupon = (.error e, store)) :
    finish user coupon limit { store } = (.error e, ⟨store, 1, 0⟩) :=
  Retry.runFrom_of_stands (attempt_eq refused) (if_neg fun again => by simp [final] at again)

end Effort

/-! ## The account of a claim -/

theorem Store.coupons_grant (s : Store) (user coupon : String) :
    (s.grant user coupon).coupons = s.coupons.map fun row =>
      if row.name = coupon then { row with remaining := row.remaining - 1 } else row := by
  refine List.map_congr_left fun row _ => ?_
  by_cases named : row.name = coupon
  · simp [named]
  · simp [named, Ne.symm named]

namespace System

variable (s : System) (user coupon : String) (maxAttempts : Nat)

/-- What a claim costs and brings that lacks nothing but commits that are let through: one attempt
and one id for each commit made to fail, as long as attempts are left, and one of each for the
commit that is let through then. -/
structure Paid (reply : Option (Except Error Claim × Nat)) (s' : System) : Prop where
  attempts : ∃ call, s'.calls = s.calls ++ [call] ∧
    call.attempt = min (s.store.failing + 1) (max 1 maxAttempts)
  granted : s.store.failing < max 1 maxAttempts →
    reply = some (.ok ⟨s.store.lastId + s.store.failing + 1, user, coupon⟩,
      Retry.pauses (s.store.failing + 1))
  lost : max 1 maxAttempts ≤ s.store.failing →
    reply = some (.error (.transient .injectedCommit), Retry.pauses (max 1 maxAttempts))
  failing : s'.store.failing = s.store.failing - min s.store.failing (max 1 maxAttempts)
  lastId : s'.store.lastId = s.store.lastId + min (s.store.failing + 1) (max 1 maxAttempts)
  claims : s'.store.claims = s.store.claims ++
    if s.store.failing < max 1 maxAttempts then
      [⟨s.store.lastId + s.store.failing + 1, user, coupon⟩]
    else []
  coupons : s'.store.coupons =
    if s.store.failing < max 1 maxAttempts then
      s.store.coupons.map fun row =>
        if row.name = coupon then { row with remaining := row.remaining - 1 } else row
    else s.store.coupons
  quiet : s'.store.Quiet

/-- What a claim costs that is refused for a lasting reason: one attempt, and nothing else. -/
structure RefusedAtOnce (e : Error) (reply : Option (Except Error Claim × Nat)) (s' : System) :
    Prop where
  attempts : ∃ call, s'.calls = s.calls ++ [call] ∧ call.attempt = 1
  reply_eq : reply = some (.error e, 0)
  store_eq : s'.store = s.store

/-- What a claim costs and brings, by what the caller finds. -/
structure Accounted (reply : Option (Except Error Claim × Nat)) (s' : System) : Prop where
  paid : (∃ row, s.store.coupon? coupon = some row ∧ 0 < row.remaining) →
    (user, coupon) ∉ s.store.claims.map Claim.key → s.Paid user coupon maxAttempts reply s'
  missing : s.store.coupon? coupon = none → s.RefusedAtOnce (.couponNotFound coupon) reply s'
  soldOut : ∀ row, s.store.coupon? coupon = some row → row.remaining ≤ 0 →
    s.RefusedAtOnce (.noStock coupon) reply s'
  repeated : ∀ row, s.store.coupon? coupon = some row → 0 < row.remaining →
    (user, coupon) ∈ s.store.claims.map Claim.key →
    s.RefusedAtOnce (.alreadyClaimed user coupon) reply s'

variable {s user coupon maxAttempts}

theorem attempt_made (call : Call) (effort : Effort) (result : Except Error Claim) :
    ∃ last, (s.made call effort result).calls = s.calls ++ [last] ∧
      last.attempt = effort.attempts := by
  refine ⟨_, rfl, ?_⟩
  obtain ⟨phase, concluded, -⟩ := Call.conclude_eq { call with attempt := effort.attempts }
    (s.now + effort.paused) result
  rw [concluded]

theorem paid_of_eligible (call : Call) (quiet : s.store.Quiet)
    (eligible : s.store.Eligible user coupon) :
    let last := Effort.finish user coupon (Retry.limit maxAttempts) { store := s.store }
    s.Paid user coupon maxAttempts (some (last.1, last.2.paused)) (s.made call last.2 last.1) := by
  have bound : Retry.limit maxAttempts = max 1 maxAttempts := Nat.max_comm _ _
  have positive : 0 < max 1 maxAttempts := Nat.lt_of_lt_of_le one_pos (Nat.le_max_left _ _)
  rw [bound]
  by_cases enough : s.store.failing < max 1 maxAttempts
  · rw [Effort.finish_granted eligible enough]
    have spent : min (s.store.failing + 1) (max 1 maxAttempts) = s.store.failing + 1 :=
      Nat.min_eq_left enough
    exact {
      attempts := by rw [spent]; exact attempt_made call _ _
      granted := fun _ => rfl
      lost := fun short => absurd enough (not_lt.mpr short)
      failing := by rw [Nat.min_eq_left enough.le]; rfl
      lastId := by rw [spent]; rfl
      claims := by rw [if_pos enough]; rfl
      coupons := by rw [if_pos enough]; exact Store.coupons_grant _ user coupon
      quiet := ⟨quiet.line, quiet.live⟩ }
  · rw [Effort.finish_lost eligible positive (not_lt.mp enough)]
    have spent : min (s.store.failing + 1) (max 1 maxAttempts) = max 1 maxAttempts :=
      Nat.min_eq_right (Nat.le_succ_of_le (not_lt.mp enough))
    exact {
      attempts := by rw [spent]; exact attempt_made call _ _
      granted := fun more => absurd more enough
      lost := fun _ => rfl
      failing := by rw [Nat.min_eq_right (not_lt.mp enough)]; rfl
      lastId := by rw [spent]; rfl
      claims := by rw [if_neg enough, List.append_nil]; rfl
      coupons := by rw [if_neg enough]; rfl
      quiet := ⟨quiet.line, quiet.live⟩ }

theorem refusedAtOnce (call : Call) (limit : Nat) {e : Error} (final : e.retryable = false)
    (refused : s.store.verdict user coupon = (.error e, s.store)) :
    let last := Effort.finish user coupon limit { store := s.store }
    s.RefusedAtOnce e (some (last.1, last.2.paused)) (s.made call last.2 last.1) := by
  rw [Effort.finish_refused limit final refused]
  exact ⟨attempt_made call _ _, rfl, rfl⟩

/-- On a store on which no transaction is live, a claim that may be repeated is accounted for to
the last attempt, id and injected failure. -/
theorem claim_accounted (actions : List Action) (reached : run actions {} = some s)
    (dead : ∀ t, s.store.isLive t = false) (ended : ∀ call ∈ s.calls, call.isOpen = false)
    (user coupon : String) (deadline : Duration) (maxAttempts : Nat) :
    let claimed := s.claim user coupon deadline (Retry.limit maxAttempts)
    s.Accounted user coupon maxAttempts claimed.1 claimed.2 := by
  have sound := run_sound actions reached
  have quiet := sound.store.quiet dead
  have index := sound.store.keys.index
  intro claimed
  obtain ⟨claims, -⟩ := claim_alone ended quiet user coupon deadline (Retry.limit maxAttempts)
  have claims : claimed = _ := claims
  rw [claims]
  constructor
  · intro stock unclaimed
    exact paid_of_eligible _ quiet ⟨stock, index ▸ unclaimed⟩
  · intro missing
    exact refusedAtOnce _ _ rfl (by simp only [Store.verdict, missing])
  · intro row found soldOut
    exact refusedAtOnce _ _ rfl (by rw [Store.verdict_found _ _ _ row found, if_pos soldOut])
  · intro row found stock repeated
    refine refusedAtOnce _ _ rfl ?_
    rw [Store.verdict_found _ _ _ row found, if_neg (not_le.mpr stock), if_pos (index ▸ repeated)]

/-- The state in which a coupon waits for its first claim and the next two commits are to fail. -/
def faultyCommits : System := { store := { coupons := [.fresh "SPRING" 3], failing := 2 } }

theorem claim_accounted_faultyCommits :
    let claimed := faultyCommits.claim "ada" "SPRING" (.ofMillis 500) (Retry.limit 5)
    faultyCommits.Accounted "ada" "SPRING" 5 claimed.1 claimed.2 ∧
      claimed.1 = some (.ok ⟨3, "ada", "SPRING"⟩, 75) := by
  have accounted := claim_accounted (s := faultyCommits) [.create "SPRING" 3, .failCommits 2] rfl
    (fun _ => rfl) (fun _ member => nomatch member) "ada" "SPRING" (.ofMillis 500) 5
  have found : ∃ row, faultyCommits.store.coupon? "SPRING" = some row ∧ 0 < row.remaining :=
    ⟨.fresh "SPRING" 3, rfl, by decide⟩
  exact ⟨accounted, (accounted.paid found (by decide)).granted (by decide)⟩

end System

end Memory

end CouponDesk
