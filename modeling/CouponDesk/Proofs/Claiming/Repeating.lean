import CouponDesk.Proofs.Claiming.Stages
import Mathlib.Algebra.BigOperators.Intervals
import Mathlib.Algebra.Order.BigOperators.Group.Finset
import Mathlib.Tactic.Ring

/-!
# How often an attempt is repeated

Attempts whose results and lengths are given in advance, whatever they are.  The first result that
stands ends the loop, and so does the last attempt allowed; between two attempts lies a pause that
is longer each time.  On a machine neither the number of the attempt nor the length of a pause ever
overflows.
-/

set_option autoImplicit false

namespace CouponDesk

/-! ## Numbers of a machine -/

def nextWord? (n : UInt32) : Option UInt32 := if n.toNat + 1 < 2 ^ 32 then some (n + 1) else none

theorem nextWord?_eq_some {n next : UInt32} (some_ : nextWord? n = some next) :
    next.toNat = n.toNat + 1 := by
  unfold nextWord? at some_
  split at some_
  · rename_i fits
    cases some_
    rw [UInt32.toNat_add]
    exact Nat.mod_eq_of_lt fits
  · cases some_

/-- A duration so many times over, in 64-bit seconds and with the nanoseconds multiplied in 64 bits;
nothing if one of these numbers does not fit. -/
def Duration.times? (d : Duration) (n : UInt32) : Option Duration :=
  let nanos := d.nanos * n.toNat
  let seconds := d.seconds * n.toNat
  if nanos < 2 ^ 64 ∧ seconds < 2 ^ 64 ∧ seconds + nanos / 1000000000 < 2 ^ 64 then
    some ⟨seconds + nanos / 1000000000, nanos % 1000000000, Nat.mod_lt _ (by decide)⟩
  else none

namespace Retry

theorem times?_backoff (n : UInt32) :
    (Duration.ofMillis backoff).times? n = some (.ofMillis (backoff * n.toNat)) := by
  have small := n.toNat_lt
  unfold Duration.times? Duration.ofMillis backoff
  dsimp only
  rw [if_pos (by omega)]
  simp only [Option.some.injEq, Duration.mk.injEq]
  omega

theorem toNat_max_one (n : UInt32) : (max n 1).toNat = limit n.toNat := by
  change (if n ≤ 1 then 1 else n).toNat = max n.toNat 1
  by_cases small : n ≤ 1
  · rw [if_pos small]
    exact (Nat.max_eq_right (UInt32.le_iff_toNat_le.mp small)).symm
  · rw [if_neg small]
    exact (Nat.max_eq_left (Nat.le_of_not_le fun le => small (UInt32.le_iff_toNat_le.mpr le))).symm

/-! ## The loop on a machine -/

section

variable {m : Type → Type} [Monad m] (pause : Duration → m Unit) (once : m (Except Error Claim))

/-- Attempts from number `attempt` on, until a result stands, where the number of the attempt has 32
bits; no result when a number overflows. -/
def runWords (limit attempt : UInt32) : m (Option (Except Error Claim)) := do
  let result ← once
  match result with
  | .ok claim => pure (some (.ok claim))
  | .error e =>
      if _ : e.retryable = true ∧ attempt < limit then
        match (Duration.ofMillis backoff).times? attempt with
        | none => pure none
        | some length =>
            pause length
            match _ : nextWord? attempt with
            | none => pure none
            | some next => runWords limit next
      else pure (some (.error e))
termination_by limit.toNat - attempt.toNat
decreasing_by
  have further := nextWord?_eq_some ‹_›
  have order := UInt32.lt_iff_toNat_lt.mp (And.right ‹e.retryable = true ∧ attempt < limit›)
  omega

/-- One attempt, and then the rest. -/
theorem runWords_eq (limit attempt : UInt32) :
    runWords pause once limit attempt = once >>= fun result =>
      match result with
      | .ok claim => pure (some (.ok claim))
      | .error e =>
          if e.retryable = true ∧ attempt < limit then
            match (Duration.ofMillis backoff).times? attempt with
            | none => pure none
            | some length => pause length >>= fun _ =>
                match nextWord? attempt with
                | none => pure none
                | some next => runWords pause once limit next
          else pure (some (.error e)) := by
  rw [runWords]
  refine congrArg (once >>= ·) (funext fun result => ?_)
  cases result with
  | ok claim => rfl
  | error e =>
    dsimp only
    split
    · split
      · rfl
      · refine congrArg (pause _ >>= ·) (funext fun _ => ?_)
        split <;> rename_i found <;> rw [found]
    · rfl

/-- The loop never meets the end of a 32-bit or 64-bit number: it is the loop over numbers without
end. -/
theorem runWords_eq_runFrom [LawfulMonad m] (limit attempt : UInt32) :
    runWords pause once limit attempt =
      some <$> runFrom (fun ms => pause (.ofMillis ms)) once limit.toNat attempt.toNat := by
  rw [runWords_eq, runFrom_eq, map_bind]
  refine congrArg (once >>= ·) (funext fun result => ?_)
  cases result with
  | ok claim => simp [pause?]
  | error e =>
    by_cases again : e.retryable = true ∧ attempt < limit
    · have order := UInt32.lt_iff_toNat_lt.mp again.2
      have room : attempt.toNat + 1 < 2 ^ 32 := by have := limit.toNat_lt; omega
      obtain ⟨next, found⟩ : ∃ next, nextWord? attempt = some next := ⟨_, if_pos room⟩
      have further := nextWord?_eq_some found
      have counted : pause? limit.toNat attempt.toNat (.error e) = some (backoff * attempt.toNat) :=
        if_pos ⟨again.1, order⟩
      simp only [if_pos again, times?_backoff, found, counted, map_bind,
        runWords_eq_runFrom limit next, further]
    · have stands : pause? limit.toNat attempt.toNat (.error e) = none := by
        rw [pause?, UInt32.lt_iff_toNat_lt] at *
        exact if_neg again
      simp only [if_neg again, stands, map_pure]
termination_by limit.toNat - attempt.toNat
decreasing_by omega

end

/-! ## The loop in a state -/

section

variable {σ : Type} {pause : Nat → StateM σ Unit} {once : StateM σ (Except Error Claim)}
  {limit attempt : Nat} {before after : σ} {result : Except Error Claim}

theorem runFrom_of_again {ms : Nat} (made : once before = (result, after))
    (again : pause? limit attempt result = some ms) :
    runFrom pause once limit attempt before =
      runFrom pause once limit (attempt + 1) (pause ms after).2 := by
  rw [runFrom_eq]
  simp only [bind, StateT.bind, made, again]
  rfl

theorem runFrom_of_stands (made : once before = (result, after))
    (stands : pause? limit attempt result = none) :
    runFrom pause once limit attempt before = (result, after) := by
  rw [runFrom_eq]
  simp only [bind, StateT.bind, made, stands]
  rfl

end

/-! ## Attempts known in advance -/

inductive Lapse
  | attempt (result : Except Error Claim) (nanos : Nat)
  | pause (length : Duration)

namespace Lapse

def nanos : Lapse → Nat
  | attempt _ nanos => nanos
  | pause length => length.seconds * 1000000000 + length.nanos

def isAttempt : Lapse → Bool
  | attempt _ _ => true
  | pause _ => false

theorem nanos_pause_ofMillis (ms : Nat) : (pause (.ofMillis ms)).nanos = ms * 1000000 := by
  simp only [nanos, Duration.ofMillis]
  omega

end Lapse

section

variable (results : Nat → Except Error Claim) (lengths : Nat → Nat)

/-- The attempt with this number, with the result and the length that are given for it. -/
def attemptAt (i : Nat) : Lapse := .attempt (results i) (lengths i)

def nextAttempt : StateM (List Lapse) (Except Error Claim) := fun log =>
  (results (log.countP Lapse.isAttempt + 1),
    log ++ [attemptAt results lengths (log.countP Lapse.isAttempt + 1)])

def rest (length : Duration) : StateM (List Lapse) Unit := modify (· ++ [.pause length])

/-- So many attempts, with a pause after each that is longer by `backoff` than the one before. -/
def failures (count : Nat) : List Lapse :=
  (List.range count).flatMap fun i =>
    [attemptAt results lengths (i + 1), .pause (.ofMillis (backoff * (i + 1)))]

theorem failures_succ (count : Nat) :
    failures results lengths (count + 1) = failures results lengths count ++
      [attemptAt results lengths (count + 1)] ++ [.pause (.ofMillis (backoff * (count + 1)))] := by
  simp [failures, List.range_succ]

theorem countP_failures (count : Nat) :
    (failures results lengths count).countP Lapse.isAttempt = count := by
  induction count with
  | zero => rfl
  | succ count ih =>
    rw [failures_succ, List.countP_append, List.countP_append, ih]
    rfl

theorem nextAttempt_failures (count : Nat) :
    nextAttempt results lengths (failures results lengths count) =
      (results (count + 1),
        failures results lengths count ++ [attemptAt results lengths (count + 1)]) := by
  rw [nextAttempt, countP_failures]

/-- Whether the attempts after a result of this kind go on, were there no bound on them. -/
def Transient (result : Except Error Claim) : Prop :=
  ∃ e, result = .error e ∧ e.kind = .transient

theorem pause?_of_transient {limit attempt : Nat} {result : Except Error Claim}
    (transient : Transient result) (allowed : attempt < limit) :
    pause? limit attempt result = some (backoff * attempt) := by
  obtain ⟨e, rfl, kind⟩ := transient
  exact if_pos ⟨by simp [Error.retryable, kind], allowed⟩

theorem pause?_eq_none {limit attempt : Nat} {result : Except Error Claim}
    (stands : Transient result → limit ≤ attempt) : pause? limit attempt result = none := by
  cases result with
  | ok claim => rfl
  | error e =>
    refine if_neg fun again => ?_
    have := stands ⟨e, rfl, by simpa [Error.retryable] using again.1⟩
    omega

/-- From the attempt after `count` failures on, the loop makes attempts up to the first that stands
or the last allowed. -/
theorem runFrom_failures (limit count : Nat) (allowed : count < limit) :
    ∃ last, count ≤ last ∧ last < limit ∧
      (∀ i, count ≤ i → i < last → Transient (results (i + 1))) ∧
      (last + 1 < limit → ¬ Transient (results (last + 1))) ∧
      runFrom (fun ms => rest (.ofMillis ms)) (nextAttempt results lengths) limit (count + 1)
          (failures results lengths count) =
        (results (last + 1),
          failures results lengths last ++ [attemptAt results lengths (last + 1)]) := by
  by_cases again : Transient (results (count + 1)) ∧ count + 1 < limit
  · obtain ⟨last, after, below, transient, stands, ran⟩ :=
      runFrom_failures limit (count + 1) again.2
    refine ⟨last, by omega, below, fun i start stop => ?_, stands, ?_⟩
    · rcases Nat.eq_or_lt_of_le start with rfl | later
      · exact again.1
      · exact transient i later stop
    · rw [runFrom_of_again (nextAttempt_failures results lengths count)
        (pause?_of_transient again.1 again.2), ← ran, failures_succ]
      rfl
  · refine ⟨count, Nat.le_refl _, allowed, fun i start stop => absurd stop (by omega),
      fun more transient => again ⟨transient, more⟩, ?_⟩
    refine runFrom_of_stands (nextAttempt_failures results lengths count) (pause?_eq_none ?_)
    exact fun transient => Nat.le_of_not_lt fun more => again ⟨transient, more⟩
termination_by limit - count

/-- The attempts up to number `count`, each with what it took, and the pauses between them. -/
def course (count : Nat) : List Lapse :=
  failures results lengths (count - 1) ++ [attemptAt results lengths count]

theorem nanos_failures (count : Nat) :
    ((failures results lengths count).map Lapse.nanos).sum =
      ∑ i ∈ Finset.Icc 1 count, lengths i + backoff * (∑ i ∈ Finset.range (count + 1), i) * 1000000 := by
  induction count with
  | zero => rfl
  | succ count ih =>
    rw [failures_succ, List.map_append, List.map_append, List.sum_append, List.sum_append, ih,
      Finset.sum_Icc_succ_top (by omega), Finset.sum_range_succ _ (count + 1)]
    simp only [List.map_cons, List.map_nil, List.sum_cons, List.sum_nil,
      Lapse.nanos_pause_ofMillis]
    simp only [attemptAt, Lapse.nanos]
    ring

theorem nanos_course (count : Nat) (positive : 1 ≤ count) :
    ((course results lengths count).map Lapse.nanos).sum =
      ∑ i ∈ Finset.Icc 1 count, lengths i + 25 * count * (count - 1) / 2 * 1000000 := by
  obtain ⟨before, rfl⟩ := Nat.exists_eq_add_of_le' positive
  have pauses : 25 * (before + 1) * (before + 1 - 1) / 2 =
      backoff * ∑ i ∈ Finset.range (before + 1), i := by
    rw [Nat.mul_assoc, ← Finset.sum_range_id_mul_two, ← Nat.mul_assoc, Nat.mul_div_cancel _ two_pos]
    rfl
  rw [pauses, course, Nat.add_sub_cancel, List.map_append, List.sum_append, nanos_failures,
    Finset.sum_Icc_succ_top (by omega)]
  simp only [List.map_cons, List.map_nil, List.sum_cons, List.sum_nil, attemptAt, Lapse.nanos]
  omega

/-- This many attempts are made of those that a setting allows: up to the first that does not fail
transiently, and to the last allowed if there is none before.  Its result is the result of all, and
the time is that of the attempts and of the pauses. -/
structure Repeats (maxAttempts : UInt32) (count : Nat) : Prop where
  positive : 1 ≤ count
  allowed : count ≤ max 1 maxAttempts.toNat
  transient : ∀ i, 1 ≤ i → i < count → Transient (results i)
  stands : count < max 1 maxAttempts.toNat → ¬ Transient (results count)
  run_eq : run (fun ms => rest (.ofMillis ms)) (nextAttempt results lengths) maxAttempts.toNat [] =
    (results count, course results lengths count)
  runWords_eq : runWords rest (nextAttempt results lengths) (max maxAttempts 1) 1 [] =
    (some (results count), course results lengths count)
  nanos_eq : ((course results lengths count).map Lapse.nanos).sum =
    ∑ i ∈ Finset.Icc 1 count, lengths i + 25 * count * (count - 1) / 2 * 1000000

/-- Whatever the results of the attempts and however long each takes, and whatever the setting, a
number of attempts is made that the results and the setting determine. -/
theorem run_repeats (maxAttempts : UInt32) : ∃ count, Repeats results lengths maxAttempts count := by
  obtain ⟨last, -, below, transient, stands, ran⟩ :=
    runFrom_failures results lengths (limit maxAttempts.toNat) 0 (Nat.le_max_right _ 1)
  have bound : limit maxAttempts.toNat = max 1 maxAttempts.toNat := Nat.max_comm _ _
  refine ⟨last + 1, {
    positive := Nat.le_add_left 1 last
    allowed := by omega
    transient := fun i start stop => ?_
    stands := fun more => stands (by omega)
    run_eq := ran
    runWords_eq := ?_
    nanos_eq := nanos_course results lengths _ (Nat.le_add_left 1 last) }⟩
  · obtain ⟨j, rfl⟩ := Nat.exists_eq_add_of_le' start
    exact transient j (Nat.zero_le j) (by omega)
  · rw [runWords_eq_runFrom, toNat_max_one]
    change (_ : _ × _) = _
    exact congrArg (Prod.map some id) ran

end

end Retry

end CouponDesk
