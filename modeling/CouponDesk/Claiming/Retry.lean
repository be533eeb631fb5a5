import CouponDesk.Claiming.Attempt

/-!
# Repeating an attempt

An attempt that failed transiently may be made again, up to a fixed number of attempts; the
pause before the next one grows with the number of attempts made.  Any other result stands.
-/

set_option autoImplicit false

namespace CouponDesk.Retry

/-- The pause after the first attempt, in milliseconds. -/
def backoff : Nat := 25

def limit (maxAttempts : Nat) : Nat := max maxAttempts 1

/-- The pause, in milliseconds, between attempt number `attempt` with this result and the next
attempt; nothing when the result stands. -/
def pause? (limit attempt : Nat) : Except Error Claim → Option Nat
  | .ok _ => none
  | .error e => if e.retryable ∧ attempt < limit then some (backoff * attempt) else none

theorem lt_of_pause?_eq_some {limit attempt ms : Nat} {result : Except Error Claim}
    (again : pause? limit attempt result = some ms) : attempt < limit := by
  cases result with
  | ok claim => simp [pause?] at again
  | error e =>
    simp only [pause?, Option.ite_none_right_eq_some] at again
    exact again.1.2

def runFrom {m : Type → Type} [Monad m] (pause : Nat → m Unit) (once : m (Except Error Claim))
    (limit attempt : Nat) : m (Except Error Claim) := do
  let result ← once
  match _ : pause? limit attempt result with
  | some ms =>
      pause ms
      runFrom pause once limit (attempt + 1)
  | none => pure result
termination_by limit - attempt
decreasing_by
  have := lt_of_pause?_eq_some ‹_›
  omega

def run {m : Type → Type} [Monad m] (pause : Nat → m Unit) (once : m (Except Error Claim))
    (maxAttempts : Nat) : m (Except Error Claim) :=
  runFrom pause once (limit maxAttempts) 1

/-- Makes attempt number `attempt` for each request that is still open, in order, and goes on with
those that are to be repeated.  A result that stands is closed by `finish`. -/
def runTogetherFrom {m : Type → Type} [Monad m] {ρ α : Type} (pause : Nat → m Unit)
    (once : ρ → m (Except Error Claim)) (finish : Except Error Claim → m α) (limit attempt : Nat)
    (calls : List (ρ ⊕ α)) : m (List α) := do
  let calls ← calls.mapM fun
    | .inr done => pure (.inr done)
    | .inl request => do
        let result ← once request
        match pause? limit attempt result with
        | some _ => pure (.inl request)
        | none => return .inr (← finish result)
  if attempt < limit ∧ calls.any Sum.isLeft then
    pause (backoff * attempt)
    runTogetherFrom pause once finish limit (attempt + 1) calls
  else pure (calls.filterMap Sum.getRight?)
termination_by limit - attempt

def runTogether {m : Type → Type} [Monad m] {ρ α : Type} (pause : Nat → m Unit)
    (once : ρ → m (Except Error Claim)) (finish : Except Error Claim → m α)
    (requests : List ρ) (maxAttempts : Nat) : m (List α) :=
  runTogetherFrom pause once finish (limit maxAttempts) 1 (requests.map .inl)

end CouponDesk.Retry
