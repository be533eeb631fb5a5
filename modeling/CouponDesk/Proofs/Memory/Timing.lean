import CouponDesk.Proofs.Memory.Progress

/-!
# Keeping time

What a clock allows that moves only while nothing can go on, and past no timer before it has gone
off; and the runs on such a clock in which nothing else is asked for.
-/

set_option autoImplicit false

namespace CouponDesk.Memory

theorem Action.call?_of_hand {action : Action} {number : Nat} (hand : action.hand? = some number) :
    action.call? = none := by
  cases action with
  | advance | expire | cancel => cases hand
  | _ => rfl

/-- A step of a call or of the clock that nobody has to ask for. -/
def Action.unprompted : Action → Bool
  | .advance _ | .expire _ | .wake _ | .pass _ => true
  | _ => false

namespace System

/-! ## The clock -/

def timer? (s : System) (c : Nat) : Option Nat := (s.calls[c]?).bind Call.timer?

def Stuck (s : System) : Prop := ∀ c, s.advance c = none

def Due (s : System) (c : Nat) : Prop := ∃ due, s.timer? c = some due ∧ due ≤ s.now

def QuietUntil (s : System) (time : Nat) : Prop := ∀ c due, s.timer? c = some due → time ≤ due

/-- What a clock allows that moves only while nothing can go on, and past no timer.  A timer goes
off when it is due, and cuts off no attempt that can go on. -/
def Timely (s : System) : Action → Prop
  | .pass ms => s.Stuck ∧ s.QuietUntil (s.now + ms)
  | .expire c => s.advance c = none ∧ s.Due c
  | .wake c => s.Due c
  | _ => True

instance (s : System) (c : Nat) : Decidable (s.advance c = none) :=
  decidable_of_iff ((s.advance c).isNone = true) Option.isNone_iff_eq_none

instance (s : System) : Decidable s.Stuck :=
  decidable_of_iff (∀ c < s.calls.length, s.advance c = none)
    ⟨fun all c => by
        by_cases made : c < s.calls.length
        · exact all c made
        · simp [advance, List.getElem?_eq_none (not_lt.mp made)],
      fun stuck c _ => stuck c⟩

instance (s : System) (c : Nat) : Decidable (s.Due c) :=
  decidable_of_iff (∃ due ∈ s.timer? c, due ≤ s.now) Iff.rfl

instance (s : System) (time : Nat) : Decidable (s.QuietUntil time) :=
  decidable_of_iff (∀ c < s.calls.length, ∀ due ∈ s.timer? c, time ≤ due)
    ⟨fun all c due timer => by
        by_cases made : c < s.calls.length
        · exact all c made due timer
        · simp [timer?, List.getElem?_eq_none (not_lt.mp made)] at timer,
      fun quiet c _ => quiet c⟩

instance (s : System) : (action : Action) → Decidable (s.Timely action)
  | .pass _ => inferInstanceAs (Decidable (_ ∧ _))
  | .expire _ => inferInstanceAs (Decidable (_ ∧ _))
  | .wake c => inferInstanceAs (Decidable (s.Due c))
  | .create .. | .failCommits _ | .begin _ | .lock .. | .leave .. | .insert .. | .decrement ..
  | .commit _ | .rollback _ | .start .. | .advance _ | .cancel _ => .isTrue trivial

variable {s s' : System}

/-- Only where time is let pass does a step take time. -/
theorem Does.now_eq {action : Action} (does : s.Does action s') (other : ∀ ms, action ≠ .pass ms) :
    s'.now = s.now := by
  cases does with
  | pass ms => exact absurd rfl (other ms)
  | _ => rfl

/-- A clock that keeps time does not pass a timer. -/
theorem Does.now_le_timer {action : Action} {c due : Nat} (does : s.Does action s')
    (timely : s.Timely action) (timer : s.timer? c = some due) (inTime : s.now ≤ due) :
    s'.now ≤ due := by
  cases does with
  | pass ms => exact timely.2 c due timer
  | _ => exact inTime

/-! ## Runs that keep time -/

/-- A run of the calls and of the clock alone, which keeps time. -/
def Elapses (s s' : System) : Prop :=
  ∃ actions, run actions s = some s' ∧ (∀ action ∈ actions, action.unprompted = true) ∧
    ∀ step ∈ trace actions s, step.before.Timely step.action

theorem Elapses.refl (s : System) : s.Elapses s :=
  ⟨[], rfl, by simp, by simp [trace]⟩

theorem trace_append (first second : List Action) (runs : run first s = some s') :
    trace (first ++ second) s = trace first s ++ trace second s' := by
  induction first generalizing s with
  | nil =>
    cases runs
    rfl
  | cons action rest ih =>
    obtain ⟨next, step, runs⟩ := Option.bind_eq_some_iff.mp runs
    simp only [List.cons_append, trace, step, ih runs]

theorem Elapses.trans {last : System} (first : s.Elapses s') (second : s'.Elapses last) :
    s.Elapses last := by
  obtain ⟨before, runs, unprompted, timely⟩ := first
  obtain ⟨after, runs', unprompted', timely'⟩ := second
  refine ⟨before ++ after, ?_, ?_, ?_⟩
  · rw [run_append, runs]
    exact runs'
  · intro action member
    exact (List.mem_append.mp member).elim (unprompted action) (unprompted' action)
  · intro step member
    rw [trace_append before after runs] at member
    exact (List.mem_append.mp member).elim (timely step) (timely' step)

theorem Elapses.step (action : Action) (step : s.act action = some s')
    (unprompted : action.unprompted = true) (timely : s.Timely action) : s.Elapses s' := by
  refine ⟨[action], ?_, by simpa using unprompted, ?_⟩
  · simp [run, step]
  · simpa [trace, step] using timely

/-- What every step of the calls and the clock keeps, every such run keeps. -/
theorem Elapses.keeps (elapses : s.Elapses s') (holds : System → Prop)
    (kept : ∀ s s' action, action.unprompted = true → s.Does action s' → holds s → holds s')
    (first : holds s) : holds s' := by
  obtain ⟨actions, runs, unprompted, -⟩ := elapses
  exact run_keeps holds (fun action => action.unprompted = true) kept actions unprompted runs first

theorem Elapses.sound (elapses : s.Elapses s') (sound : s.Sound) : s'.Sound :=
  elapses.keeps Sound (fun _ _ _ _ does => does.sound) sound

theorem Elapses.attemptsLeft (elapses : s.Elapses s') (again : s.AttemptsLeft) : s'.AttemptsLeft :=
  elapses.keeps AttemptsLeft (fun _ _ _ _ does => does.attemptsLeft) again

theorem Elapses.now_le (elapses : s.Elapses s') : s.now ≤ s'.now := by
  refine elapses.keeps (fun later => s.now ≤ later.now) ?_ (Nat.le_refl _)
  intro mid next action _ does order
  cases does with
  | pass ms => exact order.trans (Nat.le_add_right _ _)
  | _ => exact order

end System

end CouponDesk.Memory
