import CouponDesk.Proofs.Memory.Reachable

/-!
# The history of a run

A run leaves a history: its steps, each with the states around it.  An attempt takes part in the
steps that carry it on, cut it off or abandon it, and it ends in one of them, once.
-/

set_option autoImplicit false

namespace CouponDesk.Memory

structure Step where
  before : System
  action : Action
  after : System

structure Attempt where
  call : Nat
  number : Nat
deriving DecidableEq, Repr

inductive Ending
  | answered (result : Except Error Claim)
  /-- The attempt failed transiently, and the call pauses before its next one. -/
  | retried
  | cancelled

def Action.call? : Action → Option Nat
  | .advance c | .expire c | .cancel c => some c
  | _ => none

namespace Call

def trying? (call : Call) : Option Nat :=
  match call.phase with
  | .trying _ _ => some call.attempt
  | _ => none

/-- How the last attempt of a call ended; nothing while it is under way. -/
def ending? (call : Call) : Option Ending :=
  match call.phase with
  | .trying _ _ => none
  | .resting _ => some .retried
  | .finished result _ => some (.answered result)
  | .cancelled => some .cancelled

end Call

namespace Step

def attempt? (step : Step) : Option Attempt := do
  let c ← step.action.call?
  let call ← step.before.calls[c]?
  let number ← call.trying?
  return ⟨c, number⟩

def ending? (step : Step) : Option Ending := do
  let a ← step.attempt?
  let call ← step.after.calls[a.call]?
  call.ending?

end Step

/-- The attempt that ends in a step, if one does, does not take part in the later one. -/
def Step.Closes (step later : Step) : Prop :=
  ∀ a ending, step.attempt? = some a → step.ending? = some ending → later.attempt? ≠ some a

def Ends (history : List Step) (a : Attempt) (ending : Ending) : Prop :=
  ∃ step ∈ history, step.attempt? = some a ∧ step.ending? = some ending

theorem getElem?_snoc {α : Type} (history : List α) (last found : α) (i : Nat)
    (at_ : (history ++ [last])[i]? = some found) :
    history[i]? = some found ∨ i = history.length ∧ last = found := by
  rw [List.getElem?_append] at at_
  split at at_
  · exact Or.inl at_
  · obtain ⟨bound, same⟩ := List.getElem?_eq_some_iff.mp at_
    rw [List.length_singleton] at bound
    rw [List.getElem_singleton] at same
    exact Or.inr ⟨by omega, same⟩

namespace System

variable {s s' : System}

/-- The steps of a run, as far as its actions are possible. -/
def trace : List Action → System → List Step
  | [], _ => []
  | action :: rest, s =>
      match s.act action with
      | some next => ⟨s, action, next⟩ :: trace rest next
      | none => []

/-- What every step keeps of the history before it and the state after it, every run keeps; here the
steps themselves are restricted, with the states in which they are taken. -/
theorem trace_keeps_steps
    (holds : List Step → System → Prop) (allowed : Step → Prop)
    (kept : ∀ history s s' action, s.act action = some s' → allowed ⟨s, action, s'⟩ →
      holds history s → holds (history ++ [⟨s, action, s'⟩]) s')
    (actions : List Action) (all : ∀ step ∈ trace actions s, allowed step)
    (history : List Step) (first : holds history s) (runs : run actions s = some s') :
    holds (history ++ trace actions s) s' := by
  induction actions generalizing s history with
  | nil =>
      rw [← Option.some.inj runs, trace, List.append_nil]
      exact first
  | cons action rest ih =>
      obtain ⟨next, step, runs⟩ := Option.bind_eq_some_iff.mp runs
      simp only [trace, step] at all ⊢
      have headAllowed := all _ List.mem_cons_self
      have tailAllowed : ∀ other ∈ trace rest next, allowed other := by
        intro other member
        exact all other (List.mem_cons_of_mem _ member)
      have headKept := kept history s next action step headAllowed first
      have tailKept := ih tailAllowed (history ++ [⟨s, action, next⟩]) headKept runs
      rw [List.append_assoc, List.singleton_append] at tailKept
      exact tailKept

theorem mem_of_mem_trace (actions : List Action) (step : Step) (member : step ∈ trace actions s) :
    step.action ∈ actions := by
  induction actions generalizing s with
  | nil => cases member
  | cons action rest ih =>
      unfold trace at member
      split at member
      · rcases List.mem_cons.mp member with rfl | later
        · exact List.mem_cons_self
        · exact List.mem_cons_of_mem action (ih later)
      · cases member

theorem trace_keeps
    (holds : List Step → System → Prop) (allowed : Action → Prop)
    (kept : ∀ history s s' action, allowed action → s.Does action s' → holds history s →
      holds (history ++ [⟨s, action, s'⟩]) s')
    (actions : List Action) (all : ∀ action ∈ actions, allowed action)
    (history : List Step) (first : holds history s) (runs : run actions s = some s') :
    holds (history ++ trace actions s) s' := by
  refine trace_keeps_steps holds (fun step => allowed step.action) ?_ actions ?_ history first runs
  · intro history s s' action step permitted before
    exact kept history s s' action permitted (act_does action step) before
  · exact fun step member => all step.action (mem_of_mem_trace actions step member)

def Chained : List Step → System → System → Prop
  | [], s, s' => s = s'
  | step :: rest, s, s' => step.before = s ∧ Chained rest step.after s'

theorem trace_chained (actions : List Action) (runs : run actions s = some s') :
    Chained (trace actions s) s s' := by
  induction actions generalizing s with
  | nil => exact Option.some.inj runs
  | cons action rest ih =>
      obtain ⟨next, step, runs⟩ := Option.bind_eq_some_iff.mp runs
      simp only [trace, step]
      exact ⟨rfl, ih runs⟩

end System

/-! ## What becomes of a call -/

inductive Call.Goes (call : Call) : Call → Prop
  | stays : call.Goes call
  | carriesOn (stage next : Stage) (expires due : Nat)
      (trying : call.phase = .trying stage expires) :
      call.Goes { call with phase := .trying next due }
  | ends (stage : Stage) (expires : Nat) (phase : Phase)
      (trying : call.phase = .trying stage expires)
      (stopped : ∀ next due, phase ≠ .trying next due) : call.Goes { call with phase }
  | resumes (wakes due : Nat) (resting : call.phase = .resting wakes) :
      call.Goes { call with attempt := call.attempt + 1, phase := .trying .opening due }
  | abandons (wakes : Nat) (resting : call.phase = .resting wakes) :
      call.Goes { call with phase := .cancelled }

theorem Call.Goes.request {call call' : Call} (goes : call.Goes call') :
    call'.user = call.user ∧ call'.coupon = call.coupon := by
  cases goes with
  | _ => exact ⟨rfl, rfl⟩

/-- A result after which no further attempt is made ends the call. -/
theorem Call.conclude_final (call : Call) (now : Nat) (result : Except Error Claim)
    (final : ∀ e, result = .error e → e.retryable = false) :
    call.conclude now result = { call with phase := .finished result now } := by
  have stands : Retry.pause? call.limit call.attempt result = none := by
    unfold Retry.pause?
    cases result with
    | ok claim => rfl
    | error e => simp [final e rfl]
  unfold Call.conclude
  rw [stands]

theorem Call.conclude_goes (call : Call) (now expires : Nat) (stage : Stage)
    (result : Except Error Claim) (trying : call.phase = .trying stage expires) :
    call.Goes (call.conclude now result) := by
  obtain ⟨phase, concluded, stopped⟩ := call.conclude_eq now result
  rw [concluded]
  exact .ends stage expires phase trying stopped

theorem Call.proceed_goes (call : Call) (now expires : Nat) (stage next : Stage)
    (trying : call.phase = .trying stage expires) :
    call.Goes (call.proceed now expires next) := by
  cases next with
  | settled result => exact call.conclude_goes now expires stage result trying
  | _ => exact .carriesOn stage _ expires expires trying

namespace System

variable {s s' : System}

theorem goes_putCall
    (c : Nat) (call call' : Call) (known : s.calls[c]? = some call) (goes : call.Goes call')
    (d : Nat) (other : Call) (found : s.calls[d]? = some other) :
    ∃ other', (s.putCall c call').calls[d]? = some other' ∧ other.Goes other' := by
  rw [getElem?_putCall c call call' known]
  by_cases same : c = d
  · subst same
    rw [known, Option.some.injEq] at found
    subst found
    exact ⟨call', if_pos rfl, goes⟩
  · exact ⟨other, (if_neg same).trans found, .stays⟩

theorem Does.goes {action : Action} (does : s.Does action s')
    (d : Nat) (other : Call) (found : s.calls[d]? = some other) :
    ∃ other', s'.calls[d]? = some other' ∧ other.Goes other' := by
  cases does with
  | start user coupon deadline limit =>
      have bound : d < s.calls.length := (List.getElem?_eq_some_iff.mp found).1
      refine ⟨other, ?_, .stays⟩
      change (s.calls ++ [_])[d]? = some other
      rw [List.getElem?_append_left bound, found]
  | advance c call stage expires store next known trying asked =>
      have goes := call.proceed_goes s.now expires stage next trying
      exact goes_putCall (s := { s with store }) c call _ known goes d other found
  | expire c call stage expires known trying =>
      have goes := call.conclude_goes s.now expires stage
        (.error (.timeout call.coupon call.deadline)) trying
      exact goes_putCall (s := { s with store := s.store.close (txnOf c call) }) c call _ known goes
        d other found
  | wake c call wakes known resting =>
      exact goes_putCall c call _ known (.resumes wakes _ resting) d other found
  | cancel c call stage expires known trying =>
      have goes : call.Goes { call with phase := .cancelled } :=
        .ends stage expires .cancelled trying (fun next due => Phase.noConfusion)
      exact goes_putCall (s := { s with store := s.store.close (txnOf c call) }) c call _ known goes
        d other found
  | cancelPause c call wakes known resting =>
      exact goes_putCall c call _ known (.abandons wakes resting) d other found
  | _ => exact ⟨other, found, .stays⟩

theorem Does.calls_length_le {action : Action} (does : s.Does action s') :
    s.calls.length ≤ s'.calls.length := by
  by_cases none_yet : s.calls.length = 0
  · omega
  · have last : s.calls.length - 1 < s.calls.length := by omega
    obtain ⟨call, found, -⟩ := does.goes (s.calls.length - 1) s.calls[s.calls.length - 1]
      (List.getElem?_eq_getElem last)
    have bound := (List.getElem?_eq_some_iff.mp found).1
    omega

/-- A call keeps its user and its coupon to the end of the run. -/
theorem trace_request (actions : List Action) (runs : run actions {} = some s) (step : Step)
    (member : step ∈ trace actions {}) (c : Nat) (call : Call)
    (known : step.before.calls[c]? = some call) :
    ∃ last, s.calls[c]? = some last ∧ last.user = call.user ∧ last.coupon = call.coupon := by
  have all : ∀ step ∈ [] ++ trace actions {}, ∀ (c : Nat) (call : Call),
      step.before.calls[c]? = some call →
      ∃ last, s.calls[c]? = some last ∧ last.user = call.user ∧ last.coupon = call.coupon := by
    refine trace_keeps
      (fun history s => ∀ step ∈ history, ∀ (c : Nat) (call : Call),
        step.before.calls[c]? = some call →
        ∃ last, s.calls[c]? = some last ∧ last.user = call.user ∧ last.coupon = call.coupon)
      (fun _ => True) ?_ actions (fun _ _ => trivial) [] ?_ runs
    · intro history s s' action _ does kept step member c call known
      rcases List.mem_append.mp member with old | new
      · obtain ⟨before, found, user, coupon⟩ := kept step old c call known
        obtain ⟨last, after, goes⟩ := does.goes c before found
        exact ⟨last, after, goes.request.1.trans user, goes.request.2.trans coupon⟩
      · rw [List.mem_singleton.mp new] at known
        obtain ⟨last, after, goes⟩ := does.goes c call known
        exact ⟨last, after, goes.request⟩
    · intro step member
      cases member
  exact all step member c call known

end System

/-! ## How attempts proceed -/

inductive Turns (s s' : System) (c : Nat) : Action → Call → Prop
  | stays (action : Action) (call : Call) (known : s.calls[c]? = some call) :
      Turns s s' c action call
  | starts (user coupon : String) (deadline : Duration) (limit : Nat)
      (new : c = s.calls.length) :
      Turns s s' c (.start user coupon deadline limit)
        { user, coupon, deadline, limit, started := s.now, attempt := 1,
          phase := .trying .opening (s.now + deadline.ceilMillis) }
  | advances (call : Call) (stage next : Stage) (expires : Nat)
      (known : s.calls[c]? = some call) (trying : call.phase = .trying stage expires)
      (asked : s.store.ask (System.txnOf c call) call.user call.coupon stage =
        some (s'.store, next)) :
      Turns s s' c (.advance c) (call.proceed s.now expires next)
  | expires (call : Call) (stage : Stage) (due : Nat) (known : s.calls[c]? = some call)
      (trying : call.phase = .trying stage due) :
      Turns s s' c (.expire c)
        (call.conclude s.now (.error (.timeout call.coupon call.deadline)))
  | wakes (call : Call) (due : Nat) (known : s.calls[c]? = some call)
      (resting : call.phase = .resting due) :
      Turns s s' c (.wake c)
        { call with attempt := call.attempt + 1, phase := .trying .opening (call.expiry s.now) }
  | cancels (call : Call) (known : s.calls[c]? = some call) :
      Turns s s' c (.cancel c) { call with phase := .cancelled }

theorem System.Does.turns {s s' : System} {action : Action} (does : s.Does action s') (d : Nat)
    (call' : Call) (known' : s'.calls[d]? = some call') : Turns s s' d action call' := by
  cases does with
  | start user coupon deadline limit =>
      change (s.calls ++ [_])[d]? = some call' at known'
      rcases getElem?_snoc s.calls _ call' d known' with old | ⟨new, rfl⟩
      · exact .stays _ call' old
      · exact .starts user coupon deadline limit new
  | advance c call stage expires store next known trying asked =>
      rcases putCall_cases c d _ call' known' with ⟨rfl, rfl⟩ | ⟨-, old⟩
      · exact .advances call stage next expires known trying asked
      · exact .stays _ call' old
  | expire c call stage expires known trying =>
      rcases putCall_cases c d _ call' known' with ⟨rfl, rfl⟩ | ⟨-, old⟩
      · exact .expires call stage expires known trying
      · exact .stays _ call' old
  | wake c call wakes known resting =>
      rcases putCall_cases c d _ call' known' with ⟨rfl, rfl⟩ | ⟨-, old⟩
      · exact .wakes call wakes known resting
      · exact .stays _ call' old
  | cancel c call stage expires known trying =>
      rcases putCall_cases c d _ call' known' with ⟨rfl, rfl⟩ | ⟨-, old⟩
      · exact .cancels call known
      · exact .stays _ call' old
  | cancelPause c call wakes known resting =>
      rcases putCall_cases c d _ call' known' with ⟨rfl, rfl⟩ | ⟨-, old⟩
      · exact .cancels call known
      · exact .stays _ call' old
  | _ => exact .stays _ call' known'

/-- How a call came to be at a stage of an attempt: it stood there before the step, it has just
begun, or it made a move. -/
inductive Came (s s' : System) (action : Action) (c : Nat) (call' : Call) (next : Stage) : Prop
  | stood (before : s.calls[c]? = some call')
  | began (opening : next = .opening)
  | moved (call : Call) (stage : Stage) (expires : Nat) (acts : action = .advance c)
      (known : s.calls[c]? = some call) (trying : call.phase = .trying stage expires)
      (supports : s.store.Supports (System.txnOf c call) call.user call.coupon stage)
      (move : Move call.user call.coupon (System.txnOf c call) s.store stage s'.store next)
      (same : call' = { call with phase := .trying next expires })

theorem System.Does.came {s s' : System} {action : Action} (does : s.Does action s')
    (sound : s.Sound) (d : Nat) (call' : Call) (next : Stage) (due : Nat)
    (known' : s'.calls[d]? = some call') (trying' : call'.phase = .trying next due) :
    Came s s' action d call' next := by
  cases does.turns d call' known' with
  | stays _ _ known => exact .stood known
  | starts user coupon deadline limit new => exact .began (Phase.trying.inj trying').1.symm
  | advances call stage reached expires known trying asked =>
      obtain ⟨supports, move⟩ := sound.move known trying asked
      have open_ : ∀ result, reached ≠ .settled result := by
        rintro result rfl
        exact call.conclude_over s.now result next due trying'
      rw [call.proceed_open s.now expires reached open_] at trying' ⊢
      obtain ⟨rfl, -⟩ := Phase.trying.inj trying'
      exact .moved call stage expires rfl known trying supports move rfl
  | expires call stage due' known trying =>
      exact absurd trying' (call.conclude_over s.now _ next due)
  | wakes call due' known resting => exact .began (Phase.trying.inj trying').1.symm
  | cancels call known => cases trying'

/-! ## Attempts end once -/

def System.Underway (s : System) (a : Attempt) : Prop :=
  ∃ call stage expires, s.calls[a.call]? = some call ∧ call.attempt = a.number ∧
    call.phase = .trying stage expires

/-- An attempt is over: its call has stopped making it, or makes a later one. -/
def System.Past (s : System) (a : Attempt) : Prop :=
  ∃ call, s.calls[a.call]? = some call ∧
    (a.number < call.attempt ∨
      a.number = call.attempt ∧ ∀ stage expires, call.phase ≠ .trying stage expires)

theorem Step.attempt?_eq_some (step : Step) (a : Attempt) :
    step.attempt? = some a ↔ step.action.call? = some a.call ∧ step.before.Underway a := by
  unfold Step.attempt?
  constructor
  · intro takes
    obtain ⟨c, acts, takes⟩ := Option.bind_eq_some_iff.mp takes
    obtain ⟨call, known, takes⟩ := Option.bind_eq_some_iff.mp takes
    obtain ⟨number, trying, same⟩ := Option.bind_eq_some_iff.mp takes
    rw [← Option.some.inj same]
    unfold Call.trying? at trying
    cases phase : call.phase with
    | trying stage expires =>
        rw [phase] at trying
        exact ⟨acts, call, stage, expires, known, Option.some.inj trying, phase⟩
    | _ =>
        rw [phase] at trying
        cases trying
  · rintro ⟨acts, call, stage, expires, known, number, phase⟩
    have trying : call.trying? = some a.number := by
      unfold Call.trying?
      rw [phase, number]
    simp only [acts, known, trying, Option.bind_eq_bind, Option.bind_some]
    rfl

/-- The attempt that takes part in a step of a call is the one that the call is making. -/
theorem Step.attempt?_eq (step : Step) (a : Attempt) (c : Nat) (call : Call)
    (takes : step.attempt? = some a) (acts : step.action.call? = some c)
    (known : step.before.calls[c]? = some call) :
    a = ⟨c, call.attempt⟩ ∧ ∃ stage expires, call.phase = .trying stage expires := by
  obtain ⟨own, call', stage, expires, known', number, trying⟩ :=
    (step.attempt?_eq_some a).mp takes
  obtain ⟨d, k⟩ := a
  dsimp only at own known' number
  obtain rfl : c = d := Option.some.inj (acts.symm.trans own)
  rw [known, Option.some.injEq] at known'
  subst known' number
  exact ⟨rfl, stage, expires, trying⟩

theorem Step.not_create (step : Step) (a : Attempt) (takes : step.attempt? = some a)
    (name : String) (amount : Int) : step.action ≠ .create name amount := by
  intro creates
  have acts := ((step.attempt?_eq_some a).mp takes).1
  rw [creates] at acts
  cases acts

theorem Step.ending?_eq_some (step : Step) (ending : Ending) :
    step.ending? = some ending ↔ ∃ a call, step.attempt? = some a ∧
      step.after.calls[a.call]? = some call ∧ call.ending? = some ending := by
  unfold Step.ending?
  constructor
  · intro ended
    obtain ⟨a, takes, ended⟩ := Option.bind_eq_some_iff.mp ended
    obtain ⟨call, known, ended⟩ := Option.bind_eq_some_iff.mp ended
    exact ⟨a, call, takes, known, ended⟩
  · rintro ⟨a, call, takes, known, ended⟩
    simp only [takes, known, Option.bind_eq_bind, Option.bind_some]
    exact ended

theorem Step.ending?_eq (step : Step) (a : Attempt) (call : Call) (takes : step.attempt? = some a)
    (after : step.after.calls[a.call]? = some call) : step.ending? = call.ending? := by
  unfold Step.ending?
  simp only [takes, after, Option.bind_eq_bind, Option.bind_some]

theorem Call.not_trying_of_ending (call : Call) (ending : Ending)
    (ended : call.ending? = some ending) (stage : Stage) (expires : Nat) :
    call.phase ≠ .trying stage expires := by
  intro trying
  unfold Call.ending? at ended
  rw [trying] at ended
  cases ended

namespace System

variable {s s' : System}

theorem Past.not_underway (a : Attempt) (past : s.Past a) : ¬ s.Underway a := by
  rintro ⟨call, stage, expires, known, number, trying⟩
  obtain ⟨other, found, earlier | ⟨-, stopped⟩⟩ := past
  · rw [known, Option.some.injEq] at found
    subst found
    omega
  · rw [known, Option.some.injEq] at found
    subst found
    exact stopped stage expires trying

theorem Past.step {action : Action} (a : Attempt) (past : s.Past a) (does : s.Does action s') :
    s'.Past a := by
  obtain ⟨call, known, standing⟩ := past
  obtain ⟨call', known', goes⟩ := does.goes a.call call known
  refine ⟨call', known', ?_⟩
  rcases standing with earlier | ⟨same, stopped⟩
  · left
    cases goes with
    | resumes wakes due resting => exact Nat.lt_succ_of_lt earlier
    | _ => exact earlier
  · cases goes with
    | stays => exact Or.inr ⟨same, stopped⟩
    | carriesOn stage next expires due trying => exact absurd trying (stopped stage expires)
    | ends stage expires phase trying stopped' => exact absurd trying (stopped stage expires)
    | resumes wakes due resting => exact Or.inl (same ▸ Nat.lt_succ_self _)
    | abandons wakes resting => exact Or.inr ⟨same, fun stage expires => Phase.noConfusion⟩

theorem past_of_ending {action : Action} (does : s.Does action s') (a : Attempt) (ending : Ending)
    (takes : Step.attempt? ⟨s, action, s'⟩ = some a)
    (ended : Step.ending? ⟨s, action, s'⟩ = some ending) : s'.Past a := by
  obtain ⟨-, call, stage, expires, known, number, trying⟩ := (Step.attempt?_eq_some _ a).mp takes
  obtain ⟨a', call', takes', known', ended'⟩ := (Step.ending?_eq_some _ ending).mp ended
  rw [takes, Option.some.injEq] at takes'
  subst takes'
  obtain ⟨call'', known'', goes⟩ := does.goes a.call call known
  rw [known', Option.some.injEq] at known''
  subst known''
  refine ⟨call', known', Or.inr ⟨?_, call'.not_trying_of_ending ending ended'⟩⟩
  cases goes with
  | resumes wakes due resting =>
      rw [trying] at resting
      cases resting
  | _ => exact number.symm

/-- An attempt that has ended is over for good, and takes part in no step after the one in which it
ended. -/
theorem trace_closes (actions : List Action) (runs : run actions {} = some s) :
    (∀ a ending, Ends (trace actions {}) a ending → s.Past a) ∧
      (trace actions {}).Pairwise Step.Closes := by
  -- Each step needs the first part to see that the attempts which have ended do not act in it.
  refine trace_keeps
    (fun history s =>
      (∀ a ending, Ends history a ending → s.Past a) ∧ history.Pairwise Step.Closes)
    (fun _ => True) ?_ actions (fun _ _ => trivial) [] ⟨?_, List.Pairwise.nil⟩ runs
  · rintro history s s' action - does ⟨past, ordered⟩
    constructor
    · rintro a ending ⟨step, member, takes, ended⟩
      rcases List.mem_append.mp member with old | new
      · exact (past a ending ⟨step, old, takes, ended⟩).step a does
      · rw [List.mem_singleton.mp new] at takes ended
        exact past_of_ending does a ending takes ended
    · rw [List.pairwise_append]
      refine ⟨ordered, List.pairwise_singleton _ _, ?_⟩
      intro step member later new a ending takes ended again
      rw [List.mem_singleton.mp new] at again
      have underway := ((Step.attempt?_eq_some _ a).mp again).2
      exact (past a ending ⟨step, member, takes, ended⟩).not_underway a underway
  · rintro a ending ⟨step, member, -⟩
    cases member

/-- The step in which an attempt ends is unique. -/
theorem ends_unique (actions : List Action) (runs : run actions {} = some s) (a : Attempt)
    (i j : Nat) (step other : Step) (ending last : Ending)
    (at_ : (trace actions {})[i]? = some step) (takes : step.attempt? = some a)
    (ended : step.ending? = some ending) (otherAt : (trace actions {})[j]? = some other)
    (otherTakes : other.attempt? = some a) (otherEnded : other.ending? = some last) : i = j := by
  have ordered := List.pairwise_iff_getElem.mp (trace_closes actions runs).2
  obtain ⟨iBound, rfl⟩ := List.getElem?_eq_some_iff.mp at_
  obtain ⟨jBound, rfl⟩ := List.getElem?_eq_some_iff.mp otherAt
  rcases Nat.lt_trichotomy i j with before | same | after
  · exact absurd otherTakes (ordered i j iBound jBound before a ending takes ended)
  · exact same
  · exact absurd takes (ordered j i jBound iBound after a last otherTakes otherEnded)

theorem ending_unique (actions : List Action) (runs : run actions {} = some s) (a : Attempt)
    (ending last : Ending) (ends : Ends (trace actions {}) a ending)
    (endsAgain : Ends (trace actions {}) a last) : ending = last := by
  obtain ⟨step, member, takes, ended⟩ := ends
  obtain ⟨other, otherMember, otherTakes, otherEnded⟩ := endsAgain
  obtain ⟨i, at_⟩ := List.mem_iff_getElem?.mp member
  obtain ⟨j, otherAt⟩ := List.mem_iff_getElem?.mp otherMember
  have same := ends_unique actions runs a i j step other ending last at_ takes ended otherAt
    otherTakes otherEnded
  subst same
  rw [at_, Option.some.injEq] at otherAt
  subst otherAt
  rw [ended] at otherEnded
  exact Option.some.inj otherEnded

end System

end CouponDesk.Memory
