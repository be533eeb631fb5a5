import CouponDesk.Proofs.Claiming.Protocol
import CouponDesk.Proofs.Memory.Answers
import CouponDesk.Proofs.Memory.Operations

/-!
# Calls and the protocol

A call makes its attempts a step at a time, with the steps of others in between.  Each attempt that
it carries to an end is nevertheless an attempt within a deadline on some store: one that replies
as the store in memory has done, and lets the deadline pass where the call was cut off.
-/

set_option autoImplicit false

namespace CouponDesk.Respondent

variable {store : Respondent} {log : List Exchange}

theorem answers_last (x : Exchange) (answers : store.Answers (log ++ [x])) :
    store.Answers log ∧ x.reply = store log x.request := by
  refine ⟨?_, answers log x [] rfl⟩
  rintro before y after rfl
  exact answers before y (after ++ [x]) (by simp)

/-- The store that gives the replies in a list once more, in the same order. -/
def replaying (log : List Exchange) : Respondent := fun before r =>
  match log[before.length]? with
  | some x => if same : x.request = r then same ▸ x.reply else none
  | none => none

theorem answers_replaying (log : List Exchange) : (replaying log).Answers log := by
  rintro before x after rfl
  unfold replaying
  simp

end CouponDesk.Respondent

namespace CouponDesk.Memory

/-- What the attempt that takes part in a step asks of the store, with the reply if it gets one
there; if it is cut off there, it gets none. -/
def Step.exchange? (step : Step) : Option Exchange := do
  let c ← step.action.call?
  let call ← step.before.calls[c]?
  let .trying stage _ := call.phase | none
  let .ask request _ := stage.turn call.user call.coupon | none
  match step.action with
  | .advance _ =>
      (step.before.store.perform (System.txnOf c call) request).1.map fun reply =>
        ⟨request, some reply⟩
  | .expire _ => some ⟨request, none⟩
  | _ => none

def exchanges (history : List Step) (a : Attempt) : List Exchange :=
  (stepsOf history a).filterMap Step.exchange?

/-- An attempt that has had these exchanges is at this stage, on whichever store it has had them. -/
def Reaches (user coupon : String) (log : List Exchange) (stage : Stage) : Prop :=
  ∀ store : Respondent, store.Answers log →
    (Stage.opening.run store.perform user coupon).run {} =
      (stage.run store.perform user coupon).run { log }

variable {user coupon : String} {log : List Exchange} {stage : Stage}

namespace Reaches

theorem nothing (user coupon : String) : Reaches user coupon [] .opening := fun _ _ => rfl

/-- A reply leads on. -/
theorem reply (reaches : Reaches user coupon log stage) (request : Request)
    (resume : request.Reply → Stage) (asks : stage.turn user coupon = .ask request resume)
    (reply : request.Reply) :
    Reaches user coupon (log ++ [⟨request, some reply⟩]) (resume reply) := by
  intro store answers
  obtain ⟨before, replied⟩ := Respondent.answers_last _ answers
  rw [reaches store before, Stage.run_of_ask _ _ _ _ request resume asks, store.run_perform]
  dsimp only at replied ⊢
  rw [← replied]

theorem settled {result : Except Error Claim} (reaches : Reaches user coupon log (.settled result))
    (deadline : Duration) (store : Respondent) (answers : store.Answers log) :
    store.attempt user coupon deadline = (result, { log }) := by
  have runs := reaches store answers
  rw [Stage.run_settled] at runs
  exact store.attempt_eq deadline (some result) runs

theorem late (reaches : Reaches user coupon log stage) (request : Request)
    (resume : request.Reply → Stage) (asks : stage.turn user coupon = .ask request resume)
    (deadline : Duration) (store : Respondent)
    (answers : store.Answers (log ++ [⟨request, none⟩])) :
    store.attempt user coupon deadline =
      (.error (.timeout coupon deadline), { log := log ++ [⟨request, none⟩], drops := 1 }) := by
  obtain ⟨before, unreplied⟩ := Respondent.answers_last _ answers
  have runs := reaches store before
  rw [Stage.run_of_ask _ _ _ _ request resume asks, store.run_perform] at runs
  dsimp only at unreplied runs
  rw [← unreplied] at runs
  exact store.attempt_eq deadline none runs

end Reaches

/-! ## The exchanges of a run -/

theorem exchanges_append (history : List Step) (step : Step) (a : Attempt) :
    exchanges (history ++ [step]) a = exchanges history a ++
      if step.attempt? = some a then step.exchange?.toList else [] := by
  unfold exchanges stepsOf
  rw [List.filter_append, List.filterMap_append]
  by_cases takes : step.attempt? = some a
  · rw [if_pos takes, List.filter_cons_of_pos (by simpa using takes)]
    cases found : step.exchange? <;> simp [found]
  · rw [if_neg takes, List.filter_cons_of_neg (by simpa using takes)]
    rfl

theorem exchanges_other (history : List Step) (step : Step) (a : Attempt)
    (other : step.action.call? ≠ some a.call) :
    exchanges (history ++ [step]) a = exchanges history a := by
  have apart : step.attempt? ≠ some a := fun takes =>
    other ((step.attempt?_eq_some a).mp takes).1
  rw [exchanges_append, if_neg apart, List.append_nil]

theorem exchange?_eq {s : System} (s' : System) {action : Action} {c : Nat} {call : Call}
    {expires : Nat} {request : Request} {resume : request.Reply → Stage} (acts : action.call? = some c)
    (known : s.calls[c]? = some call) (trying : call.phase = .trying stage expires)
    (asks : stage.turn call.user call.coupon = .ask request resume) :
    Step.exchange? ⟨s, action, s'⟩ = match action with
      | .advance _ => (s.store.perform (System.txnOf c call) request).1.map fun reply =>
          ⟨request, some reply⟩
      | .expire _ => some ⟨request, none⟩
      | _ => none := by
  cases action <;> cases acts <;> simp [Step.exchange?, Action.call?, known, trying, asks]

theorem attempt?_eq {s s' : System} {action : Action} {c : Nat} {call : Call} {expires : Nat}
    (acts : action.call? = some c) (known : s.calls[c]? = some call)
    (trying : call.phase = .trying stage expires) :
    Step.attempt? ⟨s, action, s'⟩ = some ⟨c, call.attempt⟩ :=
  (Step.attempt?_eq_some _ _).mpr ⟨acts, call, stage, expires, known, rfl, trying⟩

/-- Every attempt under way is where its exchanges have led it. -/
structure Conducted (history : List Step) (s : System) : Prop where
  sound : s.Sound
  begun : ∀ a, exchanges history a ≠ [] →
    ∃ call, s.calls[a.call]? = some call ∧ a.number ≤ call.attempt
  stands : ∀ c call stage expires, s.calls[c]? = some call → call.phase = .trying stage expires →
    Reaches call.user call.coupon (exchanges history ⟨c, call.attempt⟩) stage

namespace Conducted

variable {history : List Step} {s s' : System} {action : Action}

theorem empty : Conducted [] {} where
  sound := System.sound_empty
  begun := fun _ some_ => absurd rfl some_
  stands := by
    intro c call stage expires known
    cases known

/-- The exchanges of an attempt that goes on, or is settled, after a step that carries it on. -/
theorem advances (conducted : Conducted history s) (s' : System) {c : Nat} {call : Call}
    {stage next : Stage} {expires : Nat} {store : Store} (known : s.calls[c]? = some call)
    (trying : call.phase = .trying stage expires)
    (asked : s.store.ask (System.txnOf c call) call.user call.coupon stage = some (store, next)) :
    Reaches call.user call.coupon
      (exchanges (history ++ [⟨s, .advance c, s'⟩]) ⟨c, call.attempt⟩) next := by
  have supports := (conducted.sound.calls c call known).stage stage expires trying
  have reaches := conducted.stands c call stage expires known trying
  obtain ⟨request, resume, asks, -, -, replied⟩ := Store.ask_cases _ supports asked
  have acts : (Action.advance c).call? = some c := rfl
  have exchange := exchange?_eq s' acts known trying asks
  dsimp only at exchange
  rw [exchanges_append, if_pos (attempt?_eq acts known trying), exchange]
  -- Without a reply the attempt waits for a lock; it will ask for it again.
  rcases replied with ⟨reply, replied, rfl⟩ | ⟨unreplied, rfl⟩
  · rw [replied]
    exact reaches.reply request resume asks reply
  · rw [unreplied, Option.map_none, Option.toList_none, List.append_nil]
    exact reaches

theorem begun_after (conducted : Conducted history s) (does : s.Does action s') (a : Attempt)
    (some_ : exchanges (history ++ [⟨s, action, s'⟩]) a ≠ []) :
    ∃ call, s'.calls[a.call]? = some call ∧ a.number ≤ call.attempt := by
  have before : ∃ call, s.calls[a.call]? = some call ∧ a.number ≤ call.attempt := by
    rw [exchanges_append] at some_
    by_cases old : exchanges history a = []
    · by_cases takes : Step.attempt? ⟨s, action, s'⟩ = some a
      · obtain ⟨-, call, -, -, known, number, -⟩ := (Step.attempt?_eq_some _ a).mp takes
        exact ⟨call, known, Nat.le_of_eq number.symm⟩
      · rw [if_neg takes, old] at some_
        exact absurd rfl some_
    · exact conducted.begun a old
  obtain ⟨call, known, bound⟩ := before
  obtain ⟨call', known', goes⟩ := does.goes a.call call known
  refine ⟨call', known', ?_⟩
  cases goes with
  | resumes wakes due resting => exact Nat.le_succ_of_le bound
  | _ => exact bound

theorem fresh (conducted : Conducted history s) (a : Attempt)
    (later : ∀ call, s.calls[a.call]? = some call → call.attempt < a.number) :
    exchanges history a = [] := by
  by_contra some_
  obtain ⟨call, known, bound⟩ := conducted.begun a some_
  have less := later call known
  omega

theorem stands_after (conducted : Conducted history s) (does : s.Does action s') (d : Nat)
    (call' : Call) (stage' : Stage) (due : Nat) (known' : s'.calls[d]? = some call')
    (trying' : call'.phase = .trying stage' due) :
    Reaches call'.user call'.coupon
      (exchanges (history ++ [⟨s, action, s'⟩]) ⟨d, call'.attempt⟩) stage' := by
  -- A call that does not act keeps its exchanges.
  have idle : action.call? ≠ some d → s.calls[d]? = some call' →
      Reaches call'.user call'.coupon
        (exchanges (history ++ [⟨s, action, s'⟩]) ⟨d, call'.attempt⟩) stage' := by
    intro other known
    rw [exchanges_other history _ ⟨d, call'.attempt⟩ other]
    exact conducted.stands d call' stage' due known trying'
  cases does with
  | start user coupon deadline limit =>
      change (s.calls ++ [_])[d]? = some call' at known'
      rcases getElem?_snoc s.calls _ call' d known' with old | ⟨rfl, rfl⟩
      · exact idle (by simp [Action.call?]) old
      · rw [exchanges_other _ _ _ (by simp [Action.call?]), conducted.fresh _ (by simp),
          ← (Phase.trying.inj trying').1]
        exact .nothing user coupon
  | advance c call stage expires store next known trying asked =>
      rcases System.putCall_cases c d _ call' known' with ⟨rfl, rfl⟩ | ⟨apart, old⟩
      · have open_ : ∀ result, next ≠ .settled result := by
          rintro result rfl
          exact call.conclude_over s.now result stage' due trying'
        rw [call.proceed_open s.now expires next open_] at trying' ⊢
        obtain ⟨rfl, -⟩ := Phase.trying.inj trying'
        exact (conducted.advances _ known trying asked : Reaches call.user call.coupon _ _)
      · exact idle (by simpa [Action.call?] using apart) old
  | expire c call stage expires known trying =>
      rcases System.putCall_cases c d _ call' known' with ⟨rfl, rfl⟩ | ⟨apart, old⟩
      · exact absurd trying' (call.conclude_over s.now _ stage' due)
      · exact idle (by simpa [Action.call?] using apart) old
  | wake c call wakes known resting =>
      rcases System.putCall_cases c d _ call' known' with ⟨rfl, rfl⟩ | ⟨-, old⟩
      · rw [exchanges_other _ _ _ (by simp [Action.call?]), conducted.fresh _ (by simp [known]),
          ← (Phase.trying.inj trying').1]
        exact .nothing call.user call.coupon
      · exact idle (by simp [Action.call?]) old
  | cancel c call stage expires known trying =>
      rcases System.putCall_cases c d _ call' known' with ⟨rfl, rfl⟩ | ⟨apart, old⟩
      · cases trying'
      · exact idle (by simpa [Action.call?] using apart) old
  | cancelPause c call wakes known resting =>
      rcases System.putCall_cases c d _ call' known' with ⟨rfl, rfl⟩ | ⟨apart, old⟩
      · cases trying'
      · exact idle (by simpa [Action.call?] using apart) old
  | byHand action number store hand change =>
      refine idle ?_ known'
      cases action <;> cases hand <;> simp [Action.call?]
  | _ => exact idle (by simp [Action.call?]) known'

theorem step (conducted : Conducted history s) (does : s.Does action s') :
    Conducted (history ++ [⟨s, action, s'⟩]) s' :=
  ⟨does.sound conducted.sound, conducted.begun_after does, conducted.stands_after does⟩

/-- Where an attempt ends, it has its answer, unless its call was abandoned. -/
theorem concludes (conducted : Conducted history s) (does : s.Does action s') (a : Attempt)
    (takes : Step.attempt? ⟨s, action, s'⟩ = some a) (ending : Ending)
    (ended : Step.ending? ⟨s, action, s'⟩ = some ending) (uncancelled : ending ≠ .cancelled) :
    ∃ call result drops, s.calls[a.call]? = some call ∧
      s'.calls[a.call]? = some (call.conclude s.now result) ∧
      ∀ store : Respondent, store.Answers (exchanges (history ++ [⟨s, action, s'⟩]) a) →
        store.attempt call.user call.coupon call.deadline =
          (result, { log := exchanges (history ++ [⟨s, action, s'⟩]) a, drops }) := by
  have acts := ((Step.attempt?_eq_some _ a).mp takes).1
  cases does with
  | advance c call stage expires store next known trying asked =>
      obtain ⟨rfl, -⟩ := Step.attempt?_eq _ a c call takes rfl known
      have after := System.getElem?_putCall_self (s := { s with store }) c call
        (call.proceed s.now expires next) known
      rw [Step.ending?_eq _ _ _ takes after] at ended
      have reaches := conducted.advances
        ({ s with store }.putCall c (call.proceed s.now expires next)) known trying asked
      cases next with
      | settled result =>
          exact ⟨call, result, 0, known, after, reaches.settled call.deadline⟩
      | _ => cases ended
  | expire c call stage expires known trying =>
      obtain ⟨rfl, -⟩ := Step.attempt?_eq _ a c call takes rfl known
      have after := System.getElem?_putCall_self (s := { s with store := _ }) c call
        (call.conclude s.now (.error (.timeout call.coupon call.deadline))) known
      have supports := (conducted.sound.calls c call known).stage stage expires trying
      have reaches := conducted.stands c call stage expires known trying
      obtain ⟨request, resume, asks⟩ := supports.asks
      refine ⟨call, _, 1, known, after, ?_⟩
      rw [exchanges_append, if_pos takes, exchange?_eq _ acts known trying asks]
      exact reaches.late request resume asks call.deadline
  | cancel c call stage expires known trying =>
      obtain ⟨rfl, -⟩ := Step.attempt?_eq _ a c call takes rfl known
      have after := System.getElem?_putCall_self (s := { s with store := _ }) c call
        { call with phase := .cancelled } known
      rw [Step.ending?_eq _ _ _ takes after] at ended
      exact absurd (Option.some.inj ended).symm uncancelled
  | cancelPause c call wakes known resting =>
      obtain ⟨-, stage, expires, trying⟩ := Step.attempt?_eq _ a c call takes rfl known
      exact absurd trying (call.not_trying_of_resting wakes resting stage expires)
  | byHand action number store hand change =>
      cases action <;> cases acts <;> cases hand
  | _ => cases acts

end Conducted

namespace System

variable {s s' : System}

theorem trace_conducted (actions : List Action) (history : List Step)
    (conducted : Conducted history s) (past : List Step) (step : Step) (later : List Step)
    (split : trace actions s = past ++ step :: later) :
    Conducted (history ++ past) step.before ∧ step.before.Does step.action step.after := by
  induction actions generalizing s history past with
  | nil => simp [trace] at split
  | cons action rest ih =>
      unfold trace at split
      cases acted : s.act action with
      | none => simp [acted] at split
      | some next =>
          rw [acted] at split
          have does := act_does action acted
          cases past with
          | nil =>
              obtain ⟨rfl, -⟩ := List.cons.inj split
              rw [List.append_nil]
              exact ⟨conducted, does⟩
          | cons first past =>
              obtain ⟨rfl, tail⟩ := List.cons.inj split
              have found := ih _ (conducted.step does) past tail
              rwa [List.append_assoc] at found

/-- Every attempt of a call that ends, unless the call is abandoned, is an attempt within the
deadline of the call on some store, with the same exchanges and the same answer. -/
theorem run_attempts (actions : List Action) (runs : run actions {} = some s) (step : Step)
    (member : step ∈ trace actions {}) (a : Attempt) (takes : step.attempt? = some a)
    (ending : Ending) (ended : step.ending? = some ending) (uncancelled : ending ≠ .cancelled) :
    ∃ call result, step.before.calls[a.call]? = some call ∧
      step.after.calls[a.call]? = some (call.conclude step.before.now result) ∧
      ∃ (store : Respondent) (drops : Nat),
        store.attempt call.user call.coupon call.deadline =
          (result, { log := exchanges (trace actions {}) a, drops }) := by
  obtain ⟨past, later, split⟩ := List.append_of_mem member
  obtain ⟨conducted, does⟩ := trace_conducted actions [] .empty past step later split
  -- An attempt that has ended has no more exchanges.
  have whole : exchanges (trace actions {}) a = exchanges (past ++ [step]) a := by
    have closed := (trace_closes actions runs).2
    rw [split, List.pairwise_append, List.pairwise_cons] at closed
    have idle : ∀ other ∈ later, other.attempt? ≠ some a :=
      fun other member => closed.2.1.1 other member a ending takes ended
    have none_ : later.filter (fun other => other.attempt? = some a) = [] := by
      rw [List.filter_eq_nil_iff]
      simpa using idle
    rw [split, List.append_cons]
    unfold exchanges stepsOf
    rw [List.filter_append, none_, List.append_nil]
  obtain ⟨call, result, drops, known, after, same⟩ :=
    conducted.concludes does a takes ending ended uncancelled
  rw [whole]
  exact ⟨call, result, known, after, .replaying (exchanges (past ++ [step]) a), drops,
    same _ (Respondent.answers_replaying _)⟩

end System

end CouponDesk.Memory
