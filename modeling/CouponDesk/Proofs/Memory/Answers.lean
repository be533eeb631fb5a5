import CouponDesk.Proofs.Memory.Stock
import Mathlib.Data.List.Basic
import Mathlib.Data.List.Flatten

/-!
# Answers and the store

What a call answers is what it did.  A step adds claims to the committed ones and takes units from
the stock; over all the steps that an attempt takes part in, these are the claim that it answers
with and one unit of its coupon, or nothing at all.
-/

set_option autoImplicit false

namespace CouponDesk.Memory

/-- The units of a coupon that are left; none of a coupon that does not exist. -/
def Store.stock (s : Store) (name : String) : Int :=
  match s.coupon? name with
  | some row => row.remaining
  | none => 0

namespace Step

/-- The claims that a step adds to the committed ones. -/
def added (step : Step) : List Claim :=
  step.after.store.claims.drop step.before.store.claims.length

def taken (step : Step) (name : String) : Int :=
  step.before.store.stock name - step.after.store.stock name

end Step

def stepsOf (history : List Step) (a : Attempt) : List Step :=
  history.filter fun step => step.attempt? = some a

def stepsOfCall (history : List Step) (c : Nat) : List Step :=
  history.filter fun step => step.attempt?.map (·.call) = some c

def claimsIn (steps : List Step) : List Claim := steps.flatMap Step.added

def unitsIn (steps : List Step) (name : String) : Int :=
  steps.foldr (fun step units => step.taken name + units) 0

def System.Asked (s : System) (a : Attempt) (claim : Claim) : Prop :=
  ∃ call, s.calls[a.call]? = some call ∧ claim.user = call.user ∧ claim.coupon = call.coupon

/-- The answers given in a history that leads to a state tell what the store did. -/
structure Truthful (history : List Step) (s : System) : Prop where
  appended : ∀ step ∈ history,
    step.after.store.claims = step.before.store.claims ++ step.added
  /-- Only attempts add claims and take units. -/
  others : ∀ step ∈ history, step.attempt? = none →
    step.added = [] ∧ ∀ name, (step.before.store.coupon? name).isSome → step.taken name = 0
  once : ∀ a ending last, Ends history a ending → Ends history a last → ending = last
  /-- An attempt answers with a claim when it has committed this one and taken its unit. -/
  granted : ∀ a claim, Ends history a (.answered (.ok claim)) ↔
    s.Asked a claim ∧ claimsIn (stepsOf history a) = [claim] ∧
      ∀ name, unitsIn (stepsOf history a) name = if claim.coupon = name then 1 else 0
  /-- An attempt with any other end, or none yet, has committed and taken nothing. -/
  spared : ∀ a, (∀ claim, ¬ Ends history a (.answered (.ok claim))) →
    claimsIn (stepsOf history a) = [] ∧ ∀ name, unitsIn (stepsOf history a) name = 0
  /-- A call that returned a claim has, in all its attempts together, committed this one. -/
  returned : ∀ c call claim now, s.calls[c]? = some call → call.phase = .finished (.ok claim) now →
    claim.user = call.user ∧ claim.coupon = call.coupon ∧
      claimsIn (stepsOfCall history c) = [claim] ∧
      ∀ name, unitsIn (stepsOfCall history c) name = if claim.coupon = name then 1 else 0
  /-- A call that returned an error, was abandoned or is not over has committed nothing. -/
  refused : ∀ c call, s.calls[c]? = some call →
    (∀ claim now, call.phase ≠ .finished (.ok claim) now) →
    claimsIn (stepsOfCall history c) = [] ∧ ∀ name, unitsIn (stepsOfCall history c) name = 0

/-! ## One step -/

namespace Store

variable {s store : Store}

theorem SameTables.stock (same : s.SameTables store) (name : String) :
    store.stock name = s.stock name := by
  unfold Store.stock
  rw [same.coupon?]

theorem Grants.stock_of {claim : Claim} (grants : s.Grants claim store) (name : String) :
    s.stock name - store.stock name = if claim.coupon = name then 1 else 0 := by
  unfold Store.stock
  by_cases same : claim.coupon = name
  · subst same
    obtain ⟨row, found, -⟩ := grants.stock
    rw [grants.coupon?_self, found, Option.map_some, if_pos rfl]
    dsimp only
    omega
  · rw [grants.coupon?_of_ne name same, if_neg same, Int.sub_self]

end Store

def Ending.claims : Ending → List Claim
  | .answered (.ok claim) => [claim]
  | _ => []

namespace Step

/-- The claim that the attempt of a step answers with there. -/
def reported (step : Step) : List Claim :=
  match step.ending? with
  | some ending => ending.claims
  | none => []

theorem mem_reported (step : Step) (claim : Claim) :
    claim ∈ step.reported ↔ step.ending? = some (.answered (.ok claim)) := by
  unfold reported
  cases step.ending? with
  | none => simp
  | some ending =>
      cases ending with
      | answered result =>
          cases result with
          | ok granted => simp [Ending.claims, eq_comm]
          | error e => simp [Ending.claims]
      | retried => simp [Ending.claims]
      | cancelled => simp [Ending.claims]

/-- A step in which no claim is granted, or one in which the attempt that takes part in it is
granted the claim that it answers with. -/
inductive Tells (step : Step) : Prop
  | silent (reported : step.reported = [])
      (claims : step.after.store.claims = step.before.store.claims)
      (taken : ∀ name, step.taken name = 0 ∨
        step.attempt? = none ∧ step.before.store.coupon? name = none)
      (answers : ∀ c, step.after.claimOf? c = step.before.claimOf? c)
  | grants (a : Attempt) (claim : Claim) (takes : step.attempt? = some a)
      (reported : step.reported = [claim]) (asked : step.after.Asked a claim)
      (claims : step.after.store.claims = step.before.store.claims ++ [claim])
      (taken : ∀ name, step.taken name = if claim.coupon = name then 1 else 0)
      (before : step.before.claimOf? a.call = none)
      (after : step.after.claimOf? a.call = some claim)
      (others : ∀ c, c ≠ a.call → step.after.claimOf? c = step.before.claimOf? c)

end Step

namespace System

variable {s s' : System}

theorem reported_eq_nil (step : Step)
    (silent : ∀ c, step.after.claimOf? c = step.before.claimOf? c) : step.reported = [] := by
  rw [List.eq_nil_iff_forall_not_mem]
  intro claim member
  have ended := (step.mem_reported claim).mp member
  obtain ⟨a, -, takes, -, -⟩ := (Step.ending?_eq_some step _).mp ended
  obtain ⟨unanswered, answered⟩ := claimOf?_of_ending step a claim takes ended
  rw [silent, unanswered] at answered
  cases answered

theorem Does.tells {action : Action} (does : s.Does action s') (sound : s.Sound)
    (byCall : action.hand? = none) : Step.Tells ⟨s, action, s'⟩ := by
  cases does.effect sound byCall with
  | quiet _ same silent =>
      refine .silent (reported_eq_nil ⟨s, action, s'⟩ silent) same.claims ?_ silent
      intro name
      unfold Step.taken
      rw [same.stock, Int.sub_self]
      exact Or.inl rfl
  | created name amount positive free added silent =>
      have answers : ∀ c, s'.claimOf? c = s.claimOf? c := by
        intro c
        unfold claimOf?
        rw [silent]
      refine .silent (reported_eq_nil ⟨s, _, s'⟩ answers) (by rw [added]) ?_ answers
      intro other
      cases known : s.store.coupon? other with
      | none => exact Or.inr ⟨rfl, rfl⟩
      | some row =>
          left
          unfold Step.taken Store.stock
          rw [added, Store.coupon?_append, known, Option.some_or, Int.sub_self]
  | granted c call claim expires known trying user coupon grants answered =>
      have bound : c < s.calls.length := (List.getElem?_eq_some_iff.mp known).1
      have after : s'.calls[c]? = some (call.conclude s.now (.ok claim)) := by
        rw [answered, List.getElem?_set_self bound]
      obtain ⟨takes, ended⟩ := ends_granted c call _ claim expires known trying answered
      refine .grants ⟨c, call.attempt⟩ claim takes ?_ ?_ grants.claims grants.stock_of ?_ ?_ ?_
      · unfold Step.reported
        rw [ended]
        rfl
      · exact ⟨_, after, user, coupon⟩
      · unfold claimOf?
        rw [known]
        exact call.granted?_of_trying _ expires trying
      · unfold claimOf?
        rw [after]
        rfl
      · intro d apart
        unfold claimOf?
        rw [answered, List.getElem?_set_ne (Ne.symm apart)]

end System

/-! ## A whole history -/

namespace Step.Tells

variable {step : Step}

theorem appended (tells : step.Tells) :
    step.after.store.claims = step.before.store.claims ++ step.added := by
  unfold Step.added
  cases tells with
  | silent reported claims taken answers => rw [claims, List.drop_length, List.append_nil]
  | grants a claim takes reported asked claims taken before after others =>
      rw [claims, List.drop_left]

/-- A step in which an attempt takes part adds the claim that the attempt answers with, if it
answers with one, and takes as many units. -/
theorem added_eq (tells : step.Tells) : step.added = step.reported := by
  unfold Step.added
  cases tells with
  | silent reported claims taken answers => rw [claims, List.drop_length, reported]
  | grants a claim takes reported asked claims taken before after others =>
      rw [claims, List.drop_left, reported]

theorem of_no_attempt (tells : step.Tells) (idle : step.attempt? = none) :
    step.added = [] ∧ ∀ name, (step.before.store.coupon? name).isSome → step.taken name = 0 := by
  rw [tells.added_eq]
  cases tells with
  | silent reported claims taken answers =>
      refine ⟨reported, ?_⟩
      intro name known
      rcases taken name with nothing | ⟨-, missing⟩
      · exact nothing
      · rw [missing] at known
        cases known
  | grants a claim takes reported asked claims taken before after others =>
      rw [idle] at takes
      cases takes

theorem taken_eq (tells : step.Tells) (a : Attempt) (takes : step.attempt? = some a)
    (name : String) :
    step.taken name = (step.reported.filter (·.coupon = name)).length := by
  cases tells with
  | silent reported claims taken answers =>
      rcases taken name with nothing | ⟨idle, -⟩
      · simp [nothing, reported]
      · rw [takes] at idle
        cases idle
  | grants a' claim takes' reported asked claims taken before after others =>
      rw [taken, reported]
      by_cases same : claim.coupon = name
      · simp [same]
      · simp [same]

end Step.Tells

def reportedIn (steps : List Step) : List Claim := steps.flatMap Step.reported

theorem claimsIn_eq (steps : List Step) (tells : ∀ step ∈ steps, step.Tells) :
    claimsIn steps = reportedIn steps := by
  induction steps with
  | nil => rfl
  | cons step rest ih =>
      have head := (tells step List.mem_cons_self).added_eq
      have tail := ih fun other member => tells other (List.mem_cons_of_mem step member)
      unfold claimsIn reportedIn at tail ⊢
      rw [List.flatMap_cons, List.flatMap_cons, head, tail]

theorem unitsIn_eq (steps : List Step) (name : String)
    (tells : ∀ step ∈ steps, step.Tells ∧ ∃ a, step.attempt? = some a) :
    unitsIn steps name = ((reportedIn steps).filter (·.coupon = name)).length := by
  induction steps with
  | nil => rfl
  | cons step rest ih =>
      obtain ⟨headTells, a, takes⟩ := tells step List.mem_cons_self
      have head := headTells.taken_eq a takes name
      have tail := ih fun other member => tells other (List.mem_cons_of_mem step member)
      unfold unitsIn reportedIn at tail ⊢
      rw [List.foldr_cons, head, tail, List.flatMap_cons, List.filter_append, List.length_append]
      omega

structure Told (history : List Step) (s : System) : Prop where
  sound : s.Sound
  tells : ∀ step ∈ history, step.Tells
  calls : ∀ c, reportedIn (stepsOfCall history c) = (s.claimOf? c).toList
  asked : ∀ step ∈ history, ∀ a claim, step.attempt? = some a → claim ∈ step.reported →
    s.Asked a claim

variable {s s' : System}

theorem System.Asked.step {action : Action} (a : Attempt) (claim : Claim) (asked : s.Asked a claim)
    (does : s.Does action s') : s'.Asked a claim := by
  obtain ⟨call, known, user, coupon⟩ := asked
  obtain ⟨call', known', goes⟩ := does.goes a.call call known
  exact ⟨call', known', user.trans goes.request.1.symm, coupon.trans goes.request.2.symm⟩

theorem stepsOfCall_append (history : List Step) (step : Step) (c : Nat) :
    stepsOfCall (history ++ [step]) c =
      stepsOfCall history c ++ (if step.attempt?.map (·.call) = some c then [step] else []) := by
  unfold stepsOfCall
  simp only [List.filter_append, List.filter_cons, List.filter_nil, decide_eq_true_eq]

theorem Told.step {history : List Step} {action : Action} (told : Told history s)
    (does : s.Does action s') (byCall : action.hand? = none) :
    Told (history ++ [⟨s, action, s'⟩]) s' := by
  have tells : Step.Tells ⟨s, action, s'⟩ := does.tells told.sound byCall
  refine ⟨does.sound told.sound, ?_, ?_, ?_⟩
  · intro step member
    rcases List.mem_append.mp member with old | new
    · exact told.tells step old
    · rw [List.mem_singleton.mp new]
      exact tells
  · intro c
    have before := told.calls c
    unfold reportedIn at before ⊢
    rw [stepsOfCall_append, List.flatMap_append, before]
    cases tells with
    | silent reported claims taken answers =>
        have answer := answers c
        dsimp only at answer
        rw [answer]
        split
        · rw [List.flatMap_singleton, reported, List.append_nil]
        · rw [List.flatMap_nil, List.append_nil]
    | grants a claim takes reported asked claims taken unanswered answered others =>
        rw [takes, Option.map_some]
        dsimp only at unanswered answered
        by_cases own : a.call = c
        · subst own
          rw [if_pos rfl, List.flatMap_singleton, reported, unanswered, answered]
          rfl
        · have answer := others c (Ne.symm own)
          dsimp only at answer
          rw [if_neg (by simpa using own), List.flatMap_nil, List.append_nil, answer]
  · intro step member a claim takes answered
    rcases List.mem_append.mp member with old | new
    · exact (told.asked step old a claim takes answered).step a claim does
    · rw [List.mem_singleton.mp new] at takes answered
      cases tells with
      | silent reported claims taken answers =>
          rw [reported] at answered
          cases answered
      | grants a' granted takes' reported asked claims taken unanswered answered' others =>
          rw [reported, List.mem_singleton] at answered
          rw [takes, Option.some.injEq] at takes'
          subst answered takes'
          exact asked

theorem System.run_told (actions : List Action) (byCalls : ∀ action ∈ actions, action.hand? = none)
    (runs : run actions {} = some s) : Told (trace actions {}) s := by
  have told : Told ([] ++ trace actions {}) s := by
    refine trace_keeps Told (fun action => action.hand? = none) ?_ actions byCalls [] ?_ runs
    · exact fun history s s' action byCall does told => told.step does byCall
    · refine ⟨sound_empty, ?_, fun c => rfl, ?_⟩
      · intro step member
        cases member
      · intro step member
        cases member
  exact told

/-! ## Attempts and calls -/

namespace Told

variable {history : List Step} {s : System}

theorem stepsOf_fair (told : Told history s) (a : Attempt) :
    ∀ step ∈ stepsOf history a, step.Tells ∧ ∃ a, step.attempt? = some a := by
  intro step member
  obtain ⟨old, own⟩ := List.mem_filter.mp member
  exact ⟨told.tells step old, a, of_decide_eq_true own⟩

theorem stepsOfCall_fair (told : Told history s) (c : Nat) :
    ∀ step ∈ stepsOfCall history c, step.Tells ∧ ∃ a, step.attempt? = some a := by
  intro step member
  obtain ⟨old, own⟩ := List.mem_filter.mp member
  obtain ⟨a, takes, -⟩ := Option.map_eq_some_iff.mp (of_decide_eq_true own)
  exact ⟨told.tells step old, a, takes⟩

theorem mem_reportedIn (a : Attempt) (claim : Claim) :
    claim ∈ reportedIn (stepsOf history a) ↔ Ends history a (.answered (.ok claim)) := by
  unfold reportedIn
  rw [List.mem_flatMap]
  constructor
  · rintro ⟨step, member, answered⟩
    obtain ⟨old, own⟩ := List.mem_filter.mp member
    exact ⟨step, old, of_decide_eq_true own, (step.mem_reported claim).mp answered⟩
  · rintro ⟨step, member, takes, ended⟩
    refine ⟨step, List.mem_filter.mpr ⟨member, decide_eq_true takes⟩, ?_⟩
    exact (step.mem_reported claim).mpr ended

/-- An attempt answers with one claim at most, as its whole call does. -/
theorem reportedIn_eq (told : Told history s) (a : Attempt) (claim : Claim)
    (answered : Ends history a (.answered (.ok claim))) :
    reportedIn (stepsOf history a) = [claim] := by
  have member : claim ∈ reportedIn (stepsOf history a) := (mem_reportedIn a claim).mpr answered
  have included : (stepsOf history a).Sublist (stepsOfCall history a.call) := by
    refine List.monotone_filter_right history fun step own => ?_
    rw [decide_eq_true_eq] at own ⊢
    rw [own, Option.map_some]
  -- The whole call has answered once at most, and the attempt's steps are among those of the call.
  have fewer : (reportedIn (stepsOf history a)).length ≤ 1 := by
    have shorter := (included.flatMap Step.reported).length_le
    have atMostOne : (s.claimOf? a.call).toList.length ≤ 1 := by
      cases s.claimOf? a.call with
      | none => exact Nat.zero_le 1
      | some claim => exact Nat.le_refl 1
    have whole := told.calls a.call
    unfold reportedIn at whole ⊢
    rw [whole] at shorter
    exact Nat.le_trans shorter atMostOne
  cases reports : reportedIn (stepsOf history a) with
  | nil =>
      rw [reports] at member
      cases member
  | cons first rest =>
      rw [reports] at member fewer
      have last : rest = [] := by
        rw [← List.length_eq_zero_iff]
        rw [List.length_cons] at fewer
        omega
      subst last
      rw [List.mem_singleton.mp member]

/-- What the steps of attempts commit and take is what they answer with. -/
theorem committed_of_reported (steps : List Step) (claims : List Claim)
    (fair : ∀ step ∈ steps, step.Tells ∧ ∃ a, step.attempt? = some a)
    (reports : reportedIn steps = claims) :
    claimsIn steps = claims ∧
      ∀ name, unitsIn steps name = (claims.filter (·.coupon = name)).length := by
  constructor
  · rw [claimsIn_eq steps fun step member => (fair step member).1, reports]
  · intro name
    rw [unitsIn_eq steps name fair, reports]

theorem asked_of_granted (told : Told history s) (c : Nat) (call : Call) (claim : Claim)
    (known : s.calls[c]? = some call) (granted : s.claimOf? c = some claim) :
    claim.user = call.user ∧ claim.coupon = call.coupon := by
  have member : claim ∈ reportedIn (stepsOfCall history c) := by
    rw [told.calls c, granted]
    exact List.mem_singleton_self claim
  obtain ⟨step, stepMember, answered⟩ := List.mem_flatMap.mp member
  obtain ⟨old, own⟩ := List.mem_filter.mp stepMember
  obtain ⟨a, takes, rfl⟩ := Option.map_eq_some_iff.mp (of_decide_eq_true own)
  obtain ⟨call', known', user, coupon⟩ := told.asked step old a claim takes answered
  rw [known, Option.some.injEq] at known'
  subst known'
  exact ⟨user, coupon⟩

end Told

theorem length_filter_coupon (claim : Claim) (name : String) :
    (([claim].filter (·.coupon = name)).length : Int) = if claim.coupon = name then 1 else 0 := by
  by_cases same : claim.coupon = name
  · simp [same]
  · simp [same]

/-- Whatever calls are made, in whatever order their steps are taken, and wherever attempts are cut
off, abandoned or made to fail: an attempt answers with a claim if and only if it committed that
claim and took its unit, and otherwise it left no trace. -/
theorem System.run_truthful (actions : List Action) (s : System)
    (byCalls : ∀ action ∈ actions, action.hand? = none) (runs : run actions {} = some s) :
    Truthful (trace actions {}) s := by
  have told := run_told actions byCalls runs
  refine ⟨?_, ?_, ending_unique actions runs, ?_, ?_, ?_, ?_⟩
  · exact fun step member => (told.tells step member).appended
  · exact fun step member idle => (told.tells step member).of_no_attempt idle
  · intro a claim
    constructor
    · intro answered
      obtain ⟨committed, units⟩ := Told.committed_of_reported _ _ (told.stepsOf_fair a)
        (told.reportedIn_eq a claim answered)
      obtain ⟨step, member, takes, ended⟩ := answered
      have asked := told.asked step member a claim takes ((step.mem_reported claim).mpr ended)
      refine ⟨asked, committed, ?_⟩
      intro name
      rw [units name, length_filter_coupon]
    · rintro ⟨-, committed, -⟩
      have reports := claimsIn_eq (stepsOf (trace actions {}) a) fun step member =>
        (told.stepsOf_fair a step member).1
      rw [← Told.mem_reportedIn, ← reports, committed]
      exact List.mem_singleton_self claim
  · intro a unanswered
    have reports : reportedIn (stepsOf (trace actions {}) a) = [] := by
      rw [List.eq_nil_iff_forall_not_mem]
      intro claim member
      exact unanswered claim ((Told.mem_reportedIn a claim).mp member)
    exact Told.committed_of_reported _ _ (told.stepsOf_fair a) reports
  · intro c call claim now known phase
    have granted : s.claimOf? c = some claim := by
      unfold claimOf? Call.granted?
      rw [known, Option.bind_some, phase]
    obtain ⟨user, coupon⟩ := told.asked_of_granted c call claim known granted
    have reports := told.calls c
    rw [granted] at reports
    obtain ⟨committed, units⟩ :=
      Told.committed_of_reported _ _ (told.stepsOfCall_fair c) reports
    refine ⟨user, coupon, committed, ?_⟩
    intro name
    rw [units name, Option.toList_some, length_filter_coupon]
  · intro c call known phase
    have ungranted : s.claimOf? c = none := by
      unfold claimOf? Call.granted?
      rw [known, Option.bind_some]
      split
      · rename_i claim now finished
        exact absurd finished (phase claim now)
      · rfl
    have reports := told.calls c
    rw [ungranted] at reports
    exact Told.committed_of_reported _ _ (told.stepsOfCall_fair c) reports

/-- In the race for the last unit the first call is cut off and the second gets claim 3, in its
second attempt. -/
theorem System.run_truthful_last_unit :
    ∃ s, run lastUnitRace {} = some s ∧ Truthful (trace lastUnitRace {}) s ∧
      s.claimOf? 0 = none ∧ s.claimOf? 1 = some ⟨3, "second", "SOLO"⟩ :=
  ⟨_, rfl, run_truthful lastUnitRace _ (by decide) rfl, rfl, rfl⟩

end CouponDesk.Memory
