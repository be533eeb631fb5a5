import CouponDesk.Proofs.Memory.History

/-!
# What a step does to the committed tables

Where calls alone act on the store, a step leaves the committed rows, claims and keys as they are,
or it creates a coupon, or it grants one claim: then the claim is appended, and one unit of its
coupon is taken.
-/

set_option autoImplicit false

namespace CouponDesk.Memory

namespace Store

variable {s store : Store}

structure SameTables (s store : Store) : Prop where
  coupons : store.coupons = s.coupons
  claims : store.claims = s.claims
  keys : store.keys = s.keys

structure Grants (s : Store) (claim : Claim) (store : Store) : Prop where
  stock : ∃ row, s.coupon? claim.coupon = some row ∧ 0 < row.remaining
  unclaimed : claim.key ∉ s.keys
  coupons : store.coupons = s.coupons.map fun row =>
    { row with remaining := row.remaining - [claim.coupon].count row.name }
  claims : store.claims = s.claims ++ [claim]
  keys : store.keys = s.keys ++ [claim.key]

theorem SameTables.coupon? (same : s.SameTables store) (name : String) :
    store.coupon? name = s.coupon? name :=
  coupon?_congr same.coupons name

theorem SameTables.claimsOn (same : s.SameTables store) (name : String) :
    store.claimsOn name = s.claimsOn name := by
  unfold Store.claimsOn
  rw [same.claims]

theorem Grants.coupon?_of_ne {claim : Claim} (grants : s.Grants claim store) (name : String)
    (apart : claim.coupon ≠ name) : store.coupon? name = s.coupon? name := by
  have applied : store.coupon? name = (s.apply { taken := [claim.coupon] }).coupon? name :=
    coupon?_congr (s := s.apply { taken := [claim.coupon] }) grants.coupons name
  rw [applied, coupon?_apply, List.count_cons_of_ne apart, List.count_nil]
  cases s.coupon? name <;> simp

theorem Grants.coupon?_self {claim : Claim} (grants : s.Grants claim store) :
    store.coupon? claim.coupon =
      (s.coupon? claim.coupon).map fun row => { row with remaining := row.remaining - 1 } := by
  have applied := coupon?_congr (s := s.apply { taken := [claim.coupon] }) grants.coupons
    claim.coupon
  rw [applied, coupon?_apply, List.count_cons_self, List.count_nil]
  rfl

theorem Grants.claimsOn_of_ne {claim : Claim} (grants : s.Grants claim store) (name : String)
    (apart : claim.coupon ≠ name) : store.claimsOn name = s.claimsOn name := by
  simp [Store.claimsOn, grants.claims, apart]

theorem Grants.claimsOn_self {claim : Claim} (grants : s.Grants claim store) :
    store.claimsOn claim.coupon = s.claimsOn claim.coupon ++ [claim] := by
  simp [Store.claimsOn, grants.claims]

theorem Grants.coupon?_none_iff {claim : Claim} (grants : s.Grants claim store) (name : String) :
    store.coupon? name = none ↔ s.coupon? name = none := by
  by_cases same : claim.coupon = name
  · subst same
    rw [grants.coupon?_self, Option.map_eq_none_iff]
  · rw [grants.coupon?_of_ne name same]

/-- The granted claim is the only difference that the lookup of a row can see. -/
theorem Grants.row {claim : Claim} (grants : s.Grants claim store) (name : String)
    (row : Coupon) (found : s.coupon? name = some row) :
    ∃ row', store.coupon? name = some row' ∧ row'.total = row.total ∧
      row'.remaining = row.remaining - (if claim.coupon = name then 1 else 0) := by
  by_cases same : claim.coupon = name
  · subst same
    rw [grants.coupon?_self, found]
    exact ⟨_, rfl, rfl, by simp⟩
  · rw [grants.coupon?_of_ne name same, found]
    exact ⟨_, rfl, rfl, by simp [same]⟩

theorem Grants.count {claim : Claim} (grants : s.Grants claim store) (name : String) :
    store.count name = s.count name + (if claim.coupon = name then 1 else 0) := by
  unfold Store.count
  by_cases same : claim.coupon = name
  · subst same
    rw [grants.claimsOn_self, List.length_append]
    simp
  · rw [grants.claimsOn_of_ne name same]
    simp [same]

end Store

open Store

/-- A move grants the claim that its attempt is about to commit, and answers with it; or it leaves
the tables alone, and does not answer with a claim. -/
theorem Move.grants {s store : Store} {t : TxnId} {user coupon : String} {stage next : Stage}
    (move : Move user coupon t s stage store next) (supports : s.Supports t user coupon stage) :
    (s.SameTables store ∧ ∀ claim, next ≠ .settled (.ok claim)) ∨
      ∃ claim, stage = .committing claim ∧ next = .settled (.ok claim) ∧ claim.user = user ∧
        claim.coupon = coupon ∧ s.Grants claim store := by
  have joined : s.SameTables (s.join t coupon) := by
    unfold join
    split
    · exact ⟨rfl, rfl, rfl⟩
    · exact ⟨rfl, rfl, rfl⟩
  cases move with
  | queues row found taken => exact Or.inl ⟨joined, fun claim => Stage.noConfusion⟩
  | soldOut row found empty holds => exact Or.inl ⟨joined, fun claim => Stage.noConfusion⟩
  | secures row found stock holds => exact Or.inl ⟨joined, fun claim => Stage.noConfusion⟩
  | commits claim due unclaimed =>
      obtain ⟨-, writes, rfl, rfl, secured⟩ := supports
      refine Or.inr ⟨claim, rfl, rfl, rfl, rfl, secured.stock, unclaimed, ?_, ?_, ?_⟩
      · rw [writes]
        rfl
      · rw [writes]
        rfl
      · rw [writes]
        rfl
  | _ => exact Or.inl ⟨⟨rfl, rfl, rfl⟩, by simp⟩

namespace Call

def granted? (call : Call) : Option Claim :=
  match call.phase with
  | .finished (.ok claim) _ => some claim
  | _ => none

theorem granted?_of_not_finished (call : Call)
    (open_ : ∀ result now, call.phase ≠ .finished result now) : call.granted? = none := by
  unfold granted?
  split
  · rename_i claim now phase
    exact absurd phase (open_ (.ok claim) now)
  · rfl

theorem granted?_of_trying (call : Call) (stage : Stage) (expires : Nat)
    (trying : call.phase = .trying stage expires) : call.granted? = none := by
  refine call.granted?_of_not_finished ?_
  rw [trying]
  exact fun result now => Phase.noConfusion

theorem granted?_conclude_error (call : Call) (now : Nat) (e : Error) :
    (call.conclude now (.error e)).granted? = none := by
  unfold conclude
  split
  · rfl
  · rfl

end Call

namespace System

variable {s s' : System}

def claimOf? (s : System) (c : Nat) : Option Claim := (s.calls[c]?).bind Call.granted?

/-- The effect of a step on the committed tables, and what the calls answer with. -/
inductive Effect (s s' : System) : Action → Prop
  | quiet (action : Action) (same : s.store.SameTables s'.store)
      (silent : ∀ c, s'.claimOf? c = s.claimOf? c) : Effect s s' action
  | created (name : String) (amount : Int) (positive : 0 < amount)
      (free : s.store.coupon? name = none)
      (added : s'.store = { s.store with coupons := s.store.coupons ++ [.fresh name amount] })
      (silent : s'.calls = s.calls) : Effect s s' (.create name amount)
  | granted (c : Nat) (call : Call) (claim : Claim) (expires : Nat)
      (known : s.calls[c]? = some call) (trying : call.phase = .trying (.committing claim) expires)
      (user : claim.user = call.user) (coupon : claim.coupon = call.coupon)
      (grants : s.store.Grants claim s'.store)
      (answered : s'.calls = s.calls.set c (call.conclude s.now (.ok claim))) :
      Effect s s' (.advance c)

theorem claimOf?_putCall
    (c : Nat) (call call' : Call) (known : s.calls[c]? = some call)
    (before : call.granted? = none) (after : call'.granted? = none) (d : Nat) :
    (s.putCall c call').claimOf? d = s.claimOf? d := by
  unfold claimOf?
  rw [getElem?_putCall c call call' known]
  by_cases same : c = d
  · subst same
    rw [if_pos rfl, known, Option.bind_some, Option.bind_some, before, after]
  · rw [if_neg same]

theorem claimOf?_start (user coupon : String) (deadline : Duration) (limit c : Nat) :
    (s.start user coupon deadline limit).claimOf? c = s.claimOf? c := by
  change ((s.calls ++ [_])[c]?).bind Call.granted? = (s.calls[c]?).bind Call.granted?
  rw [List.getElem?_append]
  split
  · rfl
  · rename_i new
    rw [List.getElem?_eq_none (by omega : s.calls.length ≤ c), Option.bind_none]
    cases c - s.calls.length with
    | zero => rfl
    | succ rest => rfl

theorem Does.effect {action : Action} (does : s.Does action s')
    (sound : s.Sound) (byCall : action.hand? = none) : Effect s s' action := by
  have resting : ∀ call : Call, ∀ wakes, call.phase = .resting wakes → call.granted? = none := by
    intro call wakes phase
    refine call.granted?_of_not_finished ?_
    rw [phase]
    exact fun result now => Phase.noConfusion
  cases does with
  | create name amount =>
      rcases create_cases s.store name amount with kept | ⟨positive, free, added⟩
      · refine .quiet _ ?_ (fun c => rfl)
        rw [kept]
        exact ⟨rfl, rfl, rfl⟩
      · exact .created name amount positive free added rfl
  | byHand action number store hand change =>
      rw [byCall] at hand
      cases hand
  | start user coupon deadline limit =>
      exact .quiet _ ⟨rfl, rfl, rfl⟩ (claimOf?_start user coupon deadline limit)
  | advance c call stage expires store next known trying asked =>
      obtain ⟨supports, move⟩ := sound.move known trying asked
      rcases move.grants supports with ⟨same, rejected⟩ | ⟨claim, rfl, rfl, user, coupon, grants⟩
      · have after : (call.proceed s.now expires next).granted? = none := by
          cases next with
          | settled result =>
              cases result with
              | ok claim => exact absurd rfl (rejected claim)
              | error e => exact call.granted?_conclude_error s.now e
          | _ => rfl
        refine .quiet _ same ?_
        exact claimOf?_putCall (s := { s with store }) c call _ known
          (call.granted?_of_trying stage expires trying) after
      · exact .granted c call claim expires known trying user coupon grants rfl
  | expire c call stage expires known trying =>
      refine .quiet _ ⟨rfl, rfl, rfl⟩ ?_
      exact claimOf?_putCall (s := { s with store := s.store.close (txnOf c call) }) c call _ known
        (call.granted?_of_trying stage expires trying) (call.granted?_conclude_error s.now _)
  | wake c call wakes known pauses =>
      exact .quiet _ ⟨rfl, rfl, rfl⟩
        (claimOf?_putCall c call _ known (resting call wakes pauses) rfl)
  | cancel c call stage expires known trying =>
      refine .quiet _ ⟨rfl, rfl, rfl⟩ ?_
      exact claimOf?_putCall (s := { s with store := s.store.close (txnOf c call) }) c call _ known
        (call.granted?_of_trying stage expires trying) rfl
  | cancelPause c call wakes known pauses =>
      exact .quiet _ ⟨rfl, rfl, rfl⟩
        (claimOf?_putCall c call _ known (resting call wakes pauses) rfl)
  | failCommits count => exact .quiet _ ⟨rfl, rfl, rfl⟩ (fun c => rfl)
  | pass ms => exact .quiet _ ⟨rfl, rfl, rfl⟩ (fun c => rfl)

theorem ends_granted (c : Nat) (call : Call) (stage : Stage) (claim : Claim) (expires : Nat)
    (known : s.calls[c]? = some call) (trying : call.phase = .trying stage expires)
    (answered : s'.calls = s.calls.set c (call.conclude s.now (.ok claim))) :
    Step.attempt? ⟨s, .advance c, s'⟩ = some ⟨c, call.attempt⟩ ∧
      Step.ending? ⟨s, .advance c, s'⟩ = some (.answered (.ok claim)) := by
  have bound : c < s.calls.length := (List.getElem?_eq_some_iff.mp known).1
  have takes : Step.attempt? ⟨s, .advance c, s'⟩ = some ⟨c, call.attempt⟩ := by
    rw [Step.attempt?_eq_some]
    exact ⟨rfl, call, stage, expires, known, rfl, trying⟩
  have after : s'.calls[c]? = some (call.conclude s.now (.ok claim)) := by
    rw [answered, List.getElem?_set_self bound]
  exact ⟨takes, Step.ending?_eq _ _ _ takes after⟩

/-- Where an attempt ends with a claim, its call has no answer before and the claim after. -/
theorem claimOf?_of_ending (step : Step) (a : Attempt) (claim : Claim)
    (takes : step.attempt? = some a) (ended : step.ending? = some (.answered (.ok claim))) :
    step.before.claimOf? a.call = none ∧ step.after.claimOf? a.call = some claim := by
  obtain ⟨-, before, stage, expires, known, -, trying⟩ := (Step.attempt?_eq_some step a).mp takes
  obtain ⟨a', call, takes', known', ended⟩ := (Step.ending?_eq_some step _).mp ended
  rw [takes, Option.some.injEq] at takes'
  subst takes'
  constructor
  · unfold claimOf?
    rw [known]
    exact before.granted?_of_trying stage expires trying
  · unfold claimOf? Call.granted?
    rw [known', Option.bind_some]
    unfold Call.ending? at ended
    split at ended
    · cases ended
    · cases ended
    · rename_i result now phase
      rw [phase]
      obtain ⟨rfl⟩ := Ending.answered.inj (Option.some.inj ended)
      rfl
    · cases ended

theorem Effect.committing {action : Action} (effect : Effect s s' action) (a : Attempt)
    (claim : Claim) (takes : Step.attempt? ⟨s, action, s'⟩ = some a)
    (ended : Step.ending? ⟨s, action, s'⟩ = some (.answered (.ok claim))) :
    ∃ call expires, s.calls[a.call]? = some call ∧ call.attempt = a.number ∧
      call.phase = .trying (.committing claim) expires := by
  obtain ⟨unanswered, answered⟩ := claimOf?_of_ending _ a claim takes ended
  cases effect with
  | quiet _ same silent =>
      rw [silent, unanswered] at answered
      cases answered
  | created name amount positive free added silent => cases takes
  | granted c call held expires known trying user coupon grants concluded =>
      obtain ⟨rfl, -⟩ := Step.attempt?_eq _ a c call takes rfl known
      have bound : c < s.calls.length := (List.getElem?_eq_some_iff.mp known).1
      unfold claimOf? at answered
      rw [concluded, List.getElem?_set_self bound] at answered
      obtain rfl := Option.some.inj answered
      exact ⟨call, expires, known, rfl, trying⟩

end System

end CouponDesk.Memory
