import CouponDesk.Proofs.Memory.Ledger
import CouponDesk.Proofs.Memory.Stock
import Mathlib.Tactic.Choose

/-!
# Attempts take effect at once

Every attempt that ends can be given a point among the steps that it takes part in, such that the
run does to the ledger what the attempts and the creations do when each is executed at once at its
point.  A claim takes effect where it is committed, a rejection where the attempt finds its reason
(the coupon is missing, has no stock left, or is claimed already), and a transient ending where it
is reported.
-/

set_option autoImplicit false

namespace CouponDesk.Memory

def endingIn (history : List Step) (a : Attempt) : Option Ending :=
  history.findSome? fun step => if step.attempt? = some a then step.ending? else none

/-- What takes effect in a step, the `i`-th of a history, when each attempt does so at its point. -/
def entryAt (history : List Step) (point : Attempt → Nat) (i : Nat) (step : Step) : Option Entry :=
  match step.action with
  | .create name amount => some (.create name amount)
  | _ => do
      let a ← step.attempt?
      let call ← step.before.calls[a.call]?
      let ending ← endingIn history a
      if point a = i then some (.attempt call.user call.coupon ending) else none

/-- The creations and the attempts of a history in the order of their points. -/
def atomicOrder (history : List Step) (point : Attempt → Nat) : List Entry :=
  history.zipIdx.filterMap fun entry => entryAt history point entry.2 entry.1

/-- A step does to the ledger what takes effect in it, or nothing. -/
def Step.Follows (step : Step) : Option Entry → Prop
  | some entry => entry.Executes step.before.store.ledger step.after.store.ledger
  | none => step.after.store.ledger = step.before.store.ledger

/-- The ids handed out in a step come before those handed out in the later one. -/
def Step.Numbers (step later : Step) : Prop :=
  step.after.store.lastId ≤ later.before.store.lastId

/-- A history that leads to a state is linearised by the points of its attempts. -/
structure Linearises (history : List Step) (s : System) (point : Attempt → Nat) : Prop where
  /-- The point of an attempt is one of its own steps, not after the one in which it ends. -/
  within : ∀ (a : Attempt) (j : Nat) (step : Step) (ending : Ending), history[j]? = some step →
    step.attempt? = some a → step.ending? = some ending → point a ≤ j ∧
      ∃ own call, history[point a]? = some own ∧ own.attempt? = some a ∧
        s.calls[a.call]? = some call ∧
        entryAt history point (point a) own = some (.attempt call.user call.coupon ending)
  /-- Every step has the effect of what takes effect in it, and no other. -/
  effect : ∀ (i : Nat) (step : Step), history[i]? = some step →
    step.Follows (entryAt history point i step)
  /-- The id of a granted claim was handed out to its attempt, as the next one. -/
  drawn : ∀ a claim, Ends history a (.answered (.ok claim)) → ∃ own ∈ history,
    own.attempt? = some a ∧ claim.id = own.before.store.lastId + 1 ∧
      own.after.store.lastId = own.before.store.lastId + 1
  /-- No id is handed out twice. -/
  numbered : history.Pairwise Step.Numbers
  replays : Replays (atomicOrder history point) {} s.store.ledger

/-! ## Claims in hand -/

/-- The claim that an attempt has inserted and not yet committed. -/
def inHand? : Stage → Option Claim
  | .taking claim | .committing claim => some claim
  | _ => none

theorem Store.Supports.of_claim
    {s : Store} {t : TxnId} {user coupon : String} {stage : Stage} {claim : Claim}
    (supports : s.Supports t user coupon stage) (inHand : inHand? stage = some claim) :
    claim ∈ (s.txn t).staged ∧ claim.user = user ∧ claim.coupon = coupon ∧ s.Secured t coupon := by
  cases stage with
  | taking held =>
      obtain ⟨-, writes, claimUser, claimCoupon, secured⟩ := supports
      cases inHand
      exact ⟨by simp [writes], claimUser, claimCoupon, secured⟩
  | committing held =>
      obtain ⟨-, writes, claimUser, claimCoupon, secured⟩ := supports
      cases inHand
      exact ⟨by simp [writes], claimUser, claimCoupon, secured⟩
  | _ => cases inHand

/-- An attempt gets its claim by drawing the next id, and has it in hand until it commits. -/
theorem Move.claim_origin
    {s store : Store} {t : TxnId} {user coupon : String} {stage next : Stage} {claim : Claim}
    (move : Move user coupon t s stage store next) (inHand : inHand? next = some claim) :
    inHand? stage = some claim ∨
      claim.id = s.lastId + 1 ∧ store.lastId = s.lastId + 1 ∧ store.claims = s.claims := by
  cases move with
  | draws unclaimed =>
      cases inHand
      exact Or.inr ⟨rfl, rfl, rfl⟩
  | takes held => exact Or.inl inHand
  | _ => cases inHand

namespace System

variable {s s' : System}

structure Holds (s : System) (c : Nat) (call : Call) (claim : Claim) : Prop where
  known : s.calls[c]? = some call
  inHand : ∃ stage expires, call.phase = .trying stage expires ∧ inHand? stage = some claim

theorem Holds.underway {c : Nat} {call : Call} {claim : Claim} (holds : s.Holds c call claim) :
    s.Underway ⟨c, call.attempt⟩ := by
  obtain ⟨known, stage, expires, trying, -⟩ := holds
  exact ⟨call, stage, expires, known, rfl, trying⟩

theorem Holds.secured {c : Nat} {call : Call} {claim : Claim} (holds : s.Holds c call claim)
    (sound : s.Sound) :
    claim ∈ (s.store.txn (txnOf c call)).staged ∧ claim.user = call.user ∧
      claim.coupon = call.coupon ∧ s.store.Secured (txnOf c call) call.coupon := by
  obtain ⟨known, stage, expires, trying, inHand⟩ := holds
  exact ((sound.calls c call known).stage stage expires trying).of_claim inHand

/-- The ids of the claims in hand are above those of the committed claims on their coupons. -/
def Ordered (s : System) : Prop :=
  ∀ c call claim, s.Holds c call claim → ∀ old ∈ s.store.claimsOn call.coupon, old.id < claim.id

/-- A claim in hand after a step was so before, or its id has just been drawn. -/
theorem Does.claim_origin {action : Action} (does : s.Does action s') (sound : s.Sound)
    (d : Nat) (call' : Call) (claim : Claim) (holds : s'.Holds d call' claim) :
    (∃ call, s.Holds d call claim ∧ call.coupon = call'.coupon ∧ call.attempt = call'.attempt) ∨
      Step.attempt? ⟨s, action, s'⟩ = some ⟨d, call'.attempt⟩ ∧
        claim.id = s.store.lastId + 1 ∧ s'.store.lastId = s.store.lastId + 1 ∧
        s'.store.claims = s.store.claims := by
  obtain ⟨known', next, due, trying', held'⟩ := holds
  cases does.came sound d call' next due known' trying' with
  | stood before => exact Or.inl ⟨call', ⟨before, next, due, trying', held'⟩, rfl, rfl⟩
  | began opening =>
      subst opening
      cases held'
  | moved call stage expires acts known trying supports move same =>
      subst acts same
      rcases move.claim_origin held' with held | ⟨id, lastId, claims⟩
      · exact Or.inl ⟨call, ⟨known, stage, expires, trying, held⟩, rfl, rfl⟩
      · refine Or.inr ⟨?_, id, lastId, claims⟩
        rw [Step.attempt?_eq_some]
        exact ⟨rfl, call, stage, expires, known, rfl, trying⟩

/-- Two calls never have claims on the same coupon in hand, as both would have its lock. -/
theorem Holds.unique {c d : Nat} {call other : Call} {claim held : Claim}
    (holds : s.Holds c call claim) (second : s.Holds d other held) (sound : s.Sound)
    (same : call.coupon = other.coupon) : c = d := by
  obtain ⟨-, -, -, secured⟩ := holds.secured sound
  obtain ⟨-, -, -, otherSecured⟩ := second.secured sound
  rw [← same] at otherSecured
  have holder := Store.holder_unique s.store (txnOf c call) (txnOf d other) call.coupon
    secured.holds otherSecured.holds
  exact (TxnId.attempt.inj holder).1

theorem Ordered.step {action : Action} (ordered : s.Ordered) (does : s.Does action s')
    (sound : s.Sound) (byCall : action.hand? = none) : s'.Ordered := by
  intro d call' claim holds old member
  rcases does.claim_origin sound d call' claim holds with
    ⟨call, before, coupon, -⟩ | ⟨-, id, -, claims⟩
  · have earlier := ordered d call claim before
    rw [coupon] at earlier
    cases does.effect sound byCall with
    | quiet _ same silent =>
        rw [same.claimsOn] at member
        exact earlier old member
    | created name amount positive free added silent =>
        rw [added] at member
        exact earlier old member
    | granted c other granted expires known trying user grantedCoupon grants answered =>
        by_cases same : granted.coupon = call'.coupon
        · -- Both calls would have a claim on this coupon in hand, and it has one lock.
          have first : s.Holds c other granted := ⟨known, _, expires, trying, rfl⟩
          have one : c = d := first.unique before sound (by rw [← grantedCoupon, same, coupon])
          subst one
          obtain ⟨known', stage', due, trying', -⟩ := holds
          have bound : c < s.calls.length := (List.getElem?_eq_some_iff.mp known).1
          rw [answered, List.getElem?_set_self bound, Option.some.injEq] at known'
          subst known'
          exact absurd trying' (other.conclude_over s.now (.ok granted) stage' due)
        · rw [grants.claimsOn_of_ne _ same] at member
          exact earlier old member
  · have committed : old ∈ s.store.claims := by
      rw [← claims]
      exact (List.mem_filter.mp member).1
    have bound := sound.store.ids.bound old committed
    omega

end System

/-! ## Where attempts take effect -/

theorem Call.ending?_conclude_transient (call : Call) (now : Nat) (e : Error) (ending : Ending)
    (retryable : e.retryable = true)
    (ended : (call.conclude now (.error e)).ending? = some ending) : ending.Transient := by
  unfold Call.conclude at ended
  split at ended
  · cases ended
    trivial
  · cases ended
    exact retryable

theorem Call.ending?_conclude_final (call : Call) (now : Nat) (result : Except Error Claim)
    (final : ∀ e, result = .error e → e.retryable = false) :
    (call.conclude now result).ending? = some (.answered result) := by
  rw [call.conclude_final now result final]
  rfl

/-- The last move of an attempt reports a transient failure, or what the atomic claim gives there,
or why the attempt was turned down before. -/
theorem Move.settles
    {s store : Store} {t : TxnId} {user coupon : String} {stage : Stage}
    {result : Except Error Claim} (move : Move user coupon t s stage store (.settled result))
    (sound : s.Sound) (supports : s.Supports t user coupon stage)
    (later : ∀ claim, inHand? stage = some claim → ∀ old ∈ s.claimsOn coupon, old.id < claim.id) :
    (∃ e, result = .error e ∧ e.retryable = true ∧ s.SameTables store) ∨
      (∃ e, result = .error e ∧ e.retryable = false ∧ stage = .undoing e) ∨
        (∀ e, result = .error e → e.retryable = false) ∧
          (Entry.attempt user coupon (.answered result)).Executes s.ledger store.ledger := by
  cases move with
  | loses claim injected => exact Or.inl ⟨_, rfl, rfl, rfl, rfl, rfl⟩
  | clashes claim due claimed =>
      -- The id that was drawn is lost; the atomic claim is turned down under any unused one.
      right
      right
      obtain ⟨row, present, stock⟩ := supports.2.2.2.2.stock
      have executes := Entry.Executes.claim s.ledger (s.lastId + 1) user coupon
        (sound.unused_next coupon)
      rw [Store.claim_repeated sound _ user coupon row present stock claimed] at executes
      refine ⟨?_, executes⟩
      intro e same
      rw [← Except.error.inj same]
      rfl
  | commits claim due unclaimed =>
      right
      right
      have moves : Move user coupon t s (.committing claim) ((s.close t).apply (s.txn t))
        (.settled (.ok claim)) := .commits claim due unclaimed
      rcases moves.grants supports with ⟨-, rejected⟩ | ⟨granted, same, -, rfl, rfl, grants⟩
      · exact absurd rfl (rejected claim)
      · cases same
        obtain ⟨staged, -, -, -⟩ := supports.of_claim rfl
        have executes := Entry.Executes.claim s.ledger claim.id claim.user claim.coupon
          (sound.unused_staged claim staged (later claim rfl))
        rw [grants.claim sound] at executes
        refine ⟨?_, executes⟩
        intro e same
        cases same
  | undoes e => exact Or.inr (Or.inl ⟨e, rfl, supports.2.2.1.final, rfl⟩)

structure Step.Admits (step : Step) (a : Attempt) (ending : Ending) : Prop where
  takes : step.attempt? = some a
  executes : ∃ call, step.before.calls[a.call]? = some call ∧
    (Entry.attempt call.user call.coupon ending).Executes step.before.store.ledger
      step.after.store.ledger

theorem Step.admits_transient (step : Step) (a : Attempt) (ending : Ending) (call : Call)
    (takes : step.attempt? = some a) (known : step.before.calls[a.call]? = some call)
    (same : step.before.store.SameTables step.after.store) (transient : ending.Transient) :
    step.Admits a ending := by
  refine ⟨takes, call, known, ?_⟩
  rw [same.ledger]
  exact .transient _ call.user call.coupon ending transient

namespace System

variable {s s' : System}

theorem Ordered.of_trying (ordered : s.Ordered) (c : Nat) (call : Call) (stage : Stage)
    (expires : Nat) (known : s.calls[c]? = some call) (trying : call.phase = .trying stage expires)
    (claim : Claim) (held : inHand? stage = some claim) :
    ∀ old ∈ s.store.claimsOn call.coupon, old.id < claim.id :=
  ordered c call claim ⟨known, stage, expires, trying, held⟩

/-- The move that ends an attempt does nothing, or reports why the attempt was turned down, or has
the effect of the atomic claim. -/
theorem Ordered.ends_move {c : Nat} {call : Call} {stage next : Stage} {expires : Nat}
    {store : Store} (ordered : s.Ordered) (sound : s.Sound) (known : s.calls[c]? = some call)
    (trying : call.phase = .trying stage expires)
    (asked : s.store.ask (txnOf c call) call.user call.coupon stage = some (store, next))
    (ending : Ending) (ended : (call.proceed s.now expires next).ending? = some ending) :
    ending.Transient ∧ s.store.SameTables store ∨
      (∃ e, stage = .undoing e ∧ ending = .answered (.error e)) ∨
        (Entry.attempt call.user call.coupon ending).Executes s.store.ledger store.ledger := by
  obtain ⟨supports, move⟩ := sound.move known trying asked
  cases next with
  | settled result =>
      rcases move.settles sound.store supports
        (ordered.of_trying c call stage expires known trying) with
        ⟨e, rfl, retryable, same⟩ | ⟨e, rfl, final, undoing⟩ | ⟨final, executes⟩
      · left
        exact ⟨call.ending?_conclude_transient s.now e ending retryable ended, same⟩
      · right
        left
        have answered := call.ending?_conclude_final s.now (.error e) fun e' same => by
          rw [← Except.error.inj same]
          exact final
        exact ⟨e, undoing, Option.some.inj (ended.symm.trans answered)⟩
      · right
        right
        have answered := call.ending?_conclude_final s.now result final
        obtain rfl := Option.some.inj (ended.symm.trans answered)
        exact executes
  | _ => cases ended

/-- An attempt that ends takes effect where it does so, unless it was turned down before. -/
theorem Does.ends {action : Action} (does : s.Does action s') (sound : s.Sound)
    (ordered : s.Ordered) (byCall : action.hand? = none) (a : Attempt) (ending : Ending)
    (takes : Step.attempt? ⟨s, action, s'⟩ = some a)
    (ended : Step.ending? ⟨s, action, s'⟩ = some ending) :
    Step.Admits ⟨s, action, s'⟩ a ending ∨
      ∃ call e expires, s.calls[a.call]? = some call ∧ call.attempt = a.number ∧
        call.phase = .trying (.undoing e) expires ∧ ending = .answered (.error e) := by
  cases does with
  | byHand action number store hand change =>
      rw [byCall] at hand
      cases hand
  | advance c call stage expires store next known trying asked =>
      obtain ⟨rfl, -⟩ := Step.attempt?_eq _ a c call takes rfl known
      have after := getElem?_putCall_self (s := { s with store }) c call
        (call.proceed s.now expires next) known
      rw [Step.ending?_eq _ _ _ takes after] at ended
      rcases ordered.ends_move sound known trying asked ending ended with
        ⟨transient, same⟩ | ⟨e, rfl, rfl⟩ | executes
      · exact Or.inl (Step.admits_transient _ _ _ call takes known same transient)
      · exact Or.inr ⟨call, e, expires, known, rfl, trying, rfl⟩
      · exact Or.inl ⟨takes, call, known, executes⟩
  | expire c call stage expires known trying =>
      left
      obtain ⟨rfl, -⟩ := Step.attempt?_eq _ a c call takes rfl known
      have after := getElem?_putCall_self (s := { s with store := s.store.close (txnOf c call) }) c
        call (call.conclude s.now (.error (.timeout call.coupon call.deadline))) known
      rw [Step.ending?_eq _ _ _ takes after] at ended
      refine Step.admits_transient _ _ _ call takes known ⟨rfl, rfl, rfl⟩ ?_
      exact call.ending?_conclude_transient s.now _ ending rfl ended
  | cancel c call stage expires known trying =>
      left
      obtain ⟨rfl, -⟩ := Step.attempt?_eq _ a c call takes rfl known
      have after := getElem?_putCall_self (s := { s with store := s.store.close (txnOf c call) }) c
        call { call with phase := .cancelled } known
      rw [Step.ending?_eq _ _ _ takes after] at ended
      obtain rfl := Option.some.inj ended
      exact Step.admits_transient _ _ _ call takes known ⟨rfl, rfl, rfl⟩ trivial
  | cancelPause c call wakes known resting =>
      obtain ⟨-, stage, expires, trying⟩ := Step.attempt?_eq _ a c call takes rfl known
      exact absurd trying (call.not_trying_of_resting wakes resting stage expires)
  | _ => cases takes

/-- An attempt that is turned down after a step was so before, or takes effect in the step. -/
theorem Does.undoing_origin {action : Action} (does : s.Does action s') (sound : s.Sound)
    (d : Nat) (call' : Call) (e : Error) (due : Nat) (known' : s'.calls[d]? = some call')
    (trying' : call'.phase = .trying (.undoing e) due) :
    s.calls[d]? = some call' ∨
      Step.Admits ⟨s, action, s'⟩ ⟨d, call'.attempt⟩ (.answered (.error e)) := by
  cases does.came sound d call' (.undoing e) due known' trying' with
  | stood before => exact Or.inl before
  | began opening => cases opening
  | moved call stage expires acts known trying supports move same =>
      subst acts same
      right
      refine ⟨?_, call, known, move.rejects sound.store supports⟩
      rw [Step.attempt?_eq_some]
      exact ⟨rfl, call, stage, expires, known, rfl, trying⟩

end System

/-! ## Histories -/

structure Step.Draws (step : Step) (a : Attempt) (claim : Claim) : Prop where
  takes : step.attempt? = some a
  id : claim.id = step.before.store.lastId + 1
  lastId : step.after.store.lastId = step.before.store.lastId + 1

structure Step.Acts (step : Step) : Prop where
  creates : ∀ name amount, step.action = .create name amount →
    step.after.store.ledger = step.before.store.ledger.create name amount
  grants : (∀ name amount, step.action ≠ .create name amount) →
    step.after.store.ledger = step.before.store.ledger ∨
      ∃ a claim, step.attempt? = some a ∧ step.ending? = some (.answered (.ok claim))

structure Traced (history : List Step) (s : System) : Prop where
  sound : s.Sound
  ordered : s.Ordered
  acts : ∀ step ∈ history, step.Acts
  undoing : ∀ (c : Nat) (call : Call) (e : Error) (due : Nat), s.calls[c]? = some call →
    call.phase = .trying (.undoing e) due → ∃ (i : Nat) (own : Step), history[i]? = some own ∧
      own.Admits ⟨c, call.attempt⟩ (.answered (.error e))
  ended : ∀ (j : Nat) (step : Step) (a : Attempt) (ending : Ending), history[j]? = some step →
    step.attempt? = some a → step.ending? = some ending → ∃ (i : Nat) (own : Step), i ≤ j ∧
      history[i]? = some own ∧ own.Admits a ending ∧ (i = j ∨ ∃ e, ending = .answered (.error e))
  inHand : ∀ c call claim, s.Holds c call claim →
    ∃ own ∈ history, own.Draws ⟨c, call.attempt⟩ claim
  granted : ∀ a claim, Ends history a (.answered (.ok claim)) → ∃ own ∈ history, own.Draws a claim
  below : ∀ step ∈ history, step.after.store.lastId ≤ s.store.lastId
  numbered : history.Pairwise Step.Numbers

theorem getElem?_snoc_of_some {α : Type} (history : List α) (last found : α) (i : Nat)
    (at_ : history[i]? = some found) : (history ++ [last])[i]? = some found := by
  rw [List.getElem?_append_left (List.getElem?_eq_some_iff.mp at_).1, at_]

variable {s s' : System}

theorem System.Does.acts {action : Action} (does : s.Does action s') (sound : s.Sound)
    (byCall : action.hand? = none) : Step.Acts ⟨s, action, s'⟩ := by
  constructor
  · rintro name amount rfl
    cases does with
    | create name amount => exact Store.ledger_create s.store name amount
    | byHand action number store hand change => cases hand
  · intro other
    cases does.effect sound byCall with
    | quiet _ same silent => exact Or.inl same.ledger
    | created name amount positive free added silent => exact absurd rfl (other name amount)
    | granted c call claim expires known trying user coupon grants answered =>
        right
        exact ⟨_, claim, ends_granted c call _ claim expires known trying answered⟩

theorem System.Does.lastId_le {action : Action} (does : s.Does action s') (sound : s.Sound) :
    s.store.lastId ≤ s'.store.lastId := by
  cases does with
  | create name amount =>
      have same : (s.store.create name amount).2.lastId = s.store.lastId := by
        rcases Store.create_cases s.store name amount with kept | ⟨-, -, added⟩
        · rw [kept]
        · rw [added]
      exact Nat.le_of_eq same.symm
  | byHand action number store hand change => exact change.lastId_le
  | advance c call stage expires store next known trying asked =>
      obtain ⟨supports, move⟩ := sound.move known trying asked
      exact (move.change supports).lastId_le
  | _ => exact Nat.le_refl _

theorem Traced.inHand_step {history : List Step} {action : Action} (traced : Traced history s)
    (does : s.Does action s') (c : Nat) (call : Call) (claim : Claim)
    (holds : s'.Holds c call claim) :
    ∃ own ∈ history ++ [⟨s, action, s'⟩], own.Draws ⟨c, call.attempt⟩ claim := by
  rcases does.claim_origin traced.sound c call claim holds with
    ⟨before, held, -, attempt⟩ | ⟨takes, id, lastId, -⟩
  · obtain ⟨own, member, draws⟩ := traced.inHand c before claim held
    rw [attempt] at draws
    exact ⟨own, List.mem_append_left _ member, draws⟩
  · exact ⟨_, List.mem_append_right _ (List.mem_singleton_self _), takes, id, lastId⟩

theorem Traced.granted_step {history : List Step} {action : Action} (traced : Traced history s)
    (does : s.Does action s') (byCall : action.hand? = none) (a : Attempt) (claim : Claim)
    (ends : Ends (history ++ [⟨s, action, s'⟩]) a (.answered (.ok claim))) :
    ∃ own ∈ history ++ [⟨s, action, s'⟩], own.Draws a claim := by
  obtain ⟨step, member, takes, ended⟩ := ends
  rcases List.mem_append.mp member with old | new
  · obtain ⟨own, ownMember, draws⟩ := traced.granted a claim ⟨step, old, takes, ended⟩
    exact ⟨own, List.mem_append_left _ ownMember, draws⟩
  · rw [List.mem_singleton.mp new] at takes ended
    obtain ⟨call, expires, known, number, trying⟩ :=
      (does.effect traced.sound byCall).committing a claim takes ended
    have holds : s.Holds a.call call claim := ⟨known, _, expires, trying, rfl⟩
    obtain ⟨own, ownMember, draws⟩ := traced.inHand a.call call claim holds
    rw [number] at draws
    exact ⟨own, List.mem_append_left _ ownMember, draws⟩

theorem Traced.ended_step {history : List Step} {action : Action} (traced : Traced history s)
    (does : s.Does action s') (byCall : action.hand? = none) (j : Nat) (step : Step)
    (a : Attempt) (ending : Ending) (at_ : (history ++ [⟨s, action, s'⟩])[j]? = some step)
    (takes : step.attempt? = some a) (ended : step.ending? = some ending) :
    ∃ i own, i ≤ j ∧ (history ++ [⟨s, action, s'⟩])[i]? = some own ∧ own.Admits a ending ∧
      (i = j ∨ ∃ e, ending = .answered (.error e)) := by
  rcases getElem?_snoc history _ step j at_ with old | ⟨last, rfl⟩
  · obtain ⟨i, own, before, ownAt, admits, exact_⟩ := traced.ended j step a ending old takes ended
    exact ⟨i, own, before, getElem?_snoc_of_some history _ own i ownAt, admits, exact_⟩
  · rcases does.ends traced.sound traced.ordered byCall a ending takes ended with
      admits | ⟨call, e, due, known, number, trying, rfl⟩
    · exact ⟨j, _, Nat.le_refl j, at_, admits, Or.inl rfl⟩
    · obtain ⟨i, own, ownAt, admits⟩ := traced.undoing a.call call e due known trying
      have bound : i < history.length := (List.getElem?_eq_some_iff.mp ownAt).1
      rw [number] at admits
      exact ⟨i, own, by omega, getElem?_snoc_of_some history _ own i ownAt, admits,
        Or.inr ⟨e, rfl⟩⟩

theorem Traced.step {history : List Step} {action : Action} (traced : Traced history s)
    (does : s.Does action s') (byCall : action.hand? = none) :
    Traced (history ++ [⟨s, action, s'⟩]) s' where
  sound := does.sound traced.sound
  ordered := traced.ordered.step does traced.sound byCall
  acts := by
    intro step member
    rcases List.mem_append.mp member with old | new
    · exact traced.acts step old
    · rw [List.mem_singleton.mp new]
      exact does.acts traced.sound byCall
  undoing := by
    intro c call e due known trying
    rcases does.undoing_origin traced.sound c call e due known trying with before | admits
    · obtain ⟨i, own, ownAt, admits⟩ := traced.undoing c call e due before trying
      exact ⟨i, own, getElem?_snoc_of_some history _ own i ownAt, admits⟩
    · exact ⟨history.length, _, List.getElem?_concat_length, admits⟩
  ended := traced.ended_step does byCall
  inHand := traced.inHand_step does
  granted := traced.granted_step does byCall
  below := by
    intro step member
    rcases List.mem_append.mp member with old | new
    · exact Nat.le_trans (traced.below step old) (does.lastId_le traced.sound)
    · obtain rfl := List.mem_singleton.mp new
      exact Nat.le_refl _
  numbered := by
    rw [List.pairwise_append]
    refine ⟨traced.numbered, List.pairwise_singleton _ _, ?_⟩
    intro step old later new
    rw [List.mem_singleton.mp new]
    exact traced.below step old

theorem System.run_traced (actions : List Action)
    (byCalls : ∀ action ∈ actions, action.hand? = none) (runs : run actions {} = some s) :
    Traced (trace actions {}) s := by
  have traced : Traced ([] ++ trace actions {}) s := by
    refine trace_keeps Traced (fun action => action.hand? = none) ?_ actions byCalls [] ?_ runs
    · exact fun history s s' action byCall does traced => traced.step does byCall
    · refine ⟨sound_empty, ?_, ?_, ?_, ?_, ?_, ?_, ?_, List.Pairwise.nil⟩
      · rintro c call claim ⟨known, -⟩
        cases known
      · intro step member
        cases member
      · intro c call e due known
        cases known
      · intro j step a ending at_
        cases at_
      · rintro c call claim ⟨known, -⟩
        cases known
      · rintro a claim ⟨step, member, -⟩
        cases member
      · intro step member
        cases member
  exact traced

/-! ## The points -/

theorem endingIn_eq_some (actions : List Action) (runs : System.run actions {} = some s)
    (a : Attempt) (ending : Ending) :
    endingIn (System.trace actions {}) a = some ending ↔
      Ends (System.trace actions {}) a ending := by
  have ends_of_some : ∀ found, endingIn (System.trace actions {}) a = some found →
      Ends (System.trace actions {}) a found := by
    intro found is
    obtain ⟨step, member, here⟩ := List.exists_of_findSome?_eq_some is
    rw [Option.ite_none_right_eq_some] at here
    exact ⟨step, member, here.1, here.2⟩
  constructor
  · exact ends_of_some ending
  · intro ends
    cases is : endingIn (System.trace actions {}) a with
    | some found =>
        rw [System.ending_unique actions runs a found ending (ends_of_some found is) ends]
    | none =>
        obtain ⟨step, member, takes, ended⟩ := ends
        have absent := List.findSome?_eq_none_iff.mp is step member
        rw [if_pos takes, ended] at absent
        cases absent

theorem entryAt_create (history : List Step) (point : Attempt → Nat) (i : Nat) (step : Step)
    (name : String) (amount : Int) (acts : step.action = .create name amount) :
    entryAt history point i step = some (.create name amount) := by
  unfold entryAt
  rw [acts]

theorem entryAt_other (history : List Step) (point : Attempt → Nat) (i : Nat) (step : Step)
    (other : ∀ name amount, step.action ≠ .create name amount) :
    entryAt history point i step = (do
      let a ← step.attempt?
      let call ← step.before.calls[a.call]?
      let ending ← endingIn history a
      if point a = i then some (.attempt call.user call.coupon ending) else none) := by
  unfold entryAt
  split
  · rename_i name amount acts
    exact absurd acts (other name amount)
  · rfl

/-- The steps of a history replay as what takes effect in them. -/
theorem replays_of_effects (entry : Nat → Step → Option Entry) (steps : List Step) (k : Nat)
    (s s' : System) (chained : System.Chained steps s s')
    (effect : ∀ (i : Nat) (step : Step), steps[i]? = some step →
      step.Follows (entry (k + i) step)) :
    Replays ((steps.zipIdx k).filterMap fun numbered => entry numbered.2 numbered.1)
      s.store.ledger s'.store.ledger := by
  induction steps generalizing k s with
  | nil =>
      obtain rfl : s = s' := chained
      exact .nil s.store.ledger
  | cons step rest ih =>
      obtain ⟨rfl, chained⟩ := chained
      have head := effect 0 step rfl
      have tail : Replays ((rest.zipIdx (k + 1)).filterMap fun numbered =>
          entry numbered.2 numbered.1) step.after.store.ledger s'.store.ledger := by
        refine ih (k + 1) step.after chained ?_
        intro i other at_
        have shifted := effect (i + 1) other at_
        rw [show k + (i + 1) = k + 1 + i by omega] at shifted
        exact shifted
      rw [List.zipIdx_cons, List.filterMap_cons]
      rw [Nat.add_zero] at head
      cases here : entry k step with
      | none =>
          have same : step.after.store.ledger = step.before.store.ledger := by
            rw [here] at head
            exact head
          rw [same] at tail
          exact tail
      | some atomic =>
          have executes : atomic.Executes step.before.store.ledger step.after.store.ledger := by
            rw [here] at head
            exact head
          exact .cons atomic _ _ _ _ executes tail

/-- An attempt that ends has a point, and one only: where it ends and in which way is unique. -/
theorem Traced.exists_point (actions : List Action) (runs : System.run actions {} = some s)
    (traced : Traced (System.trace actions {}) s) (a : Attempt) :
    ∃ i, ∀ (j : Nat) (step : Step) (ending : Ending), (System.trace actions {})[j]? = some step →
      step.attempt? = some a → step.ending? = some ending → ∃ own, i ≤ j ∧
        (System.trace actions {})[i]? = some own ∧ own.Admits a ending ∧
        (i = j ∨ ∃ e, ending = .answered (.error e)) := by
  by_cases ends : ∃ (j : Nat) (step : Step) (ending : Ending),
      (System.trace actions {})[j]? = some step ∧ step.attempt? = some a ∧
        step.ending? = some ending
  · obtain ⟨j, step, ending, at_, takes, ended⟩ := ends
    obtain ⟨i, own, found⟩ := traced.ended j step a ending at_ takes ended
    refine ⟨i, ?_⟩
    intro j' step' ending' at' takes' ended'
    have same := System.ends_unique actions runs a j j' step step' ending ending' at_ takes ended
      at' takes' ended'
    subst same
    rw [at_, Option.some.injEq] at at'
    subst at'
    rw [ended, Option.some.injEq] at ended'
    subst ended'
    exact ⟨own, found⟩
  · refine ⟨0, ?_⟩
    intro j step ending at_ takes ended
    exact absurd ⟨j, step, ending, at_, takes, ended⟩ ends

theorem entryAt_point (history : List Step) (point : Attempt → Nat) (a : Attempt) (own : Step)
    (call : Call) (ending : Ending) (takes : own.attempt? = some a)
    (known : own.before.calls[a.call]? = some call) (ends : endingIn history a = some ending) :
    entryAt history point (point a) own = some (.attempt call.user call.coupon ending) := by
  rw [entryAt_other history point (point a) own (own.not_create a takes)]
  simp [takes, known, ends]

/-- Where no attempt has its point, a step that creates no coupon has no entry. -/
theorem entryAt_elsewhere (history : List Step) (point : Attempt → Nat) (i : Nat) (step : Step)
    (other : ∀ name amount, step.action ≠ .create name amount)
    (elsewhere : ∀ a ending, step.attempt? = some a → endingIn history a = some ending →
      point a ≠ i) :
    entryAt history point i step = none := by
  rw [entryAt_other history point i step other]
  cases takes : step.attempt? with
  | none => rfl
  | some a =>
      cases known : step.before.calls[a.call]? with
      | none => simp [known]
      | some call =>
          cases ends : endingIn history a with
          | none => simp [known, ends]
          | some ending => simp [known, ends, elsewhere a ending takes ends]

/-- The concurrent claims refine the atomic ones: every run, whatever its interleaving, its waits,
timeouts, cancellations and lost commits, is linearised by some points of its attempts. -/
theorem System.run_linearises (actions : List Action) (s : System)
    (byCalls : ∀ action ∈ actions, action.hand? = none) (runs : run actions {} = some s) :
    ∃ point, Linearises (trace actions {}) s point := by
  have traced := run_traced actions byCalls runs
  -- Attempts that never end get a point too, at which nothing takes effect.
  choose point placed using Traced.exists_point actions runs traced
  have effect : ∀ (i : Nat) (step : Step), (trace actions {})[i]? = some step →
      step.Follows (entryAt (trace actions {}) point i step) := by
    intro i step at_
    have acts := traced.acts step (List.mem_of_getElem? at_)
    by_cases creates : ∃ name amount, step.action = .create name amount
    · obtain ⟨name, amount, creates⟩ := creates
      rw [entryAt_create _ point i step name amount creates]
      have executes := Entry.Executes.create step.before.store.ledger name amount
      rw [← acts.creates name amount creates] at executes
      exact executes
    · have other : ∀ name amount, step.action ≠ .create name amount :=
        fun name amount same => creates ⟨name, amount, same⟩
      by_cases here : ∃ a ending, step.attempt? = some a ∧
          endingIn (trace actions {}) a = some ending ∧ point a = i
      · obtain ⟨a, ending, takes, ends, rfl⟩ := here
        obtain ⟨last, member, lastTakes, ended⟩ := (endingIn_eq_some actions runs a ending).mp ends
        obtain ⟨j, lastAt⟩ := List.mem_iff_getElem?.mp member
        obtain ⟨own, -, ownAt, admits, -⟩ := placed a j last ending lastAt lastTakes ended
        rw [at_, Option.some.injEq] at ownAt
        subst ownAt
        obtain ⟨-, call, known, executes⟩ := admits
        rw [entryAt_point _ point a step call ending takes known ends]
        exact executes
      · have elsewhere : ∀ a ending, step.attempt? = some a →
            endingIn (trace actions {}) a = some ending → point a ≠ i :=
          fun a ending takes ends same => here ⟨a, ending, takes, ends, same⟩
        rw [entryAt_elsewhere _ point i step other elsewhere]
        rcases acts.grants other with same | ⟨a, claim, takes, ended⟩
        · exact same
        · -- A granted claim takes effect where it is committed, so its point is here.
          obtain ⟨own, -, -, -, same | ⟨e, impossible⟩⟩ := placed a i step _ at_ takes ended
          · have ends : Ends (trace actions {}) a (.answered (.ok claim)) :=
              ⟨step, List.mem_of_getElem? at_, takes, ended⟩
            have is := (endingIn_eq_some actions runs a _).mpr ends
            exact absurd same (elsewhere a _ takes is)
          · cases impossible
  refine ⟨point, ?_, effect, ?_, traced.numbered, ?_⟩
  · intro a j step ending at_ takes ended
    obtain ⟨own, before, ownAt, ⟨ownTakes, call, known, -⟩, -⟩ :=
      placed a j step ending at_ takes ended
    obtain ⟨last, lastKnown, user, coupon⟩ :=
      trace_request actions runs own (List.mem_of_getElem? ownAt) a.call call known
    have ends := (endingIn_eq_some actions runs a ending).mpr
      ⟨step, List.mem_of_getElem? at_, takes, ended⟩
    refine ⟨before, own, last, ownAt, ownTakes, lastKnown, ?_⟩
    rw [user, coupon]
    exact entryAt_point _ point a own call ending ownTakes known ends
  · intro a claim ends
    obtain ⟨own, member, takes, id, lastId⟩ := traced.granted a claim ends
    exact ⟨own, member, takes, id, lastId⟩
  · refine replays_of_effects (entryAt (trace actions {}) point) (trace actions {}) 0 {} s
      (trace_chained actions runs) ?_
    intro i step at_
    rw [Nat.zero_add]
    exact effect i step at_

theorem System.run_linearises_last_unit :
    ∃ s, run lastUnitRace {} = some s ∧ ∃ point, Linearises (trace lastUnitRace {}) s point :=
  ⟨_, rfl, run_linearises lastUnitRace _ (by decide) rfl⟩

end CouponDesk.Memory
