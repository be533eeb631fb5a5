import CouponDesk.Proofs.Memory.Growth
import CouponDesk.Proofs.Memory.History

/-!
# Answers that stay true

A call comes to its answer in a store that gives it: sold out, claimed already, without the coupon,
or with a unit left and no claim of this user.  All of them but the missing coupon last, whatever is
done by hand or through other calls afterwards, so an answer says what later calls can still hope
for.
-/

set_option autoImplicit false

namespace CouponDesk.Memory

namespace Store

/-- What a claim of a user on a coupon may come to in a step from one store to the next. -/
inductive Gives (s next : Store) (user coupon : String) : Except Error Claim → Prop
  | missing (missing : s.coupon? coupon = none) : Gives s next user coupon
      (.error (.couponNotFound coupon))
  | soldOut (row : Coupon) (found : s.coupon? coupon = some row) (empty : row.remaining = 0) :
      Gives s next user coupon (.error (.noStock coupon))
  | repeated (known : (s.coupon? coupon).isSome) (claimed : (user, coupon) ∈ s.keys) :
      Gives s next user coupon (.error (.alreadyClaimed user coupon))
  | granted (claim : Claim) (row : Coupon) (found : s.coupon? coupon = some row)
      (stock : 0 < row.remaining) (unclaimed : (user, coupon) ∉ s.keys)
      (claimed : (user, coupon) ∈ next.keys) : Gives s next user coupon (.ok claim)
  | transient (e : Error) (retryable : e.retryable = true) : Gives s next user coupon (.error e)

/-- A result that a claim came to somewhere between two states of the store. -/
def GaveSince (origin s : Store) (user coupon : String) (result : Except Error Claim) : Prop :=
  ∃ before after : Store, origin.Grows before ∧ before.Grows after ∧ after.Grows s ∧
    before.Gives after user coupon result

variable {origin s s' : Store} {user coupon : String} {result : Except Error Claim}

theorem Gives.gaveSince (gives : s.Gives s' user coupon result) (grown : origin.Grows s)
    (grows : s.Grows s') : origin.GaveSince s' user coupon result :=
  ⟨s, s', grown, grows, .refl s', gives⟩

theorem GaveSince.grow (gave : origin.GaveSince s user coupon result) (grows : s.Grows s') :
    origin.GaveSince s' user coupon result := by
  obtain ⟨before, after, first, between, last, gives⟩ := gave
  exact ⟨before, after, first, between, last.trans grows, gives⟩

end Store

open Store

/-- A move that turns an attempt down does so for a reason in the store. -/
theorem Move.undoing_gives {s store : Store} {t : TxnId} {user coupon : String} {stage : Stage}
    {e : Error} (move : Move user coupon t s stage store (.undoing e))
    (supports : s.Supports t user coupon stage) : s.Gives store user coupon (.error e) := by
  cases move with
  | missing missing => exact .missing missing
  | soldOut row found empty holds => exact .soldOut row found empty
  | repeated claimed =>
      obtain ⟨row, found, -⟩ := supports.2.2.stock
      exact .repeated (by rw [found]; rfl) claimed

/-- The move that ends an attempt comes to a result that the store gives there, or reports why the
attempt was turned down before. -/
theorem Move.settled_gives {s store : Store} {t : TxnId} {user coupon : String} {stage : Stage}
    {result : Except Error Claim} (move : Move user coupon t s stage store (.settled result))
    (supports : s.Supports t user coupon stage) :
    s.Gives store user coupon result ∨ ∃ e, stage = .undoing e ∧ result = .error e := by
  cases move with
  | loses claim injected => exact Or.inl (.transient _ rfl)
  | clashes claim due claimed =>
      obtain ⟨row, found, -⟩ := supports.2.2.2.2.stock
      exact Or.inl (.repeated (by rw [found]; rfl) claimed)
  | commits claim due unclaimed =>
      obtain ⟨-, writes, rfl, rfl, secured⟩ := supports
      obtain ⟨row, found, stock⟩ := secured.stock
      refine Or.inl (.granted claim row found stock unclaimed ?_)
      rw [writes]
      exact List.mem_append_right _ (List.mem_singleton_self claim.key)
  | undoes e => exact Or.inr ⟨e, rfl, rfl⟩

/-- A call that is over after its attempt ended has the answer of that attempt. -/
theorem Call.eq_of_conclude_finished (call : Call) (now at_ : Nat)
    (given result : Except Error Claim)
    (finished : (call.conclude now given).phase = .finished result at_) : given = result := by
  unfold Call.conclude at finished
  split at finished
  · cases finished
  · exact (Phase.finished.inj finished).1

namespace System

variable {s s' : System}

/-- A call that is over after a step was so before, or is cut off there, or its attempt has made its
last move. -/
theorem Does.finished_origin {action : Action} (does : s.Does action s') (sound : s.Sound)
    (d : Nat) (call' : Call) (result : Except Error Claim) (at_ : Nat)
    (known' : s'.calls[d]? = some call') (finished : call'.phase = .finished result at_) :
    s.calls[d]? = some call' ∨ (∃ e, result = .error e ∧ e.retryable = true) ∨
      ∃ call stage expires, s.calls[d]? = some call ∧ call.phase = .trying stage expires ∧
        call'.user = call.user ∧ call'.coupon = call.coupon ∧
        s.store.Supports (txnOf d call) call.user call.coupon stage ∧
        Move call.user call.coupon (txnOf d call) s.store stage s'.store (.settled result) := by
  cases does.turns d call' known' with
  | stays _ _ known => exact Or.inl known
  | starts user coupon deadline limit new => cases finished
  | advances call stage next expires known trying asked =>
      obtain ⟨supports, move⟩ := sound.move known trying asked
      have request := (call.proceed_goes s.now expires stage next trying).request
      cases next with
      | settled given =>
          obtain rfl := call.eq_of_conclude_finished s.now at_ given result finished
          exact Or.inr (Or.inr ⟨call, stage, expires, known, trying, request.1, request.2,
            supports, move⟩)
      | _ => cases finished
  | expires call stage due known trying =>
      obtain rfl := call.eq_of_conclude_finished s.now at_ _ result finished
      exact Or.inr (Or.inl ⟨_, rfl, rfl⟩)
  | wakes call due known resting => cases finished
  | cancels call known => cases finished

/-! ## Answers given since a moment -/

/-- The calls from number `first` on have come to what they answer since the store was `origin`. -/
structure AnsweredSince (origin : Store) (first : Nat) (s : System) : Prop where
  sound : s.Sound
  grown : origin.Grows s.store
  undoing : ∀ (c : Nat) (call : Call) (e : Error) (due : Nat), first ≤ c →
    s.calls[c]? = some call → call.phase = .trying (.undoing e) due →
    origin.GaveSince s.store call.user call.coupon (.error e)
  finished : ∀ (c : Nat) (call : Call) (result : Except Error Claim) (at_ : Nat), first ≤ c →
    s.calls[c]? = some call → call.phase = .finished result at_ →
    origin.GaveSince s.store call.user call.coupon result

theorem AnsweredSince.step {origin : Store} {first : Nat} {action : Action}
    (answered : AnsweredSince origin first s) (does : s.Does action s') :
    AnsweredSince origin first s' where
  sound := does.sound answered.sound
  grown := answered.grown.trans (does.grows answered.sound)
  undoing := by
    intro c call' e due late known' trying'
    have grows := does.grows answered.sound
    cases does.came answered.sound c call' (.undoing e) due known' trying' with
    | stood before => exact (answered.undoing c call' e due late before trying').grow grows
    | began opening => cases opening
    | moved call stage expires acts known trying supports move same =>
        subst same
        exact (move.undoing_gives supports).gaveSince answered.grown grows
  finished := by
    intro c call' result at_ late known' finished'
    have grows := does.grows answered.sound
    rcases does.finished_origin answered.sound c call' result at_ known' finished' with
      before | ⟨e, rfl, retryable⟩ | ⟨call, stage, due, known, trying, user, coupon, supports, move⟩
    · exact (answered.finished c call' result at_ late before finished').grow grows
    · exact (Gives.transient e retryable).gaveSince answered.grown grows
    · rw [user, coupon]
      rcases move.settled_gives supports with gives | ⟨e, rfl, rfl⟩
      · exact gives.gaveSince answered.grown grows
      · exact (answered.undoing c call e due late known trying).grow grows

theorem run_answeredSince (actions : List Action) (sound : s.Sound)
    (runs : run actions s = some s') : AnsweredSince s.store s.calls.length s' := by
  refine run_keeps (AnsweredSince s.store s.calls.length) (fun _ => True)
    (fun mid last action _ does answered => answered.step does) actions (fun _ _ => trivial) runs ?_
  have none_yet : ∀ (c : Nat) (call : Call), s.calls.length ≤ c → s.calls[c]? ≠ some call := by
    intro c call late known
    have bound := (List.getElem?_eq_some_iff.mp known).1
    omega
  refine ⟨sound, .refl s.store, ?_, ?_⟩
  · exact fun c call e due late known => absurd known (none_yet c call late)
  · exact fun c call result at_ late known => absurd known (none_yet c call late)

end System

/-! ## One answer and a later one -/

/-- What the result of a call says about the answer of a later one on the same coupon. -/
structure Binds (call later : Call) (result answer : Except Error Claim) : Prop where
  soldOut : (∃ name, result = .error (.noStock name)) → ∀ claim, answer ≠ .ok claim
  granted : (∃ claim, result = .ok claim) → later.user = call.user →
    answer = .error (.alreadyClaimed call.user call.coupon) ∨
      answer = .error (.noStock call.coupon) ∨ ∃ e, answer = .error e ∧ e.retryable = true
  known : ((∃ claim, result = .ok claim) ∨ (∃ name, result = .error (.noStock name)) ∨
      ∃ user name, result = .error (.alreadyClaimed user name)) →
    ∀ name, answer ≠ .error (.couponNotFound name)

namespace Store.Gives

variable {s next s' next' : Store} {user other coupon : String} {result : Except Error Claim}

/-- A coupon that was sold out gives no claim later. -/
theorem not_granted_of_soldOut (name : String)
    (first : s.Gives next user coupon (.error (.noStock name))) (grows : s.Grows s')
    (claim : Claim) : ¬ s'.Gives next' other coupon (.ok claim) := by
  intro second
  cases second with
  | granted claim row found stock unclaimed claimed =>
      cases first with
      | soldOut earlier present empty =>
          obtain ⟨last, reached, -, -, fewer⟩ := grows.rows coupon earlier present
          rw [found, Option.some.injEq] at reached
          subst reached
          omega
      | transient e retryable => cases retryable

/-- A user who holds a claim gets no other. -/
theorem not_granted_again (claim : Claim) (first : s.Gives next user coupon (.ok claim))
    (grows : next.Grows s') (again : Claim) : ¬ s'.Gives next' user coupon (.ok again) := by
  intro second
  cases first with
  | granted claim row found stock unclaimed claimed =>
      cases second with
      | granted again row' found' stock' unclaimed' claimed' =>
          exact unclaimed' (grows.keys.subset claimed)

/-- A result other than a failure that names no missing coupon has found the coupon. -/
theorem isSome (gives : s.Gives next user coupon result)
    (shows : (∃ claim, result = .ok claim) ∨ (∃ name, result = .error (.noStock name)) ∨
      ∃ user name, result = .error (.alreadyClaimed user name)) : (s.coupon? coupon).isSome := by
  cases gives with
  | missing missing => simp at shows
  | soldOut row found empty =>
      rw [found]
      rfl
  | repeated known claimed => exact known
  | granted claim row found stock unclaimed claimed =>
      rw [found]
      rfl
  | transient e retryable =>
      rcases shows with ⟨claim, same⟩ | ⟨name, same⟩ | ⟨user, name, same⟩
      · cases same
      · cases same
        cases retryable
      · cases same
        cases retryable

theorem not_missing (known : (s.coupon? coupon).isSome) (name : String) :
    ¬ s.Gives next user coupon (.error (.couponNotFound name)) := by
  intro gives
  cases gives with
  | missing missing =>
      rw [missing] at known
      cases known
  | transient e retryable => cases retryable

end Store.Gives

theorem Store.GaveSince.binds {first s last : Store} {call later : Call}
    {result answer : Except Error Claim} (same : later.coupon = call.coupon)
    (gave : first.GaveSince s call.user call.coupon result)
    (gaveLater : s.GaveSince last later.user later.coupon answer) :
    Binds call later result answer := by
  obtain ⟨before, after, -, grows, grown, gives⟩ := gave
  obtain ⟨before', after', grown', -, -, gives'⟩ := gaveLater
  have between : after.Grows before' := grown.trans grown'
  rw [same] at gives'
  have notMissing : ((∃ claim, result = .ok claim) ∨ (∃ name, result = .error (.noStock name)) ∨
      ∃ user name, result = .error (.alreadyClaimed user name)) →
      ∀ name, answer ≠ .error (.couponNotFound name) := by
    rintro shows name rfl
    have known := (grows.trans between).isSome call.coupon (gives.isSome shows)
    exact Gives.not_missing known name gives'
  refine ⟨?_, ?_, notMissing⟩
  · rintro ⟨name, rfl⟩ claim rfl
    exact gives.not_granted_of_soldOut name (grows.trans between) claim gives'
  · rintro ⟨claim, rfl⟩ user
    rw [user] at gives'
    cases gives' with
    | missing missing => exact absurd rfl (notMissing (Or.inl ⟨claim, rfl⟩) call.coupon)
    | soldOut row found empty => exact Or.inr (Or.inl rfl)
    | repeated known claimed => exact Or.inl rfl
    | granted again row found stock unclaimed claimed =>
        exact absurd (.granted again row found stock unclaimed claimed)
          (gives.not_granted_again claim between again)
    | transient e retryable => exact Or.inr (Or.inr ⟨e, rfl, retryable⟩)

namespace System

variable {s s' : System}

/-- Whatever is done by hand and through calls, with whatever failures: where a call has returned, a
call on the same coupon that starts later is bound by its result. -/
theorem run_binds (before after : List Action) (reached : run before {} = some s)
    (runs : run after s = some s') (c d : Nat) (call later : Call)
    (result answer : Except Error Claim) (at_ due : Nat) (known : s.calls[c]? = some call)
    (returned : call.phase = .finished result at_) (late : s.calls.length ≤ d)
    (known' : s'.calls[d]? = some later) (returned' : later.phase = .finished answer due)
    (same : later.coupon = call.coupon) : Binds call later result answer := by
  have first := run_answeredSince before sound_empty reached
  have second := run_answeredSince after (run_sound before reached) runs
  exact (first.finished c call result at_ (Nat.zero_le c) known returned).binds same
    (second.finished d later answer due late known' returned')

/-- A unit staged by hand is given back, and a call that waits for it gets it. -/
def handover : List Action :=
  [.create "SOLO" 2, .begin 0, .lock 0 "SOLO", .decrement 0 "SOLO",
    .start "first" "SOLO" .zero 1, .advance 0, .advance 0, .rollback 0, .advance 0, .advance 0,
    .advance 0, .advance 0]

/-- The same user asks again, before and after the last unit is gone. -/
def encore : List Action :=
  [.start "first" "SOLO" .zero 1, .advance 1, .advance 1, .advance 1, .advance 1,
    .start "second" "SOLO" .zero 1, .advance 2, .advance 2, .advance 2, .advance 2, .advance 2,
    .start "first" "SOLO" .zero 1, .advance 3, .advance 3, .advance 3]

theorem run_binds_encore :
    ∃ s s' call early late, run handover {} = some s ∧ run encore s = some s' ∧
      s.calls[0]? = some call ∧ s'.calls[1]? = some early ∧ s'.calls[3]? = some late ∧
      call.phase = .finished (.ok ⟨1, "first", "SOLO"⟩) 0 ∧
      early.phase = .finished (.error (.alreadyClaimed "first" "SOLO")) 0 ∧
      late.phase = .finished (.error (.noStock "SOLO")) 0 ∧
      Binds call early (.ok ⟨1, "first", "SOLO"⟩) (.error (.alreadyClaimed "first" "SOLO")) ∧
      Binds call late (.ok ⟨1, "first", "SOLO"⟩) (.error (.noStock "SOLO")) :=
  ⟨_, _, _, _, _, rfl, rfl, rfl, rfl, rfl, rfl, rfl, rfl,
    run_binds handover encore rfl rfl 0 1 _ _ _ _ 0 0 rfl rfl (by decide) rfl rfl rfl,
    run_binds handover encore rfl rfl 0 3 _ _ _ _ 0 0 rfl rfl (by decide) rfl rfl rfl⟩

end System

end CouponDesk.Memory
