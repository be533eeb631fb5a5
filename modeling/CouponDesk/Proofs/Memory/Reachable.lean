import CouponDesk.Proofs.Memory.Attempts

/-!
# What holds in every run

`Does` lists the steps of a system, one constructor for each kind; every proof about runs goes by
cases on it.  The system is sound when its store is, when every call finds in the store what the
stage of its attempt relies on, and when no transaction is live without a call that is making the
attempt.  Every run from the empty system keeps it so.
-/

set_option autoImplicit false

namespace CouponDesk.Memory

def Action.hand? : Action → Option Nat
  | .begin number | .lock number _ | .leave number _ | .insert number _ _ | .decrement number _
  | .commit number | .rollback number => some number
  | _ => none

namespace Call

theorem conclude_eq (call : Call) (now : Nat) (result : Except Error Claim) :
    ∃ phase, call.conclude now result = { call with phase } ∧
      ∀ stage expires, phase ≠ .trying stage expires := by
  unfold conclude
  split
  · exact ⟨_, rfl, fun stage expires => Phase.noConfusion⟩
  · exact ⟨_, rfl, fun stage expires => Phase.noConfusion⟩

theorem conclude_over (call : Call) (now : Nat) (result : Except Error Claim) (stage : Stage)
    (expires : Nat) : (call.conclude now result).phase ≠ .trying stage expires := by
  obtain ⟨phase, concluded, stopped⟩ := call.conclude_eq now result
  rw [concluded]
  exact stopped stage expires

theorem proceed_open (call : Call) (now expires : Nat) (stage : Stage)
    (open_ : ∀ result, stage ≠ .settled result) :
    call.proceed now expires stage = { call with phase := .trying stage expires } := by
  cases stage with
  | settled result => exact absurd rfl (open_ result)
  | _ => rfl

/-- A call whose attempt stays where it is does not change. -/
theorem proceed_self (call : Call) (now expires : Nat) (stage : Stage)
    (trying : call.phase = .trying stage expires) (open_ : ∀ result, stage ≠ .settled result) :
    call.proceed now expires stage = call := by
  rw [call.proceed_open now expires stage open_, ← trying]

theorem not_trying_of_resting (call : Call) (wakes : Nat) (resting : call.phase = .resting wakes)
    (stage : Stage) (expires : Nat) : call.phase ≠ .trying stage expires := by
  rw [resting]
  exact Phase.noConfusion

end Call

namespace System

inductive Does (s : System) : Action → System → Prop
  | create (name : String) (amount : Int) :
      Does s (.create name amount) { s with store := (s.store.create name amount).2 }
  | failCommits (count : Nat) :
      Does s (.failCommits count) { s with store := s.store.failCommits count }
  | byHand (action : Action) (number : Nat) (store : Store) (hand : action.hand? = some number)
      (change : s.store.Change (.manual number) store) : Does s action { s with store }
  | start (user coupon : String) (deadline : Duration) (limit : Nat) :
      Does s (.start user coupon deadline limit) (s.start user coupon deadline limit)
  | advance (c : Nat) (call : Call) (stage : Stage) (expires : Nat) (store : Store) (next : Stage)
      (known : s.calls[c]? = some call) (trying : call.phase = .trying stage expires)
      (asked : s.store.ask (txnOf c call) call.user call.coupon stage = some (store, next)) :
      Does s (.advance c) ({ s with store }.putCall c (call.proceed s.now expires next))
  | expire (c : Nat) (call : Call) (stage : Stage) (expires : Nat)
      (known : s.calls[c]? = some call) (trying : call.phase = .trying stage expires) :
      Does s (.expire c) ({ s with store := s.store.close (txnOf c call) }.putCall c
        (call.conclude s.now (.error (.timeout call.coupon call.deadline))))
  | wake (c : Nat) (call : Call) (wakes : Nat) (known : s.calls[c]? = some call)
      (resting : call.phase = .resting wakes) :
      Does s (.wake c) (s.putCall c
        { call with attempt := call.attempt + 1, phase := .trying .opening (call.expiry s.now) })
  | cancel (c : Nat) (call : Call) (stage : Stage) (expires : Nat)
      (known : s.calls[c]? = some call) (trying : call.phase = .trying stage expires) :
      Does s (.cancel c) ({ s with store := s.store.close (txnOf c call) }.putCall c
        { call with phase := .cancelled })
  | cancelPause (c : Nat) (call : Call) (wakes : Nat) (known : s.calls[c]? = some call)
      (resting : call.phase = .resting wakes) :
      Does s (.cancel c) (s.putCall c { call with phase := .cancelled })
  | pass (ms : Nat) : Does s (.pass ms) { s with now := s.now + ms }

variable {s s' : System}

/-! ## Every action is one of the steps -/

theorem withTxn_does (action : Action) (number : Nat) (hand : action.hand? = some number)
    (f : Store → TxnId → Store)
    (change : s.store.isLive (.manual number) = true →
      s.store.Change (.manual number) (f s.store (.manual number)))
    (step : s.withTxn number f = some s') : s.Does action s' := by
  unfold withTxn at step
  by_cases live : s.store.isLive (.manual number) = true
  · rw [if_pos live, Option.some.injEq] at step
    rw [← step]
    exact .byHand action number _ hand (change live)
  · rw [if_neg live] at step
    cases step

theorem putCall_self (c : Nat) (call : Call) (known : s.calls[c]? = some call) :
    s.putCall c call = s := by
  obtain ⟨bound, rfl⟩ := List.getElem?_eq_some_iff.mp known
  unfold putCall
  rw [List.set_getElem_self]

theorem getElem?_putCall
    (c : Nat) (call call' : Call) (known : s.calls[c]? = some call) (d : Nat) :
    (s.putCall c call').calls[d]? = if c = d then some call' else s.calls[d]? := by
  have bound : c < s.calls.length := (List.getElem?_eq_some_iff.mp known).1
  change (s.calls.set c call')[d]? = _
  rw [List.getElem?_set]
  by_cases same : c = d
  · subst same
    rw [if_pos rfl, if_pos bound, if_pos rfl]
  · rw [if_neg same, if_neg same]

theorem getElem?_putCall_self (c : Nat) (call call' : Call) (known : s.calls[c]? = some call) :
    (s.putCall c call').calls[c]? = some call' := by
  rw [getElem?_putCall c call call' known, if_pos rfl]

/-- A call after one was replaced: the new one, or another that has not changed. -/
theorem putCall_cases (c d : Nat) (call' other : Call)
    (found : (s.putCall c call').calls[d]? = some other) :
    (c = d ∧ call' = other) ∨ (c ≠ d ∧ s.calls[d]? = some other) := by
  change (s.calls.set c call')[d]? = some other at found
  rw [List.getElem?_set] at found
  by_cases same : c = d
  · rw [if_pos same] at found
    split at found
    · exact Or.inl ⟨same, Option.some.inj found⟩
    · cases found
  · rw [if_neg same] at found
    exact Or.inr ⟨same, found⟩

/-- The step of a call is its request, and what it makes of the reply. -/
theorem advance_eq (c : Nat) (call : Call) (stage : Stage) (expires : Nat)
    (known : s.calls[c]? = some call) (trying : call.phase = .trying stage expires) :
    s.advance c = (s.store.ask (txnOf c call) call.user call.coupon stage).map fun reply =>
      ({ s with store := reply.1 } : System).putCall c (call.proceed s.now expires reply.2) := by
  unfold advance Store.ask
  simp only [known, Option.bind_eq_bind, Option.bind_some, trying]
  cases turned : stage.turn call.user call.coupon with
  | answer result => rfl
  | ask request resume =>
      have open_ : ∀ result, stage ≠ .settled result := by
        rintro result rfl
        cases turned
      dsimp only
      split
      · rfl
      · cases performed : s.store.perform (txnOf c call) request with
        | mk reply store =>
            cases reply with
            | some reply => rfl
            | none =>
                dsimp only [Option.map_some]
                rw [call.proceed_self s.now expires stage trying open_]
                exact congrArg some
                  (putCall_self (s := { s with store }) c call known).symm

theorem advance_does (c : Nat) (step : s.advance c = some s') : s.Does (.advance c) s' := by
  cases known : s.calls[c]? with
  | none => simp [advance, known] at step
  | some call =>
      cases trying : call.phase with
      | trying stage expires =>
          rw [advance_eq c call stage expires known trying] at step
          obtain ⟨⟨store, next⟩, asked, rfl⟩ := Option.map_eq_some_iff.mp step
          exact .advance c call stage expires store next known trying asked
      | _ => simp [advance, known, trying] at step

theorem expire_eq (c : Nat) (call : Call) (stage : Stage) (expires : Nat)
    (known : s.calls[c]? = some call) (trying : call.phase = .trying stage expires) :
    s.expire c = some (({ s with store := s.store.close (txnOf c call) } : System).putCall c
      (call.conclude s.now (.error (.timeout call.coupon call.deadline)))) := by
  simp [expire, known, trying]

theorem expire_does (c : Nat) (step : s.expire c = some s') : s.Does (.expire c) s' := by
  cases known : s.calls[c]? with
  | none => simp [expire, known] at step
  | some call =>
      cases trying : call.phase with
      | trying stage expires =>
          rw [expire_eq c call stage expires known trying] at step
          rw [← Option.some.inj step]
          exact .expire c call stage expires known trying
      | _ => simp [expire, known, trying] at step

theorem wake_eq (c : Nat) (call : Call) (wakes : Nat) (known : s.calls[c]? = some call)
    (resting : call.phase = .resting wakes) :
    s.wake c = some (s.putCall c
      { call with attempt := call.attempt + 1, phase := .trying .opening (call.expiry s.now) }) := by
  simp [wake, known, resting]

theorem wake_does (c : Nat) (step : s.wake c = some s') : s.Does (.wake c) s' := by
  cases known : s.calls[c]? with
  | none => simp [wake, known] at step
  | some call =>
      cases resting : call.phase with
      | resting wakes =>
          rw [wake_eq c call wakes known resting] at step
          rw [← Option.some.inj step]
          exact .wake c call wakes known resting
      | _ => simp [wake, known, resting] at step

theorem cancel_eq (c : Nat) (call : Call) (stage : Stage) (expires : Nat)
    (known : s.calls[c]? = some call) (trying : call.phase = .trying stage expires) :
    s.cancel c = some (({ s with store := s.store.close (txnOf c call) } : System).putCall c
      { call with phase := .cancelled }) := by
  simp [cancel, known, trying]

theorem cancel_eq_of_resting (c : Nat) (call : Call) (wakes : Nat) (known : s.calls[c]? = some call)
    (resting : call.phase = .resting wakes) :
    s.cancel c = some (s.putCall c { call with phase := .cancelled }) := by
  simp [cancel, known, resting]

theorem cancel_does (c : Nat) (step : s.cancel c = some s') : s.Does (.cancel c) s' := by
  cases known : s.calls[c]? with
  | none => simp [cancel, known] at step
  | some call =>
      cases phase : call.phase with
      | trying stage expires =>
          rw [cancel_eq c call stage expires known phase] at step
          rw [← Option.some.inj step]
          exact .cancel c call stage expires known phase
      | resting wakes =>
          rw [cancel_eq_of_resting c call wakes known phase] at step
          rw [← Option.some.inj step]
          exact .cancelPause c call wakes known phase
      | _ => simp [cancel, known, phase] at step

theorem begin_does (number : Nat) (step : s.begin number = some s') :
    s.Does (.begin number) s' := by
  unfold begin at step
  by_cases live : s.store.isLive (.manual number) = true
  · rw [if_pos live] at step
    cases step
  · rw [if_neg live, Option.some.injEq] at step
    rw [← step]
    exact .byHand _ number _ rfl (.opened (by simpa using live))

/-- Every action that is possible is one of the steps. -/
theorem act_does (action : Action) (step : s.act action = some s') : s.Does action s' := by
  cases action with
  | create name amount =>
      rw [← Option.some.inj step]
      exact .create name amount
  | failCommits count =>
      rw [← Option.some.inj step]
      exact .failCommits count
  | begin number => exact begin_does number step
  | lock number name =>
      exact withTxn_does _ number rfl (fun store t => (store.lock t name).2)
        (s.store.lock_change _ name) step
  | leave number name =>
      exact withTxn_does _ number rfl (fun store t => store.leave t name)
        (fun _ => s.store.leave_change _ name) step
  | insert number user name =>
      exact withTxn_does _ number rfl (fun store t => (store.insert t user name).2)
        (s.store.insert_change _ user name) step
  | decrement number name =>
      exact withTxn_does _ number rfl (fun store t => (store.decrement t name).2)
        (s.store.decrement_change _ name) step
  | commit number =>
      exact withTxn_does _ number rfl (fun store t => (store.commit t).2)
        (fun _ => s.store.commit_change _) step
  | rollback number =>
      exact withTxn_does _ number rfl (fun store t => store.close t) (fun _ => .closed) step
  | start user coupon deadline limit =>
      rw [← Option.some.inj step]
      exact .start user coupon deadline limit
  | advance c => exact advance_does c step
  | expire c => exact expire_does c step
  | wake c => exact wake_does c step
  | cancel c => exact cancel_does c step
  | pass ms =>
      rw [← Option.some.inj step]
      exact .pass ms

end System

/-! ## Soundness -/

/-- What a call finds in the store: its only live transaction is that of the attempt under way,
which asks for the lock of its own coupon only, and the store supports the stage of the
attempt. -/
structure Store.Serves (store : Store) (c : Nat) (call : Call) : Prop where
  live : ∀ number, store.isLive (.attempt c number) = true →
    number = call.attempt ∧ ∃ stage expires, call.phase = .trying stage expires
  tickets : ∀ number name, ⟨name, .attempt c number⟩ ∈ store.line → name = call.coupon
  stage : ∀ stage expires, call.phase = .trying stage expires →
    store.Supports (System.txnOf c call) call.user call.coupon stage

namespace System

structure Sound (s : System) : Prop where
  store : s.store.Sound
  calls : ∀ c call, s.calls[c]? = some call → s.store.Serves c call
  owned : ∀ c number, s.store.isLive (.attempt c number) = true → c < s.calls.length

theorem sound_empty : Sound {} where
  store := Store.sound_empty
  calls := by
    intro c call known
    simp at known
  owned := by
    intro c number live
    simp [Store.isLive] at live

variable {s s' : System}

/-- A change by a transaction of none of a call's attempts leaves the call served. -/
theorem serves_of_change {store store' : Store} {t : TxnId} (change : store.Change t store')
    (sound : store.Sound) (c : Nat) (call : Call) (serves : store.Serves c call)
    (apart : ∀ number, .attempt c number ≠ t) : store'.Serves c call where
  live := by
    intro number live
    rw [change.isLive_of_ne _ (apart number)] at live
    exact serves.live number live
  tickets := by
    intro number name member
    rw [change.ticket_of_ne _ (apart number)] at member
    exact serves.tickets number name member
  stage := fun stage expires trying =>
    change.supports_of_ne sound _ (apart _) (serves.stage stage expires trying)

/-- A step of one call keeps the system sound if the store serves the call afterwards. -/
theorem Sound.putCall (sound : s.Sound) (c : Nat) (call call' : Call) (store : Store)
    (known : s.calls[c]? = some call) (change : s.store.Change (txnOf c call) store)
    (serves : store.Serves c call') : (({ s with store } : System).putCall c call').Sound where
  store := change.sound sound.store
  calls := by
    intro d other found
    rcases putCall_cases c d call' other found with ⟨rfl, rfl⟩ | ⟨apart, old⟩
    · exact serves
    · refine serves_of_change change sound.store d other (sound.calls d other old) ?_
      intro number clash
      exact apart (TxnId.attempt.inj clash).1.symm
  owned := by
    intro d number live
    change d < (s.calls.set c call').length
    rw [List.length_set]
    by_cases own : TxnId.attempt d number = txnOf c call
    · rw [(TxnId.attempt.inj own).1]
      exact (List.getElem?_eq_some_iff.mp known).1
    · change store.isLive _ = true at live
      rw [change.isLive_of_ne _ own] at live
      exact sound.owned d number live

/-- When the transaction of its attempt is gone, a call is served in any phase without an
attempt. -/
theorem serves_of_closed {store store' : Store} (c : Nat) (call call' : Call)
    (serves : store.Serves c call) (change : store.Change (txnOf c call) store')
    (sound : store'.SoundLocks) (closed : store'.isLive (txnOf c call) = false)
    (stopped : ∀ stage expires, call'.phase ≠ .trying stage expires) : store'.Serves c call' := by
  have none_live : ∀ number, store'.isLive (.attempt c number) = false := by
    intro number
    by_cases own : TxnId.attempt c number = txnOf c call
    · rw [own]
      exact closed
    · rw [change.isLive_of_ne _ own]
      cases live : store.isLive (.attempt c number) with
      | false => rfl
      | true =>
          obtain ⟨same, -⟩ := serves.live number live
          exact absurd (by rw [same]; rfl) own
  refine ⟨?_, ?_, ?_⟩
  · intro number live
    rw [none_live] at live
    cases live
  · intro number name member
    have live := sound.live _ member
    rw [none_live] at live
    cases live
  · intro stage expires trying
    exact absurd trying (stopped stage expires)

theorem Move.ticket {store store' : Store} {t : TxnId} {user coupon : String} {stage next : Stage}
    (move : Move user coupon t store stage store' next) (name : String)
    (member : ⟨name, t⟩ ∈ store'.line) : ⟨name, t⟩ ∈ store.line ∨ name = coupon := by
  have joined : ⟨name, t⟩ ∈ (store.join t coupon).line →
      ⟨name, t⟩ ∈ store.line ∨ name = coupon := by
    intro member
    unfold Store.join at member
    split at member
    · exact Or.inl member
    · rcases List.mem_append.mp member with old | new
      · exact Or.inl old
      · exact Or.inr (Ticket.mk.inj (List.mem_singleton.mp new)).1
  have closed : ⟨name, t⟩ ∈ (store.close t).line → ⟨name, t⟩ ∈ store.line ∨ name = coupon := by
    intro member
    exact Or.inl (List.mem_filter.mp member).1
  cases move with
  | queues row found taken => exact joined member
  | soldOut row found empty holds => exact joined member
  | secures row found stock holds => exact joined member
  | loses claim injected => exact closed member
  | clashes claim due claimed => exact closed member
  | commits claim due unclaimed => exact closed member
  | undoes e => exact closed member
  | _ => exact Or.inl member

/-- A request of a call is a move of its attempt, at a stage that the store supports. -/
theorem Sound.move {c : Nat} {call : Call} {stage next : Stage} {expires : Nat} {store : Store}
    (sound : s.Sound) (known : s.calls[c]? = some call)
    (trying : call.phase = .trying stage expires)
    (asked : s.store.ask (txnOf c call) call.user call.coupon stage = some (store, next)) :
    s.store.Supports (txnOf c call) call.user call.coupon stage ∧
      Move call.user call.coupon (txnOf c call) s.store stage store next := by
  have supports := (sound.calls c call known).stage stage expires trying
  exact ⟨supports, Store.ask_move sound.store stage supports store next asked⟩

theorem Sound.advance (sound : s.Sound) (c : Nat) (call : Call) (stage : Stage) (expires : Nat)
    (store : Store) (next : Stage) (known : s.calls[c]? = some call)
    (trying : call.phase = .trying stage expires)
    (asked : s.store.ask (txnOf c call) call.user call.coupon stage = some (store, next)) :
    (({ s with store } : System).putCall c (call.proceed s.now expires next)).Sound := by
  have serves := sound.calls c call known
  obtain ⟨supports, move⟩ := sound.move known trying asked
  have change := move.change supports
  refine sound.putCall c call _ store known change ?_
  -- The attempt goes on in its transaction, or it is over and its transaction is gone.
  rcases move.supports sound.store supports with supported | ⟨closed, result, rfl⟩
  · have open_ : ∀ result, next ≠ .settled result := by
      rintro result rfl
      exact supported
    rw [call.proceed_open s.now expires next open_]
    refine ⟨?_, ?_, ?_⟩
    · intro number live
      refine ⟨?_, next, expires, rfl⟩
      by_cases own : TxnId.attempt c number = txnOf c call
      · exact (TxnId.attempt.inj own).2
      · rw [change.isLive_of_ne _ own] at live
        exact (serves.live number live).1
    · intro number name member
      by_cases own : TxnId.attempt c number = txnOf c call
      · rw [own] at member
        rcases Move.ticket move name member with old | same
        · exact serves.tickets _ name old
        · exact same
      · rw [change.ticket_of_ne _ own] at member
        exact serves.tickets number name member
    · intro stage' expires' trying'
      obtain ⟨rfl, rfl⟩ := Phase.trying.inj trying'
      exact supported
  · exact serves_of_closed c call _ serves change (change.sound sound.store).locks closed
      (call.conclude_over s.now result)

/-- Dropping the transaction of its attempt leaves a call served in any phase without one. -/
theorem Sound.drop (sound : s.Sound) (c : Nat) (call call' : Call)
    (known : s.calls[c]? = some call)
    (stopped : ∀ stage expires, call'.phase ≠ .trying stage expires) :
    (({ s with store := s.store.close (txnOf c call) } : System).putCall c call').Sound := by
  have change : s.store.Change (txnOf c call) (s.store.close (txnOf c call)) := .closed
  refine sound.putCall c call call' _ known change ?_
  refine serves_of_closed c call call' (sound.calls c call known) change
    (change.sound sound.store).locks ?_ stopped
  rw [Store.isLive_close]
  simp

theorem Sound.not_live_of_resting (sound : s.Sound) (c : Nat) (call : Call)
    (known : s.calls[c]? = some call) (idle : ∀ stage expires, call.phase ≠ .trying stage expires)
    (number : Nat) : s.store.isLive (.attempt c number) = false := by
  cases live : s.store.isLive (.attempt c number) with
  | false => rfl
  | true =>
      obtain ⟨-, stage, expires, trying⟩ := (sound.calls c call known).live number live
      exact absurd trying (idle stage expires)

/-- A call that makes no attempt is served in any such phase, and before a new attempt. -/
theorem Sound.rest (sound : s.Sound) (c : Nat) (call call' : Call) (known : s.calls[c]? = some call)
    (idle : ∀ stage expires, call.phase ≠ .trying stage expires)
    (next : ∀ stage expires, call'.phase = .trying stage expires → stage = .opening) :
    (s.putCall c call').Sound := by
  have dead := sound.not_live_of_resting c call known idle
  refine sound.putCall c call call' s.store known .kept ⟨?_, ?_, ?_⟩
  · intro number live
    rw [dead] at live
    cases live
  · intro number name member
    have live := sound.store.locks.live _ member
    rw [dead] at live
    cases live
  · intro stage expires trying
    rw [next stage expires trying]
    exact dead call'.attempt

theorem Sound.withTables (sound : s.Sound) (store : Store) (storeSound : store.Sound)
    (live : ∀ t, store.isLive t = s.store.isLive t) (line : store.line = s.store.line)
    (supports : ∀ t user coupon stage, s.store.Supports t user coupon stage →
      store.Supports t user coupon stage) : Sound { s with store } where
  store := storeSound
  calls := by
    intro c call known
    have serves := sound.calls c call known
    refine ⟨?_, ?_, ?_⟩
    · intro number alive
      rw [live] at alive
      exact serves.live number alive
    · intro number name member
      rw [line] at member
      exact serves.tickets number name member
    · exact fun stage expires trying => supports _ _ _ _ (serves.stage stage expires trying)
  owned := by
    intro c number alive
    change store.isLive _ = true at alive
    rw [live] at alive
    exact sound.owned c number alive

theorem Sound.create (sound : s.Sound) (name : String) (amount : Int) :
    Sound { s with store := (s.store.create name amount).2 } := by
  refine sound.withTables _ (Store.create_sound s.store name amount sound.store) ?_ ?_
    (fun t user coupon stage => create_supports s.store name amount t)
  · intro t
    rcases Store.create_cases s.store name amount with same | ⟨-, -, added⟩
    · rw [same]
    · rw [added]
      rfl
  · rcases Store.create_cases s.store name amount with same | ⟨-, -, added⟩
    · rw [same]
    · rw [added]

theorem Sound.start (sound : s.Sound) (user coupon : String) (deadline : Duration) (limit : Nat) :
    (s.start user coupon deadline limit).Sound where
  store := sound.store
  calls := by
    intro c call known
    have dead : ∀ number, s.calls.length ≤ c → s.store.isLive (.attempt c number) = false := by
      intro number new
      cases live : s.store.isLive (.attempt c number) with
      | false => rfl
      | true => exact absurd (sound.owned c number live) (by omega)
    change (s.calls ++ [_])[c]? = some call at known
    rw [List.getElem?_append] at known
    split at known
    · exact sound.calls c call known
    · rename_i bound
      have new : s.calls.length ≤ c := by omega
      have first : c - s.calls.length = 0 := by
        have inside := (List.getElem?_eq_some_iff.mp known).1
        simp only [List.length_singleton] at inside
        omega
      rw [first, List.getElem?_cons_zero, Option.some.injEq] at known
      refine ⟨?_, ?_, ?_⟩
      · intro number live
        change s.store.isLive _ = true at live
        rw [dead number new] at live
        cases live
      · intro number name member
        have live := sound.store.locks.live _ member
        rw [dead number new] at live
        cases live
      · intro stage expires trying
        rw [← known] at trying
        rw [← (Phase.trying.inj trying).1]
        exact dead call.attempt new
  owned := by
    intro c number live
    change c < (s.calls ++ [_]).length
    have bound := sound.owned c number live
    rw [List.length_append]
    omega

/-- Every step keeps the system sound. -/
theorem Does.sound {action : Action} (does : s.Does action s') (sound : s.Sound) : s'.Sound := by
  cases does with
  | create name amount => exact sound.create name amount
  | failCommits count =>
      exact sound.withTables _ (Store.failCommits_sound s.store count sound.store)
        (fun t => rfl) rfl (fun t user coupon stage => failCommits_supports s.store count t)
  | byHand action number store hand change =>
      refine ⟨change.sound sound.store, ?_, ?_⟩
      · intro c call known
        exact serves_of_change change sound.store c call (sound.calls c call known)
          (fun number' => TxnId.noConfusion)
      · intro c number' live
        change store.isLive _ = true at live
        rw [change.isLive_of_ne _ TxnId.noConfusion] at live
        exact sound.owned c number' live
  | start user coupon deadline limit => exact sound.start user coupon deadline limit
  | advance c call stage expires store next known trying asked =>
      exact sound.advance c call stage expires store next known trying asked
  | expire c call stage expires known trying =>
      exact sound.drop c call _ known (call.conclude_over s.now _)
  | wake c call wakes known resting =>
      refine sound.rest c call _ known (call.not_trying_of_resting wakes resting) ?_
      exact fun stage expires trying => (Phase.trying.inj trying).1.symm
  | cancel c call stage expires known trying =>
      exact sound.drop c call _ known (fun stage' expires' => Phase.noConfusion)
  | cancelPause c call wakes known resting =>
      exact sound.rest c call _ known (call.not_trying_of_resting wakes resting)
        (fun stage expires => Phase.noConfusion)
  | pass ms => exact ⟨sound.store, sound.calls, sound.owned⟩

/-- What a step may do to the store: a change by one transaction, the creation of a coupon, or the
setting of failures. -/
theorem Does.store {action : Action} (does : s.Does action s') (sound : s.Sound) :
    (∃ t, s.store.Change t s'.store) ∨
      (∃ name amount, action = .create name amount ∧
        s'.store = (s.store.create name amount).2) ∨
      ∃ count, s'.store = s.store.failCommits count := by
  cases does with
  | create name amount => exact Or.inr (Or.inl ⟨name, amount, rfl, rfl⟩)
  | failCommits count => exact Or.inr (Or.inr ⟨count, rfl⟩)
  | byHand action number store hand change => exact Or.inl ⟨_, change⟩
  | advance c call stage expires store next known trying asked =>
      obtain ⟨supports, move⟩ := sound.move known trying asked
      exact Or.inl ⟨_, move.change supports⟩
  | expire c call stage expires known trying => exact Or.inl ⟨txnOf c call, .closed⟩
  | cancel c call stage expires known trying => exact Or.inl ⟨txnOf c call, .closed⟩
  | start user coupon deadline limit => exact Or.inl ⟨.manual 0, .kept⟩
  | wake c call wakes known resting => exact Or.inl ⟨txnOf c call, .kept⟩
  | cancelPause c call wakes known resting => exact Or.inl ⟨txnOf c call, .kept⟩
  | pass ms => exact Or.inl ⟨.manual 0, .kept⟩

/-! ## Runs -/

/-- What every step keeps, every run keeps. -/
theorem run_keeps (holds : System → Prop) (allowed : Action → Prop)
    (kept : ∀ s s' action, allowed action → s.Does action s' → holds s → holds s')
    (actions : List Action) (all : ∀ action ∈ actions, allowed action)
    (runs : run actions s = some s') (first : holds s) : holds s' := by
  induction actions generalizing s with
  | nil =>
      rw [← Option.some.inj runs]
      exact first
  | cons action rest ih =>
      obtain ⟨next, step, runs⟩ := Option.bind_eq_some_iff.mp runs
      refine ih (fun other member => all other (List.mem_cons_of_mem _ member)) runs ?_
      exact kept s next action (all action List.mem_cons_self) (act_does action step) first

theorem run_sound (actions : List Action) (runs : run actions {} = some s) : s.Sound :=
  run_keeps Sound (fun _ => True) (fun _ _ _ _ does sound => does.sound sound) actions
    (fun _ _ => trivial) runs sound_empty

end System

end CouponDesk.Memory
