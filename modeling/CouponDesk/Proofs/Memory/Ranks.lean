import CouponDesk.Proofs.Memory.Locks

/-!
# Ids in order of commit

A claim gets its id when it is staged and becomes visible when it is committed.  Where a transaction
stages claims on coupons only while it holds their locks, nobody else can come between the two: the
claims on a coupon are committed in the order of their ids.  Calls do so in any case.
-/

set_option autoImplicit false

namespace CouponDesk.Memory

/-- The transaction that inserts a claim in a step, or tries to, and the coupon of the claim. -/
def Step.insert? (step : Step) : Option (TxnId × String) :=
  match step.action with
  | .insert number _ name => some (.manual number, name)
  | .advance c => do
      let call ← step.before.calls[c]?
      let .trying .inserting _ := call.phase | none
      return (System.txnOf c call, call.coupon)
  | _ => none

/-- If a claim is inserted in a step, it is under the lock of its coupon. -/
def Step.Locked (step : Step) : Prop :=
  match step.insert? with
  | some (t, name) => step.before.store.holds t name = true
  | none => True

instance (step : Step) : Decidable step.Locked := by
  unfold Step.Locked
  cases step.insert? <;> infer_instance

/-- The ids go up along the claims on a coupon, committed and staged, and every staged claim is
covered by the lock of its coupon. -/
structure Store.Ranked (s : Store) : Prop where
  locked : ∀ t, ∀ claim ∈ (s.txn t).staged, s.holds t claim.coupon = true
  staged : ∀ t, (s.txn t).staged.Pairwise (·.id < ·.id)
  later : ∀ t, ∀ claim ∈ (s.txn t).staged, ∀ old ∈ s.claims, old.coupon = claim.coupon →
    old.id < claim.id
  committed : ∀ name, (s.claimsOn name).Pairwise (·.id < ·.id)

namespace Store

variable {s s' : Store} {t : TxnId}

/-! ## Ids -/

theorem ranked_empty : Ranked {} where
  locked := by simp [txn_empty]
  staged := by simp [txn_empty]
  later := by simp [txn_empty]
  committed := by simp [claimsOn]

theorem Ranked.congr (ranked : s.Ranked) (live : s'.live = s.live) (line : s'.line = s.line)
    (claims : s'.claims = s.claims) : s'.Ranked where
  locked := by
    unfold txn holds holder?
    rw [live, line]
    exact ranked.locked
  staged := by
    unfold txn
    rw [live]
    exact ranked.staged
  later := by
    unfold txn
    rw [live, claims]
    exact ranked.later
  committed := by
    unfold claimsOn
    rw [claims]
    exact ranked.committed

/-- A claim drawn under the lock of its coupon has the highest id of all. -/
theorem Ranked.draw (ranked : s.Ranked) (sound : s.Sound) (user name : String)
    (live : s.isLive t = true) (holds : s.holds t name = true) : (s.draw t user name).Ranked := by
  have others : ∀ u, u ≠ t → (s.draw t user name).txn u = s.txn u :=
    fun u apart => txn_putTxn_of_ne s t u _ apart
  have own := txn_draw t user name live
  refine ⟨?_, ?_, ?_, ranked.committed⟩
  · intro u claim member
    change s.holds u claim.coupon = true
    by_cases same : u = t
    · subst same
      rw [own] at member
      rcases List.mem_append.mp member with old | new
      · exact ranked.locked u claim old
      · rw [List.mem_singleton.mp new]
        exact holds
    · rw [others u same] at member
      exact ranked.locked u claim member
  · intro u
    by_cases same : u = t
    · subst same
      rw [own, List.pairwise_append]
      refine ⟨ranked.staged u, List.pairwise_singleton _ _, ?_⟩
      intro claim old _ new
      have bound := sound.ids.stagedBound u claim old
      rw [List.mem_singleton.mp new]
      dsimp only
      omega
    · rw [others u same]
      exact ranked.staged u
  · intro u claim member old committed coupon
    change old ∈ s.claims at committed
    by_cases same : u = t
    · subst same
      rw [own] at member
      rcases List.mem_append.mp member with before | new
      · exact ranked.later u claim before old committed coupon
      · have bound := sound.ids.bound old committed
        rw [List.mem_singleton.mp new]
        dsimp only
        omega
    · rw [others u same] at member
      exact ranked.later u claim member old committed coupon

/-- What is staged after a change that draws no id was staged before, under the same lock. -/
theorem Change.staged_before (change : s.Change t s') (same : s'.lastId = s.lastId) (u : TxnId) :
    (s'.txn u).staged = (s.txn u).staged ∨ (s'.txn u).staged = [] := by
  rcases change.staged_cases u with kept | none_ | ⟨user, name, row, -, -, -, -, drawn, -⟩
  · exact Or.inl kept
  · exact Or.inr none_
  · rw [drawn] at same
    exact absurd same (Nat.succ_ne_self _)

/-- Without a new id only a commit can disturb the order, and the lock keeps it from doing so: the
other transactions have staged nothing on the same coupons. -/
theorem Change.ranked (change : s.Change t s') (ranked : s.Ranked)
    (same : s'.lastId = s.lastId) : s'.Ranked := by
  have before : ∀ u, ∀ claim ∈ (s'.txn u).staged, claim ∈ (s.txn u).staged := by
    intro u claim member
    rcases change.staged_before same u with kept | none_
    · rwa [kept] at member
    · rw [none_] at member
      cases member
  constructor
  · intro u claim member
    refine change.keeps_lock u claim.coupon (Or.inr ?_) (ranked.locked u claim (before u claim member))
    cases live : s'.isLive u with
    | true => rfl
    | false =>
        rw [txn_of_not_live s' u live] at member
        cases member
  · intro u
    rcases change.staged_before same u with kept | none_
    · rw [kept]
      exact ranked.staged u
    · rw [none_]
      exact List.Pairwise.nil
  · intro u claim member old committed coupon
    have staged := before u claim member
    rcases change.tables with ⟨-, claims, -⟩ | ⟨-, -, rfl⟩
    · rw [claims] at committed
      exact ranked.later u claim staged old committed coupon
    · rcases List.mem_append.mp committed with earlier | new
      · exact ranked.later u claim staged old earlier coupon
      · have holds := ranked.locked t old new
        rw [coupon] at holds
        obtain rfl := holder_unique s u t claim.coupon (ranked.locked u claim staged) holds
        have gone : (((s.close u).apply (s.txn u)).txn u).staged = [] :=
          congrArg Txn.staged (txn_close_self s u)
        rw [gone] at member
        cases member
  · intro name
    rcases change.tables with ⟨-, claims, -⟩ | ⟨-, -, rfl⟩
    · unfold claimsOn
      rw [claims]
      exact ranked.committed name
    · change ((s.claims ++ (s.txn t).staged).filter (·.coupon = name)).Pairwise _
      rw [List.filter_append, List.pairwise_append]
      refine ⟨ranked.committed name, (ranked.staged t).filter _, ?_⟩
      intro old committed claim staged
      obtain ⟨oldMember, oldNamed⟩ := List.mem_filter.mp committed
      obtain ⟨member, named⟩ := List.mem_filter.mp staged
      exact ranked.later t claim member old oldMember
        ((of_decide_eq_true oldNamed).trans (of_decide_eq_true named).symm)

theorem insert_cases (s : Store) (t : TxnId) (user name : String) :
    (s.insert t user name).2 = s ∨ (s.insert t user name).2 = s.draw t user name := by
  unfold insert
  split
  · exact Or.inl rfl
  · dsimp only
    split
    · exact Or.inl rfl
    · exact Or.inr rfl

end Store

theorem Move.draws_or_keeps {s store : Store} {t : TxnId} {user coupon : String}
    {stage next : Stage} (move : Move user coupon t s stage store next) :
    store.lastId = s.lastId ∨ stage = .inserting ∧ store = s.draw t user coupon := by
  have joined : (s.join t coupon).lastId = s.lastId := by
    unfold Store.join
    split <;> rfl
  cases move with
  | queues row found taken => exact Or.inl joined
  | soldOut row found empty holds => exact Or.inl joined
  | secures row found stock holds => exact Or.inl joined
  | draws unclaimed => exact Or.inr ⟨rfl, rfl⟩
  | _ => exact Or.inl rfl

namespace System

variable {s s' : System}

/-- A call inserts its claim only under the lock. -/
theorem Does.locked_of_call {action : Action} (does : s.Does action s') (sound : s.Sound)
    (byCall : action.hand? = none) : Step.Locked ⟨s, action, s'⟩ := by
  unfold Step.Locked
  cases does with
  | byHand action number store hand change =>
      rw [byCall] at hand
      cases hand
  | advance c call stage expires store next known trying asked =>
      obtain ⟨supports, -⟩ := sound.move known trying asked
      cases stage with
      | inserting => simpa [Step.insert?, known, trying] using supports.2.2.holds
      | _ => simp [Step.insert?, known, trying]
  | _ => exact trivial

theorem run_locked (actions : List Action) (runs : run actions {} = some s) :
    ∀ step ∈ trace actions {}, step.action.hand? = none → step.Locked := by
  have both : s.Sound ∧ ∀ step ∈ [] ++ trace actions {}, step.action.hand? = none → step.Locked := by
    refine trace_keeps
      (fun history s => s.Sound ∧ ∀ step ∈ history, step.action.hand? = none → step.Locked)
      (fun _ => True) ?_ actions (fun _ _ => trivial) [] ⟨sound_empty, by simp⟩ runs
    rintro history s s' action - does ⟨sound, locked⟩
    refine ⟨does.sound sound, ?_⟩
    intro step member
    rcases List.mem_append.mp member with old | new
    · exact locked step old
    · rw [List.mem_singleton.mp new]
      exact does.locked_of_call sound
  exact both.2

/-- Of the actions of a hand-driven transaction only `insert` draws an id. -/
theorem hand_lastId (number : Nat) (action : Action) (hand : action.hand? = some number)
    (other : ∀ user name, action ≠ .insert number user name) (step : s.act action = some s') :
    s'.store.lastId = s.store.lastId := by
  cases action <;> simp only [Action.hand?, Option.some.injEq, reduceCtorEq] at hand <;>
    subst hand <;> simp only [act] at step
  case begin =>
    unfold begin at step
    split at step
    · cases step
    · cases step
      rfl
  all_goals obtain ⟨-, rfl⟩ := withTxn_eq_some _ _ step
  case lock name =>
    cases found : s.store.coupon? name with
    | none => simp [Store.lock_missing _ _ name found]
    | some row =>
        simp only [Store.lock_found _ _ name row found]
        unfold Store.join
        split <;> rfl
  case leave name =>
    unfold Store.leave
    split <;> rfl
  case insert user name => exact absurd rfl (other user name)
  case decrement name =>
    dsimp only
    unfold Store.decrement
    split
    · rfl
    · split
      · rfl
      · dsimp only
        split <;> rfl
  case commit =>
    dsimp only
    unfold Store.commit
    dsimp only
    split
    · rfl
    · split <;> rfl
  case rollback => rfl

theorem act_ranked (sound : s.Sound) (action : Action) (step : s.act action = some s')
    (locked : Step.Locked ⟨s, action, s'⟩) (ranked : s.store.Ranked) : s'.store.Ranked := by
  have closed : ∀ t, (s.store.close t).Ranked := fun t => Store.Change.closed.ranked ranked rfl
  cases act_does action step with
  | create name amount =>
      rcases Store.create_cases s.store name amount with kept | ⟨-, -, added⟩
      · rw [kept]
        exact ranked
      · rw [added]
        exact ranked.congr rfl rfl rfl
  | failCommits count => exact ranked.congr rfl rfl rfl
  | byHand _ number store hand change =>
      by_cases inserts : ∃ user name, action = .insert number user name
      · obtain ⟨user, name, rfl⟩ := inserts
        have holds : s.store.holds (.manual number) name = true := locked
        simp only [act] at step
        obtain ⟨live, same⟩ := withTxn_eq_some number _ step
        rw [same]
        dsimp only
        rcases s.store.insert_cases (.manual number) user name with kept | drawn
        · rw [kept]
          exact ranked
        · rw [drawn]
          exact ranked.draw sound.store user name live holds
      · refine change.ranked ranked (hand_lastId number action hand ?_ step)
        exact fun user name same => inserts ⟨user, name, same⟩
  | advance c call stage expires store next known trying asked =>
      obtain ⟨supports, move⟩ := sound.move known trying asked
      rcases move.draws_or_keeps with same | ⟨rfl, rfl⟩
      · exact (move.change supports).ranked ranked same
      · exact ranked.draw sound.store call.user call.coupon supports.1 supports.2.2.holds
  | expire c call stage expires known trying => exact closed _
  | cancel c call stage expires known trying => exact closed _
  | start user coupon deadline limit => exact ranked
  | wake c call wakes known resting => exact ranked
  | cancelPause c call wakes known resting => exact ranked
  | pass ms => exact ranked

end System

end CouponDesk.Memory
