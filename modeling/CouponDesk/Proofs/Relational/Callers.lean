import CouponDesk.Proofs.Relational.Checks

/-!
# Callers and constraints

However callers use the operations of the store, with locks or without, once or again and again,
and wherever statements fail or callers are dropped: the tables keep their constraints, the
committed ones and those inside every transaction, and no check on stock has any part in it.
-/

set_option autoImplicit false

namespace CouponDesk.Relational

def receiveUnchecked : Reception := Pool.sendBy Tables.unchecked

def receiveEnforcing : Reception := Pool.sendBy Tables.enforcing

namespace Callers

variable {d : Dialect} {s s' : Callers}

structure Guarded (s : Callers) : Prop where
  sound : s.pool.All Tables.Sound
  rooted : s.pool.Rooted
  modest : ∀ caller ∈ s.all, caller.Modest

theorem Guarded.put (guarded : s.Guarded) (c : Nat) (caller : Caller) (pool : Pool)
    (modest : caller.Modest) (sound : pool.All Tables.Sound) (rooted : pool.Rooted) :
    (s.put c caller pool).Guarded where
  sound := sound
  rooted := rooted
  modest := by
    intro other member
    rcases List.mem_or_eq_of_mem_set member with old | rfl
    · exact guarded.modest other old
    · exact modest

theorem Guarded.add (guarded : s.Guarded) (caller : Caller) (modest : caller.Modest) :
    (s.add caller).Guarded where
  sound := guarded.sound
  rooted := guarded.rooted
  modest := by
    intro other member
    rcases List.mem_append.mp member with old | new
    · exact guarded.modest other old
    · rw [List.mem_singleton.mp new]
      exact modest

theorem Guarded.caller (guarded : s.Guarded) (c : Nat) (caller : Caller)
    (known : s.all[c]? = some caller) : caller.Modest :=
  guarded.modest caller (List.mem_of_getElem? known)

/-- A way of receiving statements that keeps the tables sound and what is recorded in them, as long
as the statements are guarded. -/
def Careful (how : Reception) : Prop :=
  ∀ who (q : Statement) (p : Pool), q.Modest → p.All Tables.Sound → p.Rooted →
    (how who q p).2.All Tables.Sound ∧ (how who q p).2.Rooted ∧
      p.committed.Grows (how who q p).2.committed

theorem careful_unchecked : Careful receiveUnchecked := by
  intro who q p modest sound rooted
  have same : receiveUnchecked who q p = p.send who q := by
    rw [← Pool.sendBy_exec]
    exact Pool.sendBy_congr (Tables.exec_eq_unchecked _ modest).symm
  rw [same]
  exact ⟨(p.send_sent who q).all sound fun t sound => sound.exec q, rooted.send who q⟩

theorem careful_failing (f : DatabaseFault) : Careful (failing f) :=
  fun _ _ p _ sound rooted => ⟨sound, rooted, .refl p.committed⟩

theorem leave_cases (caller : Caller) (c : Nat) (pool : Pool) :
    caller.leave c pool = pool ∨ caller.leave c pool = pool.dropTxn c := by
  cases caller with
  | gone => exact Or.inr rfl
  | _ => exact Or.inl rfl

theorem Guarded.receive (guarded : s.Guarded) (c : Nat) {how : Reception} (careful : Careful how)
    (step : s.receive c how = some s') :
    s'.Guarded ∧ s.pool.committed.Grows s'.pool.committed := by
  unfold Callers.receive at step
  split at step
  · rename_i q resume known
    cases step
    obtain ⟨modest, later⟩ := guarded.caller c _ known
    obtain ⟨sound, rooted, grows⟩ := careful none q s.pool modest guarded.sound guarded.rooted
    exact ⟨guarded.put c _ _ (later _) sound rooted, grows⟩
  · rename_i q resume known
    cases step
    obtain ⟨modest, later⟩ := guarded.caller c _ known
    obtain ⟨sound, rooted, grows⟩ := careful (some c) q s.pool modest guarded.sound guarded.rooted
    have stands := modest_proceed _ (later (how (some c) q s.pool).1)
    rcases leave_cases (.proceed (resume (how (some c) q s.pool).1)) c (how (some c) q s.pool).2
      with stays | leaves
    · rw [stays]
      exact ⟨guarded.put c _ _ stands sound rooted, grows⟩
    · rw [leaves]
      exact ⟨guarded.put c _ _ stands (sound.dropTxn c) (rooted.dropTxn c), grows⟩
  · cases step

theorem Guarded.act (guarded : s.Guarded) (event : Event)
    (step : s.act d receiveUnchecked event = some s') :
    s'.Guarded ∧ s.pool.committed.Grows s'.pool.committed := by
  cases event with
  | operate op now =>
      cases step
      exact ⟨guarded.add _ (only_operation d now op), .refl _⟩
  | begin =>
      cases step
      exact ⟨guarded.add _ (modest_request d 0 .begin), .refl _⟩
  | ask c r now =>
      simp only [Callers.act, ask] at step
      split at step
      · split at step
        · cases step
        · cases step
          exact ⟨guarded.put c _ _ (modest_request d now r) guarded.sound guarded.rooted, .refl _⟩
      · cases step
  | claim user coupon now =>
      cases step
      exact ⟨guarded.add _ (modest_attempt d now user coupon), .refl _⟩
  | send c => exact guarded.receive c careful_unchecked step
  | fail c f => exact guarded.receive c (careful_failing f) step
  | drop c =>
      simp only [Callers.act, drop] at step
      split at step
      · cases step
      · cases step
      · cases step
        exact ⟨guarded.put c _ _ trivial guarded.sound guarded.rooted, .refl _⟩
      · cases step
        exact ⟨guarded.put c _ _ trivial (guarded.sound.dropTxn c) (guarded.rooted.dropTxn c),
          .refl _⟩
      · cases step
        exact ⟨guarded.put c _ _ trivial (guarded.sound.dropTxn c) (guarded.rooted.dropTxn c),
          .refl _⟩

theorem Guarded.run (guarded : s.Guarded) (events : List Event)
    (runs : run d receiveUnchecked events s = some s') :
    s'.Guarded ∧ s.pool.committed.Grows s'.pool.committed := by
  induction events generalizing s with
  | nil =>
      cases runs
      exact ⟨guarded, .refl _⟩
  | cons event rest ih =>
      obtain ⟨next, step, runs⟩ := Option.bind_eq_some_iff.mp runs
      obtain ⟨between, grows⟩ := guarded.act event step
      obtain ⟨last, further⟩ := ih between runs
      exact ⟨last, grows.trans further⟩

/-! ## With and without checks -/

/-- A way of receiving statements in which guarded statements fare as they do without checks. -/
def Uncheckable (how : Reception) : Prop :=
  ∀ who (q : Statement) (p : Pool), q.Modest → p.All Tables.Sound →
    how who q p = receiveUnchecked who q p

theorem uncheckable_send : Uncheckable Pool.send := by
  intro who q p modest sound
  rw [← Pool.sendBy_exec]
  exact Pool.sendBy_congr (Tables.exec_eq_unchecked _ modest)

theorem uncheckable_enforcing : Uncheckable receiveEnforcing :=
  fun who _ _ modest sound => Pool.sendBy_congr ((sound.seen who).enforcing_eq modest)

theorem Guarded.receive_eq (guarded : s.Guarded) (c : Nat) {how : Reception}
    (uncheckable : Uncheckable how) : s.receive c how = s.receive c receiveUnchecked := by
  unfold Callers.receive
  split
  · rename_i q resume known
    rw [uncheckable none q s.pool (guarded.caller c _ known).1 guarded.sound]
  · rename_i q resume known
    rw [uncheckable (some c) q s.pool (guarded.caller c _ known).1 guarded.sound]
  · rfl

theorem Guarded.run_eq (guarded : s.Guarded) {how : Reception} (uncheckable : Uncheckable how)
    (events : List Event) : Callers.run d how events s = Callers.run d receiveUnchecked events s := by
  induction events generalizing s with
  | nil => rfl
  | cons event rest ih =>
      have same : s.act d how event = s.act d receiveUnchecked event := by
        cases event with
        | send c => exact guarded.receive_eq c uncheckable
        | _ => rfl
      simp only [Callers.run, same, Option.bind_eq_bind]
      cases step : s.act d receiveUnchecked event with
      | none => rfl
      | some next => exact ih (guarded.act event step).1

/-! ## All together -/

/-- The constraints on the tables, and what the next statement of each caller has to do with
them. -/
structure Constrained (s : Callers) : Prop where
  committed : s.pool.committed.Sound
  /-- Inside every transaction, too, and no total differs from the committed one. -/
  seen : ∀ c, (s.pool.seen (some c)).Sound ∧ s.pool.committed.Grows (s.pool.seen (some c))
  obeys : ∀ (c : Nat) (caller : Caller) (own : Bool) (q : Statement), s.all[c]? = some caller →
    caller.next? = some (own, q) → (s.pool.seen (if own then some c else none)).Obeys q

theorem Guarded.constrained (guarded : s.Guarded) : s.Constrained where
  committed := guarded.sound.committed
  seen := fun c => ⟨guarded.sound.seen (some c), guarded.rooted.seen (some c)⟩
  obeys := by
    intro c caller own q known next
    have modest := Caller.Modest.next (guarded.caller c caller known) own q next
    exact (guarded.sound.seen _).obeys modest

/-- From any sound tables, on any kind of datastore, without checks: in every state that callers can
bring about the constraints hold in the committed tables and inside the transactions, and nothing
that is committed is taken back or gets another total.  A datastore with checks, be they made at
inserts or at all writes, goes the same way. -/
theorem run_keepsConstraints (d : Dialect) (start : Pool) (sound : start.committed.Sound)
    (free : start.writer = none) :
    (∀ events, run d Pool.send events { pool := start } =
        run d receiveUnchecked events { pool := start } ∧
      run d receiveEnforcing events { pool := start } =
        run d receiveUnchecked events { pool := start }) ∧
    ∀ before after s s', run d receiveUnchecked before { pool := start } = some s →
      run d receiveUnchecked after s = some s' →
        s'.Constrained ∧ s.pool.committed.Grows s'.pool.committed := by
  have unwritten : ∀ c w, start.writer = some (c, w) → w.Sound := by
    intro c w written
    rw [free] at written
    cases written
  have guarded : Guarded { pool := start } :=
    ⟨⟨sound, unwritten⟩, Pool.rooted_of_unwritten free, by simp⟩
  refine ⟨fun events => ⟨guarded.run_eq uncheckable_send events,
    guarded.run_eq uncheckable_enforcing events⟩, ?_⟩
  intro before after s s' reached runs
  obtain ⟨between, -⟩ := guarded.run before reached
  obtain ⟨last, grows⟩ := between.run after runs
  exact ⟨last.constrained, grows⟩

def soloPool : Pool := { committed := { coupons := [.fresh "SOLO" 1] }, size := 3 }

/-- Units are taken without a lock, and one more than there are; a claim is inserted twice; a coupon
is created with a negative amount, and in vain while the transaction has the write lock. -/
def misuse : List Event :=
  [.begin, .send 0, .ask 0 (.decrement "SOLO") 0, .send 0, .send 0, .ask 0 (.decrement "SOLO") 0,
    .send 0, .send 0, .ask 0 (.insert "first" "SOLO") 5, .send 0, .send 0,
    .ask 0 (.insert "first" "SOLO") 6, .send 0, .operate (.create "DUO" (-1)) 0,
    .operate (.create "DUO" 2) 0, .send 2, .ask 0 .commit 0, .send 0]

/-- An attempt finds nothing left, a claim without a unit is dropped, and of two creations one
fails. -/
def sequel : List Event :=
  [.claim "second" "SOLO" 7, .send 3, .send 3, .send 3, .send 3, .begin, .send 4,
    .ask 4 (.insert "third" "SOLO") 8, .send 4, .operate (.create "DUO" 2) 0, .fail 5 .poolTimedOut,
    .drop 4, .operate (.create "DUO" 2) 0, .send 6]

theorem run_keepsConstraints_misuse :
    soloPool.committed.Sound ∧ soloPool.writer = none ∧ ∃ s s',
      run .sqlite receiveUnchecked misuse { pool := soloPool } = some s ∧
      run .sqlite receiveUnchecked sequel s = some s' ∧
      s'.Constrained ∧ s.pool.committed.Grows s'.pool.committed ∧
      s'.pool.committed.coupons = [⟨"SOLO", 1, 0⟩, ⟨"DUO", 2, 2⟩] ∧
      s'.pool.committed.claims = [⟨1, "first", "SOLO", 5⟩] := by
  have sound : soloPool.committed.Sound := by
    constructor <;> simp [soloPool, Coupon.fresh]
  have reaches : ((run .sqlite receiveUnchecked misuse { pool := soloPool }).bind
      (run .sqlite receiveUnchecked sequel)).map
        (fun s => (s.pool.committed.coupons, s.pool.committed.claims)) =
      some ([⟨"SOLO", 1, 0⟩, ⟨"DUO", 2, 2⟩], [⟨1, "first", "SOLO", 5⟩]) := by
    decide +kernel
  obtain ⟨s', reached, tables⟩ := Option.map_eq_some_iff.mp reaches
  obtain ⟨s, first, second⟩ := Option.bind_eq_some_iff.mp reached
  obtain ⟨constrained, grows⟩ :=
    (run_keepsConstraints .sqlite soloPool sound rfl).2 misuse sequel s s' first second
  exact ⟨sound, rfl, s, s', first, second, constrained, grows, (Prod.mk.inj tables).1,
    (Prod.mk.inj tables).2⟩

end Callers

end CouponDesk.Relational
