import CouponDesk.Proofs.Relational.Alone
import CouponDesk.Relational.Faults

/-!
# Datastores on which statements may fail

What those who work outside transactions rely on: a statement is carried out on the tables, or it
fails and changes nothing.  `Datastore.Ensures` says what a computation comes to under this rule
alone, whichever of its statements fail.
-/

set_option autoImplicit false

namespace CouponDesk.Relational

structure Datastore (σ : Type) where
  tables : σ → Tables
  send : (q : Statement) → StateM σ q.Reply
  faithful : ∀ q s,
    (∃ hitch : Hitch, (send q s).1 = .error hitch.fault ∧ tables (send q s).2 = tables s) ∨
      (send q s).1 = ((tables s).exec q).1 ∧ tables (send q s).2 = ((tables s).exec q).2
  /-- The states in which no transaction has written. -/
  calm : σ → Prop
  calm_send : ∀ q s, calm s → calm (send q s).2

/-! ## Pools, with faults and without -/

namespace Pool

/-- Nothing that stands in the way of a statement is an answer about the data. -/
theorem obstacle?_honest (p : Pool) (who : Option Nat) (q : Statement) (f : DatabaseFault)
    (stands : p.obstacle? who q = some f) : f ≠ .violation .unique := by
  unfold obstacle? unavailable? at stands
  rintro rfl
  split at stands
  · rename_i unavailable
    cases stands
    split_ifs at unavailable <;> cases unavailable
  · split_ifs at stands <;> cases stands

theorem send_none_faithful (p : Pool) (q : Statement) :
    (∃ hitch : Hitch, (p.send none q).1 = .error hitch.fault ∧
      (p.send none q).2.committed = p.committed) ∨
    (p.send none q).1 = (p.committed.exec q).1 ∧
      (p.send none q).2.committed = (p.committed.exec q).2 := by
  rw [p.send_none]
  cases stands : p.obstacle? none q with
  | some f => exact Or.inl ⟨⟨f, p.obstacle?_honest none q f stands⟩, rfl, rfl⟩
  | none =>
      refine Or.inr ⟨rfl, ?_⟩
      dsimp only
      split
      · rfl
      · rename_i reads
        rw [p.committed.exec_of_not_writes q (by simpa using reads)]

theorem writer_send_none (p : Pool) (q : Statement) : (p.send none q).2.writer = p.writer := by
  rw [p.send_none]
  split
  · rfl
  · dsimp only
    split <;> rfl

def datastore : Datastore Pool where
  tables := (·.committed)
  send := Pool.send none
  faithful := fun q p => p.send_none_faithful q
  calm := (·.writer = none)
  calm_send := fun q p free => (p.writer_send_none q).trans free

end Pool

namespace FaultyPool

def datastore : Datastore FaultyPool where
  tables := (·.pool.committed)
  send := send none
  faithful := by
    intro q s
    unfold send
    split
    · rename_i hitch rest _
      exact Or.inl ⟨hitch, rfl, rfl⟩
    · exact s.pool.send_none_faithful q
  calm := (·.pool.writer = none)
  calm_send := by
    intro q s free
    unfold send
    split
    · exact free
    · exact (s.pool.writer_send_none q).trans free

end FaultyPool

/-! ## Computations on a datastore -/

namespace Datastore

variable {σ α β : Type} (D : Datastore σ)

/-- What a computation comes to from any state with these tables: its value, and the tables
afterwards.  It opens no transaction. -/
def Ensures (x : StateM σ α) (t : Tables) (post : α → Tables → Prop) : Prop :=
  ∀ s, D.tables s = t → post (x s).1 (D.tables (x s).2) ∧ (D.calm s → D.calm (x s).2)

variable {t : Tables} {post post' : α → Tables → Prop}

theorem ensures_pure (value : α) (holds : post value t) : D.Ensures (pure value) t post := by
  rintro s rfl
  exact ⟨holds, id⟩

theorem ensures_bind {x : StateM σ α} {next : α → StateM σ β} {post : β → Tables → Prop}
    (first : D.Ensures x t fun value t' => D.Ensures (next value) t' post) :
    D.Ensures (x >>= next) t post := by
  intro s same
  obtain ⟨further, kept⟩ := first s same
  obtain ⟨last, keptOn⟩ := further (x s).2 rfl
  exact ⟨last, fun calm => keptOn (kept calm)⟩

theorem ensures_send (q : Statement) {post : q.Reply → Tables → Prop}
    (fails : ∀ hitch : Hitch, post (.error hitch.fault) t)
    (succeeds : post (t.exec q).1 (t.exec q).2) : D.Ensures (D.send q) t post := by
  rintro s rfl
  refine ⟨?_, D.calm_send q s⟩
  rcases D.faithful q s with ⟨hitch, reply, same⟩ | ⟨reply, after⟩
  · rw [reply, same]
    exact fails hitch
  · rw [reply, after]
    exact succeeds

/-- A statement and what follows its reply, which is known if it is carried out. -/
theorem ensures_ask {q : Statement} {next : q.Reply → StateM σ α} (reply : q.Reply) (t' : Tables)
    (carried : t.exec q = (reply, t'))
    (fails : ∀ hitch : Hitch, D.Ensures (next (.error hitch.fault)) t post)
    (succeeds : D.Ensures (next reply) t' post) : D.Ensures (D.send q >>= next) t post := by
  refine D.ensures_bind (D.ensures_send q fails ?_)
  rw [carried]
  exact succeeds

theorem Ensures.mono {D : Datastore σ} {x : StateM σ α} (ensures : D.Ensures x t post)
    (weaker : ∀ value t', post value t' → post' value t') : D.Ensures x t post' := by
  intro s same
  obtain ⟨holds, kept⟩ := ensures s same
  exact ⟨weaker _ _ holds, kept⟩

/-! ## Reading -/

/-- An answer, or a fault of the datastore. -/
def Answers (answer : α → Prop) : Except Error α → Prop
  | .ok value => answer value
  | .error e => ∃ f, e = .database f

variable (name : String)

theorem ensures_findCoupon :
    D.Ensures (Records.findCoupon D.send name) t fun reply t' =>
      t' = t ∧ Answers (· = t.coupon? name) reply := by
  refine D.ensures_ask _ _ rfl (fun hitch => ?_) ?_
  · exact D.ensures_pure _ ⟨rfl, hitch.fault, rfl⟩
  · exact D.ensures_pure _ ⟨rfl, rfl⟩

theorem ensures_get :
    D.Ensures (Records.get D.send name) t fun reply t' =>
      t' = t ∧ ((t.coupon? name).isSome → Answers (fun _ => True) reply) := by
  refine D.ensures_bind ((D.ensures_findCoupon name).mono ?_)
  rintro reply t' ⟨rfl, answers⟩
  refine D.ensures_pure _ ⟨rfl, fun known => ?_⟩
  cases reply with
  | error e => exact answers
  | ok row? =>
      cases answers
      obtain ⟨row, found⟩ := Option.isSome_iff_exists.mp known
      rw [found]
      trivial

theorem ensures_claimants :
    D.Ensures (Records.claimants D.send name) t fun reply t' =>
      t' = t ∧ Answers (fun _ => True) reply := by
  refine D.ensures_ask _ _ rfl (fun hitch => ?_) ?_
  · exact D.ensures_pure _ ⟨rfl, hitch.fault, rfl⟩
  · exact D.ensures_pure _ ⟨rfl, trivial⟩

/-- To read details changes nothing, and only a datastore fault hides those of an existing
coupon. -/
theorem ensures_details :
    D.Ensures (Records.details D.send name) t fun reply t' =>
      t' = t ∧ ((t.coupon? name).isSome → Answers (fun _ => True) reply) := by
  refine D.ensures_bind ((D.ensures_get name).mono ?_)
  rintro reply t' ⟨rfl, answers⟩
  cases reply with
  | error e => exact D.ensures_pure _ ⟨rfl, answers⟩
  | ok row =>
      refine D.ensures_bind ((D.ensures_claimants name).mono ?_)
      rintro reply t' ⟨rfl, answers⟩
      cases reply with
      | error e => exact D.ensures_pure _ ⟨rfl, fun _ => answers⟩
      | ok users => exact D.ensures_pure _ ⟨rfl, fun _ => trivial⟩

/-! ## Defining the tables -/

structure SameRows (t t' : Tables) : Prop where
  coupons : t'.coupons = t.coupons
  claims : t'.claims = t.claims

theorem sameRows_define (t : Tables) (object : SchemaObject) : SameRows t (t.define object) := by
  unfold Tables.define
  split <;> exact ⟨rfl, rfl⟩

theorem ensures_defineAll (objects : List SchemaObject) :
    D.Ensures (Records.defineAll D.send objects) t fun reply t' =>
      SameRows t t' ∧ Answers (fun _ => True) reply := by
  induction objects generalizing t with
  | nil => exact D.ensures_pure _ ⟨⟨rfl, rfl⟩, trivial⟩
  | cons object rest ih =>
      refine D.ensures_ask _ _ rfl (fun hitch => ?_) ?_
      · exact D.ensures_pure _ ⟨⟨rfl, rfl⟩, hitch.fault, rfl⟩
      · refine ih.mono ?_
        rintro reply t' ⟨same, answers⟩
        have first := sameRows_define t object
        exact ⟨⟨same.coupons.trans first.coupons, same.claims.trans first.claims⟩, answers⟩

end Datastore

end CouponDesk.Relational
