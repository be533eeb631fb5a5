import CouponDesk.Relational.Records

/-!
# Answers that decide an attempt

A datastore about which nothing is known: any statement may be answered with any rows, any number of
changed rows or any fault.  Some answers decide an attempt at a claim, each for one error.  The
others decide nothing, and the attempt goes on.
-/

set_option autoImplicit false

namespace CouponDesk.Relational

structure Served where
  statement : Statement
  reply : statement.Reply

/-- Any datastore: how it replies to a statement may depend on all that it was sent before. -/
abbrev Server := List Served → (q : Statement) → q.Reply

namespace Server

def send (store : Server) (q : Statement) : StateM (List Served) q.Reply := fun log =>
  (store log q, log ++ [⟨q, store log q⟩])

def attempt (store : Server) (d : Dialect) (now : Int) (user coupon : String) :
    Except Error Claim × List Served :=
  CouponDesk.attempt (Records.perform d store.send now) user coupon []

def Answers (store : Server) (log : List Served) : Prop :=
  ∀ before x after, log = before ++ x :: after → x.reply = store before x.statement

end Server

/-! ## Answers that decide an attempt -/

namespace Served

/-- What went wrong with a statement: a fault of the datastore, or an insert whose row is not
there. -/
def fault? : Served → Option DatabaseFault
  | ⟨_, .error f⟩ => some f
  | ⟨.addClaim _ _ _, .ok effect⟩ =>
      if Effect.affected effect = 0 then some .nothingInserted
      else if Nat.pow 2 63 ≤ Effect.lastId effect then some .insertIdUnreadable
      else none
  | ⟨.addClaimReturning _ _ _, .ok none⟩ | ⟨.findClaim _, .ok none⟩ =>
      some Records.insertedMissing
  | _ => none

/-- Whether a statement inserts the claim, or reads the inserted row back. -/
def inserts (x : Served) : Bool :=
  match x.statement with
  | .addClaim _ _ _ | .addClaimReturning _ _ _ | .findClaim _ => true
  | _ => false

def affected? : Served → Option Nat
  | ⟨.takeUnit _, .ok effect⟩ => some (Effect.affected effect)
  | _ => none

end Served

/-- The number of rows that the guarded update changed, if it has been carried out. -/
def affected? (log : List Served) : Option Nat := log.findSome? Served.affected?

/-- The answers that decide an attempt, each with the error that it makes; `affected` is what is
known of the guarded update by then. -/
inductive Decides (user coupon : String) (affected : Option Nat) : Served → Error → Prop
  | unknown (name : String) (locking : Bool) (locked : affected = none) :
      Decides user coupon affected ⟨.findCoupon name locking, .ok none⟩ (.couponNotFound coupon)
  | soldOut (name : String) (locking : Bool) (row : Coupon) (locked : affected = none)
      (empty : row.remaining ≤ 0) :
      Decides user coupon affected ⟨.findCoupon name locking, .ok (some row)⟩ (.noStock coupon)
  | unreferenced (x : Served) (inserts : x.inserts = true)
      (fault : x.fault? = some (.violation .foreignKey)) :
      Decides user coupon affected x (.couponNotFound coupon)
  /-- The user holds a claim already. -/
  | repeated (x : Served) (inserts : x.inserts = true)
      (fault : x.fault? = some (.violation .unique)) :
      Decides user coupon affected x (.alreadyClaimed user coupon)
  /-- The row is gone after the guarded update, whatever that has changed. -/
  | vanished (name : String) (locking : Bool) (count : Nat) (updated : affected = some count) :
      Decides user coupon affected ⟨.findCoupon name locking, .ok none⟩ (.couponNotFound coupon)
  /-- The guarded update found no unit, but the row is there. -/
  | exhausted (name : String) (locking : Bool) (row : Coupon) (updated : affected = some 0) :
      Decides user coupon affected ⟨.findCoupon name locking, .ok (some row)⟩ (.noStock coupon)
  /-- Anything else went wrong, with any statement but the rollback. -/
  | failed (x : Served) (f : DatabaseFault) (fault : x.fault? = some f)
      (counts : x.statement ≠ .rollback)
      (other : x.inserts = true → f ≠ .violation .unique ∧ f ≠ .violation .foreignKey) :
      Decides user coupon affected x (.database f)

def Undecided (user coupon : String) (log : List Served) : Prop :=
  ∀ before x after, log = before ++ x :: after → ∀ e, ¬ Decides user coupon (affected? before) x e

def DecidedFor (user coupon : String) (log : List Served) (e : Error) : Prop :=
  ∃ before x after, log = before ++ x :: after ∧ Decides user coupon (affected? before) x e

/-! ## Lists of statements -/

section

variable {d : Dialect} {now : Int} {user coupon : String} {store : Server} {log : List Served}

/-- Where a list with one more entry is split, the entry is the new one or one of the old. -/
theorem split_snoc {α : Type} {log before after : List α} {last x : α}
    (split : log ++ [last] = before ++ x :: after) :
    (before = log ∧ x = last ∧ after = []) ∨
      ∃ rest, after = rest ++ [last] ∧ log = before ++ x :: rest := by
  rcases List.eq_nil_or_concat after with rfl | ⟨rest, other, rfl⟩
  · obtain ⟨rfl, same⟩ := List.append_inj' split rfl
    exact Or.inl ⟨rfl, (List.singleton_inj.mp same).symm, rfl⟩
  · rw [List.concat_eq_append, ← List.cons_append, ← List.append_assoc] at split
    obtain ⟨earlier, same⟩ := List.append_inj' split rfl
    rw [List.concat_eq_append, List.singleton_inj.mp same]
    exact Or.inr ⟨rest, rfl, earlier⟩

theorem Server.Answers.snoc (answers : store.Answers log) (q : Statement) :
    store.Answers (log ++ [⟨q, store log q⟩]) := by
  intro before x after split
  rcases split_snoc split with ⟨rfl, rfl, -⟩ | ⟨rest, -, earlier⟩
  · rfl
  · exact answers before x rest earlier

theorem affected?_snoc (log : List Served) (x : Served) :
    affected? (log ++ [x]) = (affected? log).or x.affected? := by
  simp [affected?, List.findSome?_append]

theorem Undecided.snoc (undecided : Undecided user coupon log) (x : Served)
    (free : ∀ e, ¬ Decides user coupon (affected? log) x e) :
    Undecided user coupon (log ++ [x]) := by
  intro before y after split
  rcases split_snoc split with ⟨rfl, rfl, -⟩ | ⟨rest, -, earlier⟩
  · exact free
  · exact undecided before y rest earlier

theorem Undecided.nil : Undecided user coupon [] := by
  intro before x after split
  simp at split

theorem Decides.unique {affected : Option Nat} {x : Served} {e e' : Error}
    (first : Decides user coupon affected x e) (second : Decides user coupon affected x e') :
    e = e' := by
  cases first <;> cases second <;> simp_all [Served.fault?, Served.inserts]

/-- An answer without a fault decides nothing, unless it is that to a lookup. -/
theorem Served.not_decides {affected : Option Nat} {x : Served} (fine : x.fault? = none)
    (other : ∀ name locking, x.statement ≠ .findCoupon name locking) (e : Error) :
    ¬ Decides user coupon affected x e := by
  intro decides
  cases decides with
  | unreferenced _ inserts fault => simp [fine] at fault
  | repeated _ inserts fault => simp [fine] at fault
  | failed _ f fault counts => simp [fine] at fault
  | unknown name locking | soldOut name locking | vanished name locking | exhausted name locking =>
      exact other name locking rfl

theorem Decides.counts {affected : Option Nat} {x : Served} {e : Error}
    (decides : Decides user coupon affected x e) : x.statement ≠ .rollback := by
  cases decides with
  | failed _ f fault counts other => exact counts
  | unreferenced _ inserts fault =>
      intro same
      simp [Served.inserts, same] at inserts
  | repeated _ inserts fault =>
      intro same
      simp [Served.inserts, same] at inserts
  | _ => exact Statement.noConfusion

end

/-! ## From statement to statement -/

namespace Server

variable {α β : Type} (store : Server) {log : List Served}

/-- What a computation comes to after these statements: those that it adds, and its value. -/
def Ensures (x : StateM (List Served) α) (log : List Served) (post : List Served → α → Prop) :
    Prop :=
  store.Answers log → store.Answers (x log).2 ∧ post (x log).2 (x log).1

variable {post post' : List Served → α → Prop}

theorem ensures_pure (value : α) (holds : post log value) : store.Ensures (pure value) log post :=
  fun answers => ⟨answers, holds⟩

theorem ensures_bind {x : StateM (List Served) α} {next : α → StateM (List Served) β}
    {post : List Served → β → Prop}
    (first : store.Ensures x log fun log' value => store.Ensures (next value) log' post) :
    store.Ensures (x >>= next) log post := by
  intro answers
  obtain ⟨answered, rest⟩ := first answers
  exact rest answered

theorem ensures_send (q : Statement) {post : List Served → q.Reply → Prop}
    (holds : ∀ reply, post (log ++ [⟨q, reply⟩]) reply) : store.Ensures (store.send q) log post :=
  fun answers => ⟨answers.snoc q, holds (store log q)⟩

variable {store} in
theorem Ensures.mono {x : StateM (List Served) α} (ensures : store.Ensures x log post)
    (weaker : ∀ log' value, post log' value → post' log' value) : store.Ensures x log post' := by
  intro answers
  obtain ⟨answered, holds⟩ := ensures answers
  exact ⟨answered, weaker _ _ holds⟩

end Server

section

variable {user coupon : String} {log : List Served}

theorem Undecided.not_decided (undecided : Undecided user coupon log) (e : Error) :
    ¬ DecidedFor user coupon log e := by
  rintro ⟨before, x, after, split, decides⟩
  exact undecided before x after split e decides

/-- In a list of statements at most one decides, if only rollbacks follow it. -/
theorem decided_unique {before before' after after' : List Served} {x y : Served} {e e' : Error}
    (undecided : Undecided user coupon before)
    (decides : Decides user coupon (affected? before) x e)
    (rest : ∀ z ∈ after, z.statement = .rollback)
    (same : before ++ x :: after = before' ++ y :: after')
    (decides' : Decides user coupon (affected? before') y e') :
    before' = before ∧ y = x ∧ after' = after ∧ e' = e := by
  rcases List.append_eq_append_iff.mp same with ⟨between, rfl, tail⟩ | ⟨between, rfl, tail⟩
  · cases between with
    | nil =>
        obtain ⟨rfl, rfl⟩ := List.cons.inj tail
        rw [List.append_nil] at decides'
        exact ⟨List.append_nil before, rfl, rfl, decides'.unique decides⟩
    | cons z more =>
        obtain ⟨rfl, rfl⟩ := List.cons.inj tail
        exact absurd (rest y (by simp)) decides'.counts
  · cases between with
    | nil =>
        obtain ⟨rfl, rfl⟩ := List.cons.inj tail
        rw [List.append_nil] at decides
        exact ⟨(List.append_nil before').symm, rfl, rfl, decides'.unique decides⟩
    | cons z more =>
        obtain ⟨rfl, rfl⟩ := List.cons.inj tail
        exact absurd decides' (undecided before' y more rfl e')

/-- The error of an attempt is known from its outcome, but for the fault of a statement. -/
theorem DecidedFor.eq_of_outcome {e : Error} {o : Outcome} (decided : DecidedFor user coupon log e)
    (same : Outcome.ofError e = o) :
    match o with
    | .success => False
    | .couponNotFound => e = .couponNotFound coupon
    | .noStock => e = .noStock coupon
    | .alreadyClaimed => e = .alreadyClaimed user coupon
    | .transientFailure => ∃ f, e = .database f := by
  obtain ⟨before, x, after, -, decides⟩ := decided
  subst same
  cases decides <;> simp [Outcome.ofError, Error.kind]

end

end CouponDesk.Relational
