import CouponDesk.Memory.Clock
import CouponDesk.Relational.Pool
import CouponDesk.Settings.Basic

/-!
# Scripts

A script is a list of steps that a caller takes one after another, on a store of either kind.  A
transaction driven by hand is one step, so nothing else happens while it is open.  A `Desk` is what
a store offers to a caller; a script is carried out on any desk, and its result is the answers to
each of its steps.
-/

set_option autoImplicit false

namespace CouponDesk.Agreement

open Memory (System)
open Relational

inductive Op
  | lock (name : String)
  | insert (user name : String) (now : Int)
  | decrement (name : String)

inductive Ending
  | commit
  | rollback
  | drop
deriving DecidableEq

/-- The ways to claim: once within the deadline of the settings, once within a given deadline, or
in as many attempts as the settings allow. -/
inductive Manner
  | once
  | within (deadline : Duration)
  | retrying

inductive Step
  | create (name : String) (amount now : Int)
  | createChecked (name : String) (amount now : Int)
  | claim (manner : Manner) (user name : String) (now : Int)
  | get (name : String)
  | details (name : String)
  | claimants (name : String)
  | count (name : String)
  | transaction (ops : List Op) (ending : Ending)

inductive Answer
  | coupon (result : Except Error Coupon)
  | claim (result : Except Error Claim)
  | details (result : Except Error Details)
  | users (result : Except Error (List String))
  | count (result : Except Error Nat)
  | done (result : Except Error Unit)
  /-- There was no answer within the time given. -/
  | silence

namespace Manner

def deadline (settings : ClaimSettings) : Manner → Duration
  | .within deadline => deadline
  | .once | .retrying => settings.timeout

def attempts (settings : ClaimSettings) : Manner → Nat
  | .once | .within _ => 1
  | .retrying => settings.maxAttempts

end Manner

namespace Answer

def unnumbered : Answer → Answer
  | .claim (.ok held) => .claim (.ok { held with id := 0 })
  | answer => answer

def isClaim : Answer → Bool
  | .claim (.ok _) => true
  | _ => false

end Answer

/-! ## What a store offers -/

structure Desk (σ : Type) where
  create (name : String) (amount now : Int) : StateM σ (Except Error Coupon)
  createChecked (name : String) (amount now : Int) : StateM σ (Except Error Coupon)
  claim (deadline : Duration) (attempts : Nat) (user name : String) (now : Int) :
    StateM σ (Option (Except Error Claim))
  get (name : String) : StateM σ (Except Error Coupon)
  details (name : String) : StateM σ (Except Error Details)
  claimants (name : String) : StateM σ (Except Error (List String))
  count (name : String) : StateM σ (Except Error Nat)
  /-- Begins a transaction under a number of the desk's choice. -/
  begin : StateM σ (Nat × Except Error Unit)
  lock (txn : Nat) (name : String) : StateM σ (Option (Except Error Coupon))
  insert (txn : Nat) (user name : String) (now : Int) : StateM σ (Except Error Claim)
  decrement (txn : Nat) (name : String) : StateM σ (Except Error Coupon)
  finish (txn : Nat) (ending : Ending) : StateM σ (Except Error Unit)

namespace Desk

def memory (patience : Nat) : Desk System where
  create name amount _ s := s.transact fun store => store.create name amount
  createChecked name amount _ s := s.transact fun store => store.createChecked name amount
  claim deadline attempts user name _ s :=
    let (result, s) := s.claim user name deadline (Retry.limit attempts)
    (result.map (·.1), s)
  get name s := (s.store.get name, s)
  details name s := (s.store.details name, s)
  claimants name s := (.ok (s.store.claimants name), s)
  count name s := (.ok (s.store.count name), s)
  begin s := s.transact fun store => ((0, .ok ()), store.begin (.manual 0))
  lock txn name s := s.lock txn name patience
  insert txn user name _ s := s.transact fun store => store.insert (.manual txn) user name
  decrement txn name s := s.transact fun store => store.decrement (.manual txn) name
  finish txn
    | .commit => fun s => s.transact fun store => store.commit (.manual txn)
    | .rollback | .drop => fun s => s.transact fun store => (.ok (), store.close (.manual txn))

def database : Desk Pool where
  create name amount now := Records.createCoupon .sqlite (Pool.send none) now name amount
  createChecked name amount now :=
    Catalog.create (Records.createCoupon .sqlite (Pool.send none) now) name amount
  claim deadline attempts user name now := some <$> Pool.claim now user name deadline attempts
  get := Records.get (Pool.send none)
  details := Records.details (Pool.send none)
  claimants := Records.claimants (Pool.send none)
  count := Records.count (Pool.send none)
  begin p :=
    let (reply, after) := Pool.send (some p.freshTxn) .begin p
    ((p.freshTxn, reply.mapError .database), after)
  lock txn name := some <$> Records.lock .sqlite (Pool.send (some txn)) name
  insert txn user name now :=
    Records.insertClaim .sqlite (Pool.send (some txn)) now user name
  decrement txn name := Records.takeUnit (Pool.send (some txn)) name
  finish txn
    | .commit => (·.mapError .database) <$> Pool.send (some txn) .commit
    | .rollback => (·.mapError .database) <$> Pool.send (some txn) .rollback
    | .drop => fun p => (.ok (), p.dropTxn txn)

end Desk

/-! ## Carrying a script out -/

section Carrying

variable {σ : Type} (desk : Desk σ) (settings : ClaimSettings)

def Op.on (txn : Nat) : Op → StateM σ Answer
  | .lock name => do return (← desk.lock txn name).elim .silence .coupon
  | .insert user name now => .claim <$> desk.insert txn user name now
  | .decrement name => .coupon <$> desk.decrement txn name

/-- The answers to a step.  A transaction has one for its beginning, one for whatever is asked for
in it, and one for its end. -/
def Step.on : Step → StateM σ (List Answer)
  | .create name amount now => do return [.coupon (← desk.create name amount now)]
  | .createChecked name amount now => do return [.coupon (← desk.createChecked name amount now)]
  | .claim manner user name now => do
      let result ← desk.claim (manner.deadline settings) (manner.attempts settings) user name now
      return [result.elim .silence .claim]
  | .get name => do return [.coupon (← desk.get name)]
  | .details name => do return [.details (← desk.details name)]
  | .claimants name => do return [.users (← desk.claimants name)]
  | .count name => do return [.count (← desk.count name)]
  | .transaction ops ending => do
      let (txn, begun) ← desk.begin
      match begun with
      | .error e => return [.done (.error e)]
      | .ok _ =>
          let answers ← ops.mapM (Op.on desk txn)
          let ended ← desk.finish txn ending
          return .done begun :: answers ++ [.done ended]

def carryOut (script : List Step) : StateM σ (List (List Answer)) :=
  script.mapM (Step.on desk settings)

end Carrying

/-! ## What is asked of a script -/

def Op.times : Op → List Int
  | .insert _ _ now => [now]
  | .lock _ | .decrement _ => []

def Step.times : Step → List Int
  | .claim _ _ _ now => [now]
  | .transaction ops _ => ops.flatMap Op.times
  | _ => []

def Step.known (known : List String) : Step → List String
  | .create name amount _ | .createChecked name amount _ =>
      if amount ≤ 0 then known else name :: known
  | _ => known

/-- The coupons that a transaction has locked after an operation: a coupon must exist for that. -/
def Op.locked (known locked : List String) : Op → List String
  | .lock name => if name ∈ known then name :: locked else locked
  | _ => locked

/-- Whether an operation touches only what it may: a unit is taken only of a locked coupon. -/
def Op.allowed (locked : List String) : Op → Bool
  | .decrement name => name ∈ locked
  | _ => true

def lockedFirst (known : List String) : List String → List Op → Bool
  | _, [] => true
  | locked, op :: rest => op.allowed locked && lockedFirst known (op.locked known locked) rest

def Step.allowed (known : List String) : Step → Bool
  | .transaction ops _ => lockedFirst known [] ops
  | _ => true

/-- Whether each transaction locks a coupon before it decrements it. -/
def allAllowed : List String → List Step → Bool
  | _, [] => true
  | known, step :: rest => step.allowed known && allAllowed (step.known known) rest

def Step.inTime (settings : ClaimSettings) : Step → Bool
  | .claim manner _ _ _ => 0 < (manner.deadline settings).ceilMillis
  | _ => true

/-- A script whose transactions lock a coupon before they decrement it, whose claims have some time,
and whose claims are made at times that do not decrease, no more of them than there are ids. -/
structure Orderly (settings : ClaimSettings) (script : List Step) : Prop where
  allowed : allAllowed [] script = true
  inTime : ∀ step ∈ script, step.inTime settings = true
  times : (script.flatMap Step.times).Pairwise (· ≤ ·)
  ids : (script.flatMap Step.times).length < Nat.pow 2 63

def Step.discards (answers : List Answer) : Step → Bool
  | .transaction _ ending => ending ≠ .commit && answers.any Answer.isClaim
  | _ => false

/-- Whether some transaction inserted a claim and was rolled back or dropped. -/
def discards (script : List Step) (answers : List (List Answer)) : Bool :=
  (script.zip answers).any fun (step, given) => step.discards given

/-! ## Agreement of answers -/

/-- Two things are the same as far as `f` shows them, and the same altogether if `exact` holds. -/
def Agrees {α β : Type} (f : α → β) (exact : Prop) (a b : α) : Prop :=
  f b = f a ∧ (exact → b = a)

namespace Agrees

variable {α β : Type} {f : α → β} {exact : Prop}

theorem refl (a : α) : Agrees f exact a a := ⟨rfl, fun _ => rfl⟩

theorem weaken {exact' : Prop} {a b : α} (agrees : Agrees f exact a b)
    (stronger : exact' → exact) : Agrees f exact' a b :=
  ⟨agrees.1, fun holds => agrees.2 (stronger holds)⟩

theorem cons {a b : α} {as bs : List α} (first : Agrees f exact a b)
    (rest : Agrees (List.map f) exact as bs) : Agrees (List.map f) exact (a :: as) (b :: bs) := by
  refine ⟨by rw [List.map_cons, List.map_cons, first.1, rest.1], fun holds => ?_⟩
  rw [first.2 holds, rest.2 holds]

theorem append {as bs : List α} (first : Agrees (List.map f) exact as bs) (rest : List α) :
    Agrees (List.map f) exact (as ++ rest) (bs ++ rest) := by
  refine ⟨by rw [List.map_append, List.map_append, first.1], fun holds => ?_⟩
  rw [first.2 holds]

end Agrees

end CouponDesk.Agreement
