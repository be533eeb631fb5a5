import CouponDesk.Proofs.Memory.Operations
import CouponDesk.Proofs.Memory.Ranks

/-!
# The store without a transaction

What an operation does to the store in which a certain transaction were closed.  Its own operations,
the commit apart, do nothing there but use up ids; those of other transactions do what they do
here and get the same replies, unless they come up against a lock that the transaction holds.
-/

set_option autoImplicit false

namespace CouponDesk.Memory

namespace Store

/-- A transaction waits for the lock that `t` holds. -/
def blocks (s : Store) (t u : TxnId) (name : String) : Bool := s.holds t name && s.waits u name

/-- Whether a request of another transaction comes up against a lock that `t` holds: it would have
to wait for it, or it needs the lock that it waits for. -/
def hinders (s : Store) (t u : TxnId) : Request → Bool
  | .lock name => s.holds t name
  | .decrement name => s.blocks t u name
  | _ => false

/-- Whether an operation makes use of a lock, or gives up waiting for it, that `t` has not yet
released. -/
def impatient (s : Store) (t : TxnId) : Operation → Bool
  | .ask u (.decrement name) | .leave u name => s.blocks t u name
  | _ => false

variable {s : Store} {t u : TxnId} {name : String}

/-! ## Locks -/

/-- Without `t` a transaction holds the locks that it holds, and those for which it waits behind `t`
alone. -/
theorem holds_of_close (apart : u ≠ t) (free : s.blocks t u name = false) :
    (s.close t).holds u name = s.holds u name := by
  cases held : s.holds u name with
  | true => exact holds_close s t u name apart held
  | false =>
      cases held' : (s.close t).holds u name with
      | false => rfl
      | true =>
          have ticket := ((ticket_close s t u name).mp (ticket_of_holds _ u name held')).1
          have waits : s.waits u name = true := by
            unfold waits
            simp [ticket, held]
          -- The holder is another one than `t`, and keeps the lock.
          have first : (s.line.find? (·.coupon = name)).isSome := by
            rw [List.find?_isSome]
            exact ⟨_, ticket, by simp⟩
          obtain ⟨⟨given, v⟩, found⟩ := Option.isSome_iff_exists.mp first
          obtain rfl : given = name := by simpa using List.find?_some found
          have holds := (holds_iff s v given).mpr found
          have other : v ≠ t := by
            rintro rfl
            simp [blocks, holds, waits] at free
          have same := holder_unique _ v u given (holds_close s t v given other holds) held'
          rw [same, held] at holds
          cases holds

theorem holds_join (apart : u ≠ t) (unheld : s.holds t name = false) :
    (s.join u name).holds t name = false := by
  unfold join
  split
  · exact unheld
  · cases held : Store.holds { s with line := s.line ++ [⟨name, u⟩] } t name with
    | false => rfl
    | true =>
        rw [holds_iff, List.find?_append] at held
        cases found : s.line.find? (·.coupon = name) with
        | some ticket =>
            rw [found, Option.some_or] at held
            have holds := (holds_iff s t name).mpr (found.trans held)
            rw [unheld] at holds
            cases holds
        | none =>
            rw [found, Option.none_or] at held
            have same : u = t := by simpa using held
            exact absurd same apart

theorem view_of_close (apart : u ≠ t) (row : Coupon) : (s.close t).view u row = s.view u row := by
  unfold view
  rw [txn_close_of_ne s t u apart]

/-! ## Operations of other transactions -/

theorem close_lock (apart : u ≠ t) (name : String) :
    (s.lock u name).2.close t = ((s.close t).lock u name).2 := by
  cases found : s.coupon? name with
  | none => rw [lock_missing s u name found, lock_missing (s.close t) u name found]
  | some row =>
      rw [lock_found s u name row found, lock_found (s.close t) u name row found]
      exact close_join apart name

theorem lock_of_close (apart : u ≠ t) (name : String) (free : s.holds t name = false) :
    ((s.close t).lock u name).1 = (s.lock u name).1 := by
  cases found : s.coupon? name with
  | none => rw [lock_missing s u name found, lock_missing (s.close t) u name found]
  | some row =>
      have unblocked : (s.join u name).blocks t u name = false := by
        simp [blocks, holds_join apart free]
      have holds := holds_of_close apart unblocked
      rw [close_join apart] at holds
      rw [lock_found s u name row found, lock_found (s.close t) u name row found, holds,
        ← close_join apart, view_of_close apart]

theorem leave_of_close (apart : u ≠ t) (name : String) (free : s.blocks t u name = false) :
    (s.close t).leave u name = (s.leave u name).close t := by
  unfold leave
  rw [holds_of_close apart free]
  split
  · rfl
  · simp [close, List.erase_filter]

theorem insert_of_close (apart : u ≠ t) (user name : String) :
    (s.close t).insert u user name =
      ((s.insert u user name).1, (s.insert u user name).2.close t) := by
  cases found : s.coupon? name with
  | none => rw [insert_missing u user name found, insert_missing (s := s.close t) u user name found]
  | some row =>
      rw [insert_found u user name row found, insert_found (s := s.close t) u user name row found,
        txn_close_of_ne s t u apart, ← close_draw apart]
      by_cases claimed : (user, name) ∈ s.keys ∨ (user, name) ∈ (s.txn u).staged.map Claim.key
      · have claimed' : (user, name) ∈ (s.close t).keys ∨
            (user, name) ∈ (s.txn u).staged.map Claim.key := claimed
        rw [if_pos claimed, if_pos claimed']
      · have free : ¬ ((user, name) ∈ (s.close t).keys ∨
            (user, name) ∈ (s.txn u).staged.map Claim.key) := claimed
        rw [if_neg claimed, if_neg free]
        rfl

theorem decrement_of_close (sound : s.Sound) (apart : u ≠ t) (name : String)
    (free : s.blocks t u name = false) :
    (s.close t).decrement u name =
      ((s.decrement u name).1, (s.decrement u name).2.close t) := by
  have same := holds_of_close apart free
  cases holds : s.holds u name with
  | false =>
      rw [holds] at same
      rw [decrement_unheld u name holds, decrement_unheld (s := s.close t) u name same]
  | true =>
      rw [holds] at same
      have ticket := ticket_of_holds s u name holds
      obtain ⟨row, found⟩ := Option.isSome_iff_exists.mp (sound.locks.named _ ticket)
      rw [decrement_held u name row found holds,
        decrement_held (s := s.close t) u name row found same, txn_close_of_ne s t u apart,
        ← close_take apart]
      split <;> rfl

theorem commit_of_close (s : Store) (apart : u ≠ t) :
    (s.close t).commit u = ((s.commit u).1, (s.commit u).2.close t) := by
  have refusal : ((s.close u).close t).refusal? (s.txn u) = (s.close u).refusal? (s.txn u) := rfl
  have failing : ((s.close u).close t).failing = (s.close u).failing := rfl
  unfold commit
  simp only [txn_close_of_ne s t u apart, close_close s u t, refusal, failing]
  split
  · rfl
  · split <;> rfl

theorem create_of_close (s : Store) (t : TxnId) (name : String) (amount : Int) :
    (s.close t).create name amount =
      ((s.create name amount).1, (s.create name amount).2.close t) := by
  have same : (s.close t).coupon? name = s.coupon? name := rfl
  unfold create
  rw [same]
  split
  · rfl
  · cases s.coupon? name <;> rfl

/-- The request of another transaction, with its reply, is the same without `t`, unless it comes up
against a lock that `t` holds. -/
theorem perform_of_close (sound : s.Sound) (apart : u ≠ t) (request : Request)
    (free : s.hinders t u request = false) :
    (s.close t).perform u request =
      ((s.perform u request).1, (s.perform u request).2.close t) := by
  cases request with
  | begin => exact congrArg (Prod.mk _) (close_begin apart).symm
  | lock name => exact Prod.ext (lock_of_close apart name free) (close_lock apart name).symm
  | insert user name =>
      simp only [perform, insert_of_close apart]
      rfl
  | decrement name =>
      simp only [perform, decrement_of_close sound apart name free]
      rfl
  | commit =>
      simp only [perform, commit_of_close s apart]
      rfl
  | rollback => exact congrArg (Prod.mk _) (close_close s t u).symm

/-- What another transaction does, or what is done from outside, is the same without `t`, unless it
needs a lock that `t` holds. -/
theorem after_of_close (sound : s.Sound) (op : Operation) (other : op.txn? ≠ some t)
    (patient : s.impatient t op = false) : (s.close t).after op = (s.after op).close t := by
  have apart : ∀ {u}, op.txn? = some u → u ≠ t := by
    rintro u acting rfl
    exact other acting
  cases op with
  | create name amount => exact congrArg Prod.snd (create_of_close s t name amount)
  | failCommits count => rfl
  | ask u request =>
      cases request with
      | lock name => exact (close_lock (apart rfl) name).symm
      | decrement name =>
          exact congrArg Prod.snd
            (perform_of_close sound (apart rfl) (.decrement name) patient)
      | _ => exact congrArg Prod.snd (perform_of_close sound (apart rfl) _ rfl)
  | leave u name => exact leave_of_close (apart rfl) name patient
  | drop u => exact close_close s u t

/-! ## Its own operations -/

/-- Of what a transaction does, the commit apart, nothing is left when it is closed but the ids that
it has drawn. -/
theorem close_after (op : Operation) (own : op.txn? = some t) (uncommitted : op ≠ .ask t .commit) :
    (s.after op).close t = { s.close t with lastId := (s.after op).lastId } := by
  have kept : ∀ store : Store, store.close t = s.close t →
      store.close t = { s.close t with lastId := store.lastId } := by
    intro store same
    rw [← same]
    rfl
  cases op <;> simp only [Operation.txn?, Option.some.injEq, reduceCtorEq] at own <;> subst own
  case leave name =>
    refine kept _ ?_
    simp only [after, leave]
    split
    · rfl
    · simp [close, ← List.erase_filter]
  case drop => exact kept _ (close_self s _)
  case ask request =>
    cases request with
    | begin => exact kept _ (by simp [after, perform, begin, close])
    | lock name =>
        refine kept _ ?_
        cases found : s.coupon? name with
        | none => simp only [after, perform, lock_missing s _ name found]
        | some row =>
            simp only [after, perform, lock_found s _ name row found]
            exact close_join_self s _ name
    | insert user name =>
        simp only [after, perform, Prod.map, id]
        rcases s.insert_cases _ user name with same | drawn
        · rw [same]
          rfl
        · rw [drawn]
          exact close_draw_self s _ user name
    | decrement name =>
        refine kept _ ?_
        simp only [after, perform, Prod.map, id]
        rcases s.decrement_cases _ name with same | taken
        · rw [same]
        · rw [taken]
          exact close_putTxn_self s _ _
    | commit => exact absurd rfl uncommitted
    | rollback => exact kept _ (close_self s _)

end Store

end CouponDesk.Memory
