import CouponDesk.Proofs.Memory.Operations
import CouponDesk.Proofs.Memory.Projection

/-!
# Stores without ids

Stores that differ in the ids of claims only do the same, and give the same replies but for the ids
of the claims in them.
-/

set_option autoImplicit false

namespace CouponDesk

def Request.unnumbered : (r : Request) → r.Reply → r.Reply
  | .insert _ _ => Except.map Claim.anonymous
  | .begin | .lock _ | .decrement _ | .commit | .rollback => id

namespace Memory

def Txn.anonymous (writes : Txn) : Txn :=
  { writes with staged := writes.staged.map Claim.anonymous }

namespace Store

/-- The store without the ids of its claims, committed and staged, and without the last one. -/
def anonymous (s : Store) : Store :=
  { s with
    claims := s.claims.map Claim.anonymous
    lastId := 0
    live := s.live.map fun entry => (entry.1, entry.2.anonymous) }

variable {s s' : Store} {t : TxnId}

/-! ## Lookups -/

theorem lookup_anonymous (t : TxnId) (entries : List (TxnId × Txn)) :
    (entries.map fun entry => (entry.1, entry.2.anonymous)).lookup t =
      (entries.lookup t).map Txn.anonymous := by
  induction entries with
  | nil => rfl
  | cons entry rest ih =>
      rw [List.map_cons, List.lookup_cons, List.lookup_cons, ih]
      cases t == entry.1 <;> rfl

@[simp]
theorem isLive_anonymous (s : Store) (t : TxnId) : s.anonymous.isLive t = s.isLive t := by
  unfold isLive
  exact (congrArg Option.isSome (lookup_anonymous t s.live)).trans Option.isSome_map

theorem txn_anonymous (s : Store) (t : TxnId) : s.anonymous.txn t = (s.txn t).anonymous := by
  unfold txn
  refine (congrArg (fun found => Option.getD found {}) (lookup_anonymous t s.live)).trans ?_
  cases s.live.lookup t <;> rfl

@[simp]
theorem view_anonymous (s : Store) (t : TxnId) (row : Coupon) :
    s.anonymous.view t row = s.view t row := by
  unfold view
  rw [txn_anonymous]
  rfl

theorem staged_keys_anonymous (writes : Txn) :
    writes.anonymous.staged.map Claim.key = writes.staged.map Claim.key := by
  unfold Txn.anonymous
  rw [List.map_map]
  rfl

theorem refusal?_anonymous (s : Store) (writes : Txn) :
    s.anonymous.refusal? writes.anonymous = s.refusal? writes := by
  have staged : writes.anonymous.staged.find? (·.key ∈ s.anonymous.keys) =
      (writes.staged.find? (·.key ∈ s.keys)).map Claim.anonymous := by
    simp only [Txn.anonymous, List.find?_map]
    rfl
  have taken : writes.anonymous.taken = writes.taken := rfl
  have row : ∀ name, s.anonymous.coupon? name = s.coupon? name := fun _ => rfl
  unfold refusal?
  simp only [staged, taken, row]
  split
  · rfl
  · cases writes.staged.find? (·.key ∈ s.keys) <;> rfl

/-! ## Elementary updates -/

theorem anonymous_anonymous (s : Store) : s.anonymous.anonymous = s.anonymous := by
  have claims : ∀ claims : List Claim, (claims.map Claim.anonymous).map Claim.anonymous =
      claims.map Claim.anonymous := by
    intro claims
    rw [List.map_map]
    rfl
  simp [anonymous, Txn.anonymous, claims]

theorem anonymous_begin (s : Store) (t : TxnId) :
    (s.begin t).anonymous = s.anonymous.begin t := by
  simp [anonymous, begin, Txn.anonymous]

theorem anonymous_close (s : Store) (t : TxnId) :
    (s.close t).anonymous = s.anonymous.close t := by
  simp only [anonymous, close, List.filter_map]
  rfl

theorem anonymous_leave (s : Store) (t : TxnId) (name : String) :
    (s.leave t name).anonymous = s.anonymous.leave t name := by
  have holds : s.anonymous.holds t name = s.holds t name := rfl
  unfold leave
  rw [holds]
  split <;> rfl

theorem anonymous_join (s : Store) (t : TxnId) (name : String) :
    (s.join t name).anonymous = s.anonymous.join t name := by
  have line : s.anonymous.line = s.line := rfl
  unfold join
  rw [line]
  split <;> rfl

theorem anonymous_putTxn (s : Store) (t : TxnId) (writes : Txn) :
    (s.putTxn t writes).anonymous = s.anonymous.putTxn t writes.anonymous := by
  have live : (s.live.map fun entry => if entry.1 = t then (t, writes) else entry).map
      (fun entry => (entry.1, entry.2.anonymous)) =
        (s.live.map fun entry => (entry.1, entry.2.anonymous)).map
          fun entry => if entry.1 = t then (t, writes.anonymous) else entry := by
    rw [List.map_map, List.map_map]
    refine List.map_congr_left ?_
    rintro ⟨u, old⟩ -
    by_cases own : u = t <;> simp [own]
  simp only [anonymous, putTxn, live]

/-- Under which id a claim is staged does not show. -/
theorem anonymous_draw (s : Store) (t : TxnId) (user name : String) :
    (s.anonymous.draw t user name).anonymous = (s.draw t user name).anonymous := by
  have shape : ∀ store : Store, (store.draw t user name).anonymous =
      store.anonymous.putTxn t { (store.txn t).anonymous with
        staged := (store.txn t).anonymous.staged ++ [⟨0, user, name⟩] } := by
    intro store
    refine (anonymous_putTxn store t _).trans (congrArg _ ?_)
    simp [Txn.anonymous, Claim.anonymous]
  have again : (s.txn t).anonymous.anonymous = (s.txn t).anonymous := by
    simp [Txn.anonymous, Claim.anonymous]
  rw [shape, shape, anonymous_anonymous, txn_anonymous, again]

theorem anonymous_take (s : Store) (t : TxnId) (name : String) :
    (s.take t name).anonymous = s.anonymous.take t name := by
  unfold take
  rw [anonymous_putTxn, txn_anonymous]
  rfl

theorem anonymous_apply (s : Store) (writes : Txn) :
    (s.apply writes).anonymous = s.anonymous.apply writes.anonymous := by
  unfold apply
  rw [staged_keys_anonymous]
  simp only [anonymous, List.map_append]
  rfl

/-! ## Operations -/

theorem lock_anonymous (s : Store) (t : TxnId) (name : String) :
    s.anonymous.lock t name = ((s.lock t name).1, (s.lock t name).2.anonymous) := by
  cases found : s.coupon? name with
  | none => rw [lock_missing s t name found, lock_missing s.anonymous t name found]
  | some row =>
      rw [lock_found s t name row found, lock_found s.anonymous t name row found,
        ← anonymous_join, view_anonymous]
      rfl

theorem insert_anonymous (s : Store) (t : TxnId) (user name : String) :
    (s.anonymous.insert t user name).1.map Claim.anonymous =
        (s.insert t user name).1.map Claim.anonymous ∧
      (s.anonymous.insert t user name).2.anonymous = (s.insert t user name).2.anonymous := by
  cases found : s.coupon? name with
  | none =>
      rw [insert_missing t user name found, insert_missing (s := s.anonymous) t user name found]
      exact ⟨rfl, anonymous_anonymous s⟩
  | some row =>
      rw [insert_found t user name row found, insert_found (s := s.anonymous) t user name row found,
        txn_anonymous, staged_keys_anonymous]
      by_cases claimed : (user, name) ∈ s.keys ∨ (user, name) ∈ (s.txn t).staged.map Claim.key
      · have claimed' : (user, name) ∈ s.anonymous.keys ∨
            (user, name) ∈ (s.txn t).staged.map Claim.key := claimed
        rw [if_pos claimed, if_pos claimed']
        exact ⟨rfl, anonymous_anonymous s⟩
      · have free : ¬ ((user, name) ∈ s.anonymous.keys ∨
            (user, name) ∈ (s.txn t).staged.map Claim.key) := claimed
        rw [if_neg claimed, if_neg free]
        exact ⟨rfl, anonymous_draw s t user name⟩

theorem decrement_anonymous (s : Store) (t : TxnId) (name : String) :
    s.anonymous.decrement t name = ((s.decrement t name).1, (s.decrement t name).2.anonymous) := by
  have holds : s.anonymous.holds t name = s.holds t name := rfl
  have row : s.anonymous.coupon? name = s.coupon? name := rfl
  have taken := anonymous_take s t name
  unfold take at taken
  unfold decrement
  rw [holds, row]
  split
  · rfl
  · cases s.coupon? name with
    | none => rfl
    | some row =>
        simp only [view_anonymous]
        split
        · rfl
        · rw [taken]

theorem commit_anonymous (s : Store) (t : TxnId) :
    s.anonymous.commit t = ((s.commit t).1, (s.commit t).2.anonymous) := by
  have failing : (s.close t).anonymous.failing = (s.close t).failing := rfl
  unfold commit
  simp only [txn_anonymous, ← anonymous_close, refusal?_anonymous, failing]
  split
  · rfl
  · split
    · rfl
    · rw [anonymous_apply]

theorem create_anonymous (s : Store) (name : String) (amount : Int) :
    s.anonymous.create name amount =
      ((s.create name amount).1, (s.create name amount).2.anonymous) := by
  have row : s.anonymous.coupon? name = s.coupon? name := rfl
  unfold create
  rw [row]
  split
  · rfl
  · cases s.coupon? name <;> rfl

/-- The reply to a request does not depend on the ids, but for the id in it. -/
theorem reply_anonymous (s : Store) (t : TxnId) (request : Request) :
    (s.anonymous.perform t request).1.map request.unnumbered =
      (s.perform t request).1.map request.unnumbered := by
  cases request with
  | lock name =>
      simp only [perform, lock_anonymous]
  | insert user name => exact congrArg some (insert_anonymous s t user name).1
  | decrement name => simp only [perform, decrement_anonymous]; rfl
  | commit => simp only [perform, commit_anonymous]; rfl
  | begin => rfl
  | rollback => rfl

theorem after_anonymous (s : Store) (op : Operation) :
    (s.anonymous.after op).anonymous = (s.after op).anonymous := by
  have commutes : s.anonymous.after op = (s.after op).anonymous →
      (s.anonymous.after op).anonymous = (s.after op).anonymous := by
    intro same
    rw [same, anonymous_anonymous]
  cases op with
  | create name amount => exact commutes (congrArg Prod.snd (create_anonymous s name amount))
  | failCommits count => exact commutes rfl
  | ask t request =>
      cases request with
      | begin => exact commutes (anonymous_begin s t).symm
      | lock name => exact commutes (congrArg Prod.snd (lock_anonymous s t name))
      | insert user name =>
          -- The id that is drawn depends on the last one.
          exact (insert_anonymous s t user name).2
      | decrement name => exact commutes (congrArg Prod.snd (decrement_anonymous s t name))
      | commit => exact commutes (congrArg Prod.snd (commit_anonymous s t))
      | rollback => exact commutes (anonymous_close s t).symm
  | leave t name => exact commutes (anonymous_leave s t name).symm
  | drop t => exact commutes (anonymous_close s t).symm

/-! ## Stores that differ in ids only -/

theorem after_of_alike (alike : s.anonymous = s'.anonymous) (op : Operation) :
    (s.after op).anonymous = (s'.after op).anonymous := by
  rw [← after_anonymous s, alike, after_anonymous]

theorem reply_of_alike (alike : s.anonymous = s'.anonymous) (t : TxnId) (request : Request) :
    (s.perform t request).1.map request.unnumbered =
      (s'.perform t request).1.map request.unnumbered := by
  rw [← reply_anonymous s, alike, reply_anonymous]

theorem admits_of_alike (alike : s.anonymous = s'.anonymous) (op : Operation) :
    s.admits op = s'.admits op := by
  have live : ∀ t, s.isLive t = s'.isLive t := by
    intro t
    rw [← isLive_anonymous s, alike, isLive_anonymous]
  cases op with
  | ask t request => cases request <;> simp only [admits, live]
  | leave t name => exact live t
  | _ => rfl

end Store

end Memory

end CouponDesk
