import CouponDesk.Proofs.Memory.Lookups

/-!
# What a transaction does to the store

Every operation of a transaction changes the store in one of a few ways, each under a condition
that its operation has checked.  `Change` lists them; what all operations keep is proved about
this list, once, and not about each operation again.
-/

set_option autoImplicit false

namespace CouponDesk.Memory.Store

/-- The store after a transaction joined the line for a coupon's lock, where it may stand
already. -/
def join (s : Store) (t : TxnId) (name : String) : Store :=
  if ⟨name, t⟩ ∈ s.line then s else { s with line := s.line ++ [⟨name, t⟩] }

/-- The store after a transaction staged a claim under the next id. -/
def draw (s : Store) (t : TxnId) (user name : String) : Store :=
  { s.putTxn t { s.txn t with staged := (s.txn t).staged ++ [⟨s.lastId + 1, user, name⟩] } with
    lastId := s.lastId + 1 }

def take (s : Store) (t : TxnId) (name : String) : Store :=
  s.putTxn t { s.txn t with taken := name :: (s.txn t).taken }

/-- What an operation of a transaction may do to the store, and when. -/
inductive Change (s : Store) (t : TxnId) : Store → Prop
  | kept : Change s t s
  | opened (fresh : s.isLive t = false) : Change s t (s.begin t)
  | queued (name : String) (row : Coupon) (live : s.isLive t = true)
      (found : s.coupon? name = some row) (absent : ⟨name, t⟩ ∉ s.line) :
      Change s t { s with line := s.line ++ [⟨name, t⟩] }
  | left (name : String) (waiting : s.holds t name = false) :
      Change s t { s with line := s.line.erase ⟨name, t⟩ }
  | drawn (user name : String) (row : Coupon) (live : s.isLive t = true)
      (found : s.coupon? name = some row) (unclaimed : (user, name) ∉ s.keys)
      (unstaged : (user, name) ∉ (s.txn t).staged.map Claim.key) :
      Change s t (s.draw t user name)
  | took (name : String) (row : Coupon) (live : s.isLive t = true)
      (found : s.coupon? name = some row) (holds : s.holds t name = true)
      (stock : (s.txn t).taken.count name < row.remaining) :
      Change s t (s.take t name)
  | closed : Change s t (s.close t)
  | lost (injected : 0 < s.failing) : Change s t { s.close t with failing := s.failing - 1 }
  | committed (due : s.failing = 0) (allowed : s.refusal? (s.txn t) = none) :
      Change s t ((s.close t).apply (s.txn t))

/-! ## Every operation is a change -/

theorem lock_missing (s : Store) (t : TxnId) (name : String) (missing : s.coupon? name = none) :
    s.lock t name = (some (.error (.couponNotFound name)), s) := by
  unfold lock
  rw [missing]

theorem lock_found (s : Store) (t : TxnId) (name : String) (row : Coupon)
    (found : s.coupon? name = some row) :
    s.lock t name =
      (if (s.join t name).holds t name then some (.ok ((s.join t name).view t row)) else none,
        s.join t name) := by
  unfold lock
  rw [found]
  change (if (s.join t name).holds t name then _ else _) = _
  split <;> rfl

theorem join_change (s : Store) (t : TxnId) (name : String) (row : Coupon)
    (live : s.isLive t = true) (found : s.coupon? name = some row) :
    s.Change t (s.join t name) := by
  unfold join
  by_cases present : ⟨name, t⟩ ∈ s.line
  · rw [if_pos present]
    exact .kept
  · rw [if_neg present]
    exact .queued name row live found present

theorem lock_change (s : Store) (t : TxnId) (name : String) (live : s.isLive t = true) :
    s.Change t (s.lock t name).2 := by
  cases found : s.coupon? name with
  | none =>
      rw [lock_missing s t name found]
      exact .kept
  | some row =>
      rw [lock_found s t name row found]
      exact join_change s t name row live found

theorem leave_change (s : Store) (t : TxnId) (name : String) : s.Change t (s.leave t name) := by
  unfold leave
  by_cases holds : s.holds t name = true
  · rw [if_pos holds]
    exact .kept
  · rw [if_neg holds]
    exact .left name (by simpa using holds)

theorem insert_change (s : Store) (t : TxnId) (user name : String) (live : s.isLive t = true) :
    s.Change t (s.insert t user name).2 := by
  unfold insert
  cases found : s.coupon? name with
  | none => exact .kept
  | some row =>
      dsimp only
      split
      · exact .kept
      · rename_i free
        rw [not_or] at free
        exact .drawn user name row live found free.1 free.2

theorem decrement_change (s : Store) (t : TxnId) (name : String) (live : s.isLive t = true) :
    s.Change t (s.decrement t name).2 := by
  unfold decrement
  split
  · exact .kept
  · rename_i locked
    have holds : s.holds t name = true := by simpa using locked
    cases found : s.coupon? name with
    | none => exact .kept
    | some row =>
        dsimp only
        split
        · exact .kept
        · rename_i left
          have named := (coupon?_some s name row found).2
          refine .took name row live found holds ?_
          simp only [view, named] at left
          omega

theorem commit_change (s : Store) (t : TxnId) : s.Change t (s.commit t).2 := by
  unfold commit
  dsimp only
  split
  · rename_i injected
    exact .lost injected
  · rename_i due
    have due : s.failing = 0 := by
      have := due
      simp only [close] at this
      omega
    cases refused : (s.close t).refusal? (s.txn t) with
    | some e => exact .closed
    | none => exact .committed due refused

end CouponDesk.Memory.Store
