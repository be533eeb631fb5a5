import CouponDesk.Claiming.Attempt
import CouponDesk.Coupon

/-!
# The store in memory

The committed rows, the index of claim keys and the sequence of claim ids, together with the
transactions that are live.  A transaction stages its writes, sees its own, and shows them to
nobody before it commits; the commit checks the constraints again and applies all or nothing.

Every coupon has a lock with a first-in first-out queue.  The requests for all locks stand in
one `line` in order of arrival: the first ticket for a coupon holds its lock and the later ones
wait.  A transaction that ends in any way leaves the line altogether.
-/

set_option autoImplicit false

namespace CouponDesk.Memory

/-- Transactions are named by who opened them: by hand, or as an attempt of a call. -/
inductive TxnId
  | manual (number : Nat)
  | attempt (call number : Nat)
deriving DecidableEq, Repr

/-- The writes of a transaction that are not yet visible to others. -/
structure Txn where
  /-- One entry per unit taken. -/
  taken : List String := []
  staged : List Claim := []
deriving DecidableEq, Repr

structure Ticket where
  coupon : String
  txn : TxnId
deriving DecidableEq, Repr

/-- The committed tables, the lock queue and the live transactions. -/
structure Store where
  coupons : List Coupon := []
  /-- The committed claims in order of commit. -/
  claims : List Claim := []
  keys : List (String × String) := []
  /-- The last claim id handed out.  Ids have no largest value here: that a 64-bit one overflows is
  left out. -/
  lastId : Nat := 0
  /-- How many of the next commits are to fail. -/
  failing : Nat := 0
  line : List Ticket := []
  live : List (TxnId × Txn) := []
deriving DecidableEq, Repr

namespace Store

/-! ## Reading the committed state -/

def coupon? (s : Store) (name : String) : Option Coupon :=
  s.coupons.find? (·.name = name)

def get (s : Store) (name : String) : Except Error Coupon :=
  match s.coupon? name with
  | some row => .ok row
  | none => .error (.couponNotFound name)

def claimsOn (s : Store) (name : String) : List Claim :=
  s.claims.filter (·.coupon = name)

/-- The users who hold a claim on a coupon, oldest first, each once. -/
def claimants (s : Store) (name : String) : List String :=
  firstOccurrences ((s.claimsOn name).map (·.user))

def count (s : Store) (name : String) : Nat := (s.claimsOn name).length

def totalClaims (s : Store) : Nat := s.claims.length

def details (s : Store) (name : String) : Except Error Details :=
  Id.run (Catalog.details (fun name => pure (s.get name))
    (fun name => pure (.ok (s.claimants name))) name)

/-! ## Transactions and locks -/

def txn (s : Store) (t : TxnId) : Txn := (s.live.lookup t).getD {}

def isLive (s : Store) (t : TxnId) : Bool := (s.live.lookup t).isSome

def holder? (s : Store) (name : String) : Option TxnId :=
  (s.line.find? (·.coupon = name)).map (·.txn)

def holds (s : Store) (t : TxnId) (name : String) : Bool := s.holder? name = some t

def waits (s : Store) (t : TxnId) (name : String) : Bool :=
  ⟨name, t⟩ ∈ s.line ∧ ¬ s.holds t name

/-- A coupon's committed row with a transaction's own decrements applied. -/
def view (s : Store) (t : TxnId) (row : Coupon) : Coupon :=
  { row with remaining := row.remaining - (s.txn t).taken.count row.name }

def putTxn (s : Store) (t : TxnId) (writes : Txn) : Store :=
  { s with live := s.live.map fun entry => if entry.1 = t then (t, writes) else entry }

def close (s : Store) (t : TxnId) : Store :=
  { s with
    line := s.line.filter (·.txn ≠ t)
    live := s.live.filter (·.1 ≠ t) }

def begin (s : Store) (t : TxnId) : Store := { s with live := s.live ++ [(t, {})] }

/-- Gives a request for a lock up.  A request that was granted counts as resumed: its transaction has
the lock and keeps it, even if nobody has looked at the answer yet. -/
def leave (s : Store) (t : TxnId) (name : String) : Store :=
  if s.holds t name then s else { s with line := s.line.erase ⟨name, t⟩ }

/-! ## Writing -/

def create (s : Store) (name : String) (amount : Int) : Except Error Coupon × Store :=
  if amount ≤ 0 then (.error (.invalidAmount amount), s)
  else
    match s.coupon? name with
    | some _ => (.error (.couponExists name), s)
    | none => (.ok (.fresh name amount), { s with coupons := s.coupons ++ [.fresh name amount] })

def createChecked (s : Store) (name : String) (amount : Int) : Except Error Coupon × Store :=
  Catalog.create (m := StateM Store) (fun name amount s => s.create name amount) name amount s

/-- Asks for the lock of a coupon and reads the coupon under it.  The coupon must exist; while
another transaction is ahead in the line there is no reply yet.  A lock already held is not
asked for again. -/
def lock (s : Store) (t : TxnId) (name : String) : Option (Except Error Coupon) × Store :=
  match s.coupon? name with
  | none => (some (.error (.couponNotFound name)), s)
  | some row =>
      let s' := if ⟨name, t⟩ ∈ s.line then s else { s with line := s.line ++ [⟨name, t⟩] }
      if s'.holds t name then (some (.ok (s'.view t row)), s') else (none, s')

def decrement (s : Store) (t : TxnId) (name : String) : Except Error Coupon × Store :=
  if ¬ s.holds t name then (.error (.transient (.unlocked name)), s)
  else
    match s.coupon? name with
    | none => (.error (.couponNotFound name), s)
    | some row =>
        let seen := s.view t row
        if seen.remaining ≤ 0 then (.error (.noStock name), s)
        else
          let writes := s.txn t
          (.ok { seen with remaining := seen.remaining - 1 },
            s.putTxn t { writes with taken := name :: writes.taken })

def insert (s : Store) (t : TxnId) (user name : String) : Except Error Claim × Store :=
  match s.coupon? name with
  | none => (.error (.couponNotFound name), s)
  | some _ =>
      let writes := s.txn t
      if (user, name) ∈ s.keys ∨ (user, name) ∈ writes.staged.map Claim.key then
        (.error (.alreadyClaimed user name), s)
      else
        let claim : Claim := ⟨s.lastId + 1, user, name⟩
        (.ok claim,
          { s.putTxn t { writes with staged := writes.staged ++ [claim] } with
            lastId := s.lastId + 1 })

/-- Why the staged writes of a transaction cannot be committed: a unit too many, or the first
staged claim whose pair was committed meanwhile. -/
def refusal? (s : Store) (writes : Txn) : Option Error :=
  match writes.taken.find? fun name =>
      match s.coupon? name with
      | some row => row.remaining - writes.taken.count name < 0
      | none => true with
  | some name => some (if (s.coupon? name).isSome then .noStock name else .couponNotFound name)
  | none =>
      match writes.staged.find? (·.key ∈ s.keys) with
      | some claim => some (.alreadyClaimed claim.user claim.coupon)
      | none => none

def apply (s : Store) (writes : Txn) : Store :=
  { s with
    coupons := s.coupons.map fun row =>
      { row with remaining := row.remaining - writes.taken.count row.name }
    claims := s.claims ++ writes.staged
    keys := s.keys ++ writes.staged.map Claim.key }

/-- Commits a transaction.  It ends in any case; its writes become visible all together, or not
at all if a failure was injected or a constraint would break. -/
def commit (s : Store) (t : TxnId) : Except Error Unit × Store :=
  let writes := s.txn t
  let s := s.close t
  if 0 < s.failing then
    (.error (.transient .injectedCommit), { s with failing := s.failing - 1 })
  else
    match s.refusal? writes with
    | some e => (.error e, s)
    | none => (.ok (), s.apply writes)

def failCommits (s : Store) (count : Nat) : Store := { s with failing := count }

/-! ## Requests of an attempt -/

/-- Performs a request of an attempt in a transaction; no reply means that it must wait. -/
def perform (s : Store) (t : TxnId) : (r : Request) → Option r.Reply × Store
  | .begin => (some (.ok ()), s.begin t)
  | .lock name => s.lock t name
  | .insert user name => (s.insert t user name).map some id
  | .decrement name => (s.decrement t name).map some id
  | .commit => (s.commit t).map some id
  | .rollback => (some (.ok ()), s.close t)

end Store

end CouponDesk.Memory
