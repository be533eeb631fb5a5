import CouponDesk.Proofs.Memory.Effects

/-!
# The atomic ledger

What a claim would be if it took effect at once: a ledger has the rows of the coupons and, for
each coupon, the list of its claims, and a claim is one step from a ledger to the next.  The
committed tables of a store are a ledger; an attempt is turned down in a state in which the atomic
claim would be, and a granted claim changes the ledger as the atomic claim does.
-/

set_option autoImplicit false

namespace CouponDesk.Memory

structure Ledger where
  coupons : List Coupon := []
  claims : String → List Claim := fun _ => []

namespace Ledger

def coupon? (l : Ledger) (name : String) : Option Coupon :=
  l.coupons.find? (·.name = name)

def create (l : Ledger) (name : String) (amount : Int) : Ledger :=
  if amount ≤ 0 ∨ (l.coupon? name).isSome then l
  else { l with coupons := l.coupons ++ [.fresh name amount] }

def grant (l : Ledger) (claim : Claim) : Ledger where
  coupons := l.coupons.map fun row =>
    if row.name = claim.coupon then { row with remaining := row.remaining - 1 } else row
  claims := fun name =>
    if name = claim.coupon then l.claims name ++ [claim] else l.claims name

/-- The atomic claim: its result, and the ledger after it. -/
def claim (l : Ledger) (id : Int) (user name : String) : Except Error Claim × Ledger :=
  match l.coupon? name with
  | none => (.error (.couponNotFound name), l)
  | some row =>
      if row.remaining = 0 then (.error (.noStock name), l)
      else if user ∈ (l.claims name).map (·.user) then (.error (.alreadyClaimed user name), l)
      else (.ok ⟨id, user, name⟩, l.grant ⟨id, user, name⟩)

structure Unused (l : Ledger) (id : Int) (name : String) : Prop where
  fresh : ∀ other, ∀ claim ∈ l.claims other, claim.id ≠ id
  later : ∀ claim ∈ l.claims name, claim.id < id

end Ledger

/-- An attempt that was abandoned, or failed in a way after which it may be made again. -/
def Ending.Transient : Ending → Prop
  | .answered (.ok _) => False
  | .answered (.error e) => e.retryable = true
  | .retried => True
  | .cancelled => True

/-- What takes effect at once: the creation of a coupon, or an attempt with its ending. -/
inductive Entry
  | create (name : String) (amount : Int)
  | attempt (user coupon : String) (ending : Ending)

/-- A transient attempt does nothing; any other has the result of an atomic claim. -/
inductive Entry.Executes : Entry → Ledger → Ledger → Prop
  | create (l : Ledger) (name : String) (amount : Int) :
      Executes (.create name amount) l (l.create name amount)
  | transient (l : Ledger) (user coupon : String) (ending : Ending) (transient : ending.Transient) :
      Executes (.attempt user coupon ending) l l
  | claim (l : Ledger) (id : Int) (user coupon : String) (unused : l.Unused id coupon) :
      Executes (.attempt user coupon (.answered (l.claim id user coupon).1)) l
        (l.claim id user coupon).2

inductive Replays : List Entry → Ledger → Ledger → Prop
  | nil (l : Ledger) : Replays [] l l
  | cons (entry : Entry) (rest : List Entry) (l next last : Ledger)
      (executes : entry.Executes l next) (replays : Replays rest next last) :
      Replays (entry :: rest) l last

namespace Store

variable {s store : Store} {t : TxnId}

def ledger (s : Store) : Ledger := ⟨s.coupons, s.claimsOn⟩

theorem SameTables.ledger (same : s.SameTables store) : store.ledger = s.ledger := by
  have claims : store.claimsOn = s.claimsOn := funext same.claimsOn
  unfold Store.ledger
  rw [same.coupons, claims]

theorem ledger_create (s : Store) (name : String) (amount : Int) :
    (s.create name amount).2.ledger = s.ledger.create name amount := by
  unfold create Ledger.create
  by_cases refused : amount ≤ 0
  · rw [if_pos refused, if_pos (Or.inl refused)]
  · rw [if_neg refused]
    cases taken : s.coupon? name with
    | some row =>
        have present : (s.ledger.coupon? name).isSome := by
          change (s.coupon? name).isSome
          rw [taken]
          rfl
        rw [if_pos (Or.inr present)]
    | none =>
        have absent : ¬ (s.ledger.coupon? name).isSome := by
          change ¬ (s.coupon? name).isSome
          rw [taken]
          simp
        rw [if_neg (not_or.mpr ⟨refused, absent⟩)]
        rfl

theorem claim_missing (id : Int) (user name : String) (missing : s.coupon? name = none) :
    s.ledger.claim id user name = (.error (.couponNotFound name), s.ledger) := by
  have absent : s.ledger.coupon? name = none := missing
  unfold Ledger.claim
  rw [absent]

theorem claim_soldOut (id : Int) (user name : String) (row : Coupon)
    (found : s.coupon? name = some row) (empty : row.remaining = 0) :
    s.ledger.claim id user name = (.error (.noStock name), s.ledger) := by
  have present : s.ledger.coupon? name = some row := found
  unfold Ledger.claim
  rw [present]
  exact if_pos empty

theorem claim_repeated (sound : s.Sound) (id : Int) (user name : String) (row : Coupon)
    (found : s.coupon? name = some row) (stock : 0 < row.remaining)
    (claimed : (user, name) ∈ s.keys) :
    s.ledger.claim id user name = (.error (.alreadyClaimed user name), s.ledger) := by
  have present : s.ledger.coupon? name = some row := found
  have holder : user ∈ (s.ledger.claims name).map (·.user) :=
    (sound.mem_keys user name).mp claimed
  unfold Ledger.claim
  rw [present]
  dsimp only
  rw [if_neg (by omega), if_pos holder]

theorem Grants.ledger {claim : Claim} (grants : s.Grants claim store) :
    store.ledger = s.ledger.grant claim := by
  have coupons : store.coupons = (s.ledger.grant claim).coupons := by
    rw [grants.coupons]
    refine List.map_congr_left fun row member => ?_
    by_cases same : row.name = claim.coupon
    · rw [if_pos same, same, List.count_cons_self, List.count_nil]
      rfl
    · rw [if_neg same, List.count_cons_of_ne (Ne.symm same), List.count_nil]
      simp
  have claims : store.claimsOn = (s.ledger.grant claim).claims := by
    funext name
    change _ = if name = claim.coupon then _ else _
    by_cases same : name = claim.coupon
    · rw [if_pos same, same]
      exact grants.claimsOn_self
    · rw [if_neg same]
      exact grants.claimsOn_of_ne name (Ne.symm same)
  unfold Store.ledger at coupons claims ⊢
  rw [coupons, claims]

/-- A granted claim is what the atomic claim under its id gives. -/
theorem Grants.claim {claim : Claim} (grants : s.Grants claim store) (sound : s.Sound) :
    s.ledger.claim claim.id claim.user claim.coupon = (.ok claim, store.ledger) := by
  obtain ⟨row, found, stock⟩ := grants.stock
  have present : s.ledger.coupon? claim.coupon = some row := found
  have free : claim.user ∉ (s.ledger.claims claim.coupon).map (·.user) := by
    intro member
    exact grants.unclaimed ((sound.mem_keys claim.user claim.coupon).mpr member)
  rw [grants.ledger]
  unfold Ledger.claim
  rw [present]
  dsimp only
  rw [if_neg (by omega), if_neg free]

theorem Sound.unused_next (sound : s.Sound) (name : String) :
    s.ledger.Unused (s.lastId + 1) name := by
  have below : ∀ other, ∀ claim ∈ s.claimsOn other, claim.id < s.lastId + 1 := by
    intro other claim member
    have bound := sound.ids.bound claim (List.mem_filter.mp member).1
    omega
  refine ⟨fun other claim member => ?_, below name⟩
  exact Int.ne_of_lt (below other claim member)

/-- A transaction's staged claim has an unused id if the claims on its coupon have lower ones. -/
theorem Sound.unused_staged (sound : s.Sound) (claim : Claim) (staged : claim ∈ (s.txn t).staged)
    (later : ∀ old ∈ s.claimsOn claim.coupon, old.id < claim.id) :
    s.ledger.Unused claim.id claim.coupon := by
  refine ⟨?_, later⟩
  intro other old member
  exact Ne.symm (sound.ids.apart t claim staged old (List.mem_filter.mp member).1)

end Store

/-- An attempt is turned down in a state in which the atomic claim is. -/
theorem Move.rejects {s store : Store} {t : TxnId} {user coupon : String} {stage : Stage}
    {e : Error} (move : Move user coupon t s stage store (.undoing e)) (sound : s.Sound)
    (supports : s.Supports t user coupon stage) :
    (Entry.attempt user coupon (.answered (.error e))).Executes s.ledger store.ledger := by
  have turnedDown : ∀ id, s.ledger.claim id user coupon = (.error e, store.ledger) := by
    intro id
    have same : s.SameTables store := by
      rcases move.grants supports with ⟨same, -⟩ | ⟨claim, -, settled, -⟩
      · exact same
      · cases settled
    rw [same.ledger]
    cases move with
    | missing missing => exact Store.claim_missing id user coupon missing
    | soldOut row found empty holds => exact Store.claim_soldOut id user coupon row found empty
    | repeated claimed =>
        obtain ⟨row, found, stock⟩ := supports.2.2.stock
        exact Store.claim_repeated sound id user coupon row found stock claimed
  have executes := Entry.Executes.claim s.ledger (s.lastId + 1) user coupon
    (sound.unused_next coupon)
  rw [turnedDown] at executes
  exact executes

end CouponDesk.Memory
