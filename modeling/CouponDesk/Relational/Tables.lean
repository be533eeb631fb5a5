import CouponDesk.Relational.Statement

/-!
# Tables

The two tables of the datastore with their constraints.  A coupon's name is its primary key, its
total is positive and its remaining units lie between zero and the total.  A claim has a row id
one above the largest ever given, its user and coupon are unique together, and its coupon
exists.  A statement that would break a constraint changes nothing.  `exec` carries out any
statement on tables that nobody else is using.
-/

set_option autoImplicit false

namespace CouponDesk.Relational

/-- A row of the table of claims.  The time of creation counts in whatever unit the clock has. -/
structure ClaimRow where
  id : Nat
  user : String
  coupon : String
  createdAt : Int
deriving DecidableEq, Repr

namespace ClaimRow

def claim (row : ClaimRow) : Claim := ⟨row.id, row.user, row.coupon⟩

/-- Whether a row is listed no later than another: by creation time, then by id. -/
def listedBefore (a b : ClaimRow) : Bool :=
  a.createdAt < b.createdAt || (a.createdAt = b.createdAt && a.id ≤ b.id)

end ClaimRow

structure Tables where
  coupons : List Coupon := []
  claims : List ClaimRow := []
  /-- The largest id given to a claim. -/
  lastId : Nat := 0
  schema : List SchemaObject := []
deriving DecidableEq, Repr

namespace Tables

/-! ## Reading -/

def coupon? (t : Tables) (name : String) : Option Coupon :=
  t.coupons.find? (·.name = name)

def claim? (t : Tables) (id : Nat) : Option ClaimRow :=
  t.claims.find? (·.id = id)

def claimsOn (t : Tables) (name : String) : List ClaimRow :=
  t.claims.filter (·.coupon = name)

def users (t : Tables) (name : String) : List String :=
  ((t.claimsOn name).mergeSort ClaimRow.listedBefore).map (·.user)

/-! ## Writing -/

def isSound (row : Coupon) : Bool :=
  0 < row.total && 0 ≤ row.remaining && row.remaining ≤ row.total

/-- Inserts a coupon.  The checks are made before the key is compared. -/
def addCoupon (t : Tables) (row : Coupon) : Except Constraint Tables :=
  if ¬ isSound row then .error .check
  else if (t.coupon? row.name).isSome then .error .unique
  else .ok { t with coupons := t.coupons ++ [row] }

def addClaim (t : Tables) (user coupon : String) (createdAt : Int) :
    Except Constraint (ClaimRow × Tables) :=
  if t.claims.any fun row => row.user = user && row.coupon = coupon then .error .unique
  else if (t.coupon? coupon).isNone then .error .foreignKey
  else
    let row : ClaimRow := ⟨t.lastId + 1, user, coupon, createdAt⟩
    .ok (row, { t with claims := t.claims ++ [row], lastId := t.lastId + 1 })

def canTake (name : String) (row : Coupon) : Bool := row.name = name && 0 < row.remaining

/-- Takes one unit of a coupon that has one left; gives the number of rows changed. -/
def takeUnit (t : Tables) (name : String) : Nat × Tables :=
  ((t.coupons.filter (canTake name)).length,
    { t with coupons := t.coupons.map fun row =>
        if canTake name row then { row with remaining := row.remaining - 1 } else row })

def touched (t : Tables) (name : String) : Nat :=
  (t.coupons.filter (·.name = name)).length

def define (t : Tables) (object : SchemaObject) : Tables :=
  if object ∈ t.schema then t else { t with schema := t.schema ++ [object] }

/-! ## Statements -/

/-- Whether a statement has to write.  To define what is defined already is not a write. -/
def writes (t : Tables) : Statement → Bool
  | .begin | .commit | .rollback => false
  | .findCoupon _ _ | .findClaim _ | .listUsers _ | .countClaims _ => false
  | .touchCoupon _ | .takeUnit _ => true
  | .addCoupon _ _ | .addCouponReturning _ _ => true
  | .addClaim _ _ _ | .addClaimReturning _ _ _ => true
  | .define object => object ∉ t.schema

/-- The reply to a statement, and the tables after it.  Only a statement that succeeds changes
them. -/
def exec (t : Tables) : (q : Statement) → q.Reply × Tables
  | .begin | .commit | .rollback => (.ok (), t)
  | .findCoupon name _ => (.ok (t.coupon? name), t)
  | .touchCoupon name => (.ok ⟨0, t.touched name⟩, t)
  | .takeUnit name =>
      let (affected, after) := t.takeUnit name
      (.ok ⟨0, affected⟩, after)
  | .addCoupon row _ =>
      match t.addCoupon row with
      | .ok after => (.ok ⟨0, 1⟩, after)
      | .error broken => (.error (.violation broken), t)
  | .addCouponReturning row _ =>
      match t.addCoupon row with
      | .ok after => (.ok (some row), after)
      | .error broken => (.error (.violation broken), t)
  | .addClaim user coupon createdAt =>
      match t.addClaim user coupon createdAt with
      | .ok (row, after) => (.ok ⟨row.id, 1⟩, after)
      | .error broken => (.error (.violation broken), t)
  | .addClaimReturning user coupon createdAt =>
      match t.addClaim user coupon createdAt with
      | .ok (row, after) => (.ok (some row.claim), after)
      | .error broken => (.error (.violation broken), t)
  | .findClaim id => (.ok ((t.claim? id).map ClaimRow.claim), t)
  | .listUsers coupon => (.ok (t.users coupon), t)
  | .countClaims coupon => (.ok (t.claimsOn coupon).length, t)
  | .define object => (.ok ⟨0, 0⟩, t.define object)

end Tables

end CouponDesk.Relational
