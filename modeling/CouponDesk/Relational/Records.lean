import CouponDesk.Claiming.Retry
import CouponDesk.Coupon
import CouponDesk.Relational.Statement

/-!
# Records

The operations on coupon and claim records as sequences of statements.  They are written for any
way of sending statements, so the same sequences run inside a transaction or outside one, on a
real datastore or on scripted answers.  A broken constraint is turned into the domain's own
error; every other fault stays a fault of the datastore.
-/

set_option autoImplicit false

namespace CouponDesk.Relational.Records

variable {m : Type → Type} [Monad m]

def fault {α : Type} (f : DatabaseFault) : Except Error α := .error (.database f)

/-- The fault of an insert after which the inserted row cannot be found. -/
def insertedMissing : DatabaseFault := .recordNotFound "Failed to find inserted item"

def findCoupon (send : (q : Statement) → m q.Reply) (name : String) :
    m (Except Error (Option Coupon)) := do
  match ← send (.findCoupon name false) with
  | .ok row? => return .ok row?
  | .error f => return fault f

def addCoupon (dialect : Dialect) (send : (q : Statement) → m q.Reply) (row : Coupon)
    (now : Int) : m (Except DatabaseFault Coupon) := do
  if dialect.returnsInserted then
    match ← send (.addCouponReturning row now) with
    | .ok (some row) => return .ok row
    | .ok none => return .error insertedMissing
    | .error f => return .error f
  else
    match ← send (.addCoupon row now) with
    | .error f => return .error f
    | .ok effect =>
        if effect.affected = 0 then return .error .nothingInserted
        match ← send (.findCoupon row.name false) with
        | .ok (some row) => return .ok row
        | .ok none => return .error insertedMissing
        | .error f => return .error f

/-- Creates a coupon with its full stock.  The primary key decides whether the name is taken. -/
def createCoupon (dialect : Dialect) (send : (q : Statement) → m q.Reply) (now : Int)
    (name : String) (amount : Int) : m (Except Error Coupon) := do
  if amount ≤ 0 then return .error (.invalidAmount amount)
  match ← addCoupon dialect send (.fresh name amount) now with
  | .ok row => return .ok row
  | .error (.violation .unique) => return .error (.couponExists name)
  | .error f => return fault f

/-- Reads a coupon and locks it until the transaction ends.  Where rows cannot be locked, a write
that changes nothing takes the lock of the whole datastore before the row is read. -/
def findForUpdate (dialect : Dialect) (send : (q : Statement) → m q.Reply) (name : String) :
    m (Except Error (Option Coupon)) := do
  if dialect.locksRows then
    match ← send (.findCoupon name true) with
    | .ok row? => return .ok row?
    | .error f => return fault f
  else
    match ← send (.touchCoupon name) with
    | .error f => return fault f
    | .ok _ => findCoupon send name

def takeUnit (send : (q : Statement) → m q.Reply) (name : String) : m (Except Error Coupon) := do
  match ← send (.takeUnit name) with
  | .error f => return fault f
  | .ok effect =>
      match ← findCoupon send name with
      | .error e => return .error e
      | .ok none => return .error (.couponNotFound name)
      | .ok (some row) =>
          if effect.affected = 0 then return .error (.noStock name) else return .ok row

def addClaim (dialect : Dialect) (send : (q : Statement) → m q.Reply) (user coupon : String)
    (now : Int) : m (Except DatabaseFault Claim) := do
  if dialect.returnsInserted then
    match ← send (.addClaimReturning user coupon now) with
    | .ok (some claim) => return .ok claim
    | .ok none => return .error insertedMissing
    | .error f => return .error f
  else
    match ← send (.addClaim user coupon now) with
    | .error f => return .error f
    | .ok effect =>
        if effect.affected = 0 then return .error .nothingInserted
        if Nat.pow 2 63 ≤ effect.lastId then return .error .insertIdUnreadable
        match ← send (.findClaim effect.lastId) with
        | .ok (some claim) => return .ok claim
        | .ok none => return .error insertedMissing
        | .error f => return .error f

/-- Records a claim.  The unique index decides whether the user holds one already, and the
foreign key whether the coupon exists. -/
def insertClaim (dialect : Dialect) (send : (q : Statement) → m q.Reply) (now : Int)
    (user coupon : String) : m (Except Error Claim) := do
  match ← addClaim dialect send user coupon now with
  | .ok claim => return .ok claim
  | .error (.violation .unique) => return .error (.alreadyClaimed user coupon)
  | .error (.violation .foreignKey) => return .error (.couponNotFound coupon)
  | .error f => return fault f

def claimants (send : (q : Statement) → m q.Reply) (coupon : String) :
    m (Except Error (List String)) := do
  match ← send (.listUsers coupon) with
  | .ok users => return .ok (firstOccurrences users)
  | .error f => return fault f

def count (send : (q : Statement) → m q.Reply) (coupon : String) : m (Except Error Nat) := do
  match ← send (.countClaims coupon) with
  | .ok n => return .ok n
  | .error f => return fault f

def defineAll (send : (q : Statement) → m q.Reply) :
    List SchemaObject → m (Except Error Unit)
  | [] => return .ok ()
  | object :: rest => do
      match ← send (.define object) with
      | .ok _ => defineAll send rest
      | .error f => return fault f

def createTables (send : (q : Statement) → m q.Reply) : m (Except Error Unit) :=
  defineAll send [.couponTable, .claimTable, .claimKey, .claimsByCoupon]

/-! ## As a store -/

def required (name : String) : Except Error (Option Coupon) → Except Error Coupon
  | .ok (some row) => .ok row
  | .ok none => .error (.couponNotFound name)
  | .error e => .error e

def get (send : (q : Statement) → m q.Reply) (name : String) : m (Except Error Coupon) := do
  return required name (← findCoupon send name)

def lock (dialect : Dialect) (send : (q : Statement) → m q.Reply) (name : String) :
    m (Except Error Coupon) := do
  return required name (← findForUpdate dialect send name)

def details (send : (q : Statement) → m q.Reply) (name : String) : m (Except Error Details) :=
  Catalog.details (get send) (claimants send) name

def perform (dialect : Dialect) (send : (q : Statement) → m q.Reply) (now : Int) :
    (r : Request) → m r.Reply
  | .begin => do return (← send .begin).mapError .database
  | .lock coupon => lock dialect send coupon
  | .insert user coupon => insertClaim dialect send now user coupon
  | .decrement coupon => takeUnit send coupon
  | .commit => do return (← send .commit).mapError .database
  | .rollback => do return (← send .rollback).mapError .database

end CouponDesk.Relational.Records
