import CouponDesk.Coupon
import CouponDesk.Json.Reader
import CouponDesk.Json.Value
import CouponDesk.Time.Stamp

/-!
# Rows in JSON

The rows of coupons and claims with their times of creation, as JSON objects.  A row may also be
read from an array of its fields in order.  Every field must be there once; other members are
ignored, whatever they hold.
-/

set_option autoImplicit false

namespace CouponDesk.Json

structure CouponRow where
  coupon : Coupon
  createdAt : Instant
deriving DecidableEq

structure ClaimRow where
  claim : Claim
  createdAt : Instant
deriving DecidableEq

namespace Value

def amount? (v : Value) : Option Int := v.integer?.filter fun n => FitsAmount n

def instant? (v : Value) : Option Instant := v.text?.bind Instant.ofText?

def soleMember? (members : List (Option String × Value)) (name : String) : Option Value :=
  match members.filter (·.1 = some name) with
  | [member] => some member.2
  | _ => none

def row? (names : List String) : Value → Option (List Value)
  | .object members =>
      if members.all (·.1.isSome) then names.mapM (soleMember? members) else none
  | .array items => if items.length = names.length then some items else none
  | _ => none

end Value

namespace CouponRow

def names : List String := ["name", "total_amount", "remaining_amount", "created_at"]

def ofValue? (v : Value) : Option CouponRow := do
  let [name, total, remaining, createdAt] ← v.row? names | none
  return ⟨⟨← name.text?, ← total.amount?, ← remaining.amount?⟩, ← createdAt.instant?⟩

def value (row : CouponRow) : Value :=
  .ofMembers [("name", .text row.coupon.name), ("total_amount", .integer row.coupon.total),
    ("remaining_amount", .integer row.coupon.remaining),
    ("created_at", .text row.createdAt.text)]

def read? (text : String) : Option CouponRow := (Value.read? text).bind ofValue?

def write (row : CouponRow) : String := row.value.write

/-- The units already claimed, unless their number is no signed 64-bit integer. -/
def claimed? (row : CouponRow) : Option Int :=
  if FitsAmount row.coupon.claimed then some row.coupon.claimed else none

end CouponRow

namespace ClaimRow

def names : List String := ["id", "user_id", "coupon_name", "created_at"]

def ofValue? (v : Value) : Option ClaimRow := do
  let [id, user, coupon, createdAt] ← v.row? names | none
  return ⟨⟨← id.amount?, ← user.text?, ← coupon.text?⟩, ← createdAt.instant?⟩

def value (row : ClaimRow) : Value :=
  .ofMembers [("id", .integer row.claim.id), ("user_id", .text row.claim.user),
    ("coupon_name", .text row.claim.coupon), ("created_at", .text row.createdAt.text)]

def read? (text : String) : Option ClaimRow := (Value.read? text).bind ofValue?

def write (row : ClaimRow) : String := row.value.write

end ClaimRow

end CouponDesk.Json
