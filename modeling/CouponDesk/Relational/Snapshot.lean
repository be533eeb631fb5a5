import CouponDesk.Json.Reader
import CouponDesk.Json.Value
import CouponDesk.Relational.Tables

/-!
# Snapshots

Tables as a text in which they can be kept between runs: a JSON object with the rows as arrays.
-/

set_option autoImplicit false

namespace CouponDesk.Relational

namespace SchemaObject

def word : SchemaObject → String
  | .couponTable => "coupons"
  | .claimTable => "claims"
  | .claimKey => "claim_key"
  | .claimsByCoupon => "claims_by_coupon"

def ofWord? (word : String) : Option SchemaObject :=
  [couponTable, claimTable, claimKey, claimsByCoupon].find? fun object => object.word = word

end SchemaObject

namespace Tables

open Json (Value)

def couponValue (row : Coupon) : Value :=
  .array [.text row.name, .integer row.total, .integer row.remaining]

def couponOf? (v : Value) : Option Coupon := do
  let [name, total, remaining] ← v.items? | none
  return ⟨← name.text?, ← total.integer?, ← remaining.integer?⟩

def claimValue (row : ClaimRow) : Value :=
  .array [.integer row.id, .text row.user, .text row.coupon, .integer row.createdAt]

def claimOf? (v : Value) : Option ClaimRow := do
  let [id, user, coupon, createdAt] ← v.items? | none
  return ⟨(← id.integer?).toNat, ← user.text?, ← coupon.text?, ← createdAt.integer?⟩

def snapshot (t : Tables) : String :=
  (Value.ofMembers [("coupons", .array (t.coupons.map couponValue)),
    ("claims", .array (t.claims.map claimValue)), ("last_id", .integer t.lastId),
    ("schema", .array (t.schema.map fun object => .text object.word))]).write

def ofSnapshot? (text : String) : Option Tables := do
  let v ← Value.read? text
  let rows (name : String) : Option (List Value) := (v.member? name).bind Value.items?
  return {
    coupons := ← (← rows "coupons").mapM couponOf?
    claims := ← (← rows "claims").mapM claimOf?
    lastId := (← (v.member? "last_id").bind Value.integer?).toNat
    schema := ← (← rows "schema").mapM fun word => word.text?.bind SchemaObject.ofWord? }

end Tables

end CouponDesk.Relational
