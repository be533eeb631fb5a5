import CouponDesk.Error

/-!
# Coupons and claims

A coupon is a named, limited stock; a claim records that one user obtained one unit of it.
The details of a coupon are its stock together with the users who hold a claim.  Besides claiming
there are two services, on any store: to create a coupon, and to read its details.
-/

set_option autoImplicit false

namespace CouponDesk

structure Coupon where
  name : String
  total : Int
  remaining : Int
deriving DecidableEq, Repr

namespace Coupon

def fresh (name : String) (amount : Int) : Coupon := ⟨name, amount, amount⟩

def claimed (c : Coupon) : Int := c.total - c.remaining

end Coupon

structure Claim where
  id : Int
  user : String
  coupon : String
deriving DecidableEq, Repr

namespace Claim

/-- The pair that at most one claim may have. -/
def key (c : Claim) : String × String := (c.user, c.coupon)

end Claim

structure Details where
  name : String
  total : Int
  remaining : Int
  claimants : List String
deriving DecidableEq, Repr

namespace Details

def of (coupon : Coupon) (claimants : List String) : Details :=
  ⟨coupon.name, coupon.total, coupon.remaining, claimants⟩

end Details

def firstOccurrences (users : List String) : List String :=
  users.foldl (fun seen user => if user ∈ seen then seen else seen ++ [user]) []

def FitsAmount (n : Int) : Prop := -9223372036854775808 ≤ n ∧ n < 9223372036854775808

instance (n : Int) : Decidable (FitsAmount n) := inferInstanceAs (Decidable (_ ∧ _))

/-! ## Services -/

namespace Catalog

variable {m : Type → Type} [Monad m]

/-- Creates a coupon; an amount that is not positive never reaches the store. -/
def create (store : String → Int → m (Except Error Coupon)) (name : String) (amount : Int) :
    m (Except Error Coupon) :=
  if amount ≤ 0 then pure (.error (.invalidAmount amount)) else store name amount

def details (row : String → m (Except Error Coupon))
    (claimants : String → m (Except Error (List String))) (name : String) :
    m (Except Error Details) := do
  match ← row name with
  | .error e => return .error e
  | .ok coupon =>
      match ← claimants name with
      | .error e => return .error e
      | .ok users => return .ok (.of coupon users)

end Catalog

end CouponDesk
