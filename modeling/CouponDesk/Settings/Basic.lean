import CouponDesk.Error
import CouponDesk.Text.Basic

/-!
# Settings

What the desk can be told: where the datastore is and how many connections to keep, how long a
claim may take and how often it is tried, and which coupons exist from the start.  `validate`
refuses settings that cannot be run with, and reports the first fault.
-/

set_option autoImplicit false

namespace CouponDesk

structure DatabaseSettings where
  url : String := "sqlite://data/coupons.sqlite?mode=rwc"
  maxConnections : Nat := 10
  acquireTimeoutSecs : Nat := 5
deriving DecidableEq, Repr

structure ClaimSettings where
  timeoutMs : Nat := 5000
  maxAttempts : Nat := 3
deriving DecidableEq, Repr

namespace ClaimSettings

def timeout (s : ClaimSettings) : Duration := .ofMillis s.timeoutMs

end ClaimSettings

/-- A coupon to create at the start if it does not exist yet. -/
structure Seed where
  name : String
  amount : Int
deriving DecidableEq, Repr

structure Settings where
  database : DatabaseSettings := {}
  claims : ClaimSettings := {}
  coupons : List Seed := []
deriving DecidableEq, Repr

namespace Seed

/-- What is wrong with a seed: the name is looked at before the amount. -/
def fault? (seed : Seed) : Option ConfigFault :=
  if Text.isBlankText seed.name then some .blankSeedName
  else if seed.amount ≤ 0 then some (.seedAmount seed.name seed.amount)
  else none

end Seed

namespace Settings

def defaultPath : String := "config.toml"

/-- The first fault of the settings: the datastore, then the claims, then the seeds in order. -/
def fault? (s : Settings) : Option ConfigFault :=
  if Text.isBlankText s.database.url then some .blankUrl
  else if s.database.maxConnections = 0 then some .noConnections
  else if s.claims.maxAttempts = 0 then some .noAttempts
  else s.coupons.findSome? Seed.fault?

def validate (s : Settings) : Except Error Unit :=
  match s.fault? with
  | some fault => .error (.config fault)
  | none => .ok ()

end Settings

end CouponDesk
