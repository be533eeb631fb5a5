import CouponDesk.Relational.Faults
import CouponDesk.Run

/-!
# Visits

Runs of the program one after another on one database.  Each comes with its own settings and
arguments, and finds the tables as the one before left them.
-/

set_option autoImplicit false

namespace CouponDesk

open Relational

/-- A session on any datastore: its statements outside transactions, and its claims. -/
def sessionOn {σ : Type} (send : (q : Statement) → StateM σ q.Reply)
    (claim : String → String → StateM σ (Except Error Claim)) (s : Settings)
    (args : List String) : StateM σ Output := do
  match ← Records.createTables send with
  | .error e => return .of "" (.error e)
  | .ok _ =>
      let create := Catalog.create (Records.createCoupon .sqlite send Run.now)
      match ← Session.seed create s.coupons with
      | .error e => return .of "" (.error e)
      | .ok _ =>
          match Command.ofArgs? args with
          | none => return .of "" (.error (.config .usage))
          | some command =>
              let (printed, result) ←
                Session.carryOut claim (Records.details send) s.coupons command
              return .of printed result

/-- The session of a run is one on its pool. -/
theorem session_eq (s : Settings) (args : List String) :
    Run.session s args = sessionOn (Pool.send none) (fun user coupon =>
      Pool.claim Run.now user coupon s.claims.timeout s.claims.maxAttempts) s args := rfl

inductive Course
  /-- As on a pool that nobody else uses. -/
  | plain
  /-- With faults of statements, and with attempts at a claim that are cut off. -/
  | disturbed (faults : List (Option Hitch)) (cuts : List (Option Nat))

/-- A run of the program after it has connected, with settings that passed their validation. -/
structure Visit where
  settings : Settings
  valid : settings.fault? = none
  args : List String
  size : Nat
  readOnly : Bool
  course : Course

namespace Visit

def pool (v : Visit) (t : Tables) : Pool :=
  { committed := t, size := v.size, readOnly := v.readOnly }

def run (v : Visit) (t : Tables) : Output × Tables :=
  match v.course with
  | .plain =>
      let (output, pool) := Run.session v.settings v.args (v.pool t)
      (output, pool.committed)
  | .disturbed faults cuts =>
      let claim (user coupon : String) :=
        FaultyPool.claim Run.now user coupon v.settings.claims.timeout v.settings.claims.maxAttempts
      let (output, s) :=
        sessionOn (FaultyPool.send none) claim v.settings v.args ⟨v.pool t, faults, cuts⟩
      (output, s.pool.committed)

def runAll (visits : List Visit) (t : Tables) : Tables :=
  visits.foldl (fun t v => (v.run t).2) t

end Visit

end CouponDesk
