import CouponDesk.Relational.Address
import CouponDesk.Relational.Pool
import CouponDesk.Session
import CouponDesk.Settings.Parse
import CouponDesk.Text.Quoted

/-!
# Runs of the program

A run starts from files, an environment and arguments.  It loads the environment file and the
settings, makes the folder of the database, connects, defines the tables, seeds, and carries the
command out; the first of these that fails ends it.  What remains is the files after it, what it
printed and its exit code.
-/

set_option autoImplicit false

namespace CouponDesk

namespace Error

/-- An error as it is reported at the end of a failed run.  The datastore's own words are left
out. -/
def report : Error → String
  | .couponNotFound name => "CouponNotFound \x7b name: " ++ Text.quoted name ++ " \x7d"
  | .couponExists name => "CouponExists \x7b name: " ++ Text.quoted name ++ " \x7d"
  | .alreadyClaimed user coupon =>
      "AlreadyClaimed \x7b user_id: " ++ Text.quoted user ++ ", coupon_name: " ++
        Text.quoted coupon ++ " \x7d"
  | .noStock name => "NoStock \x7b name: " ++ Text.quoted name ++ " \x7d"
  | .invalidAmount amount =>
      "InvalidAmount \x7b amount: " ++ String.ofList (Numeral.signed amount) ++ " \x7d"
  | .config fault => "Config \x7b message: " ++ Text.quoted fault.text ++ " \x7d"
  | .timeout coupon deadline =>
      "Timeout \x7b coupon_name: " ++ Text.quoted coupon ++ ", deadline: " ++ deadline.text ++
        " \x7d"
  | .database _ => "Database"
  | .transient fault => "Transient \x7b message: " ++ Text.quoted fault.text ++ " \x7d"

end Error

structure Output where
  exitCode : Nat
  printed : String
  reported : String
deriving DecidableEq, Repr

namespace Output

def of (printed : String) : Except Error Unit → Output
  | .ok _ => ⟨0, printed, ""⟩
  | .error e => ⟨1, printed, "Error: " ++ e.report⟩

end Output

namespace Run

open Relational

def environmentPath : String := ".env"

def environment (files : Files) (env : Environment) : Environment :=
  match files.readBytes environmentPath with
  | .ok content => env.load content
  | .error _ => env

def folder? (url : String) : Option String := (Address.plainPath? url).bind Files.parent?

def makeFolder (files : Files) (url : String) : Except Error Files :=
  match folder? url with
  | none => .ok files
  | some path =>
      match files.makeFolders path with
      | .ok files => .ok files
      | .error fault => .error (.config (.noFolder path fault))

def unreachable : DatabaseFault := .connection "unable to open the database"

/-- The tables at a path, if they can be opened.  An empty file holds empty tables. -/
def openTables (files : Files) (path : String) (access : Access) : Except DatabaseFault Tables :=
  match files.locate path with
  | .error _ => .error unreachable
  | .ok place =>
      match files.root.find? place, access with
      | some (.database tables), _ => .ok tables
      | some (.file []), _ => .ok {}
      | none, .create => .ok {}
      | _, _ => .error unreachable

/-- The number of connections in a pool.  Every connection to the memory sees tables of its own, so
there is only one. -/
def poolSize (s : DatabaseSettings) : Nat :=
  if Text.contains ":memory:".toList s.url.toList then 1 else s.maxConnections

/-- Opens a pool of connections to the datastore that settings name.  A pool without connections,
or without time to get one, cannot be used. -/
def connect (files : Files) (s : DatabaseSettings) : Except DatabaseFault (Address × Pool) := do
  let some address := Address.ofUrl? s.url | .error unreachable
  let committed ← match address.place with
    | .memory => pure {}
    | .file path => openTables files path address.access
  if s.acquireTimeoutSecs = 0 ∨ poolSize s = 0 then .error .poolTimedOut
  return (address,
    { committed, size := poolSize s, readOnly := address.isReadOnly })

/-- The files after the tables behind an address were left in a state. -/
def keep (files : Files) (address : Address) (tables : Tables) : Files :=
  match address.place with
  | .memory => files
  | .file path => if address.access = .readOnly then files else files.write path (.database tables)

/-- The time of creation of what a run creates.  Rows of equal times are listed in the order of
their ids. -/
def now : Int := 0

def session (s : Settings) (args : List String) : StateM Pool Output := do
  match ← Records.createTables (Pool.send none) with
  | .error e => return .of "" (.error e)
  | .ok _ =>
      let create := Catalog.create (Records.createCoupon .sqlite (Pool.send none) now)
      match ← Session.seed create s.coupons with
      | .error e => return .of "" (.error e)
      | .ok _ =>
          match Command.ofArgs? args with
          | none => return .of "" (.error (.config .usage))
          | some command =>
              let claim (user coupon : String) :=
                Pool.claim now user coupon s.claims.timeout s.claims.maxAttempts
              let (printed, result) ←
                Session.carryOut claim (Records.details (Pool.send none)) s.coupons command
              return .of printed result

def paths (files : Files) (env : Environment) : List String :=
  match Settings.loadAll files (environment files env) with
  | .error _ => []
  | .ok s =>
      (folder? s.database.url).toList ++
        match (Address.ofUrl? s.database.url).map (·.place) with
        | some (.file path) => [path]
        | _ => []

end Run

def run (files : Files) (env : Environment) (args : List String) : Output × Files :=
  match Settings.loadAll files (Run.environment files env) with
  | .error e => (.of "" (.error e), files)
  | .ok s =>
      match Run.makeFolder files s.database.url with
      | .error e => (.of "" (.error e), files)
      | .ok files =>
          match Run.connect files s.database with
          | .error f => (.of "" (.error (.database f)), files)
          | .ok (address, pool) =>
              let (output, pool) := Run.session s args pool
              (output, Run.keep files address pool.committed)

end CouponDesk
