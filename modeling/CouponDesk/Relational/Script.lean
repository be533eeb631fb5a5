import CouponDesk.Relational.Records
import CouponDesk.Relational.Wording

/-!
# Scripted answers

A datastore that answers from a script: what reads rows takes the next entry of one queue, what
writes takes the next entry of another, and the statements themselves are only logged.  So a
sequence of statements can be watched under any sequence of answers.  Transactions nest, the
inner ones as savepoints; a whole transaction is one entry of the log, written when it ends.
-/

set_option autoImplicit false

namespace CouponDesk.Relational

inductive ScriptRow
  | coupon (row : Coupon)
  | claim (claim : Claim)
  | user (user : String)
  | count (count : Int)
deriving DecidableEq, Repr

/-- The answers still to be given and the statements received. -/
structure Script where
  queries : List (Except DatabaseFault (List ScriptRow)) := []
  effects : List (Except DatabaseFault Effect) := []
  depth : Nat := 0
  /-- What the open transactions have sent so far. -/
  pending : List Wording := []
  log : List (List Wording) := []
  /-- The time spent on pauses, in milliseconds. -/
  elapsed : Nat := 0

namespace Script

/-! ## The log -/

/-- Logs a statement, in the entry of the open transaction or as an entry of its own. -/
def record (s : Script) (w : Wording) : Script :=
  if s.depth = 0 then { s with log := s.log ++ [[w]] } else { s with pending := s.pending ++ [w] }

def bare (text : String) : Wording := ⟨text, []⟩

/-- The savepoint of the transaction inside `depth` others. -/
def savepoint (depth : Nat) : String := "savepoint_" ++ String.ofList (Numeral.digits depth)

def openTxn (s : Script) : Script :=
  let w := if s.depth = 0 then "BEGIN" else "SAVEPOINT " ++ savepoint s.depth
  { s with depth := s.depth + 1, pending := s.pending ++ [bare w] }

def closeTxn (s : Script) (whole inner : String) : Script :=
  match s.depth with
  | 0 => s
  | 1 => { s with depth := 0, pending := [], log := s.log ++ [s.pending ++ [bare whole]] }
  | depth + 1 =>
      { s with depth, pending := s.pending ++ [bare (inner ++ " " ++ savepoint depth)] }

/-! ## Answers -/

/-- The fault of a row without the columns asked for. -/
def misfit : DatabaseFault := .query "the row lacks a column"

def asCoupon : ScriptRow → Except DatabaseFault Coupon
  | .coupon row => .ok row
  | _ => .error misfit

def asClaim : ScriptRow → Except DatabaseFault Claim
  | .claim claim => .ok claim
  | _ => .error misfit

def asUser : ScriptRow → Except DatabaseFault String
  | .user user => .ok user
  | _ => .error misfit

/-- A row that holds a count, which is an unsigned 64-bit number. -/
def asCount : ScriptRow → Except DatabaseFault Nat
  | .count count => .ok (count % 18446744073709551616).toNat
  | _ => .error misfit

def first {α : Type} (read : ScriptRow → Except DatabaseFault α) (rows : List ScriptRow) :
    Except DatabaseFault (Option α) :=
  match rows with
  | [] => .ok none
  | row :: _ => (read row).map some

def nextQuery (s : Script) : Except DatabaseFault (List ScriptRow) × Script :=
  match s.queries with
  | [] => (.error (.query "`query_results` buffer is empty."), s)
  | answer :: rest => (answer, { s with queries := rest })

def nextEffect (s : Script) : Except DatabaseFault Effect × Script :=
  match s.effects with
  | [] => (.error (.execution "`exec_results` buffer is empty"), s)
  | answer :: rest => (answer, { s with effects := rest })

def answer {α : Type} (s : Script) (read : List ScriptRow → Except DatabaseFault α) :
    Except DatabaseFault α × Script :=
  let (rows, s) := s.nextQuery
  (rows.bind read, s)

def send (d : Dialect) (q : Statement) : StateM Script q.Reply := fun s =>
  let logged := s.record (q.wording d)
  match q with
  | .begin => (.ok (), s.openTxn)
  | .commit => (.ok (), s.closeTxn "COMMIT" "RELEASE SAVEPOINT")
  | .rollback => (.ok (), s.closeTxn "ROLLBACK" "ROLLBACK TO SAVEPOINT")
  | .findCoupon _ _ | .addCouponReturning _ _ => logged.answer (first asCoupon)
  | .findClaim _ | .addClaimReturning _ _ _ => logged.answer (first asClaim)
  | .listUsers _ => logged.answer (List.mapM asUser)
  | .countClaims _ => logged.answer fun rows => (first asCount rows).map (·.getD 0)
  | .touchCoupon _ | .takeUnit _ | .addCoupon _ _ | .addClaim _ _ _ | .define _ =>
      logged.nextEffect

/-! ## Claims -/

def pause (ms : Nat) : StateM Script Unit := fun s => ((), { s with elapsed := s.elapsed + ms })

def claimOnce (d : Dialect) (user coupon : String) : StateM Script (Except Error Claim) :=
  attempt (Records.perform d (send d) 0) user coupon

def claim (d : Dialect) (user coupon : String) (maxAttempts : Nat) :
    StateM Script (Except Error Claim × Nat) := do
  let started := (← get).elapsed
  let result ← Retry.run pause (claimOnce d user coupon) maxAttempts
  return (result, (← get).elapsed - started)

/-- Several claims at once.  Attempts take no time, so those with one number are made together,
in the order of the list, and all that are repeated pause equally long. -/
def claimAll (d : Dialect) (requests : List (String × String)) (maxAttempts : Nat) :
    StateM Script (List (Except Error Claim × Nat)) := do
  let started := (← get).elapsed
  Retry.runTogether pause (fun (user, coupon) => claimOnce d user coupon)
    (fun result => return (result, (← get).elapsed - started)) requests maxAttempts

end Script

end CouponDesk.Relational
