import CouponDesk.Coupon
import CouponDesk.Settings.Basic

/-!
# Decoding settings

Settings are decoded from any kind of tree whose values can be looked at as texts, integers,
lists and records.  A record of settings may also be written as the list of its fields in order.
Unknown fields are ignored, missing ones take their default, and a known field must have the
right type and range; only a seed has no defaults.
-/

set_option autoImplicit false

namespace CouponDesk

inductive Shape (α : Type)
  | text (text : String)
  | integer (value : Int)
  | list (items : List α)
  | record (fields : List (String × α))
  | other

structure View (α : Type) where
  shape : α → Shape α
  /-- Whether a record written as a list may have more items than fields. -/
  allowsExtra : Bool

namespace View

variable {α β : Type} (view : View α)

def text? (v : α) : Option String :=
  match view.shape v with
  | .text text => some text
  | _ => none

def natural? (limit : Nat) (v : α) : Option Nat :=
  match view.shape v with
  | .integer n => if 0 ≤ n ∧ n < limit then some n.toNat else none
  | _ => none

def amount? (v : α) : Option Int :=
  match view.shape v with
  | .integer n => if FitsAmount n then some n else none
  | _ => none

def list? (read : α → Option β) (v : α) : Option (List β) :=
  match view.shape v with
  | .list items => items.mapM read
  | _ => none

/-- The field of a record with a name; of repeated ones the last. -/
def field? (fields : List (String × α)) (name : String) : Option α :=
  fields.reverse.lookup name

def fields? (names : List String) (v : α) : Option (List (Option α)) :=
  match view.shape v with
  | .record fields => some (names.map (field? fields))
  | .list items =>
      if names.length < items.length ∧ ¬ view.allowsExtra then none
      else some ((List.range names.length).map fun i => items[i]?)
  | _ => none

def orElse (default : β) (read : α → Option β) : Option α → Option β
  | none => some default
  | some v => read v

def database? (v : α) : Option DatabaseSettings := do
  let [url, connections, seconds] ←
    view.fields? ["url", "max_connections", "acquire_timeout_secs"] v | none
  let default : DatabaseSettings := {}
  return {
    url := ← orElse default.url view.text? url
    maxConnections := ← orElse default.maxConnections (view.natural? (Nat.pow 2 32)) connections
    acquireTimeoutSecs := ← orElse default.acquireTimeoutSecs (view.natural? (Nat.pow 2 64)) seconds }

def claims? (v : α) : Option ClaimSettings := do
  let [timeout, attempts] ← view.fields? ["timeout_ms", "max_attempts"] v | none
  let default : ClaimSettings := {}
  return {
    timeoutMs := ← orElse default.timeoutMs (view.natural? (Nat.pow 2 64)) timeout
    maxAttempts := ← orElse default.maxAttempts (view.natural? (Nat.pow 2 32)) attempts }

def seed? (v : α) : Option Seed := do
  let [some name, some amount] ← view.fields? ["name", "amount"] v | none
  return { name := ← view.text? name, amount := ← view.amount? amount }

def settings? (v : α) : Option Settings := do
  let [database, claims, coupons] ← view.fields? ["database", "claims", "coupons"] v | none
  return {
    database := ← orElse {} view.database? database
    claims := ← orElse {} view.claims? claims
    coupons := ← orElse [] (view.list? view.seed?) coupons }

end View

end CouponDesk
