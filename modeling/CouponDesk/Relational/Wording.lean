import CouponDesk.Relational.Statement
import CouponDesk.Text.Basic

/-!
# The wording of statements

Every statement as the text and the bound values that a datastore of a given kind receives.  The
wording is put together from fragments: words, quoted names, and values, which leave a
placeholder in the text.
-/

set_option autoImplicit false

namespace CouponDesk.Relational

/-- A value bound to a placeholder.  A time stamp is the time of sending. -/
inductive Bound
  | text (value : String)
  | integer (value : Int)
  | timestamp
deriving DecidableEq, Repr

inductive Fragment
  | words (text : String)
  | name (identifier : String)
  | bound (value : Bound)
deriving DecidableEq, Repr

structure Wording where
  text : String
  values : List Bound
deriving DecidableEq, Repr

namespace Dialect

def quote : Dialect → String
  | .mysql => "`"
  | .postgres | .sqlite => "\""

/-- The placeholder of the value with a number, counted from one. -/
def placeholder : Dialect → Nat → String
  | .postgres, n => "$" ++ String.ofList (Numeral.digits n)
  | .mysql, _ | .sqlite, _ => "?"

/-- The text of fragments, the next placeholder having number `n`. -/
def textFrom (d : Dialect) (n : Nat) : List Fragment → String
  | [] => ""
  | .words text :: rest => text ++ d.textFrom n rest
  | .name identifier :: rest => d.quote ++ identifier ++ d.quote ++ d.textFrom n rest
  | .bound _ :: rest => d.placeholder n ++ d.textFrom (n + 1) rest

end Dialect

namespace Wording

def value? : Fragment → Option Bound
  | .bound value => some value
  | _ => none

def ofFragments (d : Dialect) (fragments : List Fragment) : Wording :=
  ⟨d.textFrom 1 fragments, fragments.filterMap value?⟩

/-! ## Names and lists -/

def listed : List (List Fragment) → List Fragment
  | [] => []
  | [item] => item
  | item :: rest => item ++ .words ", " :: listed rest

def column (table name : String) : List Fragment := [.name table, .words ".", .name name]

def couponColumns : List String := ["name", "total_amount", "remaining_amount", "created_at"]

def claimColumns : List String := ["id", "user_id", "coupon_name", "created_at"]

def select (table : String) (columns : List String) (key : String) (value : Bound) :
    List Fragment :=
  .words "SELECT " :: listed (columns.map (column table)) ++
    [.words " FROM ", .name table, .words " WHERE "] ++ column table key ++
    [.words " = ", .bound value]

def selectOne (table : String) (columns : List String) (key : String) (value : Bound) :
    List Fragment :=
  select table columns key value ++ [.words " LIMIT ", .bound (.integer 1)]

def insert (table : String) (row : List (String × Bound)) : List Fragment :=
  [.words "INSERT INTO ", .name table, .words " ("] ++
    listed (row.map fun entry => [.name entry.1]) ++ .words ") VALUES (" ::
    listed (row.map fun entry => [.bound entry.2]) ++ [.words ")"]

def returning (columns : List String) : List Fragment :=
  .words " RETURNING " :: listed (columns.map fun name => [.name name])

def couponValues (row : Coupon) : List (String × Bound) :=
  [("name", .text row.name), ("total_amount", .integer row.total),
    ("remaining_amount", .integer row.remaining), ("created_at", .timestamp)]

def claimValues (user coupon : String) : List (String × Bound) :=
  [("user_id", .text user), ("coupon_name", .text coupon), ("created_at", .timestamp)]

/-! ## The schema -/

def claimKeyName : String := "idx_claims_user_coupon"

def claimsByCouponName : String := "idx-claims-coupon_name"

def textType : Dialect → String
  | .mysql => "varchar(255)"
  | .postgres | .sqlite => "varchar"

def timeType : Dialect → String
  | .postgres => "timestamp with time zone"
  | .mysql => "timestamp"
  | .sqlite => "timestamp_with_timezone_text"

def rowIdType : Dialect → String
  | .postgres => "bigserial NOT NULL PRIMARY KEY"
  | .mysql => "bigint NOT NULL AUTO_INCREMENT PRIMARY KEY"
  | .sqlite => "integer NOT NULL PRIMARY KEY AUTOINCREMENT"

def unlessExists (d : Dialect) (object : SchemaObject) : String :=
  match d, object with
  | .mysql, .claimKey | .mysql, .claimsByCoupon => ""
  | _, _ => "IF NOT EXISTS "

def foreignKeyName : Dialect → List Fragment
  | .sqlite => []
  | .postgres | .mysql => [.words "CONSTRAINT ", .name "fk-claims-coupon_name", .words " "]

def check (name comparison : String) (bound : List Fragment) : List Fragment :=
  [.words "CHECK (", .name name, .words comparison] ++ bound ++ [.words ")"]

def definition (d : Dialect) (object : SchemaObject) : List Fragment :=
  match object with
  | .couponTable =>
      [.words ("CREATE TABLE " ++ unlessExists d object), .name "coupons", .words " ( "] ++
        listed [
          [.name "name", .words (" " ++ textType d ++ " NOT NULL PRIMARY KEY")],
          [.name "total_amount", .words " bigint NOT NULL"],
          [.name "remaining_amount", .words " bigint NOT NULL"],
          [.name "created_at", .words (" " ++ timeType d ++ " NOT NULL")],
          check "total_amount" " > " [.words "0"],
          check "remaining_amount" " >= " [.words "0"],
          check "remaining_amount" " <= " [.name "total_amount"]] ++
        [.words " )"]
  | .claimTable =>
      [.words ("CREATE TABLE " ++ unlessExists d object), .name "claims", .words " ( "] ++
        listed [
          [.name "id", .words (" " ++ rowIdType d)],
          [.name "user_id", .words (" " ++ textType d ++ " NOT NULL")],
          [.name "coupon_name", .words (" " ++ textType d ++ " NOT NULL")],
          [.name "created_at", .words (" " ++ timeType d ++ " NOT NULL")],
          foreignKeyName d ++ [.words "FOREIGN KEY (", .name "coupon_name",
            .words ") REFERENCES ", .name "coupons", .words " (", .name "name", .words ")"]] ++
        [.words " )"]
  | .claimKey =>
      [.words ("CREATE UNIQUE INDEX " ++ unlessExists d object), .name claimKeyName,
        .words " ON ", .name "claims", .words " (", .name "user_id", .words ", ",
        .name "coupon_name", .words ")"]
  | .claimsByCoupon =>
      [.words ("CREATE INDEX " ++ unlessExists d object), .name claimsByCouponName,
        .words " ON ", .name "claims", .words " (", .name "coupon_name", .words ")"]

end Wording

namespace Statement

def fragments (d : Dialect) : Statement → List Fragment
  | .begin => [.words "BEGIN"]
  | .commit => [.words "COMMIT"]
  | .rollback => [.words "ROLLBACK"]
  | .findCoupon name locking =>
      Wording.selectOne "coupons" Wording.couponColumns "name" (.text name) ++
        if locking then [.words " FOR UPDATE"] else []
  | .touchCoupon name =>
      [.words "UPDATE ", .name "coupons", .words " SET ", .name "remaining_amount",
        .words " = ", .name "remaining_amount", .words " WHERE "] ++
        Wording.column "coupons" "name" ++ [.words " = ", .bound (.text name)]
  | .takeUnit name =>
      [.words "UPDATE ", .name "coupons", .words " SET ", .name "remaining_amount",
        .words " = ", .name "remaining_amount", .words " - ", .bound (.integer 1),
        .words " WHERE "] ++
        Wording.column "coupons" "name" ++ [.words " = ", .bound (.text name), .words " AND "] ++
        Wording.column "coupons" "remaining_amount" ++ [.words " > ", .bound (.integer 0)]
  | .addCoupon row _ => Wording.insert "coupons" (Wording.couponValues row)
  | .addCouponReturning row _ =>
      Wording.insert "coupons" (Wording.couponValues row) ++
        Wording.returning Wording.couponColumns
  | .addClaim user coupon _ => Wording.insert "claims" (Wording.claimValues user coupon)
  | .addClaimReturning user coupon _ =>
      Wording.insert "claims" (Wording.claimValues user coupon) ++
        Wording.returning Wording.claimColumns
  | .findClaim id => Wording.selectOne "claims" Wording.claimColumns "id" (.integer id)
  | .listUsers coupon =>
      Wording.select "claims" ["user_id"] "coupon_name" (.text coupon) ++ .words " ORDER BY " ::
        Wording.column "claims" "created_at" ++ .words " ASC, " ::
        Wording.column "claims" "id" ++ [.words " ASC"]
  | .countClaims coupon =>
      .words "SELECT COUNT(*) AS num_items FROM (" ::
        Wording.select "claims" Wording.claimColumns "coupon_name" (.text coupon) ++
        [.words ") AS ", .name "sub_query"]
  | .define object => Wording.definition d object

def wording (d : Dialect) (q : Statement) : Wording := .ofFragments d (q.fragments d)

end Statement

end CouponDesk.Relational
