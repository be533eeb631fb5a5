import CouponDesk.Text.Basic

/-!
# Causes of failure

What can be wrong with a file, with the configuration, inside the datastore, and with a
transaction; each cause has one text.
-/

set_option autoImplicit false

namespace CouponDesk

/-- Why a file cannot be read or a folder cannot be made.  Refused access is left out: there are no
permissions and no links here. -/
inductive FileFault
  | missing
  | exists
  | notFolder
  | isFolder
  | nameTooLong
  | nulInName
  | notText
deriving DecidableEq, Repr

namespace FileFault

def text : FileFault → String
  | .missing => "No such file or directory (os error 2)"
  | .exists => "File exists (os error 17)"
  | .notFolder => "Not a directory (os error 20)"
  | .isFolder => "Is a directory (os error 21)"
  | .nameTooLong => "File name too long (os error 36)"
  | .nulInName => "file name contained an unexpected NUL byte"
  | .notText => "stream did not contain valid UTF-8"

end FileFault

inductive ConfigFault
  | unreadable (path : String) (fault : FileFault)
  /-- The text is no well-formed document, or a known key has the wrong type or range.  The parser's
  own words, which follow the text of this fault, are left out. -/
  | malformed
  | blankUrl
  | noConnections
  | noAttempts
  | blankSeedName
  | seedAmount (name : String) (amount : Int)
  | noFolder (path : String) (fault : FileFault)
  | usage
  | other (message : String)
deriving DecidableEq, Repr

namespace ConfigFault

def text : ConfigFault → String
  | .unreadable path fault => "Failed to read config file " ++ path ++ ": " ++ fault.text
  | .malformed => "Failed to parse config.toml"
  | .blankUrl => "database.url cannot be empty"
  | .noConnections => "database.max_connections must be at least 1"
  | .noAttempts => "claims.max_attempts must be at least 1"
  | .blankSeedName => "seeded coupon name cannot be empty"
  | .seedAmount name amount =>
      "seeded coupon " ++ name ++ " must have a positive amount, got " ++
        String.ofList (Numeral.signed amount)
  | .noFolder path fault => "Cannot create " ++ path ++ ": " ++ fault.text
  | .usage => "usage: coupon-claims [claim <COUPON> <USER> | show <COUPON>]"
  | .other message => message

end ConfigFault

inductive Constraint
  | unique
  | foreignKey
  | check
deriving DecidableEq, Repr

inductive DatabaseFault
  | custom (text : String)
  | connection (text : String)
  | execution (text : String)
  | query (text : String)
  | recordNotFound (text : String)
  | attributeNotSet (name : String)
  | type (text : String)
  | json (text : String)
  | migration (text : String)
  /-- No pooled connection became free in time. -/
  | poolTimedOut
  | poolClosed
  /-- The id the datastore gave to a new row is no signed 64-bit number. -/
  | insertIdUnreadable
  | updateWithoutKey
  | nothingInserted
  | nothingUpdated
  | violation (constraint : Constraint)
deriving DecidableEq, Repr

namespace DatabaseFault

def text : DatabaseFault → String
  | .custom text => "Custom Error: " ++ text
  | .connection text => "Connection Error: " ++ text
  | .execution text => "Execution Error: " ++ text
  | .query text => "Query Error: " ++ text
  | .recordNotFound text => "RecordNotFound Error: " ++ text
  | .attributeNotSet name => "Attribute " ++ name ++ " is NotSet"
  | .type text => "Type Error: " ++ text
  | .json text => "Json Error: " ++ text
  | .migration text => "Migration Error: " ++ text
  | .poolTimedOut => "Failed to acquire connection from pool: Connection pool timed out"
  | .poolClosed => "Failed to acquire connection from pool: Connection closed"
  | .insertIdUnreadable => "Failed to unpack last_insert_id"
  | .updateWithoutKey => "Failed to get primary key from model"
  | .nothingInserted => "None of the records are inserted"
  | .nothingUpdated => "None of the records are updated"
  | .violation .unique => "Execution Error: a unique constraint failed"
  | .violation .foreignKey => "Execution Error: a foreign key constraint failed"
  | .violation .check => "Execution Error: a check constraint failed"

def constraint? : DatabaseFault → Option Constraint
  | .violation constraint => some constraint
  | _ => none

end DatabaseFault

inductive TransientFault
  /-- A unit was to be taken by a transaction that does not hold the coupon's lock. -/
  | unlocked (coupon : String)
  | injectedCommit
  | other (message : String)
deriving DecidableEq, Repr

namespace TransientFault

def text : TransientFault → String
  | .unlocked coupon => "coupon " ++ coupon ++ " modified without holding its lock"
  | .injectedCommit => "injected commit failure"
  | .other message => message

end TransientFault

end CouponDesk
