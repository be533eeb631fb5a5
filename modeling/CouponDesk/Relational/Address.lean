import CouponDesk.Text.Basic

/-!
# Addresses of datastores

The address of a datastore is a URL.  Only the scheme `sqlite` is served here; its address names
a file or the memory, and parameters after a question mark say how the file is opened.
-/

set_option autoImplicit false

namespace CouponDesk.Relational

inductive Place
  | memory
  | file (path : String)
deriving DecidableEq, Repr

inductive Access
  | readOnly
  | readWrite
  /-- For writing, and made if it is missing. -/
  | create
deriving DecidableEq, Repr

structure Address where
  place : Place
  access : Access := .readWrite
  /-- Whether what is there is declared never to change. -/
  immutable : Bool := false
deriving DecidableEq, Repr

namespace Address

/-! ## URLs -/

def isSchemeChar (c : Char) : Bool := c.isAlphanum || c = '+' || c = '-' || c = '.'

/-- The text of a URL without control characters and blanks at its ends, and without tabs and
newlines. -/
def tidy (cs : List Char) : List Char :=
  let isOuter (c : Char) : Bool := c.toNat ≤ 0x20
  let trimmed := ((cs.dropWhile isOuter).reverse.dropWhile isOuter).reverse
  trimmed.filter fun c => c ≠ '\t' && c ≠ '\n' && c ≠ '\r'

def scheme? (cs : List Char) : Option (List Char × List Char) :=
  match cs.dropWhile isSchemeChar with
  | ':' :: rest =>
      if (cs.head?.map Char.isAlpha).getD false then
        some ((cs.takeWhile isSchemeChar).map Char.toLower, rest)
      else none
  | _ => none

def isForbiddenInHost (c : Char) : Bool :=
  c ∈ ['\x00', ' ', '<', '>', '@', '[', '\\', ']', '^', '|']

/-- Whether a text can follow the colon after a host: digits of a number below 65536, or
nothing. -/
def isHostNumber (cs : List Char) : Bool := cs.all Char.isDigit && Numeral.ofDigits cs < 65536

/-- Whether a text between two slashes and the path is an authority: a host, after a user and an
at sign and before a colon and a number.  Only a host that stands alone may be empty. -/
def isAuthority (cs : List Char) : Bool :=
  let host := (cs.reverse.takeWhile (· ≠ '@')).reverse
  let (name, number) := Text.cut ':' host
  let user := cs.length - host.length
  !name.any isForbiddenInHost && (number.map isHostNumber).getD true &&
    (!name.isEmpty || (number.isNone && user = 0))

def isHierarchy : List Char → Bool
  | '/' :: '/' :: rest => isAuthority (rest.takeWhile fun c => c ≠ '/' && c ≠ '?' && c ≠ '#')
  | _ => true

/-! ## Parameters -/

def queryBytes (cs : List Char) : List UInt8 :=
  Text.percentDecode (Text.bytes (String.ofList (cs.map fun c => if c = '+' then ' ' else c)))

def parameters (query : List Char) : List (List UInt8 × List UInt8) :=
  ((Text.splitOn '&' query).filter (· ≠ [])).map fun piece =>
    let (name, value) := Text.cut '=' piece
    (queryBytes name, queryBytes (value.getD []))

/-- Applies one parameter; an unknown parameter or value is refused. -/
def apply (address : Address) (parameter : List UInt8 × List UInt8) : Option Address :=
  let (name, value) := parameter
  let among (values : List String) : Bool := (values.map Text.bytes).contains value
  if name = Text.bytes "mode" then
    if value = Text.bytes "ro" then some { address with access := .readOnly }
    else if value = Text.bytes "rw" then some address
    else if value = Text.bytes "rwc" then
      some { address with access := if address.access = .readOnly then .readOnly else .create }
    else if value = Text.bytes "memory" then some { address with place := .memory }
    else none
  else if name = Text.bytes "cache" then
    if among ["private", "shared"] then some address else none
  else if name = Text.bytes "immutable" then
    if among ["true", "1"] then some { address with immutable := true }
    else if among ["false", "0"] then some { address with immutable := false }
    else none
  else if name = Text.bytes "vfs" then
    if among ["unix", "unix-dotfile", "unix-excl", "unix-none"] then some address else none
  else none

/-! ## Addresses -/

def isReadOnly (address : Address) : Bool := address.access = .readOnly || address.immutable

def stripUpTo (word : List Char) : Nat → List Char → List Char
  | 0, cs => cs
  | count + 1, cs =>
      if word.isPrefixOf cs then stripUpTo word count (cs.drop word.length) else cs

def strip (word : String) (cs : List Char) : List Char := stripUpTo word.toList cs.length cs

/-- The place that the part before the parameters names.  A nameless file is a temporary one, and
nobody can tell it from memory. -/
def place? (cs : List Char) : Option Place :=
  if cs = ":memory:".toList ∨ cs = [] then some .memory
  else (Text.ofBytes? (Text.percentDecode (Text.bytes (String.ofList cs)))).map .file

def ofUrl? (url : String) : Option Address := do
  let (scheme, rest) ← scheme? (tidy url.toList)
  if ¬ isHierarchy rest ∨ scheme ≠ "sqlite".toList then none
  let (name, query) := Text.cut '?' (strip "sqlite:" (strip "sqlite://" url.toList))
  let place ← place? name
  (parameters (query.getD [])).foldlM apply { place }

/-- The path in a URL of this scheme that starts with two slashes, as it is written. -/
def plainPath? (url : String) : Option String :=
  let lead := "sqlite://".toList
  if lead.isPrefixOf url.toList then
    some (String.ofList (Text.cut '?' (url.toList.drop lead.length)).1)
  else none

end Address

end CouponDesk.Relational
