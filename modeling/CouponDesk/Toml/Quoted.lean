import CouponDesk.Text.Basic

/-!
# TOML strings

TOML writes a string in one of four quoted forms: basic (escapes, one line), literal (raw, one
line), and a multi-line form of each.  `Quoted.read?` reads any of them; `Quoted.write` chooses
the plainest form that can hold a text, and falls back on escapes.
-/

set_option autoImplicit false

namespace CouponDesk.Toml.Quoted

def isPlain (c : Char) : Bool := c = '\t' || (0x20 ≤ c.toNat && c.toNat ≠ 0x7F)

/-! ## Reading -/

def escape? : Char → Option Char
  | 'b' => some '\x08'
  | 't' => some '\t'
  | 'n' => some '\n'
  | 'f' => some '\x0c'
  | 'r' => some '\r'
  | '"' => some '"'
  | '\\' => some '\\'
  | _ => none

def unicode? (hex : List Char) : Option Char := (Numeral.ofHex? hex).bind Numeral.scalar?

def push (c : Char) : Option (List Char × List Char) → Option (List Char × List Char) :=
  Option.map fun (text, rest) => (c :: text, rest)

def basic : List Char → Option (List Char × List Char)
  | [] => none
  | '"' :: rest => some ([], rest)
  | '\\' :: 'u' :: a :: b :: c :: d :: rest =>
      (unicode? [a, b, c, d]).bind fun x => push x (basic rest)
  | '\\' :: 'U' :: a :: b :: c :: d :: e :: f :: g :: h :: rest =>
      (unicode? [a, b, c, d, e, f, g, h]).bind fun x => push x (basic rest)
  | '\\' :: e :: rest => (escape? e).bind fun x => push x (basic rest)
  | c :: rest => if isPlain c && c ≠ '\\' then push c (basic rest) else none

def literal : List Char → Option (List Char × List Char)
  | [] => none
  | '\'' :: rest => some ([], rest)
  | c :: rest => if isPlain c then push c (literal rest) else none

/-- The newline right after an opening delimiter of three quotes is no part of the string. -/
def dropNewline : List Char → List Char
  | '\n' :: rest => rest
  | '\r' :: '\n' :: rest => rest
  | rest => rest

/-- A string ends at three quotes, of which it may own up to two more in front. -/
def ending (quote : Char) : List Char → List Char × List Char
  | a :: b :: rest =>
      if a = quote then if b = quote then ([a, b], rest) else ([a], b :: rest)
      else ([], a :: b :: rest)
  | a :: rest => if a = quote then ([a], rest) else ([], a :: rest)
  | [] => ([], [])

/-- Where a reader stands with a backslash that joins lines: nowhere near one, between it and the
end of its line, or in the white space after that. -/
inductive Gap
  | none
  | opened
  | crossed
deriving DecidableEq, Repr

/-- A multi-line basic string after its opening delimiter, and what follows the closing one.  A
backslash at the end of a line swallows the white space up to the next character. -/
def multiBasic : Gap → List Char → Option (List Char × List Char)
  | _, [] => .none
  | .opened, '\n' :: rest => multiBasic .crossed rest
  | .opened, '\r' :: '\n' :: rest => multiBasic .crossed rest
  | .opened, c :: rest => if c = ' ' ∨ c = '\t' then multiBasic .opened rest else .none
  | .crossed, ' ' :: rest => multiBasic .crossed rest
  | .crossed, '\t' :: rest => multiBasic .crossed rest
  | .crossed, '\n' :: rest => multiBasic .crossed rest
  | .crossed, '\r' :: '\n' :: rest => multiBasic .crossed rest
  | _, '"' :: '"' :: '"' :: rest => some (ending '"' rest)
  | _, '\\' :: 'u' :: a :: b :: c :: d :: rest =>
      (unicode? [a, b, c, d]).bind fun x => push x (multiBasic .none rest)
  | _, '\\' :: 'U' :: a :: b :: c :: d :: e :: f :: g :: h :: rest =>
      (unicode? [a, b, c, d, e, f, g, h]).bind fun x => push x (multiBasic .none rest)
  | _, '\\' :: ' ' :: rest => multiBasic .opened rest
  | _, '\\' :: '\t' :: rest => multiBasic .opened rest
  | _, '\\' :: '\n' :: rest => multiBasic .crossed rest
  | _, '\\' :: '\r' :: '\n' :: rest => multiBasic .crossed rest
  | _, '\\' :: e :: rest => (escape? e).bind fun x => push x (multiBasic .none rest)
  | _, '\r' :: '\n' :: rest => push '\n' (multiBasic .none rest)
  | _, c :: rest =>
      if (isPlain c && c ≠ '\\') || c = '\n' then push c (multiBasic .none rest) else .none

def multiLiteral : List Char → Option (List Char × List Char)
  | [] => none
  | '\'' :: '\'' :: '\'' :: rest => some (ending '\'' rest)
  | '\r' :: '\n' :: rest => push '\n' (multiLiteral rest)
  | c :: rest => if isPlain c || c = '\n' then push c (multiLiteral rest) else none

/-- A one-line string, as it may also stand for a key. -/
def readLine? : List Char → Option (List Char × List Char)
  | '"' :: rest => basic rest
  | '\'' :: rest => literal rest
  | _ => none

def read? : List Char → Option (List Char × List Char)
  | '"' :: '"' :: '"' :: rest => multiBasic .none (dropNewline rest)
  | '\'' :: '\'' :: '\'' :: rest => multiLiteral (dropNewline rest)
  | cs => readLine? cs

/-! ## Writing -/

def isControl (c : Char) : Bool := !isPlain c && c ≠ '\n'

def hasTriple (quote : Char) : List Char → Bool
  | a :: b :: c :: rest =>
      (a = quote && b = quote && c = quote) || hasTriple quote (b :: c :: rest)
  | _ => false

/-- A character of a basic string, the quote apart; a newline is escaped or kept as told. -/
def escaped (keepNewline : Bool) (c : Char) : List Char :=
  if c = '\\' then ['\\', '\\']
  else if c = '\x08' then ['\\', 'b']
  else if c = '\t' then ['\\', 't']
  else if c = '\x0c' then ['\\', 'f']
  else if c = '\r' then ['\\', 'r']
  else if c = '\n' then if keepNewline then ['\n'] else ['\\', 'n']
  else if isControl c then
    ['\\', 'u', '0', '0', Numeral.hexDigit (c.toNat / 16), Numeral.hexDigit (c.toNat % 16)]
  else [c]

/-- The inside of a one-line basic string: every quote is escaped. -/
def basicInside : List Char → List Char
  | [] => []
  | '"' :: rest => '\\' :: '"' :: basicInside rest
  | c :: rest => escaped false c ++ basicInside rest

/-- The inside of a multi-line basic string, after a number of quotes in a row: the third quote
of a run is escaped, and then the count starts again. -/
def multiInside : (quotes : Nat) → List Char → List Char
  | _, [] => []
  | quotes, '"' :: rest =>
      if quotes < 2 then '"' :: multiInside (quotes + 1) rest
      else '\\' :: '"' :: multiInside 0 rest
  | _, c :: rest => escaped true c ++ multiInside 0 rest

inductive Form
  | basic
  | literal
  | multiBasic
  | multiLiteral
deriving DecidableEq, Repr

/-- The form chosen for a text: the first that holds it without an escape, and otherwise a basic
form, on several lines if the text has several. -/
def form (text : List Char) : Form :=
  let oneLine := !text.contains '\n'
  let raw := !text.any isControl
  if raw && oneLine && !text.contains '\\' && !text.contains '"' then .basic
  else if raw && oneLine && !text.contains '\'' then .literal
  else if raw && !text.contains '\\' && !hasTriple '"' text then .multiBasic
  else if raw && !hasTriple '\'' text then .multiLiteral
  else if oneLine then .basic
  else .multiBasic

/-- A multi-line form starts with a newline exactly when the text has one. -/
def opening (text : List Char) : List Char := if text.contains '\n' then ['\n'] else []

def write (text : List Char) : List Char :=
  match form text with
  | .basic => '"' :: (basicInside text ++ ['"'])
  | .literal => '\'' :: (text ++ ['\''])
  | .multiBasic =>
      ['"', '"', '"'] ++ opening text ++ multiInside 0 text ++ ['"', '"', '"']
  | .multiLiteral =>
      ['\'', '\'', '\''] ++ opening text ++ text ++ ['\'', '\'', '\'']

end CouponDesk.Toml.Quoted
