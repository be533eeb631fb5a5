import CouponDesk.Json.Value
import CouponDesk.Text.Basic

/-!
# Reading JSON

`Value.read?` reads a whole text.  It accepts exactly the JSON grammar: nothing may follow the
value but white space, no comma may trail, a number has no leading zero, and no control
character may stand in a string.
-/

set_option autoImplicit false

namespace CouponDesk.Json

def isSpace (c : Char) : Bool := c = ' ' || c = '\n' || c = '\t' || c = '\r'

def skipSpace (cs : List Char) : List Char := cs.dropWhile isSpace

/-! ## Strings -/

def escape? : Char → Option Char
  | '"' => some '"'
  | '\\' => some '\\'
  | '/' => some '/'
  | 'b' => some '\x08'
  | 'f' => some '\x0c'
  | 'n' => some '\n'
  | 'r' => some '\r'
  | 't' => some '\t'
  | _ => none

def pair? (high low : Nat) : Option Char :=
  if 0xD800 ≤ high ∧ high < 0xDC00 ∧ 0xDC00 ≤ low ∧ low < 0xE000 then
    Numeral.scalar? (0x10000 + (high - 0xD800) * 0x400 + (low - 0xDC00))
  else none

/-- The text that a sequence of code points and surrogates spells: a high surrogate needs a low
one after it, and a low one a high one before it. -/
def ofUnits? : List Nat → Option (List Char)
  | [] => some []
  | n :: rest =>
      match Numeral.scalar? n with
      | some c => (ofUnits? rest).map (c :: ·)
      | none =>
          match rest with
          | low :: rest => (pair? n low).bind fun c => (ofUnits? rest).map (c :: ·)
          | [] => none

def push (unit : Nat) : Option (List Nat × List Char) → Option (List Nat × List Char) :=
  Option.map fun (units, rest) => (unit :: units, rest)

/-- The rest of a string after its opening quote: its code points and surrogates, and what
follows the closing quote. -/
def stringBody : List Char → Option (List Nat × List Char)
  | [] => none
  | '"' :: rest => some ([], rest)
  | '\\' :: 'u' :: a :: b :: c :: d :: rest =>
      (Numeral.ofHex? [a, b, c, d]).bind fun n => push n (stringBody rest)
  | '\\' :: e :: rest => (escape? e).bind fun c => push c.toNat (stringBody rest)
  | c :: rest => if c.toNat < 0x20 ∨ c = '\\' then none else push c.toNat (stringBody rest)

def stringText (cs : List Char) : Option (Option String × List Char) :=
  (stringBody cs).map fun (units, rest) => ((ofUnits? units).map String.ofList, rest)

/-! ## Numbers -/

def isNumberChar (c : Char) : Bool :=
  c.isDigit || c = '-' || c = '+' || c = '.' || c = 'e' || c = 'E'

def areDigits (cs : List Char) : Bool := !cs.isEmpty && cs.all Char.isDigit

def isExponent : List Char → Bool
  | [] => true
  | e :: '+' :: digits | e :: '-' :: digits => (e = 'e' || e = 'E') && areDigits digits
  | e :: digits => (e = 'e' || e = 'E') && areDigits digits

def isFraction : List Char → Bool
  | '.' :: rest =>
      areDigits (rest.takeWhile Char.isDigit) && isExponent (rest.dropWhile Char.isDigit)
  | cs => isExponent cs

/-- The number without a sign that a literal denotes.  Only a literal without fraction and
exponent is an integer. -/
def unsigned? (negative : Bool) (literal : List Char) : Option Value :=
  let whole := literal.takeWhile Char.isDigit
  let rest := literal.dropWhile Char.isDigit
  if areDigits whole && (whole.length = 1 || whole.head? ≠ some '0') && isFraction rest then
    let n := Numeral.ofDigits whole
    let sign := if negative then ['-'] else []
    if rest.isEmpty && !(negative && n = 0) then
      some (.integer (if negative then -n else n))
    else some (.real (String.ofList (sign ++ literal)))
  else none

def number? : List Char → Option Value
  | '-' :: rest => unsigned? true rest
  | literal => unsigned? false literal

/-! ## Values -/

def afterWord (word : String) (cs : List Char) : Option (List Char) :=
  if word.toList.isPrefixOf cs then some (cs.drop word.length) else none

mutual

def value : (depth : Nat) → List Char → Option (Value × List Char)
  | 0, _ => none
  | depth + 1, cs =>
      match skipSpace cs with
      | '{' :: rest =>
          match skipSpace rest with
          | '}' :: rest => some (.object [], rest)
          | rest => (members depth rest).map fun (ms, rest) => (.object ms, rest)
      | '[' :: rest =>
          match skipSpace rest with
          | ']' :: rest => some (.array [], rest)
          | rest => (items depth rest).map fun (vs, rest) => (.array vs, rest)
      | '"' :: rest =>
          (stringText rest).map fun (text?, rest) => (.string text?, rest)
      | 'n' :: rest => (afterWord "ull" rest).map fun rest => (.null, rest)
      | 't' :: rest => (afterWord "rue" rest).map fun rest => (.bool true, rest)
      | 'f' :: rest => (afterWord "alse" rest).map fun rest => (.bool false, rest)
      | cs =>
          (number? (cs.takeWhile isNumberChar)).map fun v => (v, cs.dropWhile isNumberChar)

def items : (depth : Nat) → List Char → Option (List Value × List Char)
  | 0, _ => none
  | depth + 1, cs =>
      match value depth cs with
      | none => none
      | some (v, rest) =>
          match skipSpace rest with
          | ',' :: rest => (items depth rest).map fun (vs, rest) => (v :: vs, rest)
          | ']' :: rest => some ([v], rest)
          | _ => none

def members : (depth : Nat) → List Char → Option (List (Option String × Value) × List Char)
  | 0, _ => none
  | depth + 1, cs =>
      match skipSpace cs with
      | '"' :: rest =>
          match stringText rest with
          | none => none
          | some (name?, rest) =>
              match skipSpace rest with
              | ':' :: rest =>
                  match value depth rest with
                  | none => none
                  | some (v, rest) =>
                      let member := (name?, v)
                      match skipSpace rest with
                      | ',' :: rest =>
                          (members depth rest).map fun (ms, rest) => (member :: ms, rest)
                      | '}' :: rest => some ([member], rest)
                      | _ => none
              | _ => none
      | _ => none

end

/-- Reads a whole text as one value.  Each level of nesting and each item takes a character, so
the length of the text bounds the depth of the reading. -/
def Value.read? (text : String) : Option Value :=
  let cs := text.toList
  match value (cs.length + 1) cs with
  | some (v, rest) => if (skipSpace rest).isEmpty then some v else none
  | none => none

end CouponDesk.Json
