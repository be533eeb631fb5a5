import CouponDesk.Text.Basic

/-!
# JSON values

A JSON value as its text gives it.  Integers are exact; any other number keeps its literal.  The
escapes of a string may name lone surrogates, and then the string has no text.  The members of
an object stand in the order of the text, repeated names included.  A value is written without
white space, and in strings only the quote, the backslash and the control characters are escaped.
-/

set_option autoImplicit false

namespace CouponDesk.Json

inductive Value
  | null
  | bool (value : Bool)
  | integer (value : Int)
  /-- A number with a fraction or an exponent, or negative zero. -/
  | real (literal : String)
  | string (text? : Option String)
  | array (items : List Value)
  | object (members : List (Option String × Value))

namespace Value

def text (s : String) : Value := .string (some s)

def ofMembers (members : List (String × Value)) : Value :=
  .object (members.map fun (name, value) => (some name, value))

/-- The member of an object with a name; of repeated ones the last. -/
def member? (name : String) : Value → Option Value
  | .object members => (members.reverse.find? (·.1 = some name)).map (·.2)
  | _ => none

def text? : Value → Option String
  | .string text? => text?
  | _ => none

def integer? : Value → Option Int
  | .integer n => some n
  | _ => none

def items? : Value → Option (List Value)
  | .array items => some items
  | _ => none

end Value

/-! ## Writing -/

def escaped (c : Char) : List Char :=
  if c = '"' then ['\\', '"']
  else if c = '\\' then ['\\', '\\']
  else if c = '\x08' then ['\\', 'b']
  else if c = '\x0c' then ['\\', 'f']
  else if c = '\n' then ['\\', 'n']
  else if c = '\r' then ['\\', 'r']
  else if c = '\t' then ['\\', 't']
  else if c.toNat < 0x20 then
    ['\\', 'u', '0', '0', Numeral.lowerHexDigit (c.toNat / 16),
      Numeral.lowerHexDigit (c.toNat % 16)]
  else [c]

def quoted (text : String) : List Char :=
  '"' :: (text.toList.flatMap escaped ++ ['"'])

mutual

def Value.chars : Value → List Char
  | .null => ['n', 'u', 'l', 'l']
  | .bool true => ['t', 'r', 'u', 'e']
  | .bool false => ['f', 'a', 'l', 's', 'e']
  | .integer n => Numeral.signed n
  | .real literal => literal.toList
  | .string text? => quoted (text?.getD "")
  | .array items => '[' :: (itemChars items ++ [']'])
  | .object members => '\x7b' :: (memberChars members ++ ['\x7d'])

def itemChars : List Value → List Char
  | [] => []
  | [item] => item.chars
  | item :: rest => item.chars ++ ',' :: itemChars rest

def memberChars : List (Option String × Value) → List Char
  | [] => []
  | [(name?, value)] => quoted (name?.getD "") ++ ':' :: value.chars
  | (name?, value) :: rest =>
      quoted (name?.getD "") ++ ':' :: (value.chars ++ ',' :: memberChars rest)

end

def Value.write (v : Value) : String := String.ofList v.chars

end CouponDesk.Json
