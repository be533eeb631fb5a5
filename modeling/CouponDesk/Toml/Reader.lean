import CouponDesk.Toml.Quoted
import CouponDesk.Toml.Scalar

/-!
# Reading TOML keys and values

A key is one or more parts with dots between them.  Arrays may run over several lines, hold
comments and end in a comma; an inline table stands on one line and may not end in a comma.
Values may be nested to a fixed depth.
-/

set_option autoImplicit false

namespace CouponDesk.Toml

/-! ## Blanks and comments -/

def skipBlanks (cs : List Char) : List Char := cs.dropWhile fun c => c = ' ' || c = '\t'

/-- The text after a comment at its start, up to the end of the line or to a character that no
comment holds. -/
def skipComment : List Char → List Char
  | '#' :: rest => rest.dropWhile Quoted.isPlain
  | rest => rest

def afterNewline? : List Char → Option (List Char)
  | '\n' :: rest => some rest
  | '\r' :: '\n' :: rest => some rest
  | _ => none

/-- The text without the blanks, comments and newlines at its start, of which it may begin inside a
comment. -/
def skipFrom : (comment : Bool) → List Char → List Char
  | _, [] => []
  | _, '\n' :: rest => skipFrom false rest
  | _, '\r' :: '\n' :: rest => skipFrom false rest
  | true, c :: rest => if Quoted.isPlain c then skipFrom true rest else c :: rest
  | false, c :: rest =>
      if c = ' ' ∨ c = '\t' then skipFrom false rest
      else if c = '#' then skipFrom true rest
      else c :: rest

def skipLines (cs : List Char) : List Char := skipFrom false cs

/-! ## Keys -/

def isBareKeyChar (c : Char) : Bool := c.isAlphanum || c = '-' || c = '_'

def keyPart? (cs : List Char) : Option (String × List Char) :=
  match Quoted.readLine? cs with
  | some (text, rest) => some (String.ofList text, rest)
  | none =>
      let bare := cs.takeWhile isBareKeyChar
      if bare.isEmpty then none else some (String.ofList bare, cs.dropWhile isBareKeyChar)

/-- A key of at most a number of parts: the path before its last part, that part, and what follows
with its blanks skipped. -/
def key? : (room : Nat) → List Char → Option (List String × String × List Char)
  | 0, _ => none
  | room + 1, cs => do
      let (part, rest) ← keyPart? (skipBlanks cs)
      match skipBlanks rest with
      | '.' :: rest =>
          let (path, last, rest) ← key? room rest
          return (part :: path, last, rest)
      | rest => return ([], part, rest)

/-- The number of parts that a key may have, and the number of levels that values may be
nested. -/
def maxDepth : Nat := 79

/-! ## Values -/

mutual

def value? : (fuel room : Nat) → List Char → Option (Value × List Char)
  | fuel + 1, room + 1, '[' :: rest =>
      match skipLines rest with
      | ']' :: rest => some (.array [], rest)
      | rest => (items? fuel room rest).map fun (items, rest) => (.array items, rest)
  | fuel + 1, room + 1, '{' :: rest =>
      match skipBlanks rest with
      | '}' :: rest => some (.table .inline [], rest)
      | rest => (pairs? fuel room [] rest).map fun (entries, rest) => (.table .inline entries, rest)
  | _, _, cs =>
      match Quoted.read? cs with
      | some (text, rest) => some (.string (String.ofList text), rest)
      | none => Scalar.read? cs

def items? : (fuel room : Nat) → List Char → Option (List Value × List Char)
  | 0, _, _ => none
  | fuel + 1, room, cs => do
      let (item, rest) ← value? fuel room cs
      match skipLines rest with
      | ']' :: rest => return ([item], rest)
      | ',' :: rest =>
          match skipLines rest with
          | ']' :: rest => return ([item], rest)
          | rest =>
              let (items, rest) ← items? fuel room rest
              return (item :: items, rest)
      | _ => none

/-- Reads the pairs of an inline table up to its closing brace, and adds them to those before. -/
def pairs? : (fuel room : Nat) → Entries → List Char → Option (Entries × List Char)
  | 0, _, _, _ => none
  | fuel + 1, room, entries, cs => do
      let (path, key, rest) ← key? maxDepth cs
      let '=' :: rest := rest | none
      let (value, rest) ← value? fuel room (skipBlanks rest)
      let entries ← entries.assign path key value .inline
      match skipBlanks rest with
      | '}' :: rest => return (entries, rest)
      | ',' :: rest => pairs? fuel room entries rest
      | _ => none

end

/-- A value at the start of a text, and what follows it.  Every step of the reading but one for
each level takes a character. -/
def readValue? (cs : List Char) : Option (Value × List Char) :=
  value? (2 * cs.length + 2) maxDepth cs

end CouponDesk.Toml
