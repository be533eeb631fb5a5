/-!
# Texts

White space, pieces between separators, numerals and bytes.  Most texts are lists of characters
here.
-/

set_option autoImplicit false

namespace CouponDesk.Text

/-! ## White space -/

/-- The ranges of code points with the Unicode property White_Space, in ascending order.  The
zero-width space, the byte order mark and the information separators are not among them. -/
def blankRanges : List (Nat × Nat) :=
  [(0x09, 0x0D), (0x20, 0x20), (0x85, 0x85), (0xA0, 0xA0), (0x1680, 0x1680), (0x2000, 0x200A),
   (0x2028, 0x2029), (0x202F, 0x202F), (0x205F, 0x205F), (0x3000, 0x3000)]

def isBlank (c : Char) : Bool :=
  blankRanges.any fun (first, last) => first ≤ c.toNat && c.toNat ≤ last

def isBlankText (text : String) : Bool := text.toList.all isBlank

def dropBlank (cs : List Char) : List Char := cs.dropWhile isBlank

def dropBlankEnd (cs : List Char) : List Char := (cs.reverse.dropWhile isBlank).reverse

/-! ## Splitting -/

def intoFirst {α : Type} (a : α) : List (List α) → List (List α)
  | [] => [[a]]
  | piece :: rest => (a :: piece) :: rest

/-- The pieces of a list between separators; at least one, which may be empty. -/
def splitOn {α : Type} [DecidableEq α] (separator : α) : List α → List (List α)
  | [] => [[]]
  | a :: rest =>
      if a = separator then [] :: splitOn separator rest
      else intoFirst a (splitOn separator rest)

/-- The pieces of a list that end right after a separator, and what is left after the last. -/
def splitAfter {α : Type} [DecidableEq α] (separator : α) : List α → List (List α)
  | [] => []
  | a :: rest =>
      if a = separator then [a] :: splitAfter separator rest
      else intoFirst a (splitAfter separator rest)

def cut {α : Type} [DecidableEq α] (separator : α) (xs : List α) : List α × Option (List α) :=
  match xs.dropWhile (· ≠ separator) with
  | [] => (xs, none)
  | _ :: rest => (xs.takeWhile (· ≠ separator), some rest)

def contains {α : Type} [DecidableEq α] (inner : List α) : List α → Bool
  | [] => inner.isEmpty
  | a :: rest => inner.isPrefixOf (a :: rest) || contains inner rest

end CouponDesk.Text

/-! ## Numerals -/

namespace CouponDesk.Numeral

def digit (n : Nat) : Char := Char.ofNat ('0'.toNat + n)

def digits (n : Nat) : List Char :=
  if n < 10 then [digit n] else digits (n / 10) ++ [digit (n % 10)]

def ofDigits (cs : List Char) : Nat :=
  cs.foldl (fun n c => 10 * n + (c.toNat - '0'.toNat)) 0

def padded (width n : Nat) : List Char :=
  List.replicate (width - (digits n).length) '0' ++ digits n

def signed (n : Int) : List Char :=
  if n < 0 then '-' :: digits n.natAbs else digits n.natAbs

def hexValue? (c : Char) : Option Nat :=
  if '0' ≤ c ∧ c ≤ '9' then some (c.toNat - '0'.toNat)
  else if 'a' ≤ c ∧ c ≤ 'f' then some (c.toNat - 'a'.toNat + 10)
  else if 'A' ≤ c ∧ c ≤ 'F' then some (c.toNat - 'A'.toNat + 10)
  else none

def ofHex? (cs : List Char) : Option Nat :=
  cs.foldlM (fun n c => (hexValue? c).map (16 * n + ·)) 0

def hexDigit (n : Nat) : Char :=
  if n < 10 then digit n else Char.ofNat ('A'.toNat + (n - 10))

def lowerHexDigit (n : Nat) : Char :=
  if n < 10 then digit n else Char.ofNat ('a'.toNat + (n - 10))

def lowerHex (n : Nat) : List Char :=
  if n < 16 then [lowerHexDigit n] else lowerHex (n / 16) ++ [lowerHexDigit (n % 16)]

/-- The character with a given code point; surrogates and numbers past U+10FFFF have none. -/
def scalar? (n : Nat) : Option Char :=
  if n < 0xD800 ∨ (0xE000 ≤ n ∧ n < 0x110000) then some (Char.ofNat n) else none

/-- Digits that single underscores may separate, without the underscores. -/
def ungroup (isDigit : Char → Bool) : List Char → Option (List Char)
  | [] => none
  | [c] => if isDigit c then some [c] else none
  | c :: '_' :: rest => if isDigit c then (ungroup isDigit rest).map (c :: ·) else none
  | c :: rest => if isDigit c then (ungroup isDigit rest).map (c :: ·) else none

end CouponDesk.Numeral

/-! ## Bytes -/

namespace CouponDesk.Text

def bytes (text : String) : List UInt8 := text.toUTF8.toList

def ofBytes? (bs : List UInt8) : Option String := String.fromUTF8? ⟨bs.toArray⟩

def hexByte? (b : UInt8) : Option Nat := Numeral.hexValue? (Char.ofNat b.toNat)

/-- The bytes with each percent sign and two hexadecimal digits replaced by what they stand
for. -/
def percentDecode : List UInt8 → List UInt8
  | [] => []
  | [a] => [a]
  | [a, b] => [a, b]
  | a :: b :: c :: rest =>
      if a = 0x25 then
        match hexByte? b, hexByte? c with
        | some high, some low => UInt8.ofNat (16 * high + low) :: percentDecode rest
        | _, _ => a :: percentDecode (b :: c :: rest)
      else a :: percentDecode (b :: c :: rest)

end CouponDesk.Text
