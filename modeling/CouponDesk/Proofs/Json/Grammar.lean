import CouponDesk.Json.Value
import CouponDesk.Text.Basic

/-!
# The JSON grammar

The rules of RFC 8259, each relating a piece of source to what it denotes.  The values of numerals
apart, nothing is shared with the reader or the writer.  A whole text is an `Item`: a value with
white space around it.
-/

set_option autoImplicit false

namespace CouponDesk.Json.Grammar

def Space (source : List Char) : Prop :=
  ∀ c ∈ source, c = ' ' ∨ c = '\t' ∨ c = '\n' ∨ c = '\r'

/-! ## Strings -/

/-- The characters that stand for themselves in a string: no control character, no quote and no
backslash. -/
def Unescaped (c : Char) : Prop := 0x20 ≤ c.toNat ∧ c ≠ '"' ∧ c ≠ '\\'

instance (c : Char) : Decidable (Unescaped c) := inferInstanceAs (Decidable (_ ∧ _ ∧ _))

inductive Escape : Char → Char → Prop
  | quote : Escape '"' '"'
  | backslash : Escape '\\' '\\'
  | slash : Escape '/' '/'
  | backspace : Escape 'b' '\x08'
  | formFeed : Escape 'f' '\x0c'
  | newline : Escape 'n' '\x0a'
  | carriageReturn : Escape 'r' '\x0d'
  | tab : Escape 't' '\x09'

/-- The inside of a string and its units: the code points of plain characters and short escapes,
and the numbers of the others. -/
inductive Inside : List Char → List Nat → Prop
  | nil : Inside [] []
  | plain {c : Char} (allowed : Unescaped c) {source : List Char} {units : List Nat}
      (rest : Inside source units) : Inside (c :: source) (c.toNat :: units)
  | short {letter c : Char} (escape : Escape letter c) {source : List Char} {units : List Nat}
      (rest : Inside source units) : Inside ('\\' :: letter :: source) (c.toNat :: units)
  | code {a b c d : Char} {unit : Nat} (code : Numeral.ofHex? [a, b, c, d] = some unit)
      {source : List Char} {units : List Nat} (rest : Inside source units) :
      Inside ('\\' :: 'u' :: a :: b :: c :: d :: source) (unit :: units)

/-- The text that units spell.  A unit is the code point of a character, or two in a row are the
surrogates of one. -/
inductive Spells : List Nat → List Char → Prop
  | nil : Spells [] []
  | scalar {c : Char} {units : List Nat} {text : List Char} (rest : Spells units text) :
      Spells (c.toNat :: units) (c :: text)
  | pair {high low : Nat} {c : Char} (highFits : 0xD800 ≤ high ∧ high < 0xDC00)
      (lowFits : 0xDC00 ≤ low ∧ low < 0xE000)
      (code : c.toNat = 0x10000 + (high - 0xD800) * 0x400 + (low - 0xDC00)) {units : List Nat}
      {text : List Char} (rest : Spells units text) : Spells (high :: low :: units) (c :: text)

/-- A string with its quotes.  It has no text if its units spell none. -/
inductive Str : List Char → Option String → Prop
  | text {source text : List Char} {units : List Nat} (inside : Inside source units)
      (spells : Spells units text) : Str ('"' :: (source ++ ['"'])) (some (String.ofList text))
  | lone {source : List Char} {units : List Nat} (inside : Inside source units)
      (textless : ∀ text, ¬ Spells units text) : Str ('"' :: (source ++ ['"'])) none

/-! ## Numbers -/

structure Digits (source : List Char) : Prop where
  nonempty : source ≠ []
  all : ∀ c ∈ source, c.isDigit = true

structure Whole (source : List Char) : Prop extends Digits source where
  leading : source.length = 1 ∨ source.head? ≠ some '0'

inductive Fraction : List Char → Prop
  | point {digits : List Char} (written : Digits digits) : Fraction ('.' :: digits)

inductive Exponent : List Char → Prop
  | plain {letter : Char} (begins : letter = 'e' ∨ letter = 'E') {digits : List Char}
      (written : Digits digits) : Exponent (letter :: digits)
  | signed {letter sign : Char} (begins : letter = 'e' ∨ letter = 'E')
      (signs : sign = '+' ∨ sign = '-') {digits : List Char} (written : Digits digits) :
      Exponent (letter :: sign :: digits)

inductive Scaled : List Char → Prop
  | fraction {source : List Char} (fraction : Fraction source) : Scaled source
  | exponent {source : List Char} (exponent : Exponent source) : Scaled source
  | both {source source' : List Char} (fraction : Fraction source) (exponent : Exponent source') :
      Scaled (source ++ source')

/-- A number.  It is an integer if it is whole and no negative zero. -/
inductive Number : List Char → Value → Prop
  | natural {source : List Char} (whole : Whole source) :
      Number source (.integer (Numeral.ofDigits source))
  | negative {source : List Char} (whole : Whole source) (positive : Numeral.ofDigits source ≠ 0) :
      Number ('-' :: source) (.integer (-Numeral.ofDigits source))
  | negativeZero : Number ['-', '0'] (.real "-0")
  | real {source source' : List Char} (whole : Whole source) (scaled : Scaled source') :
      Number (source ++ source') (.real (String.ofList (source ++ source')))
  | negativeReal {source source' : List Char} (whole : Whole source) (scaled : Scaled source') :
      Number ('-' :: (source ++ source')) (.real (String.ofList ('-' :: (source ++ source'))))

/-! ## Values -/

mutual

inductive Val : List Char → Value → Prop
  | null : Val ['n', 'u', 'l', 'l'] .null
  | yes : Val ['t', 'r', 'u', 'e'] (.bool true)
  | no : Val ['f', 'a', 'l', 's', 'e'] (.bool false)
  | number {source : List Char} {v : Value} (number : Number source v) : Val source v
  | string {source : List Char} {text? : Option String} (string : Str source text?) :
      Val source (.string text?)
  | noItems {space : List Char} (blank : Space space) : Val ('[' :: (space ++ [']'])) (.array [])
  | array {source : List Char} {vs : List Value} (items : Items source vs) :
      Val ('[' :: (source ++ [']'])) (.array vs)
  | noMembers {space : List Char} (blank : Space space) :
      Val ('\x7b' :: (space ++ ['\x7d'])) (.object [])
  | object {source : List Char} {ms : List (Option String × Value)} (members : Members source ms) :
      Val ('\x7b' :: (source ++ ['\x7d'])) (.object ms)

inductive Item : List Char → Value → Prop
  | mk {before source after : List Char} {v : Value} (blankBefore : Space before)
      (value : Val source v) (blankAfter : Space after) : Item (before ++ (source ++ after)) v

inductive Items : List Char → List Value → Prop
  | last {source : List Char} {v : Value} (item : Item source v) : Items source [v]
  | more {source rest : List Char} {v : Value} {vs : List Value} (item : Item source v)
      (others : Items rest vs) : Items (source ++ ',' :: rest) (v :: vs)

inductive Member : List Char → Option String × Value → Prop
  | mk {before name after source : List Char} {name? : Option String} {v : Value}
      (blankBefore : Space before) (string : Str name name?) (blankAfter : Space after)
      (item : Item source v) : Member (before ++ (name ++ (after ++ ':' :: source))) (name?, v)

inductive Members : List Char → List (Option String × Value) → Prop
  | last {source : List Char} {m : Option String × Value} (member : Member source m) :
      Members source [m]
  | more {source rest : List Char} {m : Option String × Value}
      {ms : List (Option String × Value)} (member : Member source m) (others : Members rest ms) :
      Members (source ++ ',' :: rest) (m :: ms)

end

end CouponDesk.Json.Grammar
