import CouponDesk.Toml.Document

/-!
# A part of the TOML grammar

The rules of TOML 1.0 for documents that consist of pairs: bare keys, strings in all four forms
(without joined lines), decimal integers and arrays of strings on one line.  Lines end in a line
feed.  Each rule relates a piece of source to what it denotes; the numerals apart, nothing is shared
with the reader or the writer.
-/

set_option autoImplicit false

namespace CouponDesk.Toml.Grammar

/-! ## Characters -/

/-- The characters that stand for themselves in a basic string: no control character but the tab, no
quote and no backslash. -/
def Unescaped (c : Char) : Prop :=
  c.toNat = 0x09 ∨ (0x20 ≤ c.toNat ∧ c.toNat ≤ 0x21) ∨ (0x23 ≤ c.toNat ∧ c.toNat ≤ 0x5B) ∨
    (0x5D ≤ c.toNat ∧ c.toNat ≤ 0x7E) ∨ 0x80 ≤ c.toNat

instance (c : Char) : Decidable (Unescaped c) := inferInstanceAs (Decidable (_ ∨ _ ∨ _ ∨ _ ∨ _))

/-- The characters of a literal string: no control character but the tab, and no apostrophe. -/
def Raw (c : Char) : Prop :=
  c.toNat = 0x09 ∨ (0x20 ≤ c.toNat ∧ c.toNat ≤ 0x26) ∨ (0x28 ≤ c.toNat ∧ c.toNat ≤ 0x7E) ∨
    0x80 ≤ c.toNat

instance (c : Char) : Decidable (Raw c) := inferInstanceAs (Decidable (_ ∨ _ ∨ _ ∨ _))

def Blank (c : Char) : Prop := c = ' ' ∨ c = '\t'

instance (c : Char) : Decidable (Blank c) := inferInstanceAs (Decidable (_ ∨ _))

inductive Escape : List Char → Char → Prop
  | backspace : Escape ['b'] '\x08'
  | tab : Escape ['t'] '\x09'
  | newline : Escape ['n'] '\x0a'
  | formFeed : Escape ['f'] '\x0c'
  | carriageReturn : Escape ['r'] '\x0d'
  | quote : Escape ['"'] '"'
  | backslash : Escape ['\\'] '\\'
  | short (a b c d : Char) (x : Char) (code : Numeral.ofHex? [a, b, c, d] = some x.toNat) :
      Escape ['u', a, b, c, d] x
  | long (a b c d e f g h : Char) (x : Char)
      (code : Numeral.ofHex? [a, b, c, d, e, f, g, h] = some x.toNat) :
      Escape ['U', a, b, c, d, e, f, g, h] x

/-! ## Strings -/

inductive Basic : List Char → List Char → Prop
  | nil : Basic [] []
  | plain (c : Char) (allowed : Unescaped c) {source text : List Char}
      (rest : Basic source text) : Basic (c :: source) (c :: text)
  | escape {code : List Char} {c : Char} (escape : Escape code c) {source text : List Char}
      (rest : Basic source text) : Basic ('\\' :: (code ++ source)) (c :: text)

/-- The inside of a basic string on several lines, after a number of quotes in a row: there are
never more than two. -/
inductive MultiBasic : (quotes : Nat) → List Char → List Char → Prop
  | nil (quotes : Nat) : MultiBasic quotes [] []
  | quote {quotes : Nat} (few : quotes < 2) {source text : List Char}
      (rest : MultiBasic (quotes + 1) source text) :
      MultiBasic quotes ('"' :: source) ('"' :: text)
  | newline {quotes : Nat} {source text : List Char} (rest : MultiBasic 0 source text) :
      MultiBasic quotes ('\n' :: source) ('\n' :: text)
  | plain {quotes : Nat} (c : Char) (allowed : Unescaped c) {source text : List Char}
      (rest : MultiBasic 0 source text) : MultiBasic quotes (c :: source) (c :: text)
  | escape {quotes : Nat} {code : List Char} {c : Char} (escape : Escape code c)
      {source text : List Char} (rest : MultiBasic 0 source text) :
      MultiBasic quotes ('\\' :: (code ++ source)) (c :: text)

/-- The inside of a literal string on several lines, which denotes itself, after a number of
apostrophes in a row. -/
inductive MultiLiteral : (quotes : Nat) → List Char → Prop
  | nil (quotes : Nat) : MultiLiteral quotes []
  | quote {quotes : Nat} (few : quotes < 2) {text : List Char}
      (rest : MultiLiteral (quotes + 1) text) : MultiLiteral quotes ('\'' :: text)
  | newline {quotes : Nat} {text : List Char} (rest : MultiLiteral 0 text) :
      MultiLiteral quotes ('\n' :: text)
  | plain {quotes : Nat} (c : Char) (allowed : Raw c) {text : List Char}
      (rest : MultiLiteral 0 text) : MultiLiteral quotes (c :: text)

/-- What may stand between an opening delimiter and the inside: a newline, which is no part of the
text, or nothing, and then the inside must not start with a newline. -/
inductive Opening : List Char → List Char → Prop
  | newline (inside : List Char) : Opening ['\n'] inside
  | direct {inside : List Char} (other : inside.head? ≠ some '\n') : Opening [] inside

inductive Str : List Char → List Char → Prop
  | basic {source text : List Char} (inside : Basic source text) :
      Str ('"' :: (source ++ ['"'])) text
  | literal {text : List Char} (inside : ∀ c ∈ text, Raw c) : Str ('\'' :: (text ++ ['\''])) text
  | multiBasic {opening source text : List Char} (opens : Opening opening source)
      (inside : MultiBasic 0 source text) :
      Str (['"', '"', '"'] ++ opening ++ source ++ ['"', '"', '"']) text
  | multiLiteral {opening text : List Char} (opens : Opening opening text)
      (inside : MultiLiteral 0 text) :
      Str (['\'', '\'', '\''] ++ opening ++ text ++ ['\'', '\'', '\'']) text

/-! ## Values -/

structure Decimal (source : List Char) (n : Nat) : Prop where
  nonempty : source ≠ []
  digits : ∀ c ∈ source, c.isDigit = true
  leading : source.length = 1 ∨ source.head? ≠ some '0'
  value : Numeral.ofDigits source = n

inductive Items : List Char → List String → Prop
  | single {source text : List Char} (item : Str source text) :
      Items source [String.ofList text]
  | more {source text : List Char} (item : Str source text) {blanks rest : List Char}
      (blank : ∀ c ∈ blanks, Blank c) {texts : List String} (others : Items rest texts) :
      Items (source ++ ',' :: (blanks ++ rest)) (String.ofList text :: texts)

inductive Val : List Char → Value → Prop
  | string {source text : List Char} (written : Str source text) :
      Val source (.string (String.ofList text))
  | positive {source : List Char} {n : Nat} (written : Decimal source n) (fits : FitsAmount n) :
      Val source (.integer n)
  | negative {source : List Char} {n : Nat} (written : Decimal source n) (fits : FitsAmount (-n)) :
      Val ('-' :: source) (.integer (-n))
  | empty : Val ['[', ']'] (.array [])
  | array {source : List Char} {texts : List String} (written : Items source texts) :
      Val ('[' :: (source ++ [']'])) (.array (texts.map .string))

/-! ## Documents -/

structure BareKey (key : List Char) : Prop where
  nonempty : key ≠ []
  characters : ∀ c ∈ key, c.isAlphanum = true ∨ c = '-' ∨ c = '_'

/-- Lines that are empty or give a value to a key that no later line gives one to. -/
inductive Lines : List Char → Entries → Prop
  | done : Lines [] []
  | empty {rest : List Char} {entries : Entries} (others : Lines rest entries) :
      Lines ('\n' :: rest) entries
  | pair {key : List Char} (bare : BareKey key) {before after : List Char}
      (blankBefore : ∀ c ∈ before, Blank c) (blankAfter : ∀ c ∈ after, Blank c)
      {source : List Char} {value : Value} (given : Val source value)
      {rest : List Char} {entries : Entries} (others : Lines rest entries)
      (fresh : String.ofList key ∉ entries.map Prod.fst) :
      Lines (key ++ (before ++ '=' :: (after ++ (source ++ '\n' :: rest))))
        ((String.ofList key, value) :: entries)

end CouponDesk.Toml.Grammar
