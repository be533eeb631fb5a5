import CouponDesk.Proofs.Text.Numerals
import CouponDesk.Proofs.Toml.Grammar

/-!
# Reading strings

A string of the grammar, in any of its four forms, is read as the text that it denotes, and the
reader stops right after it: `read_str`.  A quote may not follow the string.  After an empty one it
would open a string on several lines, and after three quotes it would belong to the text.
-/

set_option autoImplicit false

namespace CouponDesk.Toml.Grammar

variable {c : Char} {cs rest : List Char}

-- Each step of a reader below is a rewriting with its equations.
attribute [local simp] Quoted.basic Quoted.literal Quoted.multiBasic Quoted.multiLiteral

theorem isPlain_iff :
    Quoted.isPlain c = true ↔ c.toNat = 0x09 ∨ (0x20 ≤ c.toNat ∧ c.toNat ≠ 0x7F) := by
  have tab : c = '\t' ↔ c.toNat = 0x09 := Char.toNat_inj.symm
  simp [Quoted.isPlain, tab]

theorem Unescaped.ne {d : Char} (allowed : Unescaped c) (barred : ¬ Unescaped d) : c ≠ d := by
  rintro rfl
  exact barred allowed

theorem Unescaped.isPlain (allowed : Unescaped c) : Quoted.isPlain c = true := by
  unfold Unescaped at allowed
  apply isPlain_iff.mpr
  omega

theorem Raw.ne {d : Char} (allowed : Raw c) (barred : ¬ Raw d) : c ≠ d := by
  rintro rfl
  exact barred allowed

theorem Raw.isPlain (allowed : Raw c) : Quoted.isPlain c = true := by
  unfold Raw at allowed
  apply isPlain_iff.mpr
  omega

theorem unicode?_of_code {hex : List Char} (code : Numeral.ofHex? hex = some c.toNat) :
    Quoted.unicode? hex = some c := by
  rw [Quoted.unicode?, code, Option.bind_some, Numeral.scalar?_toNat]

/-! ## Strings on one line -/

theorem basic_plain (allowed : Unescaped c) (cs : List Char) :
    Quoted.basic (c :: cs) = Quoted.push c (Quoted.basic cs) := by
  have quote : c ≠ '"' := allowed.ne (by decide)
  have backslash : c ≠ '\\' := allowed.ne (by decide)
  simp [backslash, allowed.isPlain]

theorem basic_escape {code : List Char} (escape : Escape code c) (cs : List Char) :
    Quoted.basic ('\\' :: (code ++ cs)) = Quoted.push c (Quoted.basic cs) := by
  cases escape with
  | short a b c d x code => simp [unicode?_of_code code]
  | long a b c d e f g h x code => simp [unicode?_of_code code]
  | _ => simp [Quoted.escape?]

theorem read_basic {source text : List Char} (inside : Basic source text) (rest : List Char) :
    Quoted.basic (source ++ '"' :: rest) = some (text, rest) := by
  induction inside with
  | nil => rfl
  | plain c allowed _ ih =>
      rw [List.cons_append, basic_plain allowed, ih]
      rfl
  | escape escape _ ih =>
      rw [List.cons_append, List.append_assoc, basic_escape escape, ih]
      rfl

theorem read_literal {text : List Char} (inside : ∀ c ∈ text, Raw c) (rest : List Char) :
    Quoted.literal (text ++ '\'' :: rest) = some (text, rest) := by
  induction text with
  | nil => rfl
  | cons c text ih =>
      have first : Raw c := inside c List.mem_cons_self
      have later := ih fun other member => inside other (List.mem_cons_of_mem c member)
      have apostrophe : c ≠ '\'' := first.ne (by decide)
      rw [List.cons_append]
      simp [first.isPlain, later, Quoted.push]

/-! ## Quotes inside strings on several lines -/

theorem ending_replicate {quote : Char} {quotes : Nat} (few : quotes ≤ 2)
    (other : rest.head? ≠ some quote) :
    Quoted.ending quote (List.replicate quotes quote ++ rest) =
      (List.replicate quotes quote, rest) := by
  interval_cases quotes
  · cases rest with
    | nil => rfl
    | cons a tail =>
        have apart : a ≠ quote := by simpa using other
        cases tail <;> simp [Quoted.ending, apart]
  · cases rest with
    | nil => simp [Quoted.ending]
    | cons a tail =>
        have apart : a ≠ quote := by simpa using other
        simp [Quoted.ending, apart]
  · simp [Quoted.ending]

/-- What the readers of both forms do with quotes: three in a row end the string, and any other
stands for itself. -/
structure Closes (quote : Char) (read : List Char → Option (List Char × List Char)) : Prop where
  three : ∀ cs, read (quote :: quote :: quote :: cs) = some (Quoted.ending quote cs)
  one : ∀ cs, (∀ tail, cs ≠ quote :: quote :: tail) →
    read (quote :: cs) = Quoted.push quote (read cs)

namespace Closes

variable {quote d : Char} {read : List Char → Option (List Char × List Char)} {quotes : Nat}

/-- Quotes right before the closing delimiter belong to the text. -/
theorem atEnd (closes : Closes quote read) (few : quotes ≤ 2) (other : rest.head? ≠ some quote) :
    read (List.replicate quotes quote ++ quote :: quote :: quote :: rest) =
      some (List.replicate quotes quote, rest) := by
  rw [← ending_replicate few other, ← closes.three]
  congr 1
  interval_cases quotes <;> rfl

theorem before (closes : Closes quote read) (few : quotes ≤ 2) (apart : d ≠ quote)
    {text : List Char} (after : read (d :: cs) = some (text, rest)) :
    read (List.replicate quotes quote ++ d :: cs) =
      some (List.replicate quotes quote ++ text, rest) := by
  have last : read (quote :: d :: cs) = some (quote :: text, rest) := by
    rw [closes.one, after]
    · rfl
    · rintro tail ⟨⟩
      exact apart rfl
  interval_cases quotes
  · exact after
  · exact last
  · change read (quote :: quote :: d :: cs) = _
    rw [closes.one, last]
    · rfl
    · intro tail same
      exact apart (List.cons.inj (List.cons.inj same).2).1

/-- A piece that is no quote ends a run of quotes, and the count starts again. -/
theorem step (closes : Closes quote read) (few : quotes ≤ 2) (apart : d ≠ quote) {c : Char}
    {after text : List Char} (piece : read (d :: cs) = Quoted.push c (read after))
    (later : read (List.replicate 0 quote ++ after) =
      some (List.replicate 0 quote ++ text, rest)) :
    read (List.replicate quotes quote ++ d :: cs) =
      some (List.replicate quotes quote ++ c :: text, rest) := by
  apply closes.before few apart
  rw [List.replicate_zero, List.nil_append] at later
  rw [piece, later]
  rfl

end Closes

/-! ## Strings on several lines -/

theorem multiBasic_closes : Closes '"' (Quoted.multiBasic .none) where
  three := fun cs => by
    rw [Quoted.multiBasic]
    all_goals simp
  one := fun cs apart => by
    rw [Quoted.multiBasic]
    · rfl
    all_goals simp_all

theorem multiLiteral_closes : Closes '\'' Quoted.multiLiteral where
  three := fun cs => by rw [Quoted.multiLiteral]
  one := fun cs apart => by
    rw [Quoted.multiLiteral]
    · rfl
    all_goals simp_all

theorem multiBasic_plain (allowed : Unescaped c) (cs : List Char) :
    Quoted.multiBasic .none (c :: cs) = Quoted.push c (Quoted.multiBasic .none cs) := by
  have backslash : c ≠ '\\' := allowed.ne (by decide)
  have quote : c ≠ '"' := allowed.ne (by decide)
  have carriageReturn : c ≠ '\r' := allowed.ne (by decide)
  rw [Quoted.multiBasic]
  · simp [backslash, allowed.isPlain]
  all_goals simp_all

theorem multiBasic_newline (cs : List Char) :
    Quoted.multiBasic .none ('\n' :: cs) = Quoted.push '\n' (Quoted.multiBasic .none cs) := by
  simp

theorem multiBasic_escape {code : List Char} (escape : Escape code c) (cs : List Char) :
    Quoted.multiBasic .none ('\\' :: (code ++ cs)) =
      Quoted.push c (Quoted.multiBasic .none cs) := by
  cases escape with
  | short a b c d x code => simp [unicode?_of_code code]
  | long a b c d e f g h x code => simp [unicode?_of_code code]
  | _ => simp [Quoted.escape?]

/-- By induction on the inside; quotes that were passed are carried along until it is clear whether
they end the string. -/
theorem read_multiBasic {quotes : Nat} {source text : List Char}
    (inside : MultiBasic quotes source text) (few : quotes ≤ 2) (other : rest.head? ≠ some '"') :
    Quoted.multiBasic .none
        (List.replicate quotes '"' ++ (source ++ '"' :: '"' :: '"' :: rest)) =
      some (List.replicate quotes '"' ++ text, rest) := by
  induction inside with
  | nil quotes =>
      rw [List.nil_append, List.append_nil]
      exact multiBasic_closes.atEnd few other
  | @quote quotes fewer source text _ ih =>
      have carried := ih (by omega)
      rw [List.replicate_succ'] at carried
      simpa using carried
  | newline _ ih =>
      exact multiBasic_closes.step few (by decide) (multiBasic_newline _) (ih (by decide))
  | plain c allowed _ ih =>
      have apart : c ≠ '"' := allowed.ne (by decide)
      exact multiBasic_closes.step few apart (multiBasic_plain allowed _) (ih (by decide))
  | escape escape _ ih =>
      rw [List.cons_append, List.append_assoc]
      exact multiBasic_closes.step few (by decide) (multiBasic_escape escape _) (ih (by decide))

theorem multiLiteral_plain (allowed : Raw c) (cs : List Char) :
    Quoted.multiLiteral (c :: cs) = Quoted.push c (Quoted.multiLiteral cs) := by
  have quote : c ≠ '\'' := allowed.ne (by decide)
  have carriageReturn : c ≠ '\r' := allowed.ne (by decide)
  rw [Quoted.multiLiteral]
  · simp [allowed.isPlain]
  all_goals simp_all

theorem multiLiteral_newline (cs : List Char) :
    Quoted.multiLiteral ('\n' :: cs) = Quoted.push '\n' (Quoted.multiLiteral cs) := by
  simp

theorem read_multiLiteral {quotes : Nat} {text : List Char} (inside : MultiLiteral quotes text)
    (few : quotes ≤ 2) (other : rest.head? ≠ some '\'') :
    Quoted.multiLiteral
        (List.replicate quotes '\'' ++ (text ++ '\'' :: '\'' :: '\'' :: rest)) =
      some (List.replicate quotes '\'' ++ text, rest) := by
  induction inside with
  | nil quotes =>
      rw [List.nil_append, List.append_nil]
      exact multiLiteral_closes.atEnd few other
  | @quote quotes fewer text _ ih =>
      have carried := ih (by omega)
      rw [List.replicate_succ'] at carried
      simpa using carried
  | newline _ ih =>
      exact multiLiteral_closes.step few (by decide) (multiLiteral_newline _) (ih (by decide))
  | plain c allowed _ ih =>
      have apart : c ≠ '\'' := allowed.ne (by decide)
      exact multiLiteral_closes.step few apart (multiLiteral_plain allowed _) (ih (by decide))

/-! ## Delimiters -/

theorem dropNewline_of_head (newline : cs.head? ≠ some '\n')
    (carriageReturn : cs.head? ≠ some '\r') : Quoted.dropNewline cs = cs := by
  rw [Quoted.dropNewline]
  · rintro tail rfl
    exact newline rfl
  · rintro tail rfl
    exact carriageReturn rfl

theorem Opening.dropNewline {opening inside : List Char} (opens : Opening opening inside)
    (carriageReturn : inside.head? ≠ some '\r') {quote : Char}
    (delimits : quote = '"' ∨ quote = '\'') (rest : List Char) :
    Quoted.dropNewline (opening ++ (inside ++ quote :: rest)) = inside ++ quote :: rest := by
  cases opens with
  | newline => rfl
  | direct other =>
      have first (d : Char) (apart : quote ≠ d) (barred : inside.head? ≠ some d) :
          (inside ++ quote :: rest).head? ≠ some d := by
        cases inside with
        | nil => simpa using apart
        | cons c inside => exact barred
      apply dropNewline_of_head
      · exact first '\n' (by rcases delimits with rfl | rfl <;> decide) other
      · exact first '\r' (by rcases delimits with rfl | rfl <;> decide) carriageReturn

theorem MultiBasic.head? {quotes : Nat} {source text : List Char}
    (inside : MultiBasic quotes source text) : source.head? ≠ some '\r' := by
  cases inside with
  | plain c allowed => simpa using allowed.ne (by decide)
  | _ => simp

theorem MultiLiteral.head? {quotes : Nat} {text : List Char} (inside : MultiLiteral quotes text) :
    text.head? ≠ some '\r' := by
  cases inside with
  | plain c allowed => simpa using allowed.ne (by decide)
  | _ => simp

theorem read?_of_one_quote (single : ∀ tail, cs ≠ '"' :: '"' :: tail) :
    Quoted.read? ('"' :: cs) = Quoted.basic cs := by
  rw [Quoted.read?]
  · rfl
  all_goals simp_all

theorem read?_of_one_apostrophe (single : ∀ tail, cs ≠ '\'' :: '\'' :: tail) :
    Quoted.read? ('\'' :: cs) = Quoted.literal cs := by
  rw [Quoted.read?]
  · rfl
  all_goals simp_all

theorem Basic.single {source text : List Char} (inside : Basic source text)
    (after : rest.head? ≠ some '"') (tail : List Char) :
    source ++ '"' :: rest ≠ '"' :: '"' :: tail := by
  cases inside with
  | nil =>
      intro same
      obtain rfl := (List.cons.inj same).2
      exact after rfl
  | plain c allowed =>
      have apart : c ≠ '"' := allowed.ne (by decide)
      exact fun same => apart (List.cons.inj same).1
  | escape => exact nofun

theorem Raw.single {text : List Char} (inside : ∀ c ∈ text, Raw c)
    (after : rest.head? ≠ some '\'') (tail : List Char) :
    text ++ '\'' :: rest ≠ '\'' :: '\'' :: tail := by
  cases text with
  | nil =>
      intro same
      obtain rfl := (List.cons.inj same).2
      exact after rfl
  | cons c text =>
      have apart : c ≠ '\'' := (inside c List.mem_cons_self).ne (by decide)
      exact fun same => apart (List.cons.inj same).1

theorem Str.head {source text : List Char} (written : Str source text) :
    ∃ quote tail, source = quote :: tail ∧ (quote = '"' ∨ quote = '\'') := by
  cases written <;> simp

theorem read_str {source text : List Char} (written : Str source text)
    (quote : rest.head? ≠ some '"') (apostrophe : rest.head? ≠ some '\'') :
    Quoted.read? (source ++ rest) = some (text, rest) := by
  cases written with
  | basic inside =>
      rw [List.cons_append, List.append_assoc, List.singleton_append,
        read?_of_one_quote (inside.single quote), read_basic inside]
  | literal inside =>
      rw [List.cons_append, List.append_assoc, List.singleton_append,
        read?_of_one_apostrophe (Raw.single inside apostrophe), read_literal inside]
  | @multiBasic opening source text opens inside =>
      have dropped := opens.dropNewline inside.head? (Or.inl rfl) ('"' :: '"' :: rest)
      have read := read_multiBasic inside (by decide) quote
      simpa [Quoted.read?, dropped] using read
  | @multiLiteral opening text opens inside =>
      have dropped := opens.dropNewline inside.head? (Or.inr rfl) ('\'' :: '\'' :: rest)
      have read := read_multiLiteral inside (by decide) apostrophe
      simpa [Quoted.read?, dropped] using read

end CouponDesk.Toml.Grammar
