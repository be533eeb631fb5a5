import CouponDesk.Proofs.Toml.Reading
import CouponDesk.Session

/-!
# Writing documents of the grammar

Whatever form is chosen for a text, what is written is a string of the grammar that denotes the
text: `str_write`.  So printed details are a document of the grammar, and what it denotes, which is
also what is read from it, is the details.
-/

set_option autoImplicit false

namespace CouponDesk.Toml.Grammar

variable {c : Char} {text : List Char}

/-! ## Characters -/

theorem isControl_eq_false : Quoted.isControl c = false ↔ Quoted.isPlain c = true ∨ c = '\n' := by
  cases plain : Quoted.isPlain c <;> simp [Quoted.isControl, plain]

theorem Unescaped.of_isPlain (plain : Quoted.isPlain c = true) (quote : c ≠ '"')
    (backslash : c ≠ '\\') : Unescaped c := by
  have codes := isPlain_iff.mp plain
  have apart : c.toNat ≠ 0x22 := fun same => quote (Char.toNat_inj.mp same)
  have far : c.toNat ≠ 0x5C := fun same => backslash (Char.toNat_inj.mp same)
  unfold Unescaped
  omega

theorem Raw.of_isPlain (plain : Quoted.isPlain c = true) (apostrophe : c ≠ '\'') : Raw c := by
  have codes := isPlain_iff.mp plain
  have apart : c.toNat ≠ 0x27 := fun same => apostrophe (Char.toNat_inj.mp same)
  unfold Raw
  omega

/-- The control characters are among the code points of one byte. -/
theorem escape_of_isControl (control : Quoted.isControl c = true) :
    Escape ['u', '0', '0', Numeral.hexDigit (c.toNat / 16), Numeral.hexDigit (c.toNat % 16)] c := by
  apply Escape.short
  apply Numeral.ofHex?_byte
  by_contra large
  have plain : Quoted.isPlain c = true := isPlain_iff.mpr (by omega)
  simp [Quoted.isControl, plain] at control

/-- A character other than the quote stands for itself or is escaped; a newline may also be kept. -/
theorem escaped_cases (quote : c ≠ '"') (keepNewline : Bool) :
    (∃ code, Quoted.escaped keepNewline c = '\\' :: code ∧ Escape code c) ∨
      (Quoted.escaped keepNewline c = [c] ∧ (Unescaped c ∨ (keepNewline = true ∧ c = '\n'))) := by
  unfold Quoted.escaped
  split_ifs with backslash backspace tab formFeed carriageReturn newline keep control
  · exact Or.inl ⟨_, rfl, backslash ▸ .backslash⟩
  · exact Or.inl ⟨_, rfl, backspace ▸ .backspace⟩
  · exact Or.inl ⟨_, rfl, tab ▸ .tab⟩
  · exact Or.inl ⟨_, rfl, formFeed ▸ .formFeed⟩
  · exact Or.inl ⟨_, rfl, carriageReturn ▸ .carriageReturn⟩
  · exact Or.inr ⟨newline ▸ rfl, Or.inr ⟨keep, newline⟩⟩
  · exact Or.inl ⟨_, rfl, newline ▸ .newline⟩
  · exact Or.inl ⟨_, rfl, escape_of_isControl control⟩
  · have plain : Quoted.isPlain c = true := by
      simpa [newline] using isControl_eq_false.mp (Bool.eq_false_of_not_eq_true control)
    exact Or.inr ⟨rfl, Or.inl (Unescaped.of_isPlain plain quote backslash)⟩

/-! ## Strings -/

theorem basic_basicInside (text : List Char) : Basic (Quoted.basicInside text) text := by
  fun_induction Quoted.basicInside text with
  | case1 => exact .nil
  | case2 rest ih => exact .escape .quote ih
  | case3 c rest quote ih =>
      rcases escaped_cases quote false with ⟨code, same, escape⟩ | ⟨same, allowed | ⟨keep, -⟩⟩
      · rw [same]
        exact .escape escape ih
      · rw [same]
        exact .plain c allowed ih
      · cases keep

/-- At most two quotes in a row are written, since a third is escaped. -/
theorem multiBasic_multiInside (quotes : Nat) (text : List Char) :
    MultiBasic quotes (Quoted.multiInside quotes text) text := by
  fun_induction Quoted.multiInside quotes text with
  | case1 => exact .nil _
  | case2 quotes rest few ih => exact .quote few ih
  | case3 quotes rest many ih => exact .escape .quote ih
  | case4 quotes c rest quote ih =>
      rcases escaped_cases quote true with ⟨code, same, escape⟩ | ⟨same, allowed | ⟨-, newline⟩⟩
      · rw [same]
        exact .escape escape ih
      · rw [same]
        exact .plain c allowed ih
      · rw [same, newline]
        exact .newline ih

theorem hasTriple_tail {quote a : Char} {cs : List Char}
    (none : Quoted.hasTriple quote (a :: cs) = false) : Quoted.hasTriple quote cs = false := by
  match cs with
  | [] | [_] => rfl
  | b :: d :: rest =>
      rw [Quoted.hasTriple, Bool.or_eq_false_iff] at none
      exact none.2

/-- By induction on the text; apostrophes that were passed are carried along, so that a third one in
a row is seen. -/
theorem multiLiteral_of_hasTriple {quotes : Nat}
    (none : Quoted.hasTriple '\'' (List.replicate quotes '\'' ++ text) = false)
    (few : quotes ≤ 2) (raw : ∀ c ∈ text, Quoted.isControl c = false) :
    MultiLiteral quotes text := by
  induction text generalizing quotes with
  | nil => exact .nil _
  | cons c text ih =>
      have rawLater : ∀ c ∈ text, Quoted.isControl c = false := fun other member =>
        raw other (List.mem_cons_of_mem c member)
      by_cases apostrophe : c = '\''
      · subst apostrophe
        have fewer : quotes < 2 := by
          by_contra many
          obtain rfl : quotes = 2 := by omega
          simp [Quoted.hasTriple] at none
        refine .quote fewer (ih ?_ (by omega) rawLater)
        rw [List.replicate_succ', List.append_assoc]
        exact none
      · have later : MultiLiteral 0 text := by
          refine ih ?_ (by omega) rawLater
          induction quotes with
          | zero => exact hasTriple_tail none
          | succ quotes carried => exact carried (hasTriple_tail none) (by omega)
        rcases isControl_eq_false.mp (raw c List.mem_cons_self) with plain | rfl
        · exact .plain c (Raw.of_isPlain plain apostrophe) later
        · exact .newline later

/-! ## Forms -/

theorem of_form_literal (form : Quoted.form text = .literal) :
    (∀ c ∈ text, Quoted.isControl c = false) ∧ '\n' ∉ text ∧ '\'' ∉ text := by
  simp only [Quoted.form] at form
  split_ifs at form with basic literal
  simpa [and_assoc] using literal

theorem of_form_multiLiteral (form : Quoted.form text = .multiLiteral) :
    (∀ c ∈ text, Quoted.isControl c = false) ∧ Quoted.hasTriple '\'' text = false := by
  simp only [Quoted.form] at form
  split_ifs at form with basic literal multiBasic multiLiteral
  simpa using multiLiteral

theorem opening_of_head {inside : List Char}
    (head : '\n' ∉ text → inside.head? ≠ some '\n') : Opening (Quoted.opening text) inside := by
  unfold Quoted.opening
  split_ifs with newline
  · exact .newline inside
  · exact .direct (head (by simpa using newline))

theorem head?_multiInside (single : '\n' ∉ text) :
    (Quoted.multiInside 0 text).head? ≠ some '\n' := by
  fun_cases Quoted.multiInside 0 text with
  | case1 => simp
  | case2 => simp
  | case3 => simp
  | case4 _ c rest quote =>
      have other : c ≠ '\n' := fun same => single (by simp [same])
      rcases escaped_cases quote true with ⟨code, same, -⟩ | ⟨same, -⟩
      · simp [same]
      · simpa [same] using other

/-- What is written for a text is a string that denotes it. -/
theorem str_write (text : List Char) : Str (Quoted.write text) text := by
  unfold Quoted.write
  split
  · exact .basic (basic_basicInside text)
  next form =>
    obtain ⟨raw, oneLine, apostrophes⟩ := of_form_literal form
    refine .literal fun c member => ?_
    rcases isControl_eq_false.mp (raw c member) with plain | rfl
    · exact Raw.of_isPlain plain fun same => apostrophes (same ▸ member)
    · exact absurd member oneLine
  · exact .multiBasic (opening_of_head head?_multiInside) (multiBasic_multiInside 0 text)
  next form =>
    obtain ⟨raw, none⟩ := of_form_multiLiteral form
    refine .multiLiteral (opening_of_head fun single => ?_)
      (multiLiteral_of_hasTriple none (by omega) raw)
    exact fun first => single (List.mem_of_mem_head? first)

/-! ## Values -/

theorem decimal_digits (n : Nat) : Decimal (Numeral.digits n) n where
  nonempty := Numeral.digits_ne_nil n
  digits := Numeral.isDigit_of_mem_digits n
  leading := Numeral.length_digits_or n
  value := Numeral.ofDigits_digits n

theorem val_signed {n : Int} (fits : FitsAmount n) : Val (Numeral.signed n) (.integer n) := by
  unfold Numeral.signed
  split_ifs with negative
  · obtain ⟨size, rfl⟩ : ∃ size : Nat, n = -size := ⟨n.natAbs, by omega⟩
    rw [Int.natAbs_neg, Int.natAbs_natCast]
    exact .negative (decimal_digits size) fits
  · obtain ⟨size, rfl⟩ : ∃ size : Nat, n = size := ⟨n.natAbs, by omega⟩
    exact .positive (decimal_digits size) fits

theorem val_write (text : String) : Val (Quoted.write text.toList) (.string text) := by
  have written := Val.string (str_write text.toList)
  rwa [String.ofList_toList] at written

theorem items_stringItems (item : String) (rest : List String) :
    Items (stringItems (item :: rest)) (item :: rest) := by
  induction rest generalizing item with
  | nil =>
      have written := Items.single (str_write item.toList)
      rwa [String.ofList_toList] at written
  | cons next rest ih =>
      have blank : ∀ c ∈ [' '], Blank c := by simp [Blank]
      have written := Items.more (str_write item.toList) blank (ih next)
      rwa [String.ofList_toList] at written

theorem val_stringItems (items : List String) :
    Val ('[' :: (stringItems items ++ [']'])) (.array (items.map .string)) := by
  cases items with
  | nil => exact .empty
  | cons item rest => exact .array (items_stringItems item rest)

/-! ## Details -/

theorem Lines.pairLine {rest : List Char} {entries : Entries} (others : Lines rest entries)
    (key : String) (bare : BareKey key.toList) {source : List Char} {value : Value}
    (given : Val source value) (fresh : key ∉ entries.map Prod.fst) :
    Lines (pairLine key source ++ rest) ((key, value) :: entries) := by
  have blank : ∀ c ∈ [' '], Blank c := by simp [Blank]
  have written := Lines.pair bare blank blank given others (by rwa [String.ofList_toList])
  rw [String.ofList_toList] at written
  simpa [Toml.pairLine] using written

end CouponDesk.Toml.Grammar

namespace CouponDesk.Details

def entries (d : Details) : Toml.Entries :=
  [("name", .string d.name), ("total_amount", .integer d.total),
    ("remaining_amount", .integer d.remaining), ("claimants", .array (d.claimants.map .string))]

variable {d : Details}

/-- Printed details may be followed by empty lines. -/
theorem lines_tomlChars (total : FitsAmount d.total) (remaining : FitsAmount d.remaining)
    {rest : List Char} (others : Toml.Grammar.Lines rest []) :
    Toml.Grammar.Lines (d.tomlChars ++ rest) d.entries := by
  have claimants := others.pairLine "claimants" (.of_all (by decide) (by decide))
    (Toml.Grammar.val_stringItems d.claimants) (by simp)
  have remainder := claimants.pairLine "remaining_amount" (.of_all (by decide) (by decide))
    (Toml.Grammar.val_signed remaining) (by simp)
  have amounts := remainder.pairLine "total_amount" (.of_all (by decide) (by decide))
    (Toml.Grammar.val_signed total) (by simp)
  have named := amounts.pairLine "name" (.of_all (by decide) (by decide))
    (Toml.Grammar.val_write d.name) (by simp)
  simpa [tomlChars, entries] using named

/-- Details, also as they are printed with an empty line after them, are a TOML document.  It
denotes their values under their four keys and nothing else, and that is what a reader gets. -/
theorem details_read_back (d : Details) (total : FitsAmount d.total)
    (remaining : FitsAmount d.remaining) (text : String)
    (rendered : text = d.toml ∨ text = Session.printed d) :
    (∀ entries, Toml.Grammar.Lines text.toList entries ↔ entries = d.entries) ∧
      Toml.readDocument? text = some d.entries := by
  have lines : Toml.Grammar.Lines text.toList d.entries := by
    rcases rendered with rfl | rfl
    · simpa [toml] using lines_tomlChars total remaining .done
    · simpa [Session.printed, toml] using lines_tomlChars total remaining (.empty .done)
  have read := Toml.Grammar.readDocument?_lines lines
  rw [String.ofList_toList] at read
  refine ⟨fun entries => ⟨fun other => ?_, fun same => same ▸ lines⟩, read⟩
  exact other.unique lines

/-- Every form of string, with its delimiters inside, at both limits of the amounts. -/
theorem details_read_back_quoted :
    let d : Details :=
      ⟨"\"\"", 9223372036854775807, -9223372036854775808,
        ["", "it's", "C:\\dir", "\n'\"'\\", "''' and \"\"\"\"", "\"\"\"\n\r\t\x00\\", "\n"]⟩
    FitsAmount d.total ∧ FitsAmount d.remaining ∧
      (∀ entries, Toml.Grammar.Lines (Session.printed d).toList entries ↔ entries = d.entries) ∧
      Toml.readDocument? (Session.printed d) =
        some [("name", .string "\"\""), ("total_amount", .integer 9223372036854775807),
          ("remaining_amount", .integer (-9223372036854775808)),
          ("claimants", .array [.string "", .string "it's", .string "C:\\dir",
            .string "\n'\"'\\", .string "''' and \"\"\"\"", .string "\"\"\"\n\r\t\x00\\",
            .string "\n"])] := by
  intro d
  have total : FitsAmount d.total := by decide
  have remaining : FitsAmount d.remaining := by decide
  exact ⟨total, remaining, details_read_back d total remaining _ (Or.inr rfl)⟩

end CouponDesk.Details
