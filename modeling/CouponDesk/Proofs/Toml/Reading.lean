import CouponDesk.Proofs.Text.Numerals
import CouponDesk.Proofs.Text.Scanning
import CouponDesk.Proofs.Toml.Strings

/-!
# Reading documents of the grammar

Whatever the grammar derives, the reader reads, and reads as what the grammar says it denotes:
`readDocument?_lines`.  Each piece is read in front of any text that cannot be taken for a part of
it.
-/

set_option autoImplicit false

namespace CouponDesk.Toml.Grammar

variable {c : Char} {cs rest : List Char}

/-! ## Integers -/

theorem isScalarChar_of_isDigit (digit : c.isDigit = true) : Scalar.isScalarChar c = true := by
  simp [Scalar.isScalarChar, Char.isAlphanum, digit]

namespace Decimal

variable {source : List Char} {n : Nat}

theorem decimal? (written : Decimal source n) : Scalar.decimal? source = some source := by
  have grouped := Numeral.ungroup_digits written.nonempty written.digits (by decide)
  rw [Scalar.decimal?, grouped, Option.filter_some, if_pos]
  simpa using written.leading

theorem integer? (written : Decimal source n) (fits : FitsAmount n) :
    Scalar.integer? source = some (.integer n) := by
  have digits := written.digits
  rw [Scalar.integer?]
  · rw [written.decimal?, Option.bind_some, written.value, Scalar.fitting, if_pos fits]
  all_goals
    rintro tail rfl
    simp at digits

theorem negative? (written : Decimal source n) (fits : FitsAmount (-n)) :
    Scalar.integer? ('-' :: source) = some (.integer (-n)) := by
  rw [Scalar.integer?, written.decimal?, Option.bind_some, written.value, Scalar.fitting,
    if_pos fits]

end Decimal

theorem afterDate?_eq_none (fifth : cs[4]? ≠ some '-') : Scalar.afterDate? cs = none := by
  rw [Scalar.afterDate?]
  rintro a b c d e f g h tail rfl
  exact fifth rfl

theorem afterTime?_eq_none (third : cs[2]? ≠ some ':') : Scalar.afterTime? cs = none := by
  rw [Scalar.afterTime?]
  rintro a b c d e f tail rfl
  exact third rfl

/-- An integer is no moment of time: past its sign it has digits only. -/
theorem isMoment_of_digits (digits : ∀ c ∈ cs, c.isDigit = true) (sign : Char) :
    Scalar.isMoment cs = false ∧ Scalar.isMoment (sign :: cs) = false := by
  have apart (i : Nat) {d : Char} (other : d.isDigit = false) : cs[i]? ≠ some d := by
    intro found
    rw [digits d (List.mem_of_getElem? found)] at other
    cases other
  constructor
  · simp [Scalar.isMoment, afterDate?_eq_none (apart 4 (d := '-') rfl),
      afterTime?_eq_none (apart 2 (d := ':') rfl)]
  · have date : Scalar.afterDate? (sign :: cs) = none :=
      afterDate?_eq_none (apart 3 (d := '-') rfl)
    have time : Scalar.afterTime? (sign :: cs) = none :=
      afterTime?_eq_none (apart 1 (d := ':') rfl)
    simp [Scalar.isMoment, date, time]

theorem splitToken_newline (token : ∀ c ∈ cs, Scalar.isScalarChar c = true) (rest : List Char) :
    Scalar.splitToken (cs ++ '\n' :: rest) = (cs, '\n' :: rest) := by
  have stop : Text.Stops Scalar.isScalarChar ('\n' :: rest) := Text.stops_cons.mpr (by decide)
  simp [Scalar.splitToken, Text.takeWhile_run token stop, Text.dropWhile_run token stop]

/-- A token that is neither a word nor a moment is read as the integer that it is. -/
theorem read_integer {value : Value} (token : ∀ c ∈ cs, Scalar.isScalarChar c = true)
    (word : cs ≠ ['t', 'r', 'u', 'e'] ∧ cs ≠ ['f', 'a', 'l', 's', 'e'])
    (moment : Scalar.isMoment cs = false) (integer : Scalar.integer? cs = some value)
    (rest : List Char) : Scalar.read? (cs ++ '\n' :: rest) = some (value, '\n' :: rest) := by
  rw [Scalar.read?, splitToken_newline token]
  simp [Scalar.ofToken?, word, moment, integer]

theorem read_positive {source : List Char} {n : Nat} (written : Decimal source n)
    (fits : FitsAmount n) (rest : List Char) :
    Scalar.read? (source ++ '\n' :: rest) = some (.integer n, '\n' :: rest) := by
  have digits := written.digits
  apply read_integer
  · exact fun c member => isScalarChar_of_isDigit (digits c member)
  · constructor <;> rintro rfl <;> simp at digits
  · exact (isMoment_of_digits digits '-').1
  · exact written.integer? fits

theorem read_negative {source : List Char} {n : Nat} (written : Decimal source n)
    (fits : FitsAmount (-n)) (rest : List Char) :
    Scalar.read? ('-' :: source ++ '\n' :: rest) = some (.integer (-n), '\n' :: rest) := by
  have digits := written.digits
  apply read_integer
  · rintro c (_ | ⟨_, member⟩)
    · decide
    · exact isScalarChar_of_isDigit (digits c member)
  · simp
  · exact (isMoment_of_digits digits '-').2
  · exact written.negative? fits

/-! ## Values -/

theorem value?_of_str {source text : List Char} (written : Str source text) (rest : List Char)
    (quote : rest.head? ≠ some '"') (apostrophe : rest.head? ≠ some '\'') (fuel room : Nat) :
    value? fuel room (source ++ rest) = some (.string (String.ofList text), rest) := by
  have read := read_str written quote apostrophe
  obtain ⟨delimiter, tail, rfl, delimits⟩ := written.head
  rw [value?, read]
  all_goals
    rintro _ _ _ _ _ ⟨⟩
    simp at delimits

theorem value?_of_scalar {value : Value} (token : Scalar.isScalarChar c = true)
    (read : Scalar.read? (c :: cs) = some (value, rest)) (fuel room : Nat) :
    value? fuel room (c :: cs) = some (value, rest) := by
  have unquoted : Quoted.read? (c :: cs) = none := by
    rw [Quoted.read?, Quoted.readLine?]
    all_goals
      rintro _ ⟨⟩
      simp [Scalar.isScalarChar, Char.isAlphanum] at token
  rw [value?, unquoted]
  · exact read
  all_goals
    rintro _ _ _ _ _ ⟨⟩
    simp [Scalar.isScalarChar, Char.isAlphanum] at token

/-! ## Blanks and newlines -/

theorem skipBlanks_blanks {blanks : List Char} (blank : ∀ c ∈ blanks, Blank c) (first : ¬ Blank c)
    (cs : List Char) : skipBlanks (blanks ++ c :: cs) = c :: cs := by
  apply Text.dropWhile_run
  · simpa [Blank] using blank
  · simpa [Blank] using first

theorem skipBlanks_of_head (first : ¬ Blank c) (cs : List Char) :
    skipBlanks (c :: cs) = c :: cs :=
  @skipBlanks_blanks c [] nofun first cs

theorem skipLines_of_head (printed : 0x20 < c.toNat) (comment : c ≠ '#') (cs : List Char) :
    skipLines (c :: cs) = c :: cs := by
  rw [skipLines, skipFrom]
  · have space : c ≠ ' ' := by rintro rfl; simp at printed
    have tab : c ≠ '\t' := by rintro rfl; simp at printed
    simp [space, tab, comment]
  · rintro rfl
    simp at printed
  · rintro tail rfl
    simp at printed

theorem skipLines_blanks {blanks : List Char} (blank : ∀ c ∈ blanks, Blank c) (cs : List Char) :
    skipLines (blanks ++ cs) = skipLines cs := by
  induction blanks with
  | nil => rfl
  | cons c blanks ih =>
      have later := ih fun other member => blank other (List.mem_cons_of_mem c member)
      rw [← later]
      rcases blank c List.mem_cons_self with rfl | rfl <;> simp [skipLines, skipFrom]

/-! ## Arrays of strings -/

/-- Items start neither with a blank or a comment nor with the end of their array. -/
theorem Items.head {source : List Char} {texts : List String} (written : Items source texts) :
    ∃ quote tail, source = quote :: tail ∧ 0x20 < quote.toNat ∧ quote ≠ '#' ∧ quote ≠ ']' := by
  have quoted : ∃ quote tail, source = quote :: tail ∧ (quote = '"' ∨ quote = '\'') := by
    cases written with
    | single item => exact item.head
    | more item =>
        obtain ⟨quote, tail, rfl, delimits⟩ := item.head
        exact ⟨quote, _, rfl, delimits⟩
  obtain ⟨quote, tail, rfl, delimits⟩ := quoted
  refine ⟨quote, tail, rfl, ?_⟩
  rcases delimits with rfl | rfl <;> decide

theorem Items.skipLines {source : List Char} {texts : List String} (written : Items source texts)
    (rest : List Char) : skipLines (source ++ rest) = source ++ rest := by
  obtain ⟨quote, tail, rfl, printed, comment, -⟩ := written.head
  exact skipLines_of_head printed comment _

theorem Items.length_le {source : List Char} {texts : List String} (written : Items source texts) :
    texts.length ≤ source.length := by
  induction written with
  | single item =>
      obtain ⟨quote, tail, rfl, -⟩ := item.head
      simp
  | more item blank others ih =>
      simp only [List.length_cons, List.length_append]
      omega

/-- By induction on the items, each of which takes one step of the fuel. -/
theorem items?_of_items {source : List Char} {texts : List String} (written : Items source texts)
    {fuel : Nat} (enough : texts.length ≤ fuel) (room : Nat) (rest : List Char) :
    items? fuel room (source ++ ']' :: rest) = some (texts.map .string, rest) := by
  have bracket (cs : List Char) : Toml.skipLines (']' :: cs) = ']' :: cs :=
    skipLines_of_head (by decide) (by decide) cs
  have comma (cs : List Char) : Toml.skipLines (',' :: cs) = ',' :: cs :=
    skipLines_of_head (by decide) (by decide) cs
  induction written generalizing fuel with
  | @single source text item =>
      obtain ⟨fuel, rfl⟩ := Nat.exists_eq_add_one.mpr (Nat.zero_lt_of_lt enough)
      have read := value?_of_str item (']' :: rest) (by simp) (by simp) fuel room
      simp [items?, read, bracket]
  | @more source text item blanks inside blank texts others ih =>
      obtain ⟨fuel, rfl⟩ := Nat.exists_eq_add_one.mpr (Nat.zero_lt_of_lt enough)
      have read := value?_of_str item (',' :: (blanks ++ (inside ++ ']' :: rest)))
        (by simp) (by simp) fuel room
      have remaining : texts.length ≤ fuel := by simpa using enough
      have later := ih remaining
      have skipped : Toml.skipLines (blanks ++ (inside ++ ']' :: rest)) =
          inside ++ ']' :: rest := by
        rw [skipLines_blanks blank, others.skipLines]
      obtain ⟨quote, tail, rfl, -, -, continues⟩ := others.head
      rw [List.cons_append] at later skipped read
      simp [items?, read, comma, skipped, later, continues]

theorem value?_of_items {source : List Char} {texts : List String} (written : Items source texts)
    {fuel : Nat} (enough : texts.length ≤ fuel) (room : Nat) (rest : List Char) :
    value? (fuel + 1) (room + 1) ('[' :: (source ++ ']' :: rest)) =
      some (.array (texts.map .string), rest) := by
  have skipped := written.skipLines (']' :: rest)
  have read := items?_of_items written enough room rest
  obtain ⟨quote, tail, rfl, -, -, continues⟩ := written.head
  rw [List.cons_append] at skipped read
  simp [value?, skipped, read, continues]

/-- A value ends with its line. -/
theorem readValue?_of_val {source : List Char} {value : Value} (given : Val source value)
    (rest : List Char) :
    readValue? (source ++ '\n' :: rest) = some (value, '\n' :: rest) := by
  cases given with
  | string written => exact value?_of_str written _ (by simp) (by simp) _ _
  | positive written fits =>
      have read := read_positive written fits rest
      have digits := written.digits
      cases source with
      | nil => exact absurd rfl written.nonempty
      | cons c source =>
          exact value?_of_scalar (isScalarChar_of_isDigit (digits c List.mem_cons_self)) read _ _
  | negative written fits =>
      exact value?_of_scalar (by decide) (read_negative written fits rest) _ _
  | empty =>
      have bracket : skipLines (']' :: '\n' :: rest) = ']' :: '\n' :: rest :=
        skipLines_of_head (by decide) (by decide) _
      simp [readValue?, maxDepth, value?, bracket]
  | @array source texts written =>
      have enough := written.length_le
      rw [List.cons_append, List.append_assoc, List.singleton_append, readValue?]
      apply value?_of_items written
      simp only [List.length_cons, List.length_append]
      omega

/-! ## Lines -/

theorem ne_of_isBareKeyChar {d : Char} (allowed : isBareKeyChar c = true)
    (barred : ¬ isBareKeyChar d = true) : c ≠ d := by
  rintro rfl
  exact barred allowed

theorem isBareKeyChar_iff : isBareKeyChar c = true ↔ c.isAlphanum = true ∨ c = '-' ∨ c = '_' := by
  simp [isBareKeyChar, or_assoc]

namespace BareKey

variable {key : List Char}

theorem of_all (nonempty : key ≠ []) (all : key.all isBareKeyChar = true) : BareKey key where
  nonempty := nonempty
  characters := fun c member => isBareKeyChar_iff.mp (List.all_eq_true.mp all c member)

theorem head (bare : BareKey key) : ∃ c tail, key = c :: tail ∧ isBareKeyChar c = true := by
  cases key with
  | nil => exact absurd rfl bare.nonempty
  | cons c tail =>
      exact ⟨c, tail, rfl, isBareKeyChar_iff.mpr (bare.characters c List.mem_cons_self)⟩

theorem keyPart? (bare : BareKey key) (barred : isBareKeyChar c = false) (cs : List Char) :
    keyPart? (key ++ c :: cs) = some (String.ofList key, c :: cs) := by
  have allowed : ∀ c ∈ key, isBareKeyChar c = true := fun c member =>
    isBareKeyChar_iff.mpr (bare.characters c member)
  have unquoted : Quoted.readLine? (key ++ c :: cs) = none := by
    obtain ⟨d, tail, rfl, first⟩ := bare.head
    rw [Quoted.readLine?]
    all_goals
      intro _ same
      exact ne_of_isBareKeyChar first (by decide) (List.cons.inj same).1
  have stop : Text.Stops isBareKeyChar (c :: cs) := Text.stops_cons.mpr barred
  simp [Toml.keyPart?, unquoted, Text.takeWhile_run allowed stop, Text.dropWhile_run allowed stop,
    bare.nonempty]

theorem not_blank (first : isBareKeyChar c = true) : ¬ Blank c := by
  rintro (space | tab)
  · exact ne_of_isBareKeyChar first (by decide) space
  · exact ne_of_isBareKeyChar first (by decide) tab

theorem key? {before : List Char} (bare : BareKey key) (blank : ∀ c ∈ before, Blank c)
    (room : Nat) (rest : List Char) :
    key? (room + 1) (key ++ (before ++ '=' :: rest)) =
      some ([], String.ofList key, '=' :: rest) := by
  have start : skipBlanks (key ++ (before ++ '=' :: rest)) = key ++ (before ++ '=' :: rest) := by
    obtain ⟨c, tail, rfl, first⟩ := bare.head
    exact skipBlanks_of_head (not_blank first) _
  have part : Toml.keyPart? (key ++ (before ++ '=' :: rest)) =
      some (String.ofList key, before ++ '=' :: rest) := by
    cases before with
    | nil => exact bare.keyPart? (by decide) rest
    | cons c before =>
        apply bare.keyPart?
        rcases blank c List.mem_cons_self with rfl | rfl <;> decide
  have equals : skipBlanks (before ++ '=' :: rest) = '=' :: rest :=
    skipBlanks_blanks blank (by decide) rest
  simp [Toml.key?, start, part, equals]

end BareKey

theorem Val.head {source : List Char} {value : Value} (given : Val source value) :
    ∃ c tail, source = c :: tail ∧ ¬ Blank c := by
  cases given with
  | string written =>
      obtain ⟨quote, tail, rfl, delimits⟩ := written.head
      refine ⟨quote, tail, rfl, ?_⟩
      rcases delimits with rfl | rfl <;> simp [Blank]
  | positive written =>
      have digits := written.digits
      cases source with
      | nil => exact absurd rfl written.nonempty
      | cons c tail =>
          refine ⟨c, tail, rfl, ?_⟩
          rintro (rfl | rfl) <;> simp at digits
  | _ => exact ⟨_, _, rfl, by simp [Blank]⟩

theorem read?_pair {key before after source : List Char} {value : Value} (bare : BareKey key)
    (blankBefore : ∀ c ∈ before, Blank c) (blankAfter : ∀ c ∈ after, Blank c)
    (given : Val source value) (rest : List Char) :
    Line.read? (key ++ (before ++ '=' :: (after ++ (source ++ '\n' :: rest)))) =
      some (.pair [] (String.ofList key) value, '\n' :: rest) := by
  have split := bare.key? blankBefore 78 (after ++ (source ++ '\n' :: rest))
  have start : skipBlanks (after ++ (source ++ '\n' :: rest)) = source ++ '\n' :: rest := by
    obtain ⟨c, tail, rfl, first⟩ := given.head
    exact skipBlanks_blanks blankAfter first _
  have read := readValue?_of_val given rest
  obtain ⟨c, tail, rfl, first⟩ := bare.head
  rw [List.cons_append] at split ⊢
  rw [Line.read?]
  · simp [maxDepth, split, start, read]
  all_goals
    intro _ same
    exact ne_of_isBareKeyChar first (by decide) (List.cons.inj same).1

theorem afterEnd?_newline (rest : List Char) : Line.afterEnd? ('\n' :: rest) = some rest := by
  rw [Line.afterEnd?, skipBlanks_of_head (by decide)]
  rfl

/-! ## Documents -/

theorem add_pair {d : Draft} {key : String} (root : d.path = [])
    (missing : d.root.lookup key = none) (value : Value) :
    d.add (.pair [] key value) = some { d with root := d.root.add key value } := by
  simp [Draft.add, Entries.update, Entries.assign, root, missing]

theorem lookup_add_of_ne {entries : Entries} {key other : String} (apart : other ≠ key)
    (value : Value) : (entries.add key value).lookup other = entries.lookup other := by
  have barred : (other == key) = false := by simpa using apart
  simp [Entries.add, List.lookup_append, List.lookup_cons, barred]

/-- One line that is not blank takes one step. -/
theorem addLines_line (blank : ¬ Blank c) (content : c ≠ '#' ∧ c ≠ '\n' ∧ c ≠ '\r') {line : Line}
    (read : Line.read? (c :: cs) = some (line, '\n' :: rest)) {d changed : Draft}
    (added : d.add line = some changed) (count : Nat) :
    d.addLines (count + 1) (c :: cs) = changed.addLines count rest := by
  simp [Draft.addLines, skipBlanks_of_head blank, content, read, afterEnd?_newline, added]

/-- By induction on the lines, of which every one takes a character. -/
theorem addLines_of_lines {source : List Char} {entries : Entries} (lines : Lines source entries)
    {count : Nat} (enough : source.length < count) {d : Draft} (root : d.path = [])
    (fresh : ∀ key ∈ entries.map Prod.fst, d.root.lookup key = none) :
    d.addLines count source = some { d with root := d.root ++ entries } := by
  induction lines generalizing count d with
  | done =>
      obtain ⟨count, rfl⟩ := Nat.exists_eq_add_one.mpr (Nat.zero_lt_of_lt enough)
      simp [Draft.addLines, skipBlanks]
  | @empty rest entries others ih =>
      obtain ⟨count, rfl⟩ := Nat.exists_eq_add_one.mpr (Nat.zero_lt_of_lt enough)
      have shorter : rest.length < count := by simpa using enough
      have later := ih shorter root fresh
      have start : skipBlanks ('\n' :: rest) = '\n' :: rest :=
        skipBlanks_of_head (by decide) rest
      simp [Draft.addLines, start, afterEnd?_newline, later]
  | @pair key bare before after blankBefore blankAfter source value given rest entries others
      missing ih =>
      obtain ⟨count, rfl⟩ := Nat.exists_eq_add_one.mpr (Nat.zero_lt_of_lt enough)
      have read := read?_pair bare blankBefore blankAfter given rest
      have absent : d.root.lookup (String.ofList key) = none := fresh _ (by simp)
      have added := add_pair root absent value
      have shorter : rest.length < count := by
        simp only [List.length_append, List.length_cons] at enough
        omega
      have later := ih shorter
        (d := { d with root := d.root.add (String.ofList key) value }) root <| by
          intro other member
          have apart : other ≠ String.ofList key := by
            rintro rfl
            exact missing member
          rw [lookup_add_of_ne apart]
          exact fresh other (List.mem_cons_of_mem _ member)
      obtain ⟨c, tail, rfl, first⟩ := bare.head
      have content : c ≠ '#' ∧ c ≠ '\n' ∧ c ≠ '\r' :=
        ⟨ne_of_isBareKeyChar first (by decide), ne_of_isBareKeyChar first (by decide),
          ne_of_isBareKeyChar first (by decide)⟩
      rw [List.cons_append] at read ⊢
      rw [addLines_line (BareKey.not_blank first) content read added, later]
      simp [Entries.add]

theorem Lines.head? {source : List Char} {entries : Entries} (lines : Lines source entries) :
    source.head? ≠ some '\uFEFF' := by
  cases lines with
  | pair bare =>
      obtain ⟨c, tail, rfl, first⟩ := bare.head
      have unmarked : c ≠ '\uFEFF' := ne_of_isBareKeyChar first (by decide)
      simpa using unmarked
  | _ => simp

/-- The reader reads every document of the grammar, and reads it as what it denotes. -/
theorem readDocument?_lines {source : List Char} {entries : Entries}
    (lines : Lines source entries) : readDocument? (String.ofList source) = some entries := by
  have read := addLines_of_lines lines (Nat.lt_succ_self _) (d := {}) rfl (by simp)
  have unmarked := lines.head?
  rw [readDocument?, String.toList_ofList]
  split
  · exact absurd rfl unmarked
  · simp [read]

/-- A document denotes one table, however it is derived. -/
theorem Lines.unique {source : List Char} {entries others : Entries}
    (lines : Lines source entries) (again : Lines source others) : entries = others :=
  Option.some.inj ((readDocument?_lines lines).symm.trans (readDocument?_lines again))

end CouponDesk.Toml.Grammar
