import CouponDesk.Proofs.Json.Numbers
import CouponDesk.Proofs.Json.Strings

/-!
# Reading JSON

The reader accepts exactly the texts of the grammar and returns the value that they denote:
`read?_eq_some_iff`.  Both directions are proved by induction on the depth of the reading, for
values, items and members together.
-/

set_option autoImplicit false

namespace CouponDesk.Json.Grammar

variable {cs rest source before : List Char} {depth : Nat} {v : Value} {vs : List Value}
  {m : Option String × Value} {ms : List (Option String × Value)}

/-! ## White space -/

theorem space_nil : Space [] := by simp [Space]

theorem Space.append {after : List Char} (blank : Space before) (blank' : Space after) :
    Space (before ++ after) :=
  List.forall_mem_append.mpr ⟨blank, blank'⟩

theorem isSpace_iff {c : Char} :
    isSpace c = true ↔ c = ' ' ∨ c = '\t' ∨ c = '\n' ∨ c = '\r' := by
  simp only [isSpace, Bool.or_eq_true, decide_eq_true_eq]
  tauto

theorem exists_space (cs : List Char) : ∃ before, cs = before ++ skipSpace cs ∧ Space before :=
  ⟨cs.takeWhile isSpace, List.takeWhile_append_dropWhile.symm,
    fun _ member => isSpace_iff.mp (List.mem_takeWhile_imp member)⟩

theorem skipSpace_append (blank : Space before) (cs : List Char) :
    skipSpace (before ++ cs) = skipSpace cs :=
  List.dropWhile_append_of_pos fun c member => isSpace_iff.mpr (blank c member)

/-- White space may be added in front. -/
theorem Item.append (blank : Space before) (item : Item source v) : Item (before ++ source) v := by
  obtain ⟨blankBefore, value, blankAfter⟩ := item
  rw [← List.append_assoc]
  exact .mk (blank.append blankBefore) value blankAfter

theorem Items.append (blank : Space before) (items : Items source vs) :
    Items (before ++ source) vs := by
  cases items with
  | last item => exact .last (item.append blank)
  | more item others =>
      rw [← List.append_assoc]
      exact .more (item.append blank) others

theorem Member.append (blank : Space before) (member : Member source m) :
    Member (before ++ source) m := by
  obtain ⟨blankBefore, string, blankAfter, item⟩ := member
  rw [← List.append_assoc]
  exact .mk (blank.append blankBefore) string blankAfter item

theorem Members.append (blank : Space before) (members : Members source ms) :
    Members (before ++ source) ms := by
  cases members with
  | last member => exact .last (member.append blank)
  | more member others =>
      rw [← List.append_assoc]
      exact .more (member.append blank) others

/-! ## What is read is written -/

theorem afterWord_eq_some_iff {word : String} :
    afterWord word cs = some rest ↔ cs = word.toList ++ rest := by
  unfold afterWord
  constructor
  · intro read
    split_ifs at read with found
    obtain rfl := Option.some.inj read
    rw [List.isPrefixOf_iff_prefix, List.prefix_iff_eq_append] at found
    rw [← String.length_toList, found]
  · rintro rfl
    rw [if_pos (List.isPrefixOf_iff_prefix.mpr (List.prefix_append _ _)), ← String.length_toList,
      List.drop_left]

theorem word_sound {word : String} {w : Value}
    (read : (afterWord word cs).map (fun rest => (w, rest)) = some (v, rest)) :
    cs = word.toList ++ rest ∧ v = w := by
  obtain ⟨tail, word, same⟩ := Option.map_eq_some_iff.mp read
  obtain ⟨rfl, rfl⟩ := Prod.mk.inj same
  exact ⟨afterWord_eq_some_iff.mp word, rfl⟩

/-- What readings at a depth return is written in the text. -/
structure Sound (depth : Nat) : Prop where
  value : ∀ {cs : List Char} {v : Value} {rest : List Char},
    Json.value depth cs = some (v, rest) →
      ∃ before source, cs = before ++ (source ++ rest) ∧ Space before ∧ Val source v
  items : ∀ {cs : List Char} {vs : List Value} {rest : List Char},
    Json.items depth cs = some (vs, rest) → ∃ source, cs = source ++ ']' :: rest ∧ Items source vs
  members : ∀ {cs : List Char} {ms : List (Option String × Value)} {rest : List Char},
    Json.members depth cs = some (ms, rest) →
      ∃ source, cs = source ++ '\x7d' :: rest ∧ Members source ms

namespace Sound

theorem value_step (sound : Sound depth) (read : Json.value (depth + 1) cs = some (v, rest)) :
    ∃ before source, cs = before ++ (source ++ rest) ∧ Space before ∧ Val source v := by
  suffices written : ∃ source, skipSpace cs = source ++ rest ∧ Val source v by
    obtain ⟨before, begins, blank⟩ := exists_space cs
    obtain ⟨source, same, value⟩ := written
    exact ⟨before, source, begins.trans (by rw [same]), blank, value⟩
  rw [Json.value] at read
  split at read
  next tail found =>
    obtain ⟨gap, splits, blank⟩ := exists_space tail
    split at read
    next tail' closes =>
      obtain ⟨rfl, rfl⟩ := Prod.mk.inj (Option.some.inj read)
      refine ⟨_, ?_, .noMembers blank⟩
      rw [found, splits, closes]
      simp
    next =>
      obtain ⟨⟨ms, rest⟩, inside, same⟩ := Option.map_eq_some_iff.mp read
      obtain ⟨rfl, rfl⟩ := Prod.mk.inj same
      obtain ⟨source, closes, members⟩ := sound.members inside
      refine ⟨_, ?_, .object (members.append blank)⟩
      rw [found, splits, closes]
      simp
  next tail found =>
    obtain ⟨gap, splits, blank⟩ := exists_space tail
    split at read
    next tail' closes =>
      obtain ⟨rfl, rfl⟩ := Prod.mk.inj (Option.some.inj read)
      refine ⟨_, ?_, .noItems blank⟩
      rw [found, splits, closes]
      simp
    next =>
      obtain ⟨⟨vs, rest⟩, inside, same⟩ := Option.map_eq_some_iff.mp read
      obtain ⟨rfl, rfl⟩ := Prod.mk.inj same
      obtain ⟨source, closes, items⟩ := sound.items inside
      refine ⟨_, ?_, .array (items.append blank)⟩
      rw [found, splits, closes]
      simp
  next tail found =>
    obtain ⟨⟨text?, rest⟩, string, same⟩ := Option.map_eq_some_iff.mp read
    obtain ⟨rfl, rfl⟩ := Prod.mk.inj same
    obtain ⟨source, quoted, written⟩ := stringText_sound string
    exact ⟨source, found.trans quoted, .string written⟩
  next tail found =>
    obtain ⟨rfl, rfl⟩ := word_sound read
    exact ⟨_, found, .null⟩
  next tail found =>
    obtain ⟨rfl, rfl⟩ := word_sound read
    exact ⟨_, found, .yes⟩
  next tail found =>
    obtain ⟨rfl, rfl⟩ := word_sound read
    exact ⟨_, found, .no⟩
  next =>
    obtain ⟨v, number, same⟩ := Option.map_eq_some_iff.mp read
    obtain ⟨rfl, rfl⟩ := Prod.mk.inj same
    exact ⟨_, List.takeWhile_append_dropWhile.symm, .number (number?_eq_some_iff.mp number)⟩

theorem items_step (sound : Sound depth) (read : Json.items (depth + 1) cs = some (vs, rest)) :
    ∃ source, cs = source ++ ']' :: rest ∧ Items source vs := by
  rw [Json.items] at read
  split at read
  next => cases read
  next v tail first =>
    obtain ⟨before, source, rfl, blank, value⟩ := sound.value first
    obtain ⟨after, splits, blank'⟩ := exists_space tail
    have item := Item.mk blank value blank'
    split at read
    next tail' comma =>
      obtain ⟨⟨vs, rest⟩, others, same⟩ := Option.map_eq_some_iff.mp read
      obtain ⟨rfl, rfl⟩ := Prod.mk.inj same
      obtain ⟨source', rfl, items⟩ := sound.items others
      refine ⟨_, ?_, .more item items⟩
      rw [splits, comma]
      simp
    next tail' closes =>
      obtain ⟨rfl, rfl⟩ := Prod.mk.inj (Option.some.inj read)
      refine ⟨_, ?_, .last item⟩
      rw [splits, closes]
      simp
    next => cases read

theorem members_step (sound : Sound depth)
    (read : Json.members (depth + 1) cs = some (ms, rest)) :
    ∃ source, cs = source ++ '\x7d' :: rest ∧ Members source ms := by
  obtain ⟨before, begins, blank⟩ := exists_space cs
  rw [Json.members] at read
  split at read
  next tail quote =>
    split at read
    next => cases read
    next name? tail name =>
      obtain ⟨string, quoted, written⟩ := stringText_sound name
      obtain ⟨gap, splits, blankAfter⟩ := exists_space tail
      split at read
      next tail' colon =>
        split at read
        next => cases read
        next v tail'' first =>
          obtain ⟨gap', source, rfl, blankBefore, value⟩ := sound.value first
          obtain ⟨after, splits', blank'⟩ := exists_space tail''
          have member := Member.mk blank written blankAfter (.mk blankBefore value blank')
          simp only at read
          split at read
          next tail' comma =>
            obtain ⟨⟨ms, rest⟩, others, same⟩ := Option.map_eq_some_iff.mp read
            obtain ⟨rfl, rfl⟩ := Prod.mk.inj same
            obtain ⟨source', rfl, members⟩ := sound.members others
            refine ⟨_, ?_, .more member members⟩
            rw [begins, quote, quoted, splits, colon, splits', comma]
            simp
          next tail' closes =>
            obtain ⟨rfl, rfl⟩ := Prod.mk.inj (Option.some.inj read)
            refine ⟨_, ?_, .last member⟩
            rw [begins, quote, quoted, splits, colon, splits', closes]
            simp
          next => cases read
      next => cases read
  next => cases read

end Sound

theorem sound (depth : Nat) : Sound depth := by
  induction depth with
  | zero => exact ⟨nofun, nofun, nofun⟩
  | succ depth ih => exact ⟨ih.value_step, ih.items_step, ih.members_step⟩

/-! ## What is written is read -/

theorem value_append (blank : Space before) (depth : Nat) (cs : List Char) :
    Json.value depth (before ++ cs) = Json.value depth cs := by
  cases depth with
  | zero => rfl
  | succ depth => rw [Json.value, skipSpace_append blank, Json.value]

theorem items_append (blank : Space before) (depth : Nat) (cs : List Char) :
    Json.items depth (before ++ cs) = Json.items depth cs := by
  cases depth with
  | zero => rfl
  | succ depth => rw [Json.items, value_append blank, Json.items]

theorem members_append (blank : Space before) (depth : Nat) (cs : List Char) :
    Json.members depth (before ++ cs) = Json.members depth cs := by
  cases depth with
  | zero => rfl
  | succ depth => rw [Json.members, skipSpace_append blank, Json.members]

theorem Str.head {text? : Option String} (string : Str source text?) :
    ∃ tail, source = '"' :: tail := by
  cases string <;> exact ⟨_, rfl⟩

/-- A value does not begin like white space or the end of an array. -/
theorem Val.head (value : Val source v) :
    ∃ c tail, source = c :: tail ∧ isSpace c = false ∧ c ≠ ']' := by
  cases value with
  | number number =>
      obtain ⟨c, tail, same, rfl | digit⟩ := number.head
      · exact ⟨'-', tail, same, by decide, by decide⟩
      · have other (d : Char) (apart : d.isDigit = false) : c ≠ d := by
          rintro rfl
          rw [digit] at apart
          cases apart
        refine ⟨c, tail, same, ?_, other ']' rfl⟩
        simp [isSpace, other ' ' rfl, other '\n' rfl, other '\t' rfl, other '\r' rfl]
  | string string =>
      obtain ⟨tail, same⟩ := string.head
      exact ⟨'"', tail, same, by decide, by decide⟩
  | _ => exact ⟨_, _, rfl, by decide, by decide⟩

theorem Item.head (item : Item source v) :
    ∃ before c tail, source = before ++ c :: tail ∧ Space before ∧ isSpace c = false ∧ c ≠ ']' := by
  obtain ⟨blankBefore, value, -⟩ := item
  obtain ⟨c, tail, rfl, facts⟩ := value.head
  exact ⟨_, c, _, rfl, blankBefore, facts⟩

theorem Items.head (items : Items source vs) :
    ∃ before c tail, source = before ++ c :: tail ∧ Space before ∧ isSpace c = false ∧ c ≠ ']' := by
  cases items with
  | last item => exact item.head
  | more item =>
      obtain ⟨before, c, tail, rfl, facts⟩ := item.head
      exact ⟨before, c, _, List.append_assoc _ _ _, facts⟩

theorem Member.head (member : Member source m) :
    ∃ before tail, source = before ++ '"' :: tail ∧ Space before := by
  obtain ⟨blankBefore, string, -, -⟩ := member
  obtain ⟨tail, rfl⟩ := string.head
  exact ⟨_, _, rfl, blankBefore⟩

theorem Members.head (members : Members source ms) :
    ∃ before tail, source = before ++ '"' :: tail ∧ Space before := by
  cases members with
  | last member => exact member.head
  | more member =>
      obtain ⟨before, tail, rfl, blank⟩ := member.head
      exact ⟨before, _, List.append_assoc _ _ _, blank⟩

theorem skipSpace_of_visible {c : Char} (visible : isSpace c = false) (cs : List Char) :
    skipSpace (c :: cs) = c :: cs :=
  List.dropWhile_cons_of_neg (by simp [visible])

/-- White space does not go on with a number. -/
theorem stops_space {after : List Char} (blank : Space after)
    (stops : Text.Stops isNumberChar rest) : Text.Stops isNumberChar (after ++ rest) := by
  refine Text.stops_run (fun c member => ?_) stops
  rcases blank c member with rfl | rfl | rfl | rfl <;> rfl

/-- What is written in a text is returned by readings at a depth, if the depth is the length of what
is written or more. -/
structure Complete (depth : Nat) : Prop where
  value : ∀ {source : List Char} {v : Value}, Val source v → source.length ≤ depth →
    ∀ {rest : List Char}, Text.Stops isNumberChar rest →
      Json.value depth (source ++ rest) = some (v, rest)
  items : ∀ {source : List Char} {vs : List Value}, Items source vs → source.length < depth →
    ∀ rest : List Char, Json.items depth (source ++ ']' :: rest) = some (vs, rest)
  members : ∀ {source : List Char} {ms : List (Option String × Value)}, Members source ms →
    source.length < depth →
      ∀ rest : List Char, Json.members depth (source ++ '\x7d' :: rest) = some (ms, rest)

theorem value_number (number : Number source v) (stops : Text.Stops isNumberChar rest) :
    Json.value (depth + 1) (source ++ rest) = some (v, rest) := by
  have run := Text.takeWhile_run number.characters stops
  have after := Text.dropWhile_run number.characters stops
  have read := number?_number number
  obtain ⟨c, tail, rfl, visible, -⟩ := (Val.number number).head
  obtain ⟨_, _, same, first⟩ := number.head
  obtain ⟨rfl, -⟩ := List.cons.inj same
  have other (d : Char) (apart : (d = '-' || d.isDigit) = false) : c ≠ d := by
    rintro rfl
    rcases first with minus | digit
    · simp [minus] at apart
    · simp [digit] at apart
  rw [List.cons_append] at run after
  rw [Json.value, List.cons_append, skipSpace_of_visible visible]
  split
  next same => exact absurd (List.cons.inj same).1 (other '\x7b' rfl)
  next same => exact absurd (List.cons.inj same).1 (other '[' rfl)
  next same => exact absurd (List.cons.inj same).1 (other '"' rfl)
  next same => exact absurd (List.cons.inj same).1 (other 'n' rfl)
  next same => exact absurd (List.cons.inj same).1 (other 't' rfl)
  next same => exact absurd (List.cons.inj same).1 (other 'f' rfl)
  next => rw [run, after, read, Option.map_some]

namespace Complete

theorem value_step (complete : Complete depth) (value : Val source v)
    (enough : source.length ≤ depth + 1) (stops : Text.Stops isNumberChar rest) :
    Json.value (depth + 1) (source ++ rest) = some (v, rest) := by
  cases value with
  | number number => exact value_number number stops
  | string string =>
      obtain ⟨tail, rfl, read⟩ := stringText_str string
      rw [Json.value, List.cons_append, skipSpace_of_visible (by decide)]
      simp only [read, Option.map_some]
  | null =>
      have word : afterWord "ull" ('u' :: 'l' :: 'l' :: rest) = some rest :=
        afterWord_eq_some_iff.mpr rfl
      rw [Json.value, List.cons_append, skipSpace_of_visible (by decide)]
      simp [word]
  | yes =>
      have word : afterWord "rue" ('r' :: 'u' :: 'e' :: rest) = some rest :=
        afterWord_eq_some_iff.mpr rfl
      rw [Json.value, List.cons_append, skipSpace_of_visible (by decide)]
      simp [word]
  | no =>
      have word : afterWord "alse" ('a' :: 'l' :: 's' :: 'e' :: rest) = some rest :=
        afterWord_eq_some_iff.mpr rfl
      rw [Json.value, List.cons_append, skipSpace_of_visible (by decide)]
      simp [word]
  | noItems blank =>
      rw [List.cons_append, List.append_assoc, List.singleton_append, Json.value,
        skipSpace_of_visible (by decide)]
      simp only
      rw [skipSpace_append blank, skipSpace_of_visible (by decide)]
      rfl
  | noMembers blank =>
      rw [List.cons_append, List.append_assoc, List.singleton_append, Json.value,
        skipSpace_of_visible (by decide)]
      simp only
      rw [skipSpace_append blank, skipSpace_of_visible (by decide)]
      rfl
  | array items =>
      have read := complete.items items (by simp at enough; omega) rest
      obtain ⟨before, c, tail, rfl, blank, visible, other⟩ := items.head
      rw [List.append_assoc, List.cons_append] at read
      rw [List.cons_append, List.append_assoc, List.singleton_append, List.append_assoc,
        List.cons_append, Json.value, skipSpace_of_visible (by decide)]
      simp only
      rw [skipSpace_append blank, skipSpace_of_visible visible]
      rw [items_append blank] at read
      split
      next same => exact absurd (List.cons.inj same).1 other
      next => rw [read, Option.map_some]
  | object members =>
      have read := complete.members members (by simp at enough; omega) rest
      obtain ⟨before, tail, rfl, blank⟩ := members.head
      rw [List.append_assoc, List.cons_append] at read
      rw [List.cons_append, List.append_assoc, List.singleton_append, List.append_assoc,
        List.cons_append, Json.value, skipSpace_of_visible (by decide)]
      simp only
      rw [skipSpace_append blank, skipSpace_of_visible (by decide)]
      rw [members_append blank] at read
      split
      next same => exact absurd (List.cons.inj same).1 (by decide)
      next => rw [read, Option.map_some]

/-- After an item its array ends or goes on. -/
theorem items_item (complete : Complete depth) (item : Item source v)
    (enough : source.length ≤ depth) {c : Char} (visible : isSpace c = false)
    (other : isNumberChar c = false) (rest : List Char) :
    Json.items (depth + 1) (source ++ c :: rest) =
      match c :: rest with
      | ',' :: rest => (Json.items depth rest).map fun (vs, rest) => (v :: vs, rest)
      | ']' :: rest => some ([v], rest)
      | _ => none := by
  obtain ⟨blankBefore, value, blankAfter⟩ := item
  have stops : Text.Stops isNumberChar (c :: rest) := Text.stops_cons.mpr other
  have read := complete.value value (by simp at enough; omega) (stops_space blankAfter stops)
  rw [List.append_assoc, List.append_assoc, Json.items, value_append blankBefore, read]
  simp only
  rewrite [skipSpace_append blankAfter, skipSpace_of_visible visible]
  rfl

theorem items_step (complete : Complete depth) (items : Items source vs)
    (enough : source.length < depth + 1) (rest : List Char) :
    Json.items (depth + 1) (source ++ ']' :: rest) = some (vs, rest) := by
  cases items with
  | last item =>
      rw [complete.items_item item (by omega) (by decide) (by decide) rest]
      rfl
  | more item others =>
      have later := complete.items others (by simp at enough; omega) rest
      rw [List.append_assoc, List.cons_append,
        complete.items_item item (by simp at enough; omega) (by decide) (by decide)]
      simp only [later, Option.map_some]

/-- After a member its object ends or goes on. -/
theorem members_member (complete : Complete depth) (member : Member source m)
    (enough : source.length ≤ depth) {c : Char} (visible : isSpace c = false)
    (other : isNumberChar c = false) (rest : List Char) :
    Json.members (depth + 1) (source ++ c :: rest) =
      match c :: rest with
      | ',' :: rest => (Json.members depth rest).map fun (ms, rest) => (m :: ms, rest)
      | '\x7d' :: rest => some ([m], rest)
      | _ => none := by
  obtain ⟨blank, string, blankAfterName, blankBefore, value, blankAfter⟩ := member
  obtain ⟨tail, rfl, name⟩ := stringText_str string
  have stops : Text.Stops isNumberChar (c :: rest) := Text.stops_cons.mpr other
  have read := complete.value value (by simp at enough; omega) (stops_space blankAfter stops)
  simp only [List.append_assoc, List.cons_append]
  rw [Json.members, skipSpace_append blank, skipSpace_of_visible (by decide)]
  simp only [name]
  rw [skipSpace_append blankAfterName, skipSpace_of_visible (by decide)]
  simp only
  rw [value_append blankBefore, read]
  simp only
  rewrite [skipSpace_append blankAfter, skipSpace_of_visible visible]
  rfl

theorem members_step (complete : Complete depth) (members : Members source ms)
    (enough : source.length < depth + 1) (rest : List Char) :
    Json.members (depth + 1) (source ++ '\x7d' :: rest) = some (ms, rest) := by
  cases members with
  | last member =>
      rw [complete.members_member member (by omega) (by decide) (by decide) rest]
      rfl
  | more member others =>
      have later := complete.members others (by simp at enough; omega) rest
      rw [List.append_assoc, List.cons_append,
        complete.members_member member (by simp at enough; omega) (by decide) (by decide)]
      simp only [later, Option.map_some]

end Complete

theorem complete (depth : Nat) : Complete depth := by
  induction depth with
  | zero =>
      refine ⟨fun value none => ?_, nofun, nofun⟩
      obtain ⟨c, tail, rfl, -⟩ := value.head
      simp at none
  | succ depth ih =>
      refine ⟨?_, ?_, ?_⟩
      · intro source v value enough rest stops
        exact ih.value_step value enough stops
      · intro source vs items enough rest
        exact ih.items_step items enough rest
      · intro source ms members enough rest
        exact ih.members_step members enough rest

end CouponDesk.Json.Grammar

namespace CouponDesk.Json

/-- The texts that are read as a value are those that denote it. -/
theorem read?_eq_some_iff {text : String} {v : Value} :
    Value.read? text = some v ↔ Grammar.Item text.toList v := by
  constructor
  · intro read
    simp only [Value.read?] at read
    split at read
    next w rest found =>
      obtain ⟨before, source, begins, blank, value⟩ := (Grammar.sound _).value found
      obtain ⟨after, ends, blank'⟩ := Grammar.exists_space rest
      split_ifs at read with ended
      obtain rfl := Option.some.inj read
      rw [List.isEmpty_iff.mp ended, List.append_nil] at ends
      rw [begins, ends]
      exact .mk blank value blank'
    next => cases read
  · intro item
    simp only [Value.read?]
    generalize text.toList = cs at item
    obtain @⟨before, source, after, _, blank, value, blank'⟩ := item
    have stops := Grammar.stops_space blank' Text.stops_nil
    rw [List.append_nil] at stops
    have enough : source.length ≤ (before ++ (source ++ after)).length + 1 := by
      simp
      omega
    have read := (Grammar.complete _).value value enough stops
    have ended : skipSpace after = [] := by
      have dropped := Grammar.skipSpace_append blank' []
      rwa [List.append_nil] at dropped
    rw [Grammar.value_append blank, read]
    simp [ended]

end CouponDesk.Json
