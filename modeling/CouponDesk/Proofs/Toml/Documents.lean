import CouponDesk.Toml.Document
import Mathlib.Data.List.Nodup
import Mathlib.Tactic.SplitIfs

/-!
# What holds of every document

However pairs, dotted keys, headers and inline tables come together: no table of a document that was
read has a key twice, and every integer in it is a signed 64-bit number.  Equality of values is
decidable, so what is read from a given text can be checked.
-/

set_option autoImplicit false

namespace CouponDesk.Toml

/-! ## Equality of values -/

mutual

def Value.same : Value → Value → Bool
  | .string a, .string b => a == b
  | .integer a, .integer b => a == b
  | .float a, .float b => a == b
  | .boolean a, .boolean b => a == b
  | .moment a, .moment b => a == b
  | .array vs, .array ws => sameItems vs ws
  | .table o es, .table p fs => o == p && sameEntries es fs
  | .tables ts, .tables us => sameTables ts us
  | _, _ => false

def sameItems : List Value → List Value → Bool
  | [], [] => true
  | v :: vs, w :: ws => v.same w && sameItems vs ws
  | _, _ => false

def sameEntries : List (String × Value) → List (String × Value) → Bool
  | [], [] => true
  | (key, v) :: es, (key', w) :: fs => key == key' && v.same w && sameEntries es fs
  | _, _ => false

def sameTables : List (List (String × Value)) → List (List (String × Value)) → Bool
  | [], [] => true
  | t :: ts, u :: us => sameEntries t u && sameTables ts us
  | _, _ => false

end

mutual

theorem Value.same_iff : ∀ v w : Value, v.same w = true ↔ v = w
  | .string _, w => by cases w <;> simp [Value.same]
  | .integer _, w => by cases w <;> simp [Value.same]
  | .float _, w => by cases w <;> simp [Value.same]
  | .boolean _, w => by cases w <;> simp [Value.same]
  | .moment _, w => by cases w <;> simp [Value.same]
  | .array vs, w => by cases w <;> simp [Value.same, sameItems_iff vs]
  | .table _ es, w => by cases w <;> simp [Value.same, sameEntries_iff es]
  | .tables ts, w => by cases w <;> simp [Value.same, sameTables_iff ts]

theorem sameItems_iff : ∀ vs ws : List Value, sameItems vs ws = true ↔ vs = ws
  | [], ws => by cases ws <;> simp [sameItems]
  | v :: vs, ws => by cases ws <;> simp [sameItems, v.same_iff, sameItems_iff vs]

theorem sameEntries_iff : ∀ es fs : List (String × Value), sameEntries es fs = true ↔ es = fs
  | [], fs => by cases fs <;> simp [sameEntries]
  | (_, v) :: es, fs => by
      rcases fs with _ | ⟨⟨_, w⟩, fs⟩ <;> simp [sameEntries, v.same_iff, sameEntries_iff es]

theorem sameTables_iff :
    ∀ ts us : List (List (String × Value)), sameTables ts us = true ↔ ts = us
  | [], us => by cases us <;> simp [sameTables]
  | t :: ts, us => by cases us <;> simp [sameTables, sameEntries_iff t, sameTables_iff ts]

end

instance : DecidableEq Value := fun v w => decidable_of_iff _ (v.same_iff w)

/-! ## Proper values -/

inductive Value.Proper : Value → Prop
  | string (text : String) : Proper (.string text)
  | integer (n : Int) (fits : FitsAmount n) : Proper (.integer n)
  | float (literal : String) : Proper (.float literal)
  | boolean (value : Bool) : Proper (.boolean value)
  | moment (literal : String) : Proper (.moment literal)
  | array (items : List Value) (proper : ∀ item ∈ items, Proper item) : Proper (.array items)
  | table (origin : Origin) (entries : Entries) (distinct : (entries.map Prod.fst).Nodup)
      (proper : ∀ entry ∈ entries, Proper entry.2) : Proper (.table origin entries)
  | tables (elements : List Entries)
      (distinct : ∀ entries ∈ elements, (entries.map Prod.fst).Nodup)
      (proper : ∀ entries ∈ elements, ∀ entry ∈ entries, Proper entry.2) :
      Proper (.tables elements)

namespace Entries

/-- Every key stands there once, and the same holds inside the values. -/
structure Proper (entries : Entries) : Prop where
  distinct : (entries.map Prod.fst).Nodup
  values : ∀ entry ∈ entries, entry.2.Proper

theorem proper_table {origin : Origin} {entries : Entries} :
    (Value.table origin entries).Proper ↔ entries.Proper := by
  constructor
  · intro proper
    cases proper with
    | table _ _ distinct values => exact ⟨distinct, values⟩
  · rintro ⟨distinct, values⟩
    exact .table origin entries distinct values

theorem proper_tables {elements : List Entries} :
    (Value.tables elements).Proper ↔ ∀ entries ∈ elements, entries.Proper := by
  constructor
  · intro proper entries member
    cases proper with
    | tables _ distinct values => exact ⟨distinct entries member, values entries member⟩
  · intro proper
    exact .tables elements (fun entries member => (proper entries member).distinct)
      fun entries member => (proper entries member).values

theorem proper_nil : Proper [] := ⟨List.nodup_nil, nofun⟩

/-! ## Lookups -/

theorem mem_of_lookup {entries : Entries} {key : String} {value : Value}
    (found : entries.lookup key = some value) : (key, value) ∈ entries := by
  obtain ⟨before, after, rfl, -⟩ := List.lookup_eq_some_iff.mp found
  simp

theorem lookup_eq_some_iff {entries : Entries} (distinct : (entries.map Prod.fst).Nodup)
    (key : String) (value : Value) :
    entries.lookup key = some value ↔ (key, value) ∈ entries := by
  refine ⟨mem_of_lookup, ?_⟩
  intro member
  induction entries with
  | nil => cases member
  | cons first rest ih =>
      obtain ⟨fresh, distinct⟩ := List.nodup_cons.mp distinct
      rcases List.mem_cons.mp member with rfl | member
      · simp
      · have apart : key ≠ first.1 := by
          rintro rfl
          exact fresh (List.mem_map.mpr ⟨_, member, rfl⟩)
        rw [List.lookup_cons, beq_eq_false_iff_ne.mpr apart]
        exact ih distinct member

theorem not_mem_of_lookup {entries : Entries} {key : String}
    (missing : entries.lookup key = none) : key ∉ entries.map Prod.fst := by
  intro member
  obtain ⟨entry, stands, rfl⟩ := List.mem_map.mp member
  simpa using List.lookup_eq_none_iff.mp missing entry stands

/-- A table has no order that a lookup could see. -/
theorem lookup_reverse {entries : Entries} (distinct : (entries.map Prod.fst).Nodup)
    (key : String) : entries.reverse.lookup key = entries.lookup key := by
  have reversed : (entries.reverse.map Prod.fst).Nodup := by
    rwa [List.map_reverse, List.nodup_reverse]
  apply Option.ext
  intro value
  rw [lookup_eq_some_iff reversed, lookup_eq_some_iff distinct, List.mem_reverse]

namespace Proper

variable {entries : Entries} {key : String} {value : Value}

theorem lookup (proper : entries.Proper) (found : entries.lookup key = some value) :
    value.Proper :=
  proper.values _ (mem_of_lookup found)

/-! ## Changes -/

theorem add (proper : entries.Proper) (missing : entries.lookup key = none)
    (fine : value.Proper) : (entries.add key value).Proper where
  distinct := by
    rw [Entries.add, List.map_append, List.map_singleton, ← List.concat_eq_append]
    exact proper.distinct.concat (not_mem_of_lookup missing)
  values := by
    intro entry member
    rcases List.mem_append.mp member with member | new
    · exact proper.values entry member
    · obtain rfl := List.mem_singleton.mp new
      exact fine

theorem replace (proper : entries.Proper) (fine : value.Proper) :
    (entries.replace key value).Proper where
  distinct := by
    have keys : (entries.replace key value).map Prod.fst = entries.map Prod.fst := by
      rw [Entries.replace, List.map_map]
      apply List.map_congr_left
      intro entry member
      simp only [Function.comp_apply]
      split_ifs with same
      · exact same.symm
      · rfl
    rw [keys]
    exact proper.distinct
  values := by
    intro entry member
    obtain ⟨old, stands, rfl⟩ := List.mem_map.mp member
    split_ifs
    · exact fine
    · exact proper.values old stands

theorem inner? (proper : entries.Proper) {dotted : Bool} {origin : Origin} {inner : Entries}
    (found : entries.inner? dotted key = some (origin, inner)) : inner.Proper := by
  unfold Entries.inner? at found
  split at found
  · cases found
    exact proper_nil
  · rename_i there
    split_ifs at found
    cases found
    exact proper_table.mp (proper.lookup there)
  · rename_i elements there
    obtain ⟨last, stands, ⟨⟩⟩ := Option.map_eq_some_iff.mp found
    exact proper_tables.mp (proper.lookup there) inner (List.mem_of_getLast? stands)
  · cases found

theorem putInner (proper : entries.Proper) (origin : Origin) {inner : Entries}
    (fine : inner.Proper) : (entries.putInner key origin inner).Proper := by
  unfold Entries.putInner
  split
  · rename_i missing
    exact proper.add missing (proper_table.mpr fine)
  · rename_i elements there
    apply proper.replace
    apply proper_tables.mpr
    intro element member
    rcases List.mem_append.mp member with member | last
    · exact proper_tables.mp (proper.lookup there) element (List.dropLast_subset elements member)
    · obtain rfl := List.mem_singleton.mp last
      exact fine
  · exact proper.replace (proper_table.mpr fine)

/-- A change at the end of a path keeps what it keeps in one table. -/
theorem update {dotted : Bool} {change : Origin → Entries → Option Entries}
    (keeps : ∀ origin inner changed, Entries.Proper inner → change origin inner = some changed →
      changed.Proper)
    {path : List String} {origin : Origin} {changed : Entries} (proper : entries.Proper)
    (updated : Entries.update dotted change path origin entries = some changed) :
    changed.Proper := by
  induction path generalizing origin entries changed with
  | nil => exact keeps origin entries changed proper updated
  | cons key path ih =>
      obtain ⟨⟨origin', inner⟩, found, updated⟩ := Option.bind_eq_some_iff.mp updated
      obtain ⟨inner', below, result⟩ := Option.bind_eq_some_iff.mp updated
      cases result
      exact proper.putInner origin' (ih (proper.inner? found) below)

theorem assign (proper : entries.Proper) (fine : value.Proper) {path : List String}
    {origin : Origin} {changed : Entries}
    (assigned : entries.assign path key value origin = some changed) : changed.Proper := by
  refine update ?_ proper assigned
  intro origin inner changed proper added
  split_ifs at added with barred taken
  cases added
  exact proper.add (Option.not_isSome_iff_eq_none.mp taken) fine

theorem openTable (proper : entries.Proper) {path : List String} {changed : Entries}
    (opened : entries.openTable path key = some changed) : changed.Proper := by
  refine update ?_ proper opened
  intro origin inner changed proper opened
  split at opened
  · rename_i missing
    cases opened
    exact proper.add missing (proper_table.mpr proper_nil)
  · rename_i there
    cases opened
    exact proper.replace (proper_table.mpr (proper_table.mp (proper.lookup there)))
  · cases opened

theorem openElement (proper : entries.Proper) {path : List String} {changed : Entries}
    (opened : entries.openElement path key = some changed) : changed.Proper := by
  refine update ?_ proper opened
  intro origin inner changed proper opened
  split at opened
  · rename_i missing
    cases opened
    refine proper.add missing (proper_tables.mpr ?_)
    intro element member
    obtain rfl := List.mem_singleton.mp member
    exact proper_nil
  · rename_i elements there
    cases opened
    refine proper.replace (proper_tables.mpr ?_)
    intro element member
    rcases List.mem_append.mp member with member | last
    · exact proper_tables.mp (proper.lookup there) element member
    · obtain rfl := List.mem_singleton.mp last
      exact proper_nil
  · cases opened

end Proper

end Entries

/-! ## Values -/

namespace Scalar

theorem proper_of_fitting {n : Int} {value : Value} (fits : fitting n = some value) :
    value.Proper := by
  unfold fitting at fits
  split_ifs at fits with inside
  cases fits
  exact .integer n inside

theorem proper_of_integer {cs : List Char} {value : Value} (read : integer? cs = some value) :
    value.Proper := by
  unfold integer? at read
  split at read
  all_goals
    obtain ⟨digits, -, fits⟩ := Option.bind_eq_some_iff.mp read
    exact proper_of_fitting fits

theorem float_of_float? {cs : List Char} {value : Value} (read : float? cs = some value) :
    value = .float (String.ofList cs) := by
  unfold float? at read
  split at read
  split_ifs at read
  · cases read
    rfl
  · split at read
    · split_ifs at read
      cases read
      rfl
    · cases read

theorem proper_of_read {cs rest : List Char} {value : Value}
    (read : read? cs = some (value, rest)) : value.Proper := by
  obtain ⟨value, denoted, ⟨⟩⟩ := Option.map_eq_some_iff.mp read
  unfold ofToken? at denoted
  split_ifs at denoted
  · cases denoted
    exact .boolean true
  · cases denoted
    exact .boolean false
  · cases denoted
    exact .moment _
  · rcases Option.or_eq_some_iff.mp denoted with whole | ⟨-, broken⟩
    · exact proper_of_integer whole
    · rw [float_of_float? broken]
      exact .float _

end Scalar

/-- A value that is neither an array nor an inline table. -/
theorem proper_of_plain {cs rest : List Char} {value : Value}
    (read : (match Quoted.read? cs with
      | some (text, rest) => some (Value.string (String.ofList text), rest)
      | none => Scalar.read? cs) = some (value, rest)) : value.Proper := by
  split at read
  · cases read
    exact .string _
  · exact Scalar.proper_of_read read

structure ReadsProper (fuel : Nat) : Prop where
  value : ∀ {room : Nat} {cs rest : List Char} {value : Value},
    value? fuel room cs = some (value, rest) → value.Proper
  items : ∀ {room : Nat} {cs rest : List Char} {items : List Value},
    items? fuel room cs = some (items, rest) → ∀ item ∈ items, Value.Proper item
  pairs : ∀ {room : Nat} {cs rest : List Char} {entries changed : Entries}, entries.Proper →
    pairs? fuel room entries cs = some (changed, rest) → changed.Proper

namespace ReadsProper

variable {fuel room : Nat} {cs rest : List Char}

theorem nextValue (reads : ReadsProper fuel) {value : Value}
    (read : value? (fuel + 1) room cs = some (value, rest)) : value.Proper := by
  rw [value?.eq_def] at read
  split at read
  · rename_i fuel' room' inside same
    obtain rfl := Nat.succ.inj same
    split at read
    · cases read
      exact .array [] nofun
    · obtain ⟨⟨members, after⟩, listed, ⟨⟩⟩ := Option.map_eq_some_iff.mp read
      exact .array members (reads.items listed)
  · rename_i fuel' room' inside same
    obtain rfl := Nat.succ.inj same
    split at read
    · cases read
      exact Entries.proper_table.mpr Entries.proper_nil
    · obtain ⟨⟨entries, after⟩, listed, ⟨⟩⟩ := Option.map_eq_some_iff.mp read
      exact Entries.proper_table.mpr (reads.pairs Entries.proper_nil listed)
  · exact proper_of_plain read

theorem nextItems (reads : ReadsProper fuel) {items : List Value}
    (read : items? (fuel + 1) room cs = some (items, rest)) : ∀ item ∈ items, Value.Proper item := by
  rw [items?.eq_def] at read
  obtain ⟨⟨first, after⟩, began, read⟩ := Option.bind_eq_some_iff.mp read
  have fine : first.Proper := reads.value began
  have single : ∀ item ∈ [first], Value.Proper item := List.forall_mem_singleton.mpr fine
  dsimp only at read
  split at read
  · cases read
    exact single
  · split at read
    · cases read
      exact single
    · obtain ⟨⟨later, after'⟩, went, ⟨⟩⟩ := Option.bind_eq_some_iff.mp read
      exact List.forall_mem_cons.mpr ⟨fine, reads.items went⟩
  · cases read

theorem nextPairs (reads : ReadsProper fuel) {entries changed : Entries} (proper : entries.Proper)
    (read : pairs? (fuel + 1) room entries cs = some (changed, rest)) : changed.Proper := by
  rw [pairs?.eq_def] at read
  obtain ⟨⟨path, key, afterKey⟩, named, read⟩ := Option.bind_eq_some_iff.mp read
  dsimp only at read
  split at read
  · obtain ⟨⟨value, afterValue⟩, given, read⟩ := Option.bind_eq_some_iff.mp read
    obtain ⟨entered, assigned, read⟩ := Option.bind_eq_some_iff.mp read
    have kept : entered.Proper := proper.assign (reads.value given) assigned
    dsimp only at read
    split at read
    · cases read
      exact kept
    · exact reads.pairs kept read
    · cases read
  · cases read

end ReadsProper

theorem readsProper (fuel : Nat) : ReadsProper fuel := by
  induction fuel with
  | zero =>
      refine ⟨?_, nofun, nofun⟩
      intro room cs rest value read
      rw [value?.eq_def] at read
      exact proper_of_plain read
  | succ fuel ih => exact ⟨ih.nextValue, ih.nextItems, ih.nextPairs⟩

theorem proper_of_readValue {cs rest : List Char} {value : Value}
    (read : readValue? cs = some (value, rest)) : value.Proper :=
  (readsProper _).value read

/-! ## Lines -/

def Line.Proper : Line → Prop
  | .pair _ _ value => value.Proper
  | .table _ _ | .element _ _ => True

theorem Line.proper_of_read {cs rest : List Char} {line : Line}
    (read : Line.read? cs = some (line, rest)) : line.Proper := by
  unfold Line.read? at read
  split at read
  · obtain ⟨⟨path, key, after⟩, named, read⟩ := Option.bind_eq_some_iff.mp read
    dsimp only at read
    split at read <;> cases read
    trivial
  · obtain ⟨⟨path, key, after⟩, named, read⟩ := Option.bind_eq_some_iff.mp read
    dsimp only at read
    split at read <;> cases read
    trivial
  · obtain ⟨⟨path, key, after⟩, named, read⟩ := Option.bind_eq_some_iff.mp read
    dsimp only at read
    split at read
    · obtain ⟨⟨value, after'⟩, given, ⟨⟩⟩ := Option.bind_eq_some_iff.mp read
      exact proper_of_readValue given
    · cases read

namespace Draft

theorem proper_of_add {d changed : Draft} {line : Line} (proper : d.root.Proper)
    (fine : line.Proper) (added : d.add line = some changed) : changed.root.Proper := by
  cases line with
  | pair path key value =>
      obtain ⟨root, updated, ⟨⟩⟩ := Option.bind_eq_some_iff.mp added
      refine proper.update ?_ updated
      intro origin inner changed proper assigned
      exact proper.assign fine assigned
  | table path key =>
      obtain ⟨root, opened, ⟨⟩⟩ := Option.bind_eq_some_iff.mp added
      exact proper.openTable opened
  | element path key =>
      obtain ⟨root, opened, ⟨⟩⟩ := Option.bind_eq_some_iff.mp added
      exact proper.openElement opened

theorem proper_of_addLines {count : Nat} {cs : List Char} {d last : Draft}
    (proper : d.root.Proper) (read : addLines count cs d = some last) : last.root.Proper := by
  induction count generalizing cs d with
  | zero => cases read
  | succ count ih =>
      unfold addLines at read
      split at read
      · cases read
        exact proper
      · split_ifs at read
        · obtain ⟨after, -, read⟩ := Option.bind_eq_some_iff.mp read
          exact ih proper read
        · obtain ⟨⟨line, rest⟩, began, read⟩ := Option.bind_eq_some_iff.mp read
          obtain ⟨after, -, read⟩ := Option.bind_eq_some_iff.mp read
          obtain ⟨changed, added, read⟩ := Option.bind_eq_some_iff.mp read
          exact ih (proper_of_add proper (Line.proper_of_read began) added) read

end Draft

/-- The root of a document that was read has distinct keys and fitting integers, and so has
everything in it. -/
theorem proper_of_readDocument {text : String} {root : Entries}
    (read : readDocument? text = some root) : root.Proper := by
  obtain ⟨last, added, rfl⟩ := Option.map_eq_some_iff.mp read
  exact Draft.proper_of_addLines Entries.proper_nil added

end CouponDesk.Toml
