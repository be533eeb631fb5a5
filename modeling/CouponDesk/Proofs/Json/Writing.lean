import CouponDesk.Json.Value
import CouponDesk.Proofs.Json.Reading

/-!
# Writing JSON

What is written for strings, integers and objects of such is a JSON text that denotes them.
-/

set_option autoImplicit false

namespace CouponDesk.Json.Grammar

variable {source : List Char} {units : List Nat}

/-! ## Strings -/

theorem inside_escaped (c : Char) (inside : Inside source units) :
    Inside (escaped c ++ source) (c.toNat :: units) := by
  unfold escaped
  split_ifs with quote backslash backspace formFeed newline carriageReturn tab control
  · exact quote ▸ .short .quote inside
  · exact backslash ▸ .short .backslash inside
  · exact backspace ▸ .short .backspace inside
  · exact formFeed ▸ .short .formFeed inside
  · exact newline ▸ .short .newline inside
  · exact carriageReturn ▸ .short .carriageReturn inside
  · exact tab ▸ .short .tab inside
  · have small : c.toNat < 256 := by omega
    exact .code (Numeral.ofHex?_lowerByte small) inside
  · exact .plain ⟨by omega, quote, backslash⟩ inside

theorem inside_flatMap (text : List Char) :
    Inside (text.flatMap escaped) (text.map Char.toNat) := by
  induction text with
  | nil => exact .nil
  | cons c text ih => exact inside_escaped c ih

theorem spells_map (text : List Char) : Spells (text.map Char.toNat) text := by
  induction text with
  | nil => exact .nil
  | cons c text ih => exact .scalar ih

theorem str_quoted (text : String) : Str (quoted text) (some text) := by
  have written := Str.text (inside_flatMap text.toList) (spells_map text.toList)
  rwa [String.ofList_toList] at written

/-! ## Integers -/

theorem whole_digits (n : Nat) : Whole (Numeral.digits n) where
  nonempty := Numeral.digits_ne_nil n
  all := Numeral.isDigit_of_mem_digits n
  leading := Numeral.length_digits_or n

theorem number_signed (n : Int) : Number (Numeral.signed n) (.integer n) := by
  unfold Numeral.signed
  split_ifs with negative
  · obtain ⟨size, rfl⟩ : ∃ size : Nat, n = -size := ⟨n.natAbs, by omega⟩
    have positive : Numeral.ofDigits (Numeral.digits size) ≠ 0 := by
      rw [Numeral.ofDigits_digits]
      omega
    have written := Number.negative (whole_digits size) positive
    rw [Int.natAbs_neg, Int.natAbs_natCast]
    rwa [Numeral.ofDigits_digits] at written
  · obtain ⟨size, rfl⟩ : ∃ size : Nat, n = size := ⟨n.natAbs, by omega⟩
    have written := Number.natural (whole_digits size)
    rwa [Numeral.ofDigits_digits] at written

/-! ## Values -/

theorem val_text (text : String) : Val (Value.text text).chars (.text text) :=
  .string (str_quoted text)

theorem val_integer (n : Int) : Val (Value.integer n).chars (.integer n) :=
  .number (number_signed n)

theorem item_chars {v : Value} (value : Val v.chars v) : Item v.chars v := by
  have item := Item.mk space_nil value space_nil
  rwa [List.nil_append, List.append_nil] at item

theorem member_chars (name : String) {v : Value} (value : Val v.chars v) :
    Member (quoted name ++ ':' :: v.chars) (some name, v) :=
  .mk space_nil (str_quoted name) space_nil (item_chars value)

theorem members_memberChars {first : String × Value} {rest : List (String × Value)}
    (each : ∀ m ∈ first :: rest, Val m.2.chars m.2) :
    Members (memberChars ((first :: rest).map fun (name, v) => (some name, v)))
      ((first :: rest).map fun (name, v) => (some name, v)) := by
  induction rest generalizing first with
  | nil =>
      have member := member_chars first.1 (each first List.mem_cons_self)
      simpa [memberChars] using Members.last member
  | cons next rest ih =>
      have member := member_chars first.1 (each first List.mem_cons_self)
      have others := ih fun m later => each m (List.mem_cons_of_mem first later)
      simpa [memberChars] using Members.more member others

/-- An object is written as it is if its members are. -/
theorem val_ofMembers {members : List (String × Value)}
    (each : ∀ m ∈ members, Val m.2.chars m.2) :
    Val (Value.ofMembers members).chars (.ofMembers members) := by
  cases members with
  | nil => exact .noMembers space_nil
  | cons first rest =>
      have written := Val.object (members_memberChars each)
      simpa [Value.ofMembers, Value.chars] using written

end CouponDesk.Json.Grammar

namespace CouponDesk.Json.Value

theorem item_write {v : Value} (value : Grammar.Val v.chars v) :
    Grammar.Item v.write.toList v := by
  rw [write, String.toList_ofList]
  exact Grammar.item_chars value

end CouponDesk.Json.Value
