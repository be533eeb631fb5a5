import CouponDesk.Json.Reader
import CouponDesk.Proofs.Json.Grammar
import CouponDesk.Proofs.Text.Numerals

/-!
# Reading JSON strings

The reader takes exactly the strings of the grammar: `stringText_sound` and `stringText_str`.  Their
units spell a text, or none, as `ofUnits?` says.
-/

set_option autoImplicit false

namespace CouponDesk.Json.Grammar

variable {cs rest source text : List Char} {unit : Nat} {units : List Nat}

/-! ## Units -/

theorem pair?_eq_some_iff {high low : Nat} {c : Char} :
    pair? high low = some c ↔ (0xD800 ≤ high ∧ high < 0xDC00) ∧ (0xDC00 ≤ low ∧ low < 0xE000) ∧
      c.toNat = 0x10000 + (high - 0xD800) * 0x400 + (low - 0xDC00) := by
  unfold pair?
  split_ifs with surrogates
  · rw [Numeral.scalar?_eq_some_iff]
    tauto
  · simp only [false_iff]
    tauto

theorem ofUnits?_eq_some_iff : ofUnits? units = some text ↔ Spells units text := by
  fun_induction ofUnits? units generalizing text with
  | case1 =>
      constructor
      · rintro ⟨⟩
        exact .nil
      · rintro ⟨⟩
        rfl
  | case2 n units c scalar ih =>
      constructor
      · intro read
        obtain ⟨tail, later, rfl⟩ := Option.map_eq_some_iff.mp read
        rw [← Numeral.scalar?_eq_some_iff.mp scalar]
        exact .scalar (ih.mp later)
      · intro spells
        cases spells with
        | scalar later =>
            rw [Numeral.scalar?_toNat] at scalar
            obtain rfl := Option.some.inj scalar
            rw [ih.mpr later, Option.map_some]
        | pair high => simp [Numeral.scalar?_surrogate high.1 (by omega)] at scalar
  | case3 n none low units ih =>
      simp only [Option.bind_eq_some_iff, Option.map_eq_some_iff, pair?_eq_some_iff]
      constructor
      · rintro ⟨c, ⟨highFits, lowFits, code⟩, tail, later, rfl⟩
        exact .pair highFits lowFits code (ih.mp later)
      · intro spells
        cases spells with
        | scalar => simp [Numeral.scalar?_toNat] at none
        | pair highFits lowFits code later =>
            exact ⟨_, ⟨highFits, lowFits, code⟩, _, ih.mpr later, rfl⟩
  | case4 n none =>
      refine ⟨nofun, fun spells => ?_⟩
      cases spells with
      | scalar => simp [Numeral.scalar?_toNat] at none

/-! ## Insides -/

theorem push_eq_some_iff {read : Option (List Nat × List Char)} :
    push unit read = some (units, rest) ↔
      ∃ later, read = some (later, rest) ∧ units = unit :: later := by
  unfold push
  rw [Option.map_eq_some_iff]
  constructor
  · rintro ⟨⟨later, tail⟩, same, pushed⟩
    obtain ⟨rfl, rfl⟩ := Prod.mk.inj pushed
    exact ⟨later, same, rfl⟩
  · rintro ⟨later, same, rfl⟩
    exact ⟨_, same, rfl⟩

theorem escape?_eq_some_iff {letter c : Char} : escape? letter = some c ↔ Escape letter c := by
  constructor
  · intro read
    unfold escape? at read
    split at read <;> cases read <;> constructor
  · rintro ⟨⟩ <;> rfl

theorem stringBody_sound (read : stringBody cs = some (units, rest)) :
    ∃ source, cs = source ++ '"' :: rest ∧ Inside source units := by
  fun_induction stringBody cs generalizing units with
  | case1 => cases read
  | case2 tail =>
      cases read
      exact ⟨[], rfl, .nil⟩
  | case3 a b c d tail ih =>
      obtain ⟨unit, code, read⟩ := Option.bind_eq_some_iff.mp read
      obtain ⟨later, inner, rfl⟩ := push_eq_some_iff.mp read
      obtain ⟨source, rfl, inside⟩ := ih inner
      exact ⟨'\\' :: 'u' :: a :: b :: c :: d :: source, rfl, .code code inside⟩
  | case4 letter tail _ ih =>
      obtain ⟨c, escape, read⟩ := Option.bind_eq_some_iff.mp read
      obtain ⟨later, inner, rfl⟩ := push_eq_some_iff.mp read
      obtain ⟨source, rfl, inside⟩ := ih inner
      exact ⟨'\\' :: letter :: source, rfl, .short (escape?_eq_some_iff.mp escape) inside⟩
  | case5 => cases read
  | case6 c tail quote _ _ allowed ih =>
      obtain ⟨later, inner, rfl⟩ := push_eq_some_iff.mp read
      obtain ⟨source, rfl, inside⟩ := ih inner
      rw [not_or, Nat.not_lt] at allowed
      exact ⟨c :: source, rfl, .plain ⟨allowed.1, quote, allowed.2⟩ inside⟩

theorem stringBody_inside (inside : Inside source units) (rest : List Char) :
    stringBody (source ++ '"' :: rest) = some (units, rest) := by
  induction inside with
  | nil => rfl
  | @plain c allowed source units _ ih =>
      obtain ⟨visible, quote, backslash⟩ := allowed
      have plain : ¬ (c.toNat < 0x20 ∨ c = '\\') := by simp [backslash, visible]
      rw [List.cons_append, stringBody, if_neg plain, ih, push, Option.map_some]
      · exact quote
      · exact fun _ _ _ _ _ same => absurd same backslash
      · exact fun _ _ same => absurd same backslash
  | @short letter c escape source units _ ih =>
      have other : letter ≠ 'u' := by rintro rfl; cases escape
      rw [List.cons_append, List.cons_append, stringBody, escape?_eq_some_iff.mpr escape,
        Option.bind_some, ih, push, Option.map_some]
      exact fun _ _ _ _ _ same => absurd same other
  | @code a b c d unit code source units _ ih =>
      simp only [List.cons_append]
      rw [stringBody, code, Option.bind_some, ih, push, Option.map_some]

/-! ## Strings -/

theorem stringText_sound {text? : Option String} (read : stringText cs = some (text?, rest)) :
    ∃ source, '"' :: cs = source ++ rest ∧ Str source text? := by
  obtain ⟨⟨units, tail⟩, body, same⟩ := Option.map_eq_some_iff.mp read
  obtain ⟨rfl, rfl⟩ := Prod.mk.inj same
  obtain ⟨source, rfl, inside⟩ := stringBody_sound body
  refine ⟨'"' :: (source ++ ['"']), by simp, ?_⟩
  cases spelled : ofUnits? units with
  | some text => exact .text inside (ofUnits?_eq_some_iff.mp spelled)
  | none =>
      refine .lone inside fun text spells => ?_
      rw [ofUnits?_eq_some_iff.mpr spells] at spelled
      cases spelled

/-- The opening quote of a string is read before it. -/
theorem stringText_str {text? : Option String} (string : Str source text?) :
    ∃ tail, source = '"' :: tail ∧
      ∀ rest, stringText (tail ++ rest) = some (text?, rest) := by
  cases string with
  | text inside spells =>
      refine ⟨_, rfl, fun rest => ?_⟩
      rw [List.append_assoc, List.singleton_append, stringText, stringBody_inside inside]
      simp only [Option.map_some, ofUnits?_eq_some_iff.mpr spells]
  | @lone source units inside textless =>
      have unspelled : ofUnits? units = none :=
        Option.eq_none_iff_forall_ne_some.mpr fun text read =>
          textless text (ofUnits?_eq_some_iff.mp read)
      refine ⟨_, rfl, fun rest => ?_⟩
      rw [List.append_assoc, List.singleton_append, stringText, stringBody_inside inside]
      simp only [Option.map_some, unspelled, Option.map_none]

end CouponDesk.Json.Grammar
