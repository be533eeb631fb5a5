import CouponDesk.Json.Rows
import CouponDesk.Proofs.Json.Writing
import CouponDesk.Proofs.Text.Scanning
import CouponDesk.Proofs.Time.Writing
import Mathlib.Data.List.Nodup

/-!
# Rows read back

A row is read from exactly the JSON texts that describe it, whatever the order and the notation of
its fields, and the text that it is written as is one of them: `rows_read_back`.
-/

set_option autoImplicit false

namespace CouponDesk.Json

namespace Value

variable {v w : Value} {members : List (Option String × Value)} {name : String}
  {names : List String} {values : List Value}

/-! ## Fields -/

/-- An object has one member with a name, and that has a value. -/
def Sole (members : List (Option String × Value)) (name : String) (v : Value) : Prop :=
  ∃ before after, members = before ++ (some name, v) :: after ∧
    ∀ m ∈ before ++ after, m.1 ≠ some name

/-- The values of a row's fields: those of an object's members with their names, whatever the order
and the other members, or the items of an array in order.  All names in an object have texts. -/
inductive Fields (names : List String) : Value → List Value → Prop
  | object {members : List (Option String × Value)} {values : List Value}
      (texts : ∀ m ∈ members, m.1 ≠ none) (fields : List.Forall₂ (Sole members) names values) :
      Fields names (.object members) values
  | array {values : List Value} (length : values.length = names.length) :
      Fields names (.array values) values

theorem soleMember?_eq_some_iff : soleMember? members name = some v ↔ Sole members name v := by
  unfold soleMember? Sole
  constructor
  · intro read
    split at read
    next member found =>
      obtain rfl := Option.some.inj read
      obtain ⟨before, after, same, others, named, later⟩ := List.filter_eq_cons_iff.mp found
      refine ⟨before, after, ?_, ?_⟩
      · rw [same, ← of_decide_eq_true named]
      · rw [List.filter_eq_nil_iff] at later
        intro m place
        rcases List.mem_append.mp place with earlier | after
        · simpa using others m earlier
        · simpa using later m after
    next => cases read
  · rintro ⟨before, after, rfl, others⟩
    have none (side : List (Option String × Value)) (apart : ∀ m ∈ side, m.1 ≠ some name) :
        side.filter (·.1 = some name) = [] := by
      rw [List.filter_eq_nil_iff]
      simpa using apart
    rw [List.filter_append, List.filter_cons_of_pos (by simp),
      none before fun m place => others m (List.mem_append_left _ place),
      none after fun m place => others m (List.mem_append_right _ place), List.nil_append]

theorem row?_eq_some_iff : v.row? names = some values ↔ v.Fields names values := by
  have fields (members : List (Option String × Value)) :
      names.mapM (soleMember? members) = some values ↔
        List.Forall₂ (Sole members) names values :=
    List.mapM_eq_some_iff_forall₂ (fun _ _ _ => soleMember?_eq_some_iff) values
  constructor
  · intro read
    unfold row? at read
    split at read
    next members =>
      split_ifs at read with texts
      refine .object (fun m place same => ?_) ((fields members).mp read)
      have text := List.all_eq_true.mp texts m place
      rw [same] at text
      cases text
    next items =>
      split_ifs at read with length
      obtain rfl := Option.some.inj read
      exact .array length
    next => cases read
  · intro described
    cases described with
    | @object members _ texts sole =>
        have all : ∀ m ∈ members, m.1.isSome = true := fun m place =>
          Option.isSome_iff_ne_none.mpr (texts m place)
        rw [row?, if_pos (List.all_eq_true.mpr all), (fields members).mpr sole]
    | array length => rw [row?, if_pos length]

/-! ## Values of fields -/

theorem text?_eq_some_iff {s : String} : v.text? = some s ↔ v = .text s := by
  cases v <;> simp [text?, text]

theorem integer?_eq_some_iff {n : Int} : v.integer? = some n ↔ v = .integer n := by
  cases v <;> simp [integer?]

theorem amount?_eq_some_iff {n : Int} : v.amount? = some n ↔ v = .integer n ∧ FitsAmount n := by
  rw [amount?, Option.filter_eq_some_iff, integer?_eq_some_iff, decide_eq_true_eq]

theorem instant?_eq_some_iff {t : Instant} :
    v.instant? = some t ↔ ∃ s, v = .text s ∧ Stamp.Denotes s t := by
  simp only [instant?, Option.bind_eq_some_iff, text?_eq_some_iff, Stamp.ofText?_eq_some_iff]

/-- The values of an object's members are those of its fields. -/
theorem fields_ofMembers (once : names.Nodup) (length : names.length = values.length) :
    (ofMembers (names.zip values)).Fields names values := by
  refine .object (fun m place => ?_) (List.forall₂_iff_zip.mpr ⟨length, fun {name v} place => ?_⟩)
  · obtain ⟨pair, -, rfl⟩ := List.mem_map.mp place
    exact nofun
  · have named : (names.zip values).map Prod.fst = names := List.map_fst_zip length.le
    obtain ⟨before, after, same⟩ := List.append_of_mem place
    rw [← named, same, List.map_append, List.map_cons] at once
    refine ⟨before.map fun m => (some m.1, m.2), after.map fun m => (some m.1, m.2), ?_, ?_⟩
    · rw [same, List.map_append, List.map_cons]
    · intro m other
      rw [← List.map_append] at other
      obtain ⟨pair, member, rfl⟩ := List.mem_map.mp other
      -- The name would stand twice.
      rintro ⟨⟩
      have away := (List.nodup_middle.mp once).notMem
      rw [← List.map_append] at away
      exact away (List.mem_map.mpr ⟨pair, member, rfl⟩)

end Value

/-! ## Rows of one kind -/

/-- Rows of one kind: the names of their fields, of which the last is for the time of creation, and
the values of the others. -/
structure Columns (α : Type) where
  names : List String
  data : α → List Value
  createdAt : α → Instant
  Fits : α → Prop
  ofFields? : List Value → Option α
  once : names.Nodup
  length : ∀ row, names.length = (data row).length + 1
  written : ∀ row, ∀ v ∈ data row, Grammar.Val v.chars v
  reads : ∀ values row, ofFields? values = some row ↔
    Fits row ∧ ∃ s, values = data row ++ [.text s] ∧ Stamp.Denotes s (createdAt row)

namespace Columns

variable {α : Type} (k : Columns α) {row : α} {v : Value} {text : String}

def read? (text : String) : Option α :=
  (Value.read? text).bind fun v => (v.row? k.names).bind k.ofFields?

def value (row : α) : Value :=
  .ofMembers (k.names.zip (k.data row ++ [.text (k.createdAt row).text]))

def Described (row : α) (v : Value) : Prop :=
  ∃ s, v.Fields k.names (k.data row ++ [.text s]) ∧ Stamp.Denotes s (k.createdAt row)

/-- The texts that are read as a row are those that describe it. -/
theorem read?_eq_some_iff :
    k.read? text = some row ↔ k.Fits row ∧ ∃ v, Grammar.Item text.toList v ∧ k.Described row v := by
  simp only [read?, Option.bind_eq_some_iff, Json.read?_eq_some_iff, Value.row?_eq_some_iff,
    k.reads, Described]
  constructor
  · rintro ⟨v, item, values, fields, fits, s, rfl, denotes⟩
    exact ⟨fits, v, item, s, fields, denotes⟩
  · rintro ⟨fits, v, item, s, fields, denotes⟩
    exact ⟨v, item, _, fields, fits, s, rfl, denotes⟩

theorem described_value (row : α) : k.Described row (k.value row) := by
  refine ⟨(k.createdAt row).text, Value.fields_ofMembers k.once ?_, (k.createdAt row).denotes_text⟩
  rw [k.length row, List.length_append, List.length_singleton]

theorem item_write (row : α) : Grammar.Item (k.value row).write.toList (k.value row) := by
  refine Value.item_write (Grammar.val_ofMembers fun m member => ?_)
  obtain datum | stamp := List.mem_append.mp (List.of_mem_zip member).2
  · exact k.written row m.2 datum
  · rw [List.mem_singleton.mp stamp]
    exact Grammar.val_text _

theorem read?_write (fits : k.Fits row) : k.read? (k.value row).write = some row :=
  k.read?_eq_some_iff.mpr ⟨fits, k.value row, k.item_write row, k.described_value row⟩

end Columns

/-! ## Coupons -/

namespace CouponRow

variable {row : CouponRow}

structure Fits (row : CouponRow) : Prop where
  total : FitsAmount row.coupon.total
  remaining : FitsAmount row.coupon.remaining

def Described (row : CouponRow) (v : Value) : Prop :=
  ∃ createdAt : String, v.Fields names [.text row.coupon.name, .integer row.coupon.total,
    .integer row.coupon.remaining, .text createdAt] ∧ Stamp.Denotes createdAt row.createdAt

/-- A JSON text of a value that has the fields of a row. -/
def DescribedBy (row : CouponRow) (text : String) : Prop :=
  ∃ v, Grammar.Item text.toList v ∧ row.Described v

def columns : Columns CouponRow where
  names := names
  data row := [.text row.coupon.name, .integer row.coupon.total, .integer row.coupon.remaining]
  createdAt := createdAt
  Fits := Fits
  ofFields?
    | [name, total, remaining, createdAt] => do
        return ⟨⟨← name.text?, ← total.amount?, ← remaining.amount?⟩, ← createdAt.instant?⟩
    | _ => none
  once := by decide
  length _ := rfl
  written row := by simp [Grammar.val_text, Grammar.val_integer]
  reads values row := by
    constructor
    · intro read
      split at read
      next name total remaining createdAt =>
        simp only [Option.bind_eq_bind, Option.bind_eq_some_iff, Value.text?_eq_some_iff,
          Value.amount?_eq_some_iff, Value.instant?_eq_some_iff] at read
        obtain ⟨name, rfl, total, ⟨rfl, fits⟩, remaining, ⟨rfl, fits'⟩, instant,
          ⟨text, rfl, denotes⟩, same⟩ := read
        obtain rfl := Option.some.inj same
        exact ⟨⟨fits, fits'⟩, text, rfl, denotes⟩
      next => cases read
    · rintro ⟨⟨total, remaining⟩, text, rfl, denotes⟩
      have totalRead := Value.amount?_eq_some_iff.mpr ⟨rfl, total⟩
      have remainingRead := Value.amount?_eq_some_iff.mpr ⟨rfl, remaining⟩
      have instantRead := Value.instant?_eq_some_iff.mpr ⟨text, rfl, denotes⟩
      simp only [List.cons_append, List.nil_append, Option.bind_eq_bind, Option.bind_some,
        Value.text?_eq_some_iff.mpr rfl, totalRead, remainingRead, instantRead]
      rfl

theorem read?_eq_some_iff {text : String} :
    read? text = some row ↔ row.Fits ∧ row.DescribedBy text :=
  columns.read?_eq_some_iff

theorem read?_write (fits : row.Fits) : read? row.write = some row := columns.read?_write fits

end CouponRow

/-! ## Claims -/

namespace ClaimRow

variable {row : ClaimRow}

def Fits (row : ClaimRow) : Prop := FitsAmount row.claim.id

/-- A value has the fields of a row, and its time of creation is named by a time stamp. -/
def Described (row : ClaimRow) (v : Value) : Prop :=
  ∃ createdAt : String, v.Fields names [.integer row.claim.id, .text row.claim.user,
    .text row.claim.coupon, .text createdAt] ∧ Stamp.Denotes createdAt row.createdAt

def DescribedBy (row : ClaimRow) (text : String) : Prop :=
  ∃ v, Grammar.Item text.toList v ∧ row.Described v

def columns : Columns ClaimRow where
  names := names
  data row := [.integer row.claim.id, .text row.claim.user, .text row.claim.coupon]
  createdAt := createdAt
  Fits := Fits
  ofFields?
    | [id, user, coupon, createdAt] => do
        return ⟨⟨← id.amount?, ← user.text?, ← coupon.text?⟩, ← createdAt.instant?⟩
    | _ => none
  once := by decide
  length _ := rfl
  written row := by simp [Grammar.val_text, Grammar.val_integer]
  reads values row := by
    constructor
    · intro read
      split at read
      next id user coupon createdAt =>
        simp only [Option.bind_eq_bind, Option.bind_eq_some_iff, Value.text?_eq_some_iff,
          Value.amount?_eq_some_iff, Value.instant?_eq_some_iff] at read
        obtain ⟨id, ⟨rfl, fits⟩, user, rfl, coupon, rfl, instant, ⟨text, rfl, denotes⟩, same⟩ :=
          read
        obtain rfl := Option.some.inj same
        exact ⟨fits, text, rfl, denotes⟩
      next => cases read
    · rintro ⟨fits, text, rfl, denotes⟩
      have idRead := Value.amount?_eq_some_iff.mpr ⟨rfl, fits⟩
      have instantRead := Value.instant?_eq_some_iff.mpr ⟨text, rfl, denotes⟩
      simp only [List.cons_append, List.nil_append, Option.bind_eq_bind, Option.bind_some,
        Value.text?_eq_some_iff.mpr rfl, idRead, instantRead]
      rfl

theorem read?_eq_some_iff {text : String} :
    read? text = some row ↔ row.Fits ∧ row.DescribedBy text :=
  columns.read?_eq_some_iff

theorem read?_write (fits : row.Fits) : read? row.write = some row := columns.read?_write fits

end ClaimRow

/-- A row is read back from what it is written as, and a text is read as a row exactly if it
describes that row, which is then read back too.  The time of creation is the instant that the text
names, cut off after the nanoseconds. -/
theorem rows_read_back (text : String) (coupon : CouponRow) (claim : ClaimRow) :
    ((coupon.Fits → CouponRow.read? coupon.write = some coupon) ∧
      (CouponRow.read? text = some coupon ↔ coupon.Fits ∧ coupon.DescribedBy text) ∧
      (CouponRow.read? text = some coupon →
        CouponRow.read? coupon.write = some coupon)) ∧
    ((claim.Fits → ClaimRow.read? claim.write = some claim) ∧
      (ClaimRow.read? text = some claim ↔ claim.Fits ∧ claim.DescribedBy text) ∧
      (ClaimRow.read? text = some claim → ClaimRow.read? claim.write = some claim)) := by
  refine ⟨⟨CouponRow.read?_write, CouponRow.read?_eq_some_iff, fun read => ?_⟩,
    ClaimRow.read?_write, ClaimRow.read?_eq_some_iff, fun read => ?_⟩
  · exact CouponRow.read?_write (CouponRow.read?_eq_some_iff.mp read).1
  · exact ClaimRow.read?_write (ClaimRow.read?_eq_some_iff.mp read).1

/-- A coupon from an object with its members out of order, another one among them, a surrogate pair,
and a leap second at the turn of the first year, an hour ahead; a claim from an array, with a year
of five digits. -/
theorem rows_read_back_leapSecond :
    let text := " \x7b\"created_at\": \"0000-01-01 00:59:60.1234567899+01:00\", " ++
      "\"other\": [1e5, \x7b\x7d], \"total_amount\": 9223372036854775807, " ++
      "\"remaining_amount\":0, \"n\\u0061me\": \"\\ud83d\\ude00\\/\"\x7d"
    let coupon : CouponRow := ⟨⟨"😀/", 9223372036854775807, 0⟩,
      ⟨⟨⟨-1, 12, 31⟩, 86399, 1123456789⟩, by decide⟩⟩
    let claim : ClaimRow := ⟨⟨-1, "\"\x01", ""⟩, ⟨⟨⟨10000, 2, 29⟩, 0, 1000⟩, by decide⟩⟩
    CouponRow.read? text = some coupon ∧ coupon.DescribedBy text ∧
      CouponRow.read? coupon.write = some coupon ∧
      claim.Fits ∧ ClaimRow.read? claim.write = some claim := by
  intro text coupon claim
  have read : CouponRow.read? text = some coupon := by decide +kernel
  have fits : claim.Fits := (by decide : FitsAmount (-1))
  obtain ⟨⟨-, described, again⟩, back, -, -⟩ := rows_read_back text coupon claim
  exact ⟨read, (described.mp read).2, again read, fits, back fits⟩

end CouponDesk.Json
