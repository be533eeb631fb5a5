import CouponDesk.Proofs.Settings.Validation
import CouponDesk.Proofs.Text.Scanning
import CouponDesk.Proofs.Toml.Documents

/-!
# What decoding makes of a document

The known keys of a document decide what it comes to: each gives its value or, where it is missing,
the default, if all that are there have the right type and range; otherwise the document is
malformed, and nothing is validated.  Keys of other names make no difference, nor does the order or
the notation in which tables are written.
-/

set_option autoImplicit false

namespace CouponDesk

namespace Toml

def Value.entries : Value → Entries
  | .table _ entries => entries
  | _ => []

def Value.IsTable (v : Value) : Prop := ∃ origin entries, v = .table origin entries

def Value.items? : Value → Option (List Value)
  | .array items => some items
  | .tables elements => some (elements.map (.table .header))
  | _ => none

def Entries.tableAt (root : Entries) (key : String) : Entries :=
  ((root.lookup key).map Value.entries).getD []

def Value.scalar? : Value → Option (String ⊕ Int)
  | .string text => some (.inl text)
  | .integer n => some (.inr n)
  | _ => none

/-- What stands under a key: nothing, a text or a number, or some value that is neither. -/
def Entries.told (table : Entries) (key : String) : Option (Option (String ⊕ Int)) :=
  (table.lookup key).map Value.scalar?

def Value.seedKeys (item : Value) :
    Option (Option (String ⊕ Int)) × Option (Option (String ⊕ Int)) :=
  (item.entries.told "name", item.entries.told "amount")

def Entries.couponKeys (root : Entries) :=
  (root.lookup "coupons").map fun v => v.items?.map (List.map Value.seedKeys)

end Toml

namespace Settings

open Toml

/-! ## Documents and the settings they hold -/

structure InTables (root : Entries) : Prop where
  database : ∀ v, root.lookup "database" = some v → v.IsTable
  claims : ∀ v, root.lookup "claims" = some v → v.IsTable
  coupons : ∀ v items, root.lookup "coupons" = some v → v.items? = some items →
    ∀ item ∈ items, Value.IsTable item

/-- Every known key that is there has the right type and range, and no coupon lacks a key. -/
structure WellTyped (root : Entries) : Prop where
  url : ∀ v, (root.tableAt "database").lookup "url" = some v → ∃ text, v = .string text
  maxConnections : ∀ v, (root.tableAt "database").lookup "max_connections" = some v →
    ∃ n : Nat, n ≤ 4294967295 ∧ v = .integer n
  acquireTimeoutSecs : ∀ v, (root.tableAt "database").lookup "acquire_timeout_secs" = some v →
    ∃ n : Nat, v = .integer n
  timeoutMs : ∀ v, (root.tableAt "claims").lookup "timeout_ms" = some v →
    ∃ n : Nat, v = .integer n
  maxAttempts : ∀ v, (root.tableAt "claims").lookup "max_attempts" = some v →
    ∃ n : Nat, n ≤ 4294967295 ∧ v = .integer n
  coupons : ∀ v, root.lookup "coupons" = some v → ∃ items, v.items? = some items ∧
    ∀ item ∈ items, (∃ name, item.entries.lookup "name" = some (.string name)) ∧
      ∃ amount, item.entries.lookup "amount" = some (.integer amount)

/-- A key of a table gives a value, or the default where it is missing. -/
def Gives {α : Type} (table : Entries) (key : String) (default : α) (write : α → Value)
    (x : α) : Prop :=
  table.lookup key = some (write x) ∨ table.lookup key = none ∧ x = default

def writeNat (n : Nat) : Value := .integer n

structure HoldsDatabase (table : Entries) (s : DatabaseSettings) : Prop where
  url : Gives table "url" ({} : DatabaseSettings).url .string s.url
  maxConnections : Gives table "max_connections" ({} : DatabaseSettings).maxConnections writeNat
    s.maxConnections
  acquireTimeoutSecs : Gives table "acquire_timeout_secs"
    ({} : DatabaseSettings).acquireTimeoutSecs writeNat s.acquireTimeoutSecs
  connectionsInRange : s.maxConnections ≤ 4294967295

structure HoldsClaims (table : Entries) (s : ClaimSettings) : Prop where
  timeoutMs : Gives table "timeout_ms" ({} : ClaimSettings).timeoutMs writeNat s.timeoutMs
  maxAttempts : Gives table "max_attempts" ({} : ClaimSettings).maxAttempts writeNat s.maxAttempts
  attemptsInRange : s.maxAttempts ≤ 4294967295

def HoldsSeed (item : Value) (seed : Seed) : Prop :=
  item.entries.lookup "name" = some (.string seed.name) ∧
    item.entries.lookup "amount" = some (.integer seed.amount)

def HoldsCoupons (root : Entries) (seeds : List Seed) : Prop :=
  root.lookup "coupons" = none ∧ seeds = [] ∨
    ∃ v items, root.lookup "coupons" = some v ∧ v.items? = some items ∧
      List.Forall₂ HoldsSeed items seeds

/-- The settings that a document holds: its values, the defaults for all that is missing, and the
coupons in the order of the document. -/
structure Holds (root : Entries) (s : Settings) : Prop where
  database : HoldsDatabase (root.tableAt "database") s.database
  claims : HoldsClaims (root.tableAt "claims") s.claims
  coupons : HoldsCoupons root s.coupons

/-- Two documents that differ at most in keys of other names, in order and in notation. -/
structure KnownAlike (root root' : Entries) : Prop where
  database :
    (root.tableAt "database").told "url" = (root'.tableAt "database").told "url" ∧
    (root.tableAt "database").told "max_connections" =
      (root'.tableAt "database").told "max_connections" ∧
    (root.tableAt "database").told "acquire_timeout_secs" =
      (root'.tableAt "database").told "acquire_timeout_secs"
  claims :
    (root.tableAt "claims").told "timeout_ms" = (root'.tableAt "claims").told "timeout_ms" ∧
    (root.tableAt "claims").told "max_attempts" = (root'.tableAt "claims").told "max_attempts"
  coupons : root.couponKeys = root'.couponKeys

/-! ## Decoding one value -/

theorem text?_eq_some_iff (v : Value) (text : String) :
    Toml.view.text? v = some text ↔ v = .string text := by
  cases v <;> simp [View.text?, Toml.view, Value.shape]

theorem natural?_eq_some_iff (limit : Nat) (v : Value) (n : Nat) :
    Toml.view.natural? limit v = some n ↔ v = writeNat n ∧ n < limit := by
  cases v with
  | integer m =>
      simp only [View.natural?, Toml.view, Value.shape, writeNat, Value.integer.injEq]
      split_ifs with inside
      · rw [Option.some.injEq]
        omega
      · refine ⟨nofun, ?_⟩
        rintro ⟨rfl, small⟩
        omega
  | _ => simp [View.natural?, Toml.view, Value.shape, writeNat]

/-- All integers of a document are small enough for an amount. -/
theorem amount?_eq_some_iff {v : Value} (proper : v.Proper) (n : Int) :
    Toml.view.amount? v = some n ↔ v = .integer n := by
  cases proper with
  | integer m fits => simp [View.amount?, Toml.view, Value.shape, fits]
  | _ => simp [View.amount?, Toml.view, Value.shape]

theorem orElse_eq_some_iff {α β : Type} (default : β) (read : α → Option β) (field : Option α)
    (x : β) :
    View.orElse default read field = some x ↔
      (∃ v, field = some v ∧ read v = some x) ∨ field = none ∧ x = default := by
  cases field <;> simp [View.orElse, eq_comm]

theorem orElse_text?_iff (table : Entries) (key default text : String) :
    View.orElse default Toml.view.text? (table.lookup key) = some text ↔
      Gives table key default .string text := by
  simp [orElse_eq_some_iff, text?_eq_some_iff, Gives]

theorem orElse_natural?_iff (table : Entries) (key : String) (limit default : Nat)
    (small : default < limit) (n : Nat) :
    View.orElse default (Toml.view.natural? limit) (table.lookup key) = some n ↔
      Gives table key default writeNat n ∧ n < limit := by
  simp only [orElse_eq_some_iff, natural?_eq_some_iff, Gives]
  constructor
  · rintro (⟨v, there, rfl, inside⟩ | ⟨missing, rfl⟩)
    · exact ⟨Or.inl there, inside⟩
    · exact ⟨Or.inr ⟨missing, rfl⟩, small⟩
  · rintro ⟨there | missing, inside⟩
    · exact Or.inl ⟨_, there, rfl, inside⟩
    · exact Or.inr missing

/-- A number of a document is below the limit of 64 bits. -/
theorem lt_of_gives {table : Entries} (proper : table.Proper) {key : String} {default n : Nat}
    (small : default < Nat.pow 2 64) (gives : Gives table key default writeNat n) :
    n < Nat.pow 2 64 := by
  rcases gives with there | ⟨-, rfl⟩
  · cases proper.lookup there with
    | integer _ fits =>
        have bound := fits.2
        change n < 18446744073709551616
        omega
  · exact small

theorem fields?_table {entries : Entries} (distinct : (entries.map Prod.fst).Nodup)
    (origin : Origin) (names : List String) :
    Toml.view.fields? names (.table origin entries) =
      some (names.map fun name => List.lookup name entries) := by
  change some (names.map fun name => List.lookup name entries.reverse) = _
  congr 2
  funext name
  exact Entries.lookup_reverse distinct name

/-! ## Decoding tables -/

theorem database?_eq_some_iff {table : Entries} (proper : table.Proper) (origin : Origin)
    (s : DatabaseSettings) :
    Toml.view.database? (.table origin table) = some s ↔ HoldsDatabase table s := by
  have fields := fields?_table proper.distinct origin
    ["url", "max_connections", "acquire_timeout_secs"]
  have connections := orElse_natural?_iff table "max_connections" (Nat.pow 2 32) 10 (by decide)
  have seconds := orElse_natural?_iff table "acquire_timeout_secs" (Nat.pow 2 64) 5 (by decide)
  simp only [View.database?, fields, List.map_cons, List.map_nil, Option.bind_eq_bind,
    Option.bind_some, Option.bind_eq_some_iff, orElse_text?_iff, connections, seconds]
  constructor
  · rintro ⟨url, givesUrl, n, ⟨givesConnections, inside⟩, m, ⟨givesSeconds, -⟩, ⟨⟩⟩
    exact ⟨givesUrl, givesConnections, givesSeconds, Nat.le_of_lt_succ inside⟩
  · intro holds
    refine ⟨s.url, holds.url, s.maxConnections, ⟨holds.maxConnections, ?_⟩,
      s.acquireTimeoutSecs, ⟨holds.acquireTimeoutSecs, ?_⟩, rfl⟩
    · exact Nat.lt_succ_of_le holds.connectionsInRange
    · exact lt_of_gives proper (by decide) holds.acquireTimeoutSecs

theorem claims?_eq_some_iff {table : Entries} (proper : table.Proper) (origin : Origin)
    (s : ClaimSettings) :
    Toml.view.claims? (.table origin table) = some s ↔ HoldsClaims table s := by
  have fields := fields?_table proper.distinct origin ["timeout_ms", "max_attempts"]
  have timeout := orElse_natural?_iff table "timeout_ms" (Nat.pow 2 64) 5000 (by decide)
  have attempts := orElse_natural?_iff table "max_attempts" (Nat.pow 2 32) 3 (by decide)
  simp only [View.claims?, fields, List.map_cons, List.map_nil, Option.bind_eq_bind,
    Option.bind_some, Option.bind_eq_some_iff, timeout, attempts]
  constructor
  · rintro ⟨n, ⟨givesTimeout, -⟩, m, ⟨givesAttempts, inside⟩, ⟨⟩⟩
    exact ⟨givesTimeout, givesAttempts, Nat.le_of_lt_succ inside⟩
  · intro holds
    refine ⟨s.timeoutMs, ⟨holds.timeoutMs, ?_⟩, s.maxAttempts, ⟨holds.maxAttempts, ?_⟩, rfl⟩
    · exact lt_of_gives proper (by decide) holds.timeoutMs
    · exact Nat.lt_succ_of_le holds.attemptsInRange

theorem seed?_eq_some_iff {item : Value} (proper : item.Proper) (table : item.IsTable)
    (seed : Seed) : Toml.view.seed? item = some seed ↔ HoldsSeed item seed := by
  obtain ⟨origin, entries, rfl⟩ := table
  have within := Entries.proper_table.mp proper
  have fields := fields?_table within.distinct origin ["name", "amount"]
  simp only [View.seed?, fields, List.map_cons, List.map_nil, Option.bind_eq_bind,
    Option.bind_some, HoldsSeed, Value.entries]
  cases named : List.lookup "name" entries with
  | none => simp
  | some name =>
      cases counted : List.lookup "amount" entries with
      | none => simp
      | some amount =>
          have fine := within.lookup counted
          simp only [Option.bind_eq_some_iff, text?_eq_some_iff, amount?_eq_some_iff fine,
            Option.some.injEq]
          constructor
          · rintro ⟨text, rfl, n, rfl, ⟨⟩⟩
            exact ⟨rfl, rfl⟩
          · rintro ⟨rfl, rfl⟩
            exact ⟨seed.name, rfl, seed.amount, rfl, rfl⟩

theorem items_proper {v : Value} (proper : v.Proper) {items : List Value}
    (listed : v.items? = some items) : ∀ item ∈ items, Value.Proper item := by
  cases v with
  | array members =>
      cases listed
      cases proper with
      | array _ fine => exact fine
  | tables elements =>
      cases listed
      intro item member
      obtain ⟨entries, stands, rfl⟩ := List.mem_map.mp member
      exact Entries.proper_table.mpr (Entries.proper_tables.mp proper entries stands)
  | _ => cases listed

theorem list?_eq (read : Value → Option Seed) (v : Value) :
    Toml.view.list? read v = v.items?.bind fun items => items.mapM read := by
  cases v <;> rfl

theorem coupons?_eq_some_iff {root : Entries} (proper : root.Proper) (tables : InTables root)
    (seeds : List Seed) :
    View.orElse [] (Toml.view.list? Toml.view.seed?) (root.lookup "coupons") = some seeds ↔
      HoldsCoupons root seeds := by
  rw [orElse_eq_some_iff, or_comm]
  apply or_congr Iff.rfl
  constructor
  · rintro ⟨v, there, read⟩
    rw [list?_eq] at read
    obtain ⟨items, listed, read⟩ := Option.bind_eq_some_iff.mp read
    refine ⟨v, items, there, listed, (List.mapM_eq_some_iff_forall₂ ?_ seeds).mp read⟩
    intro item member
    exact seed?_eq_some_iff (items_proper (proper.lookup there) listed item member)
      (tables.coupons v items there listed item member)
  · rintro ⟨v, items, there, listed, holds⟩
    refine ⟨v, there, ?_⟩
    rw [list?_eq, listed, Option.bind_some]
    apply (List.mapM_eq_some_iff_forall₂ ?_ seeds).mpr holds
    intro item member
    exact seed?_eq_some_iff (items_proper (proper.lookup there) listed item member)
      (tables.coupons v items there listed item member)

/-- A missing section counts as an empty one. -/
theorem section_eq_some_iff {β : Type} {read : Value → Option β} {default : β}
    {Holds : Entries → β → Prop}
    (reads : ∀ {table : Entries}, table.Proper → ∀ origin x,
      read (.table origin table) = some x ↔ Holds table x)
    (empty : read (.table .header []) = some default)
    {root : Entries} (proper : root.Proper) {key : String}
    (table : ∀ v, root.lookup key = some v → v.IsTable) (x : β) :
    View.orElse default read (root.lookup key) = some x ↔ Holds (root.tableAt key) x := by
  unfold Entries.tableAt
  cases there : List.lookup key root with
  | none =>
      change some default = some x ↔ Holds [] x
      rw [← reads Entries.proper_nil .header x, empty]
  | some v =>
      obtain ⟨origin, entries, rfl⟩ := table v there
      exact reads (Entries.proper_table.mp (proper.lookup there)) origin x

theorem settings?_eq_some_iff {root : Entries} (proper : root.Proper) (tables : InTables root)
    (s : Settings) : Toml.view.settings? (.table .header root) = some s ↔ Holds root s := by
  have fields := fields?_table proper.distinct .header ["database", "claims", "coupons"]
  have database := section_eq_some_iff database?_eq_some_iff rfl proper tables.database
  have claims := section_eq_some_iff claims?_eq_some_iff rfl proper tables.claims
  have coupons := coupons?_eq_some_iff proper tables
  simp only [View.settings?, fields, List.map_cons, List.map_nil, Option.bind_eq_bind,
    Option.bind_some, Option.bind_eq_some_iff, database, claims, coupons]
  constructor
  · rintro ⟨d, holdsDatabase, c, holdsClaims, seeds, holdsCoupons, ⟨⟩⟩
    exact ⟨holdsDatabase, holdsClaims, holdsCoupons⟩
  · intro holds
    exact ⟨_, holds.database, _, holds.claims, _, holds.coupons, rfl⟩

/-! ## Well-typed documents -/

section Fields

variable {α : Type} {table : Entries} {key : String}

theorem exists_gives_inside (default : α) (write : α → Value) (inside : α → Prop)
    (fine : inside default)
    (typed : ∀ v, table.lookup key = some v → ∃ x, inside x ∧ v = write x) :
    ∃ x, Gives table key default write x ∧ inside x := by
  cases there : List.lookup key table with
  | none => exact ⟨default, Or.inr ⟨there, rfl⟩, fine⟩
  | some v =>
      obtain ⟨x, fits, rfl⟩ := typed v there
      exact ⟨x, Or.inl there, fits⟩

theorem exists_gives (default : α) (write : α → Value)
    (typed : ∀ v, table.lookup key = some v → ∃ x, v = write x) :
    ∃ x, Gives table key default write x := by
  obtain ⟨x, gives, -⟩ := exists_gives_inside default write (fun _ => True) trivial
    fun v there => (typed v there).imp fun _ same => ⟨trivial, same⟩
  exact ⟨x, gives⟩

theorem Gives.value {default x : α} {write : α → Value}
    (gives : Gives table key default write x) {v : Value}
    (there : table.lookup key = some v) : v = write x := by
  rcases gives with same | ⟨missing, -⟩
  · exact Option.some.inj (there.symm.trans same)
  · cases there.symm.trans missing

end Fields

theorem exists_seeds {items : List Value}
    (typed : ∀ item ∈ items, (∃ name, item.entries.lookup "name" = some (.string name)) ∧
      ∃ amount, item.entries.lookup "amount" = some (.integer amount)) :
    ∃ seeds, List.Forall₂ HoldsSeed items seeds := by
  induction items with
  | nil => exact ⟨[], .nil⟩
  | cons item rest ih =>
      obtain ⟨⟨name, named⟩, amount, counted⟩ := typed item List.mem_cons_self
      obtain ⟨seeds, holds⟩ := ih fun other member => typed other (List.mem_cons_of_mem item member)
      exact ⟨⟨name, amount⟩ :: seeds, .cons ⟨named, counted⟩ holds⟩

theorem seed_of_mem {items : List Value} {seeds : List Seed}
    (holds : List.Forall₂ HoldsSeed items seeds) : ∀ item ∈ items, ∃ seed, HoldsSeed item seed := by
  induction holds with
  | nil => nofun
  | cons here _ ih => exact List.forall_mem_cons.mpr ⟨⟨_, here⟩, ih⟩

theorem WellTyped.exists_coupons {root : Entries} (typed : WellTyped root) :
    ∃ seeds, HoldsCoupons root seeds := by
  cases there : List.lookup "coupons" root with
  | none => exact ⟨[], Or.inl ⟨there, rfl⟩⟩
  | some v =>
      obtain ⟨items, listed, named⟩ := typed.coupons v there
      obtain ⟨seeds, holds⟩ := exists_seeds named
      exact ⟨seeds, Or.inr ⟨v, items, there, listed, holds⟩⟩

theorem WellTyped.exists_holds {root : Entries} (typed : WellTyped root) :
    ∃ s, Holds root s := by
  obtain ⟨url, givesUrl⟩ := exists_gives ({} : DatabaseSettings).url .string typed.url
  obtain ⟨connections, givesConnections, fewConnections⟩ :=
    exists_gives_inside ({} : DatabaseSettings).maxConnections writeNat (· ≤ 4294967295)
      (by decide) typed.maxConnections
  obtain ⟨seconds, givesSeconds⟩ :=
    exists_gives ({} : DatabaseSettings).acquireTimeoutSecs writeNat typed.acquireTimeoutSecs
  obtain ⟨timeout, givesTimeout⟩ :=
    exists_gives ({} : ClaimSettings).timeoutMs writeNat typed.timeoutMs
  obtain ⟨attempts, givesAttempts, fewAttempts⟩ :=
    exists_gives_inside ({} : ClaimSettings).maxAttempts writeNat (· ≤ 4294967295)
      (by decide) typed.maxAttempts
  obtain ⟨seeds, holdsSeeds⟩ := typed.exists_coupons
  exact ⟨⟨⟨url, connections, seconds⟩, ⟨timeout, attempts⟩, seeds⟩,
    ⟨givesUrl, givesConnections, givesSeconds, fewConnections⟩,
    ⟨givesTimeout, givesAttempts, fewAttempts⟩, holdsSeeds⟩

theorem Holds.wellTyped {root : Entries} {s : Settings} (holds : Holds root s) :
    WellTyped root := by
  obtain ⟨database, claims, coupons⟩ := holds
  refine ⟨?_, ?_, ?_, ?_, ?_, ?_⟩
  · exact fun v there => ⟨_, database.url.value there⟩
  · exact fun v there => ⟨_, database.connectionsInRange, database.maxConnections.value there⟩
  · exact fun v there => ⟨_, database.acquireTimeoutSecs.value there⟩
  · exact fun v there => ⟨_, claims.timeoutMs.value there⟩
  · exact fun v there => ⟨_, claims.attemptsInRange, claims.maxAttempts.value there⟩
  · intro v there
    rcases coupons with ⟨missing, -⟩ | ⟨v', items, there', listed, held⟩
    · cases there.symm.trans missing
    · obtain rfl := Option.some.inj (there.symm.trans there')
      refine ⟨items, listed, fun item member => ?_⟩
      obtain ⟨seed, named, counted⟩ := seed_of_mem held item member
      exact ⟨⟨_, named⟩, _, counted⟩

/-- A document is well typed exactly if there are settings that it holds. -/
theorem wellTyped_iff (root : Entries) : WellTyped root ↔ ∃ s, Holds root s :=
  ⟨WellTyped.exists_holds, fun ⟨_, holds⟩ => holds.wellTyped⟩

/-! ## Documents with the same known keys -/

theorem eq_of_scalar {v w : Value} (same : v.scalar? = w.scalar?) (scalar : w.scalar? ≠ none) :
    v = w := by
  cases w with
  | string text => cases v <;> simp_all [Value.scalar?]
  | integer n => cases v <;> simp_all [Value.scalar?]
  | _ => exact absurd rfl scalar

theorem lookup_of_told {table table' : Entries} {key : String}
    (same : table.told key = table'.told key) {v : Value} (scalar : v.scalar? ≠ none)
    (there : table.lookup key = some v) : table'.lookup key = some v := by
  rw [Entries.told, there, Option.map_some] at same
  obtain ⟨w, there', alike⟩ := Option.map_eq_some_iff.mp same.symm
  rw [there', eq_of_scalar alike scalar]

theorem Gives.congr {α : Type} {table table' : Entries} {key : String} {default x : α}
    {write : α → Value} (scalar : ∀ x, (write x).scalar? ≠ none)
    (same : table.told key = table'.told key) (gives : Gives table key default write x) :
    Gives table' key default write x := by
  rcases gives with there | ⟨missing, rfl⟩
  · exact Or.inl (lookup_of_told same (scalar x) there)
  · refine Or.inr ⟨?_, rfl⟩
    rw [Entries.told, missing, Option.map_none] at same
    exact Option.map_eq_none_iff.mp same.symm

theorem HoldsSeed.congr {item item' : Value} {seed : Seed} (same : item.seedKeys = item'.seedKeys)
    (holds : HoldsSeed item seed) : HoldsSeed item' seed :=
  ⟨lookup_of_told (congrArg Prod.fst same) nofun holds.1,
    lookup_of_told (congrArg Prod.snd same) nofun holds.2⟩

theorem holdsSeeds_congr {items items' : List Value} {seeds : List Seed}
    (same : items.map Value.seedKeys = items'.map Value.seedKeys)
    (holds : List.Forall₂ HoldsSeed items seeds) : List.Forall₂ HoldsSeed items' seeds := by
  induction holds generalizing items' with
  | nil =>
      obtain rfl := List.map_eq_nil_iff.mp same.symm
      exact .nil
  | @cons item seed rest seeds here _ ih =>
      obtain ⟨item', rest', rfl, first, later⟩ := List.map_eq_cons_iff.mp same.symm
      exact .cons (here.congr first.symm) (ih later.symm)

theorem holdsCoupons_congr {root root' : Entries} {seeds : List Seed}
    (same : root.couponKeys = root'.couponKeys) (holds : HoldsCoupons root seeds) :
    HoldsCoupons root' seeds := by
  rcases holds with ⟨missing, rfl⟩ | ⟨v, items, there, listed, holds⟩
  · refine Or.inl ⟨?_, rfl⟩
    rw [Entries.couponKeys, missing, Option.map_none] at same
    exact Option.map_eq_none_iff.mp same.symm
  · rw [Entries.couponKeys, there, Option.map_some, listed] at same
    obtain ⟨v', there', alike⟩ := Option.map_eq_some_iff.mp same.symm
    obtain ⟨items', listed', alike⟩ := Option.map_eq_some_iff.mp alike
    exact Or.inr ⟨v', items', there', listed', holdsSeeds_congr alike.symm holds⟩

theorem KnownAlike.holds {root root' : Entries} (alike : KnownAlike root root') {s : Settings}
    (holds : Holds root s) : Holds root' s := by
  obtain ⟨url, connections, seconds⟩ := alike.database
  obtain ⟨timeout, attempts⟩ := alike.claims
  refine ⟨⟨?_, ?_, ?_, ?_⟩, ⟨?_, ?_, ?_⟩, ?_⟩
  · exact holds.database.url.congr nofun url
  · exact holds.database.maxConnections.congr nofun connections
  · exact holds.database.acquireTimeoutSecs.congr nofun seconds
  · exact holds.database.connectionsInRange
  · exact holds.claims.timeoutMs.congr nofun timeout
  · exact holds.claims.maxAttempts.congr nofun attempts
  · exact holds.claims.attemptsInRange
  · exact holdsCoupons_congr alike.coupons holds.coupons

theorem KnownAlike.symm {root root' : Entries} (alike : KnownAlike root root') :
    KnownAlike root' root where
  database := alike.database.imp Eq.symm (And.imp Eq.symm Eq.symm)
  claims := alike.claims.imp Eq.symm Eq.symm
  coupons := alike.coupons.symm

/-! ## The result -/

theorem ofToml?_of_read {text : String} {root : Entries}
    (read : readDocument? text = some root) :
    ofToml? text = Toml.view.settings? (.table .header root) := by
  rw [ofToml?, read, Option.bind_some]

/-- What a well-formed document with its sections and coupons in tables comes to: the settings it
holds, if it is well typed, and then their validation decides; otherwise it is malformed, whatever
else is wrong with it.  A document with the same known keys comes to the same. -/
theorem parse_document (text : String) (root : Entries)
    (read : readDocument? text = some root) (tables : InTables root) :
    (WellTyped root → ∃ s, (∀ t, Holds root t ↔ t = s) ∧
      parse text = s.validate.map fun _ => s) ∧
    (¬ WellTyped root → parse text = .error (.config .malformed)) ∧
    (Error.config .malformed).message = "Configuration error: Failed to parse config.toml" ∧
    ∀ text' root', readDocument? text' = some root' → InTables root' → KnownAlike root root' →
      parse text' = parse text := by
  have decoded : ∀ s, ofToml? text = some s ↔ Holds root s := by
    intro s
    rw [ofToml?_of_read read]
    exact settings?_eq_some_iff (proper_of_readDocument read) tables s
  refine ⟨?_, ?_, rfl, ?_⟩
  · intro typed
    obtain ⟨s, holds⟩ := (wellTyped_iff root).mp typed
    have made := (decoded s).mpr holds
    refine ⟨s, ?_, ?_⟩
    · intro t
      rw [← decoded t, made, Option.some.injEq, eq_comm]
    · rw [parse, made]
      rfl
  · intro untyped
    have undecoded : ofToml? text = none := by
      apply Option.eq_none_iff_forall_ne_some.mpr
      intro s made
      exact untyped ((wellTyped_iff root).mpr ⟨s, (decoded s).mp made⟩)
    rw [parse, undecoded]
  · intro text' root' read' tables' alike
    have same : ofToml? text' = ofToml? text := by
      apply Option.ext
      intro s
      rw [decoded s, ofToml?_of_read read',
        settings?_eq_some_iff (proper_of_readDocument read') tables' s]
      exact ⟨alike.symm.holds, alike.holds⟩
    rw [parse, parse, same]

def plainText : String := "[claims]\nmax_attempts = 7\n[[coupons]]\nname = 'PROMO'\namount = 5\n"

def plainRoot : Entries :=
  [("claims", .table .header [("max_attempts", .integer 7)]),
    ("coupons", .tables [[("name", .string "PROMO"), ("amount", .integer 5)]])]

/-- The same known keys in another order and notation, among others. -/
def crowdedText : String :=
  "coupons = [\x7bamount = 5, note = 1, name = 'PROMO'\x7d]\ndatabase.x = 1\n" ++
    "claims.max_attempts = 7\n"

def crowdedRoot : Entries :=
  [("coupons", .array [.table .inline
      [("amount", .integer 5), ("note", .integer 1), ("name", .string "PROMO")]]),
    ("database", .table .dotted [("x", .integer 1)]),
    ("claims", .table .dotted [("max_attempts", .integer 7)])]

/-- A blank address beside a number that is written as a text. -/
def mistypedText : String := "database.url = ''\nclaims.max_attempts = '7'\n"

def mistypedRoot : Entries :=
  [("database", .table .dotted [("url", .string "")]),
    ("claims", .table .dotted [("max_attempts", .string "7")])]

theorem parse_document_crowded :
    let s : Settings := { claims := { maxAttempts := 7 }, coupons := [⟨"PROMO", 5⟩] }
    InTables plainRoot ∧ WellTyped plainRoot ∧ InTables crowdedRoot ∧
      KnownAlike plainRoot crowdedRoot ∧ InTables mistypedRoot ∧ ¬ WellTyped mistypedRoot ∧
      parse plainText = .ok s ∧ parse crowdedText = .ok s ∧
      parse mistypedText = .error (.config .malformed) := by
  intro s
  have plain : readDocument? plainText = some plainRoot := by decide +kernel
  have crowded : readDocument? crowdedText = some crowdedRoot := by decide +kernel
  have mistyped : readDocument? mistypedText = some mistypedRoot := by decide +kernel
  have plainTables : InTables plainRoot := by
    refine ⟨nofun, ?_, ?_⟩
    · rintro _ ⟨⟩
      exact ⟨_, _, rfl⟩
    · rintro _ _ ⟨⟩ ⟨⟩
      simp [Value.IsTable]
  have crowdedTables : InTables crowdedRoot := by
    refine ⟨?_, ?_, ?_⟩
    · rintro _ ⟨⟩
      exact ⟨_, _, rfl⟩
    · rintro _ ⟨⟩
      exact ⟨_, _, rfl⟩
    · rintro _ _ ⟨⟩ ⟨⟩
      simp [Value.IsTable]
  have mistypedTables : InTables mistypedRoot := by
    refine ⟨?_, ?_, nofun⟩
    · rintro _ ⟨⟩
      exact ⟨_, _, rfl⟩
    · rintro _ ⟨⟩
      exact ⟨_, _, rfl⟩
  have alike : KnownAlike plainRoot crowdedRoot := ⟨⟨rfl, rfl, rfl⟩, ⟨rfl, rfl⟩, rfl⟩
  have holds : Holds plainRoot s := by
    refine ⟨⟨Or.inr ⟨rfl, rfl⟩, Or.inr ⟨rfl, rfl⟩, Or.inr ⟨rfl, rfl⟩, by decide⟩,
      ⟨Or.inr ⟨rfl, rfl⟩, Or.inl rfl, by decide⟩, Or.inr ⟨_, _, rfl, rfl, ?_⟩⟩
    exact .cons ⟨rfl, rfl⟩ .nil
  have typed : WellTyped plainRoot := (wellTyped_iff plainRoot).mpr ⟨s, holds⟩
  have untyped : ¬ WellTyped mistypedRoot := by
    intro typed
    obtain ⟨n, -, same⟩ := typed.maxAttempts (.string "7") rfl
    cases same
  obtain ⟨decodes, -, -, ignores⟩ := parse_document plainText plainRoot plain plainTables
  obtain ⟨-, refuses, -, -⟩ := parse_document mistypedText mistypedRoot mistyped mistypedTables
  obtain ⟨t, only, parsed⟩ := decodes typed
  obtain rfl := (only s).mp holds
  have valid : s.validate = .ok () := (validate_eq_ok_iff s).mpr (by decide)
  rw [valid] at parsed
  refine ⟨plainTables, typed, crowdedTables, alike, mistypedTables, untyped, parsed, ?_,
    refuses untyped⟩
  exact (ignores crowdedText crowdedRoot crowded crowdedTables alike).trans parsed

end Settings

end CouponDesk
