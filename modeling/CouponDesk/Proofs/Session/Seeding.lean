import CouponDesk.Proofs.Relational.Datastores
import CouponDesk.Proofs.Relational.Growth
import CouponDesk.Session

/-!
# Seeding

Seeding goes through a list and adds what is missing.  The first occurrence of a name decides,
whether it stands in the tables or earlier in the list; so a list that was seeded once adds nothing
when it is seeded again.  A datastore fault ends it at the seed where it happens.
-/

set_option autoImplicit false

namespace CouponDesk.Relational

namespace Tables

def sow (t : Tables) (s : Seed) : Tables :=
  if (t.coupon? s.name).isSome then t
  else { t with coupons := t.coupons ++ [.fresh s.name s.amount] }

def seeded (t : Tables) (seeds : List Seed) : Tables := seeds.foldl sow t

/-- What seeds make of tables, said of the whole list at once. -/
structure Seeded (t : Tables) (seeds : List Seed) (t' : Tables) : Prop where
  /-- All that was there stays.  New is one coupon for each listed name that was missing, with the
  amount that is listed first. -/
  rows : ∃ new, t' = { t with coupons := t.coupons ++ new } ∧ (new.map (·.name)).Nodup ∧
    ∀ row, row ∈ new ↔ t.coupon? row.name = none ∧
      ∃ seed, seeds.find? (·.name = row.name) = some seed ∧ row = .fresh seed.name seed.amount
  /-- Nobody holds a claim on a new coupon, as every claim is on a coupon that exists. -/
  unclaimed : (∀ claim ∈ t.claims, (t.coupon? claim.coupon).isSome) →
    ∀ name, t.coupon? name = none → t'.claimsOn name = []

variable {t : Tables} {seeds : List Seed}

@[simp]
theorem seeded_nil (t : Tables) : t.seeded [] = t := rfl

@[simp]
theorem seeded_cons (t : Tables) (s : Seed) (rest : List Seed) :
    t.seeded (s :: rest) = (t.sow s).seeded rest := rfl

theorem sow_known (s : Seed) (known : (t.coupon? s.name).isSome) : t.sow s = t := if_pos known

theorem sow_missing (s : Seed) (missing : t.coupon? s.name = none) :
    t.sow s = { t with coupons := t.coupons ++ [.fresh s.name s.amount] } := by
  unfold sow
  rw [missing]
  rfl

theorem coupon?_sow (t : Tables) (s : Seed) (name : String) :
    (t.sow s).coupon? name =
      (t.coupon? name).or (if s.name = name then some (.fresh s.name s.amount) else none) := by
  cases found : t.coupon? s.name with
  | none => rw [sow_missing s found, coupon?_append]; rfl
  | some row =>
      rw [sow_known s (by rw [found]; rfl)]
      by_cases named : s.name = name
      · rw [← named, found, Option.some_or]
      · rw [if_neg named, Option.or_none]

/-- A name leads to the coupon that was there, or else to its first seed. -/
theorem coupon?_seeded (t : Tables) (seeds : List Seed) (name : String) :
    (t.seeded seeds).coupon? name =
      (t.coupon? name).or ((seeds.find? (·.name = name)).map fun s => .fresh s.name s.amount) := by
  induction seeds generalizing t with
  | nil => simp
  | cons s rest ih =>
      rw [seeded_cons, ih, coupon?_sow, Option.or_assoc]
      by_cases named : s.name = name <;> simp [named]

theorem seeded_known (known : ∀ s ∈ seeds, (t.coupon? s.name).isSome) : t.seeded seeds = t := by
  induction seeds with
  | nil => rfl
  | cons s rest ih =>
      rw [seeded_cons, sow_known s (known s List.mem_cons_self)]
      exact ih fun other member => known other (List.mem_cons_of_mem s member)

theorem known_seeded (t : Tables) (seeds : List Seed) :
    ∀ s ∈ seeds, ((t.seeded seeds).coupon? s.name).isSome := by
  intro s member
  have listed : (seeds.find? (·.name = s.name)).isSome :=
    List.find?_isSome.mpr ⟨s, member, by simp⟩
  rw [coupon?_seeded, Option.isSome_or, Option.isSome_map, listed, Bool.or_true]

theorem claims_seeded (t : Tables) (seeds : List Seed) : (t.seeded seeds).claims = t.claims := by
  induction seeds generalizing t with
  | nil => rfl
  | cons s rest ih =>
      rw [seeded_cons, ih]
      unfold sow
      split <;> rfl

theorem grows_sow (t : Tables) (s : Seed) : t.Grows (t.sow s) := by
  unfold sow
  split
  · exact .refl t
  · exact t.grows_append _

theorem grows_seeded (t : Tables) (seeds : List Seed) : t.Grows (t.seeded seeds) := by
  induction seeds generalizing t with
  | nil => exact .refl t
  | cons s rest ih => exact (t.grows_sow s).trans (ih (t.sow s))

theorem exists_new (t : Tables) (seeds : List Seed) :
    ∃ new, t.seeded seeds = { t with coupons := t.coupons ++ new } ∧ (new.map (·.name)).Nodup ∧
      ∀ row ∈ new, t.coupon? row.name = none := by
  induction seeds generalizing t with
  | nil => exact ⟨[], by simp, List.nodup_nil, by simp⟩
  | cons s rest ih =>
      obtain ⟨new, same, once, missing⟩ := ih (t.sow s)
      cases found : t.coupon? s.name with
      | some old =>
          have kept := sow_known s (by rw [found]; rfl)
          rw [kept] at same missing
          exact ⟨new, by rw [seeded_cons, kept, same], once, missing⟩
      | none =>
          have sown := sow_missing s found
          -- What the rest adds was still missing with this seed in place, so it has another name.
          have later : ∀ row ∈ new, t.coupon? row.name = none ∧ s.name ≠ row.name := by
            intro row member
            have unknown := missing row member
            rw [coupon?_sow, Option.or_eq_none_iff] at unknown
            exact ⟨unknown.1, by simpa using unknown.2⟩
          refine ⟨.fresh s.name s.amount :: new, ?_, List.nodup_cons.mpr ⟨?_, once⟩, ?_⟩
          · rw [seeded_cons, same, sown]
            simp
          · intro listed
            obtain ⟨row, member, named⟩ := List.mem_map.mp listed
            exact (later row member).2 named.symm
          · rintro row (_ | ⟨_, member⟩)
            · exact found
            · exact (later row member).1

/-- New rows are those that a lookup finds now and did not find before. -/
theorem mem_new_iff (new : List Coupon) (once : (new.map (·.name)).Nodup)
    (missing : ∀ row ∈ new, t.coupon? row.name = none) (row : Coupon) :
    row ∈ new ↔ t.coupon? row.name = none ∧
      coupon? { t with coupons := t.coupons ++ new } row.name = some row := by
  have appended : coupon? { t with coupons := t.coupons ++ new } row.name =
      (t.coupon? row.name).or (new.find? (·.name = row.name)) := List.find?_append
  constructor
  · intro member
    refine ⟨missing row member, ?_⟩
    rw [appended, missing row member, Option.none_or]
    obtain ⟨other, found⟩ : ∃ other, new.find? (·.name = row.name) = some other :=
      Option.isSome_iff_exists.mp (List.find?_isSome.mpr ⟨row, member, by simp⟩)
    have named : other.name = row.name := by simpa using List.find?_some found
    rw [found, List.inj_on_of_nodup_map once (List.mem_of_find?_eq_some found) member named]
  · rintro ⟨unknown, found⟩
    rw [appended, unknown, Option.none_or] at found
    exact List.mem_of_find?_eq_some found

theorem seeded_spec (t : Tables) (seeds : List Seed) : t.Seeded seeds (t.seeded seeds) where
  rows := by
    obtain ⟨new, same, once, missing⟩ := t.exists_new seeds
    refine ⟨new, same, once, fun row => ?_⟩
    rw [mem_new_iff new once missing row, ← same, coupon?_seeded]
    refine and_congr_right fun unknown => ?_
    rw [unknown, Option.none_or, Option.map_eq_some_iff]
    exact exists_congr fun seed => and_congr_right fun _ => eq_comm
  unclaimed := by
    intro named name missing
    rw [claimsOn, claims_seeded, List.filter_eq_nil_iff]
    intro claim member same
    have known := named claim member
    rw [of_decide_eq_true same, missing] at known
    cases known

end Tables

/-! ## On a datastore -/

namespace Datastore

variable {σ : Type} (D : Datastore σ) {t t' : Tables}

abbrev create (d : Dialect) (now : Int) : String → Int → StateM σ (Except Error Coupon) :=
  Catalog.create (Records.createCoupon d D.send now)

abbrev seed (d : Dialect) (now : Int) : List Seed → StateM σ (Except Error Unit) :=
  Session.seed (D.create d now)

def Inserted (d : Dialect) (t : Tables) (s : Seed) : Except DatabaseFault Coupon → Tables → Prop
  | .ok _, t' => t' = t.sow s
  | .error (.violation .unique), t' => t' = t.sow s
  | .error _, t' =>
      t' = t ∨ d.returnsInserted = false ∧ t.coupon? s.name = none ∧ t' = t.sow s

/-- How the creation of a coupon may end.  Where an insert does not return its row, the row is there
even if it cannot be read back. -/
def Created (d : Dialect) (t : Tables) (s : Seed) : Except Error Coupon → Tables → Prop
  | .ok _, t' | .error (.couponExists _), t' => t' = t.sow s
  | .error e, t' => (∃ f, e = .database f) ∧
      (t' = t ∨ d.returnsInserted = false ∧ t.coupon? s.name = none ∧ t' = t.sow s)

/-- How seeding may end: with all seeds, or on the way with a datastore fault. -/
def Sown (t : Tables) (seeds : List Seed) : Except Error Unit → Tables → Prop
  | .ok _, t' => t' = t.seeded seeds
  | .error e, t' => (∃ f, e = .database f) ∧ ∃ done, done <+: seeds ∧ t' = t.seeded done

theorem Created.of_error {d : Dialect} {s : Seed} {e : Error}
    (created : Created d t s (.error e) t') (new : ∀ name, e ≠ .couponExists name) :
    (∃ f, e = .database f) ∧
      (t' = t ∨ d.returnsInserted = false ∧ t.coupon? s.name = none ∧ t' = t.sow s) := by
  unfold Created at created
  split at created
  · rename_i answer
    cases answer
  · rename_i name answer
    cases answer
    exact absurd rfl (new name)
  · rename_i answer
    cases answer
    exact created

theorem inserted_hitch (d : Dialect) (s : Seed) (hitch : Hitch) (t' : Tables)
    (after : t' = t ∨ d.returnsInserted = false ∧ t.coupon? s.name = none ∧ t' = t.sow s) :
    Inserted d t s (.error hitch.fault) t' := by
  have honest := hitch.honest
  unfold Inserted
  split
  · rename_i answer
    cases answer
  · rename_i answer
    exact absurd (Except.error.inj answer) honest
  · exact after

theorem ensures_addCoupon (d : Dialect) (now : Int) (s : Seed) (positive : ¬ s.amount ≤ 0) :
    D.Ensures (Records.addCoupon d D.send (.fresh s.name s.amount) now) t (Inserted d t s) := by
  have inserts := t.addCoupon_fresh s.name s.amount positive
  have fails : ∀ hitch : Hitch, D.Ensures (pure (.error hitch.fault)) t (Inserted d t s) :=
    fun hitch => D.ensures_pure _ (inserted_hitch d s hitch t (Or.inl rfl))
  unfold Records.addCoupon
  cases found : t.coupon? s.name with
  | some row =>
      have kept : t = t.sow s := (Tables.sow_known s (by rw [found]; rfl)).symm
      simp only [found, Option.isSome_some, if_true] at inserts
      split
      · refine D.ensures_ask (.error (.violation .unique)) t ?_ fails (D.ensures_pure _ kept)
        simp only [Tables.exec, inserts]
      · refine D.ensures_ask (.error (.violation .unique)) t ?_ fails (D.ensures_pure _ kept)
        simp only [Tables.exec, inserts]
  | none =>
      have sown := Tables.sow_missing s found
      simp only [found, Option.isSome_none, Bool.false_eq_true, if_false, ← sown] at inserts
      split
      · refine D.ensures_ask (.ok (some (.fresh s.name s.amount))) (t.sow s) ?_ fails
          (D.ensures_pure _ rfl)
        simp only [Tables.exec, inserts]
      · rename_i unreturned
        refine D.ensures_ask (.ok ⟨0, 1⟩) (t.sow s) ?_ fails ?_
        · simp only [Tables.exec, inserts]
        · refine D.ensures_ask (.ok (some (.fresh s.name s.amount))) (t.sow s) ?_ (fun hitch => ?_)
            (D.ensures_pure _ rfl)
          · simp only [Tables.exec, Tables.coupon?_sow, found, Coupon.fresh, if_true,
              Option.none_or]
          · exact D.ensures_pure _
              (inserted_hitch d s hitch _ (Or.inr ⟨by simpa using unreturned, found, rfl⟩))

theorem ensures_create (d : Dialect) (now : Int) (s : Seed) (positive : ¬ s.amount ≤ 0) :
    D.Ensures (D.create d now s.name s.amount) t (Created d t s) := by
  rw [create, Records.create_createCoupon]
  unfold Records.createCoupon
  rw [if_neg positive]
  refine D.ensures_bind ((D.ensures_addCoupon d now s positive).mono ?_)
  intro reply t' inserted
  unfold Inserted at inserted
  split at inserted
  · exact D.ensures_pure _ inserted
  · exact D.ensures_pure _ inserted
  · rename_i f distinct
    split
    · rename_i answer
      cases answer
    · rename_i answer
      exact absurd (Except.error.inj answer) distinct
    · rename_i answer
      cases answer
      exact D.ensures_pure _ ⟨⟨f, rfl⟩, inserted⟩

theorem ensures_seed (d : Dialect) (now : Int) (seeds : List Seed)
    (positive : ∀ s ∈ seeds, 0 < s.amount) :
    D.Ensures (D.seed d now seeds) t (Sown t seeds) := by
  induction seeds generalizing t with
  | nil => exact D.ensures_pure _ rfl
  | cons s rest ih =>
      have amount := positive s List.mem_cons_self
      refine D.ensures_bind ((D.ensures_create d now s (by omega)).mono ?_)
      intro reply t' created
      have goesOn : t' = t.sow s → D.Ensures (D.seed d now rest) t' (Sown t (s :: rest)) := by
        rintro rfl
        refine (ih fun other member => positive other (List.mem_cons_of_mem s member)).mono ?_
        intro result last sown
        cases result with
        | ok _ => exact sown
        | error e =>
            obtain ⟨fault, done, front, tables⟩ := sown
            exact ⟨fault, s :: done, List.cons_prefix_cons.mpr ⟨rfl, front⟩, tables⟩
      unfold Created at created
      split at created
      · exact goesOn created
      · exact goesOn created
      · -- The front that was processed is empty, or it is the seed whose row could not be read back.
        obtain ⟨⟨f, rfl⟩, rfl | ⟨-, -, inserted⟩⟩ := created
        · refine D.ensures_pure _ ?_
          exact ⟨⟨f, rfl⟩, [], List.nil_prefix, rfl⟩
        · refine D.ensures_pure _ ?_
          exact ⟨⟨f, rfl⟩, [s], ⟨rest, rfl⟩, inserted⟩

/-- Where seeding fails, the seeds before a certain one have been processed, its own creation
failed, and nothing came after it. -/
theorem seed_error (create : String → Int → StateM σ (Except Error Coupon)) (seeds : List Seed)
    (s s' : σ) (e : Error) (ran : Session.seed create seeds s = (.error e, s')) :
    ∃ before failing after between, seeds = before ++ failing :: after ∧
      Session.seed create before s = (.ok (), between) ∧
      create failing.name failing.amount between = (.error e, s') ∧
      ∀ name, e ≠ .couponExists name := by
  induction seeds generalizing s with
  | nil => cases ran
  | cons seed rest ih =>
      have goesOn (passes : ∀ others, Session.seed create (seed :: others) s =
          Session.seed create others (create seed.name seed.amount s).2) :
          ∃ before failing after between, seed :: rest = before ++ failing :: after ∧
            Session.seed create before s = (.ok (), between) ∧
            create failing.name failing.amount between = (.error e, s') ∧
            ∀ name, e ≠ .couponExists name := by
        obtain ⟨before, failing, after, between, rfl, processed, failed⟩ :=
          ih (create seed.name seed.amount s).2 (by rw [← passes]; exact ran)
        rw [← passes] at processed
        exact ⟨seed :: before, failing, after, between, rfl, processed, failed⟩
      cases made : (create seed.name seed.amount s).1 with
      | ok coupon => exact goesOn fun others => by rw [Session.seed, bind_state, made]
      | error reason =>
          cases reason with
          | couponExists name => exact goesOn fun others => by rw [Session.seed, bind_state, made]
          | _ =>
              rw [Session.seed, bind_state, made] at ran
              cases ran
              exact ⟨[], seed, rest, s, rfl, rfl, Prod.ext made rfl, fun _ same => by cases same⟩

/-- Where a failed seeding stopped: at a seed whose own creation failed, after all that come before
it in the list and before all that come after it. -/
def StopsAt (d : Dialect) (now : Int) (seeds : List Seed) (s : σ) (e : Error) (s' : σ)
    (failing : Seed) (between : σ) : Prop :=
  ∃ before after, seeds = before ++ failing :: after ∧
    D.seed d now before s = (.ok (), between) ∧
    (D.tables s).Seeded before (D.tables between) ∧
    D.create d now failing.name failing.amount between = (.error e, s')

/-- Seeding fails with a fault of the datastore only, and of the seed that failed nothing is left:
exactly the seeds before it have been processed. -/
def StopsClean (d : Dialect) (now : Int) (seeds : List Seed) : Prop :=
  ∀ s s' e, D.seed d now seeds s = (.error e, s') →
    ∃ f failing between, e = .database f ∧ D.StopsAt d now seeds s e s' failing between ∧
      D.tables s' = D.tables between

/-- What seeding a list comes to on a datastore. -/
structure Seeds (d : Dialect) (now : Int) (seeds : List Seed) : Prop where
  /-- All seeds have been processed, and to process them again changes nothing. -/
  success : ∀ s s', D.seed d now seeds s = (.ok (), s') →
    (D.tables s).Seeded seeds (D.tables s') ∧
      ∀ again result last, D.tables again = D.tables s' →
        D.seed d now seeds again = (result, last) → D.tables last = D.tables s'
  /-- Only the datastore can fail, and what comes after the failing seed is not processed.  Of that
  seed itself nothing is left, unless it was missing and inserted, and its row could not be read
  back. -/
  failure : ∀ s s' e, D.seed d now seeds s = (.error e, s') →
    ∃ f failing between, e = .database f ∧ D.StopsAt d now seeds s e s' failing between ∧
      (D.tables s' = D.tables between ∨
        d.returnsInserted = false ∧ (D.tables between).coupon? failing.name = none ∧
          (D.tables between).Seeded [failing] (D.tables s'))

variable {D} in
/-- Where an insert returns its row, there is nothing to read back. -/
theorem Seeds.stopsClean {d : Dialect} {now : Int} {seeds : List Seed} (sown : D.Seeds d now seeds)
    (returned : d.returnsInserted = true) : D.StopsClean d now seeds := by
  intro s s' e ran
  obtain ⟨f, failing, between, database, stops, kept | ⟨unreturned, -⟩⟩ := sown.failure s s' e ran
  · exact ⟨f, failing, between, database, stops, kept⟩
  · rw [returned] at unreturned
    cases unreturned

/-- The row of a seed stays where the pool has no connection left when the row is to be read back:
the failure takes nothing back. -/
theorem not_stopsClean_unread :
    ¬ FaultyPool.datastore.StopsClean .sqlite 0 [⟨"NEW", 2⟩] := by
  intro clean
  let start : FaultyPool := ⟨{ committed := {} }, [none, some ⟨.poolTimedOut, by decide⟩], []⟩
  let ran := FaultyPool.datastore.seed .sqlite 0 [⟨"NEW", 2⟩] start
  have failed : ran.1 = .error (.database .poolTimedOut) := by decide +kernel
  have left : ran.2.pool.committed.coupons = [.fresh "NEW" 2] := by decide +kernel
  obtain ⟨-, failing, between, -, ⟨before, after, same, processed, -⟩, kept⟩ :=
    clean start ran.2 _ (Prod.ext failed rfl)
  obtain ⟨rfl, -⟩ : before = [] ∧ [] = after := by
    cases before with
    | nil => exact ⟨rfl, (List.cons.inj same).2⟩
    | cons first rest => cases rest <;> cases same
  cases processed
  have nothing : ran.2.pool.committed.coupons = [] := congrArg Tables.coupons kept
  rw [left] at nothing
  cases nothing

theorem seeds_of_positive (d : Dialect) (now : Int) (seeds : List Seed)
    (positive : ∀ s ∈ seeds, 0 < s.amount) : D.Seeds d now seeds where
  success := by
    intro s s' ran
    obtain ⟨sown, -⟩ := D.ensures_seed d now seeds positive s rfl
    rw [ran] at sown
    change D.tables s' = (D.tables s).seeded seeds at sown
    have known := (D.tables s).known_seeded seeds
    rw [← sown] at known
    refine ⟨by rw [sown]; exact (D.tables s).seeded_spec seeds, ?_⟩
    intro again result last same ranAgain
    obtain ⟨sownAgain, -⟩ := D.ensures_seed d now seeds positive again rfl
    rw [ranAgain, same] at sownAgain
    cases result with
    | ok _ => exact sownAgain.trans (Tables.seeded_known known)
    | error e =>
        obtain ⟨-, done, front, halted⟩ := sownAgain
        exact halted.trans (Tables.seeded_known fun s member => known s (front.mem member))
  failure := by
    intro s s' e ran
    obtain ⟨before, failing, after, between, rfl, processed, failed, new⟩ :=
      seed_error _ seeds s s' e ran
    obtain ⟨sown, -⟩ := D.ensures_seed d now before
      (fun s member => positive s (by simp [member])) s rfl
    change D.seed d now before s = _ at processed
    rw [processed] at sown
    change D.tables between = (D.tables s).seeded before at sown
    have amount := positive failing (by simp)
    obtain ⟨created, -⟩ := D.ensures_create d now failing (by omega) between rfl
    rw [failed] at created
    obtain ⟨⟨f, rfl⟩, tables⟩ := created.of_error new
    refine ⟨f, failing, between, rfl, ⟨before, after, rfl, processed, ?_, failed⟩, ?_⟩
    · rw [sown]
      exact (D.tables s).seeded_spec before
    · rcases tables with kept | ⟨unreturned, missing, inserted⟩
      · exact Or.inl kept
      · refine Or.inr ⟨unreturned, missing, ?_⟩
        rw [inserted]
        exact (D.tables between).seeded_spec [failing]

end Datastore

theorem Pool.Idle.seed {p : Pool} (idle : p.Idle) (now : Int) (seeds : List Seed)
    (positive : ∀ s ∈ seeds, 0 < s.amount) :
    (Pool.datastore.seed .sqlite now seeds p).1 = .ok () := by
  induction seeds generalizing p with
  | nil => rfl
  | cons s rest ih =>
      have amount := positive s List.mem_cons_self
      have later : ∀ other ∈ rest, 0 < other.amount := fun other member =>
        positive other (List.mem_cons_of_mem s member)
      change (Session.seed (Catalog.create (Records.createCoupon .sqlite (Pool.send none) now))
        (s :: rest) p).1 = _
      rw [Session.seed, bind_state, Records.create_createCoupon, Records.createCoupon_idle idle,
        if_neg (by omega)]
      split_ifs
      · exact ih idle later
      · exact ih (idle.commits _) later

end CouponDesk.Relational
