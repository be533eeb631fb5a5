import CouponDesk.Proofs.Session.Databases
import CouponDesk.Proofs.Session.Restarts
import CouponDesk.Proofs.Settings.Overrides
import Mathlib.Data.List.Chain

/-!
# Launches

Runs of the program on files, one after another.  Where nobody else touches the database, they are
visits to its tables one after another.
-/

set_option autoImplicit false

namespace CouponDesk

open Relational

namespace Relational

/-! ## What a session keeps -/

section Respects

variable {σ : Type} {related : σ → σ → Prop} [IsPreorder σ related]
  {send : (q : Statement) → StateM σ q.Reply}
  {claim : String → String → StateM σ (Except Error Claim)}

theorem respects_defineAll (each : ∀ q, Respects related (send q)) (objects : List SchemaObject) :
    Respects related (Records.defineAll send objects) := by
  induction objects with
  | nil => exact respects_pure _
  | cons object rest ih =>
      refine (each (.define object)).bind fun reply => ?_
      cases reply with
      | ok _ => exact ih
      | error f => exact respects_pure _

theorem respects_create (each : ∀ q, Respects related (send q)) (d : Dialect) (now : Int)
    (name : String) (amount : Int) :
    Respects related (Catalog.create (Records.createCoupon d send now) name amount) := by
  have added (row : Coupon) : Respects related (Records.addCoupon d send row now) := by
    unfold Records.addCoupon
    split
    · refine (each _).bind fun reply => ?_
      split <;> exact respects_pure _
    · refine (each _).bind fun reply => ?_
      split
      · exact respects_pure _
      · split
        · exact respects_pure _
        · refine (each _).bind fun reply => ?_
          split <;> exact respects_pure _
  unfold Catalog.create
  split
  · exact respects_pure _
  · rename_i positive
    unfold Records.createCoupon
    rw [if_neg positive]
    refine (added _).bind fun reply => ?_
    split <;> exact respects_pure _

theorem respects_seed (each : ∀ q, Respects related (send q)) (d : Dialect) (now : Int)
    (seeds : List Seed) :
    Respects related
      (Session.seed (Catalog.create (Records.createCoupon d send now)) seeds) := by
  induction seeds with
  | nil => exact respects_pure _
  | cons s rest ih =>
      refine (respects_create each d now s.name s.amount).bind fun reply => ?_
      split
      · exact ih
      · exact ih
      · exact respects_pure _

theorem respects_details (each : ∀ q, Respects related (send q)) (name : String) :
    Respects related (Records.details send name) := by
  have row : Respects related (Records.get send name) := by
    refine Respects.bind ((each _).bind fun reply => ?_) fun _ => respects_pure _
    split <;> exact respects_pure _
  refine row.bind fun reply => ?_
  split
  · exact respects_pure _
  · have listed : Respects related (Records.claimants send name) := by
      refine (each _).bind fun reply => ?_
      split <;> exact respects_pure _
    refine listed.bind fun reply => ?_
    split <;> exact respects_pure _

theorem respects_printAll (each : ∀ q, Respects related (send q)) (seeds : List Seed) :
    Respects related (Session.printAll (Records.details send) seeds) := by
  induction seeds with
  | nil => exact respects_pure _
  | cons s rest ih =>
      refine (respects_details each s.name).bind fun reply => ?_
      split
      · exact ih.bind fun _ => respects_pure _
      · exact respects_pure _

/-- A session keeps what each of its statements and each claim keep. -/
theorem respects_session (each : ∀ q, Respects related (send q))
    (claims : ∀ user coupon, Respects related (claim user coupon)) (s : Settings)
    (args : List String) : Respects related (sessionOn send claim s args) := by
  refine (respects_defineAll each _).bind fun reply => ?_
  split
  · exact respects_pure _
  · refine (respects_seed each .sqlite Run.now s.coupons).bind fun reply => ?_
    split
    · exact respects_pure _
    · split
      · exact respects_pure _
      · rename_i command _
        refine Respects.bind ?_ fun _ => respects_pure _
        cases command with
        | claim coupon user => exact (claims user coupon).bind fun _ => respects_pure _
        | details coupon =>
            refine (respects_details each coupon).bind fun reply => ?_
            split <;> exact respects_pure _
        | overview => exact respects_printAll each s.coupons

end Respects

/-! ## Databases that may only be read -/

namespace Pool

/-- Nothing changes in a pool that may only be read and in which nobody has written. -/
def Sealed (p p' : Pool) : Prop :=
  p.readOnly = true → p.writer = none →
    p'.readOnly = true ∧ p'.writer = none ∧ p'.committed = p.committed

instance : IsPreorder Pool Sealed where
  refl _ readOnly free := ⟨readOnly, free, rfl⟩
  trans _ _ _ first second readOnly free := by
    obtain ⟨readOnly, free, same⟩ := first readOnly free
    obtain ⟨readOnly, free, same'⟩ := second readOnly free
    exact ⟨readOnly, free, same'.trans same⟩

theorem sealed_send (p : Pool) (who : Option Nat) (q : Statement) :
    p.Sealed (p.send who q).2 := by
  intro readOnly free
  have unwritten (c : Nat) : (p.dropTxn c).writer = none := by
    rw [dropTxn, free]
    rfl
  have sent := p.send_sent who q
  generalize (p.send who q).2 = p' at sent
  cases sent with
  | kept _ committed writer same => exact ⟨same.trans readOnly, writer.trans free, committed⟩
  | dropped c => exact ⟨readOnly, unwritten c, rfl⟩
  | commits c =>
      have unseen : p.seen (some c) = p.committed := by rw [seen, free]
      exact ⟨readOnly, unwritten c, unseen⟩
  | wrote writable =>
      rw [readOnly] at writable
      cases writable

end Pool

end Relational

theorem Visit.run_readOnly (v : Visit) (t : Tables) (plain : v.course = .plain)
    (readOnly : v.readOnly = true) : (v.run t).2 = t := by
  have each (who : Option Nat) (q : Statement) : Respects Pool.Sealed (Pool.send who q) :=
    fun p => p.sealed_send who q
  have kept := respects_session (each none)
    (fun user coupon => Pool.respects_claim (fun who q _ => each who q) Run.now user coupon
      v.settings.claims.timeout v.settings.claims.maxAttempts) v.settings v.args (v.pool t)
  rw [Visit.run, plain]
  exact (kept readOnly rfl).2.2

/-! ## One launch -/

structure Launch where
  files : Files
  env : Environment
  args : List String

namespace Launch

variable {l next : Launch} {v : Visit} {opened : Files} {address : Address} {t : Tables}
  {place : List String}

def output (l : Launch) : Output := (CouponDesk.run l.files l.env l.args).1

def left (l : Launch) : Files := (CouponDesk.run l.files l.env l.args).2

/-- What is found at an address: the tables in a file, and none yet in memory. -/
def Finds (files : Files) (address : Address) (t : Tables) : Prop :=
  match address.place with
  | .memory => t = {}
  | .file path => Run.openTables files path address.access = .ok t

/-- A launch finds tables at an address, visits them, and keeps there what that leaves. -/
structure ComesTo (l : Launch) (v : Visit) (opened : Files) (address : Address) (t : Tables) :
    Prop where
  args : v.args = l.args
  course : v.course = .plain
  settings : Settings.loadAll l.files (Run.environment l.files l.env) = .ok v.settings
  folder : Run.makeFolder l.files v.settings.database.url = .ok opened
  named : Address.ofUrl? v.settings.database.url = some address
  readOnly : v.readOnly = address.isReadOnly
  found : Finds opened address t
  output : l.output = (v.run t).1
  left : l.left = Run.keep opened address (v.run t).2

/-- A launch stops before it has a database, for its settings or for the datastore.  It may have made
folders by then. -/
def Stops (l : Launch) : Prop :=
  ((∃ fault, l.output = .of "" (.error (.config fault))) ∨
      ∃ fault, l.output = .of "" (.error (.database fault))) ∧
    (l.left = l.files ∨ ∃ url, Run.makeFolder l.files url = .ok l.left)

theorem connect_ok (files : Files) (s : DatabaseSettings) (address : Address) (pool : Pool)
    (connected : Run.connect files s = .ok (address, pool)) :
    Address.ofUrl? s.url = some address ∧
      ∃ t, pool = { committed := t, size := Run.poolSize s, readOnly := address.isReadOnly } ∧
        Finds files address t := by
  unfold Run.connect at connected
  split at connected
  · rename_i found named
    unfold Finds
    cases place : found.place with
    | memory =>
        simp only [place] at connected
        split_ifs at connected
        · cases connected
        · cases connected
          exact ⟨named, {}, rfl, by rw [place]⟩
    | file path =>
        simp only [place] at connected
        cases opened : Run.openTables files path found.access with
        | error f => simp only [opened] at connected; cases connected
        | ok t =>
            simp only [opened] at connected
            split_ifs at connected
            · cases connected
            · cases connected
              exact ⟨named, t, rfl, by rw [place]; exact opened⟩
  · cases connected

theorem config_of_makeFolder {files : Files} {url : String} {e : Error}
    (failed : Run.makeFolder files url = .error e) : ∃ fault, e = .config fault := by
  unfold Run.makeFolder at failed
  split at failed
  · cases failed
  · split at failed
    · cases failed
    · cases failed
      exact ⟨_, rfl⟩

theorem stops_or_comesTo (l : Launch) :
    l.Stops ∨ ∃ v opened address t, l.ComesTo v opened address t := by
  cases loaded : Settings.loadAll l.files (Run.environment l.files l.env) with
  | error e =>
      have ran : CouponDesk.run l.files l.env l.args = (.of "" (.error e), l.files) := by
        simp only [CouponDesk.run, loaded]
      obtain ⟨fault, rfl⟩ := Settings.config_of_loadAll _ _ loaded
      exact Or.inl ⟨Or.inl ⟨fault, congrArg Prod.fst ran⟩, Or.inl (congrArg Prod.snd ran)⟩
  | ok s =>
      have valid := Settings.valid_of_loadAll l.files _ s loaded
      cases opened : Run.makeFolder l.files s.database.url with
      | error e =>
          have ran : CouponDesk.run l.files l.env l.args = (.of "" (.error e), l.files) := by
            simp only [CouponDesk.run, loaded, opened]
          obtain ⟨fault, rfl⟩ := config_of_makeFolder opened
          exact Or.inl ⟨Or.inl ⟨fault, congrArg Prod.fst ran⟩, Or.inl (congrArg Prod.snd ran)⟩
      | ok files =>
          cases connected : Run.connect files s.database with
          | error f =>
              have ran : CouponDesk.run l.files l.env l.args =
                  (.of "" (.error (.database f)), files) := by
                simp only [CouponDesk.run, loaded, opened, connected]
              refine Or.inl ⟨Or.inr ⟨f, congrArg Prod.fst ran⟩, Or.inr ⟨s.database.url, ?_⟩⟩
              rw [left, ran, opened]
          | ok pair =>
              obtain ⟨address, pool⟩ := pair
              obtain ⟨named, t, rfl, found⟩ := connect_ok files s.database address pool connected
              let v : Visit :=
                ⟨s, valid, l.args, Run.poolSize s.database, address.isReadOnly, .plain⟩
              have ran : CouponDesk.run l.files l.env l.args =
                  ((v.run t).1, Run.keep files address (v.run t).2) := by
                simp only [CouponDesk.run, loaded, opened, connected]
                rfl
              exact Or.inr ⟨v, files, address, t, rfl, rfl, loaded, opened, named, rfl, found,
                congrArg Prod.fst ran, congrArg Prod.snd ran⟩

/-- A launch without arguments finds all coupons that it lists. -/
theorem reports_of_unasked (l : Launch) (unasked : l.args = []) :
    (∃ fault, l.output = .of "" (.error (.config fault))) ∨ Datastore.Reports l.output := by
  rcases l.stops_or_comesTo with ⟨config | ⟨fault, output⟩, -⟩ | ⟨v, opened, address, t, comes⟩
  · exact Or.inl config
  · rw [output]
    exact Or.inr (Or.inr rfl)
  · rw [comes.output]
    exact Or.inr ((v.run_ended t).2 (comes.args.trans unasked))

/-! ## Launches on one database -/

/-- The only database that a launch may open is the one at a place. -/
def Uses (l : Launch) (place : List String) : Prop :=
  ∀ v opened address t, l.ComesTo v opened address t →
    ∃ path, address.place = .file path ∧ opened.locate path = .ok place

/-- A launch is a visit to the tables at a place, and leaves there what the visit leaves. -/
structure IsVisit (l : Launch) (place : List String) (v : Visit) : Prop where
  args : v.args = l.args
  course : v.course = .plain
  settings : Settings.loadAll l.files (Run.environment l.files l.env) = .ok v.settings
  output : l.output = (v.run (Run.tablesAt l.files place)).1
  left : Run.tablesAt l.left place = (v.run (Run.tablesAt l.files place)).2

theorem uses_of_url (url path : String)
    (loaded : (Settings.loadAll l.files (Run.environment l.files l.env)).map (·.database.url) =
      .ok url)
    (stored : (Address.ofUrl? url).map (·.place) = some (.file path))
    (located : (Run.makeFolder l.files url).map (·.locate path) = .ok (.ok place)) :
    l.Uses place := by
  intro v opened address t comes
  rw [comes.settings] at loaded
  obtain rfl := Except.ok.inj loaded
  rw [comes.named] at stored
  rw [comes.folder] at located
  exact ⟨path, Option.some.inj stored, Except.ok.inj located⟩

theorem Stops.tablesAt (stops : l.Stops) (place : List String) :
    Run.tablesAt l.left place = Run.tablesAt l.files place := by
  obtain ⟨-, same | ⟨url, made⟩⟩ := stops
  · rw [same]
  · exact Run.tablesAt_makeFolder made

theorem ComesTo.isVisit (comes : l.ComesTo v opened address t) (uses : l.Uses place) :
    l.IsVisit place v := by
  obtain ⟨path, stored, located⟩ := uses v opened address t comes
  have read := comes.found
  rw [Finds, stored] at read
  have found : t = Run.tablesAt l.files place :=
    (Run.openTables_eq_ok located read).1.trans (Run.tablesAt_makeFolder comes.folder)
  subst found
  refine ⟨comes.args, comes.course, comes.settings, comes.output, ?_⟩
  rw [comes.left]
  by_cases mode : address.access = .readOnly
  · -- Nothing is kept, and nothing has changed.
    have readOnly : v.readOnly = true := by simp [comes.readOnly, Address.isReadOnly, mode]
    rw [v.run_readOnly _ comes.course readOnly, Run.keep, stored]
    simpa only [mode, if_true] using Run.tablesAt_makeFolder comes.folder
  · exact (Run.tablesAt_keep read located stored mode _).1

/-- Launches on the database at a place, one after another.  What happens to the files in between
leaves that database alone. -/
structure Successive (place : List String) (launches : List Launch) : Prop where
  uses : ∀ l ∈ launches, l.Uses place
  between : launches.IsChain fun l next =>
    Run.tablesAt next.files place = Run.tablesAt l.left place

/-- The visits among launches that follow each other from certain tables at a place. -/
inductive Follows (place : List String) : Tables → List Launch → List Visit → Prop
  | none (t : Tables) : Follows place t [] []
  | stopped {t : Tables} {l : Launch} {rest : List Launch} {visits : List Visit}
      (found : Run.tablesAt l.files place = t) (stops : l.Stops)
      (later : Follows place t rest visits) : Follows place t (l :: rest) visits
  | visited {t : Tables} {l : Launch} {v : Visit} {rest : List Launch} {visits : List Visit}
      (found : Run.tablesAt l.files place = t) (visit : l.IsVisit place v)
      (later : Follows place (v.run t).2 rest visits) : Follows place t (l :: rest) (v :: visits)

/-- The last of the launches leaves the tables that all visits leave. -/
theorem Follows.tablesAt {launches : List Launch} {visits : List Visit}
    (follows : Follows place t launches visits) :
    ∀ l ∈ launches.getLast?, Run.tablesAt l.left place = Visit.runAll visits t := by
  induction follows with
  | none t => exact nofun
  | @stopped t l rest visits found stops later ih =>
      cases rest with
      | nil =>
          cases later
          rintro _ ⟨⟩
          exact (stops.tablesAt place).trans found
      | cons next rest =>
          rw [List.getLast?_cons_cons]
          exact ih
  | @visited t l v rest visits found visit later ih =>
      cases rest with
      | nil =>
          cases later
          rintro _ ⟨⟩
          have left := visit.left
          rw [found] at left
          exact left
      | cons next rest =>
          rw [List.getLast?_cons_cons]
          exact ih

/-- Launches on one database are visits to its tables, one after another. -/
theorem Successive.follows {launches : List Launch} (successive : Successive place launches)
    (start : ∀ l ∈ launches.head?, Run.tablesAt l.files place = t) :
    ∃ visits, Follows place t launches visits := by
  induction launches generalizing t with
  | nil => exact ⟨[], .none t⟩
  | cons l rest ih =>
      have found := start l rfl
      obtain ⟨between, chained⟩ := List.isChain_cons.mp successive.between
      have others : Successive place rest :=
        ⟨fun other member => successive.uses other (List.mem_cons_of_mem l member), chained⟩
      obtain ⟨visits, later⟩ := ih others between
      rcases l.stops_or_comesTo with stops | ⟨v, opened, address, t, comes⟩
      · rw [stops.tablesAt place, found] at later
        exact ⟨visits, .stopped found stops later⟩
      · have visit := comes.isVisit (successive.uses l List.mem_cons_self)
        rw [visit.left, found] at later
        exact ⟨v :: visits, .visited found visit later⟩

end Launch

namespace Visit

/-! ## All together -/

/-- Seeding adds what is missing and touches nothing else, on any datastore, and validated settings
cannot make it fail.  Where the datastore fails, the seeds before have been processed; the failing
one leaves nothing if inserts return their rows.  So whatever launches of the program follow each
other on a database, with whatever settings and arguments: a coupon has the total that it was
created with, its stock never grows, claims stay, and a run without arguments finds all coupons that
it lists. -/
theorem runAll_keepsCoupons {σ : Type} (D : Datastore σ) (d : Dialect) (now : Int)
    (seeds : List Seed) (positive : ∀ s ∈ seeds, 0 < s.amount) (start : Tables)
    (visits : List Visit) :
    D.Seeds d now seeds ∧
    (d.returnsInserted = true → D.StopsClean d now seeds) ∧
    (∀ s : Settings, s.fault? = none → D.Seeds d now s.coupons) ∧
    (∀ p : Pool, p.Idle → (Pool.datastore.seed .sqlite now seeds p).1 = .ok ()) ∧
    Kept start visits ∧
    (∀ l : Launch, l.Stops ∨ ∃ v opened address t, l.ComesTo v opened address t) ∧
    (∀ l : Launch, l.args = [] →
      (∃ fault, l.output = .of "" (.error (.config fault))) ∨ Datastore.Reports l.output) ∧
    ∀ place launches t, Launch.Successive place launches →
      (∀ l ∈ launches.head?, Run.tablesAt l.files place = t) →
        ∃ visits, Launch.Follows place t launches visits ∧
          (∀ l ∈ launches.getLast?, Run.tablesAt l.left place = runAll visits t) ∧
          Kept t visits := by
  have sown := D.seeds_of_positive d now seeds positive
  refine ⟨sown, sown.stopsClean, fun s valid => ?_, fun p idle => idle.seed now seeds positive,
    runAll_kept start visits, Launch.stops_or_comesTo, Launch.reports_of_unasked, ?_⟩
  · exact D.seeds_of_positive d now s.coupons (s.positive_of_valid valid)
  · intro place launches t successive begins
    obtain ⟨visits, follows⟩ := successive.follows begins
    exact ⟨visits, follows, follows.tablesAt, runAll_kept t visits⟩

def offers : List Seed := [⟨"PROMO", 5⟩, ⟨"PROMO", 9⟩, ⟨"SOLO", 1⟩]

/-- A visit without arguments, a claim under settings that list another amount for its coupon, and a
claim whose first attempt is cut off and whose second one fails. -/
def revisits : List Visit :=
  [⟨{ coupons := offers }, by decide, [], 1, false, .plain⟩,
    ⟨{ coupons := [⟨"SOLO", 4⟩, ⟨"LATE", 2⟩] }, by decide, ["claim", "SOLO", "first"], 3, false,
      .plain⟩,
    ⟨{ coupons := offers }, by decide, ["claim", "PROMO", "second"], 3, false,
      .disturbed (List.replicate 12 none ++ [some ⟨.poolTimedOut, by decide⟩]) [some 3]⟩]

/-- A claim where no database is yet. -/
def claiming : Launch where
  files := { root := .folder [("config.toml",
    .file (Text.bytes "[[coupons]]\nname = \"PROMO\"\namount = 2\n"))] }
  env := []
  args := ["claim", "PROMO", "first"]

/-- A launch without arguments on what the claim leaves. -/
def listing : Launch := ⟨claiming.left, [], []⟩

theorem runAll_keepsCoupons_relaunch :
    (∀ s ∈ offers, 0 < s.amount) ∧ FaultyPool.datastore.Seeds .sqlite 0 offers ∧
      Kept {} revisits ∧
      (runAll revisits {}).coupons = [⟨"PROMO", 5, 4⟩, ⟨"SOLO", 1, 0⟩, ⟨"LATE", 2, 2⟩] ∧
      (runAll revisits {}).claims = [⟨1, "first", "SOLO", 0⟩, ⟨2, "second", "PROMO", 0⟩] ∧
      (∃ visits, Launch.Follows ["data", "coupons.sqlite"] {} [claiming, listing] visits ∧
        (∀ l ∈ [claiming, listing].getLast?,
          Run.tablesAt l.left ["data", "coupons.sqlite"] = runAll visits {}) ∧
        Kept {} visits) ∧
      (Run.tablesAt listing.left ["data", "coupons.sqlite"]).coupons = [⟨"PROMO", 2, 1⟩] ∧
      claiming.output = ⟨0, "success\n", ""⟩ ∧ listing.output.exitCode = 0 := by
  have positive : ∀ s ∈ offers, 0 < s.amount := by decide
  obtain ⟨seeds, -, -, -, kept, -, -, launches⟩ :=
    runAll_keepsCoupons FaultyPool.datastore .sqlite 0 offers positive {} revisits
  have first : claiming.Uses ["data", "coupons.sqlite"] :=
    Launch.uses_of_url ({} : DatabaseSettings).url "data/coupons.sqlite" (by decide +kernel)
      (by decide +kernel) (by decide +kernel)
  have second : listing.Uses ["data", "coupons.sqlite"] :=
    Launch.uses_of_url ({} : DatabaseSettings).url "data/coupons.sqlite" (by decide +kernel)
      (by decide +kernel) (by decide +kernel)
  have successive : Launch.Successive ["data", "coupons.sqlite"] [claiming, listing] :=
    ⟨by simp [first, second], .cons_cons rfl (.singleton listing)⟩
  refine ⟨positive, seeds, kept, by decide +kernel, by decide +kernel,
    launches _ _ {} successive ?_, by decide +kernel, by decide +kernel, by decide +kernel⟩
  rintro l ⟨⟩
  rfl

end Visit

end CouponDesk
