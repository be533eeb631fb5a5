import CouponDesk.Proofs.Relational.Spared
import CouponDesk.Proofs.Session.Seeding
import CouponDesk.Proofs.Settings.Loading
import CouponDesk.Visits
import Mathlib.Data.List.Induction

/-!
# Restarts

A run seeds before it does anything else, and what it does then inserts no coupon.  So a coupon has
the total of its first creation, by whichever run it was made and whatever later runs list, and all
the details that a run prints of its own are there.
-/

set_option autoImplicit false

namespace CouponDesk

open Relational

/-! ## One session -/

namespace Relational

/-- What a session with seeds leaves of tables: nothing is taken back, and a coupon that appears is
one of the seeds, with the amount that is listed first. -/
structure Tables.Visited (t : Tables) (seeds : List Seed) (t' : Tables) : Prop where
  grows : t.Grows t'
  created : ∀ name row, t.coupon? name = none → t'.coupon? name = some row →
    ∃ seed, seeds.find? (·.name = name) = some seed ∧ row.total = seed.amount

theorem Tables.grows_of_sameRows {t t' : Tables} (same : Datastore.SameRows t t') : t.Grows t' where
  rows := by
    intro name row found
    refine ⟨row, ?_, rfl, Int.le_refl _⟩
    unfold coupon? at found ⊢
    rwa [same.coupons]
  claims := ⟨[], by rw [List.append_nil, same.claims]⟩

/-- Definitions first, then seeds from the front of the list, then what inserts no coupon. -/
theorem Tables.visited_of_phases {t defined last : Tables} {seeds done : List Seed}
    (same : Datastore.SameRows t defined) (front : done <+: seeds)
    (stays : (defined.seeded done).Stays last) : t.Visited seeds last where
  grows := (grows_of_sameRows same).trans ((defined.grows_seeded done).trans stays.grows)
  created := by
    intro name row missing found
    have unknown : defined.coupon? name = none := by
      unfold coupon? at missing ⊢
      rwa [same.coupons]
    have sown := defined.coupon?_seeded done name
    rw [unknown, Option.none_or] at sown
    cases first : done.find? (·.name = name) with
    | none =>
        -- A name that no processed seed has stays unknown to the end.
        rw [first] at sown
        rw [stays.unknown name sown] at found
        cases found
    | some seed =>
        rw [first] at sown
        obtain ⟨now, reached, total, -⟩ := stays.grows.rows name _ sown
        rw [found] at reached
        cases reached
        obtain ⟨rest, rfl⟩ := front
        exact ⟨seed, by rw [List.find?_append, first, Option.some_or], total⟩

theorem Tables.stays_refl (t : Tables) : t.Stays t := ⟨.refl t, fun _ missing => missing⟩

namespace Datastore

variable {σ α β : Type} (D : Datastore σ) {t : Tables}

/-- What a computation comes to that may also open transactions, from any state with these tables in
which none has written yet. -/
def Concludes (x : StateM σ α) (t : Tables) (post : α → Tables → Prop) : Prop :=
  ∀ s, D.tables s = t → D.calm s → post (x s).1 (D.tables (x s).2)

variable {D} in
theorem Ensures.concludes {x : StateM σ α} {post : α → Tables → Prop}
    (ensures : D.Ensures x t post) : D.Concludes x t post :=
  fun s same _ => (ensures s same).1

theorem concludes_bind {x : StateM σ α} {next : α → StateM σ β} {post : β → Tables → Prop}
    (first : D.Ensures x t fun value t' => D.Concludes (next value) t' post) :
    D.Concludes (x >>= next) t post := by
  intro s same calm
  obtain ⟨further, kept⟩ := first s same
  exact further (x s).2 rfl (kept calm)

theorem ensures_printAll (seeds : List Seed) (known : ∀ s ∈ seeds, (t.coupon? s.name).isSome) :
    D.Ensures (Session.printAll (Records.details D.send) seeds) t fun output t' =>
      t' = t ∧ Answers (fun _ => True) output.2 := by
  induction seeds with
  | nil => exact D.ensures_pure _ ⟨rfl, trivial⟩
  | cons s rest ih =>
      refine D.ensures_bind ((D.ensures_details s.name).mono ?_)
      rintro reply t' ⟨rfl, answers⟩
      have given := answers (known s List.mem_cons_self)
      cases reply with
      | error e => exact D.ensures_pure _ ⟨rfl, given⟩
      | ok details =>
          have later := ih fun other member => known other (List.mem_cons_of_mem s member)
          refine D.ensures_bind (later.mono ?_)
          rintro ⟨printed, result⟩ t' ⟨rfl, answered⟩
          exact D.ensures_pure _ ⟨rfl, answered⟩

/-! ## The whole session -/

/-- An output without an error, or with one of the datastore. -/
def Reports (output : Output) : Prop :=
  output.reported = "" ∨ output.reported = "Error: Database"

theorem reports_of (printed : String) (result : Except Error Unit)
    (answers : Answers (fun _ => True) result) : Reports (.of printed result) := by
  cases result with
  | ok _ => exact Or.inl rfl
  | error e =>
      obtain ⟨f, rfl⟩ := answers
      exact Or.inr rfl

/-- Whatever a session comes to: what it leaves of the tables, and what it reports when it was asked
for nothing. -/
def Ended (t : Tables) (seeds : List Seed) (args : List String) (output : Output) (t' : Tables) :
    Prop :=
  t.Visited seeds t' ∧ (args = [] → Reports output)

variable {claim : String → String → StateM σ (Except Error Claim)}

/-- After the seeds a command changes nothing or claims. -/
theorem concludes_command
    (stays : ∀ user coupon s, D.calm s →
      (D.tables s).Stays (D.tables (claim user coupon s).2))
    (seeds : List Seed) (known : ∀ s ∈ seeds, (t.coupon? s.name).isSome) (command : Command) :
    D.Concludes (Session.carryOut claim (Records.details D.send) seeds command) t fun output t' =>
      t.Stays t' ∧ (command = .overview → Answers (fun _ => True) output.2) := by
  cases command with
  | claim coupon user =>
      rintro s rfl calm
      exact ⟨stays user coupon s calm, fun other => by cases other⟩
  | details coupon =>
      refine Ensures.concludes (D.ensures_bind ((D.ensures_details coupon).mono ?_))
      rintro reply t' ⟨rfl, -⟩
      cases reply <;> exact D.ensures_pure _ ⟨t'.stays_refl, fun other => by cases other⟩
  | overview =>
      refine Ensures.concludes ((D.ensures_printAll seeds known).mono ?_)
      rintro output t' ⟨rfl, answers⟩
      exact ⟨t'.stays_refl, fun _ => answers⟩

theorem concludes_output {start : Tables} {seeds : List Seed} {args : List String}
    (visited : start.Visited seeds t) (result : Except Error Unit)
    (answers : args = [] → Answers (fun _ => True) result) :
    D.Concludes (pure (.of "" result)) t (Ended start seeds args) :=
  Ensures.concludes (D.ensures_pure _
    ⟨visited, fun unasked => reports_of "" result (answers unasked)⟩)

theorem concludes_session
    (stays : ∀ user coupon s, D.calm s →
      (D.tables s).Stays (D.tables (claim user coupon s).2))
    (s : Settings) (valid : s.fault? = none) (args : List String) :
    D.Concludes (sessionOn D.send claim s args) t (Ended t s.coupons args) := by
  have positive := s.positive_of_valid valid
  refine D.concludes_bind ((D.ensures_defineAll _).mono ?_)
  rintro reply defined ⟨same, answers⟩
  cases reply with
  | error e =>
      -- The definitions did not get through, so no seed was processed.
      have visited := Tables.visited_of_phases same s.coupons.nil_prefix defined.stays_refl
      exact D.concludes_output visited (.error e) fun _ => answers
  | ok _ =>
      refine D.concludes_bind ((D.ensures_seed .sqlite Run.now s.coupons positive).mono ?_)
      intro reply t' sown
      cases reply with
      | error e =>
          obtain ⟨fault, done, front, rfl⟩ := sown
          have visited := Tables.visited_of_phases same front (Tables.stays_refl _)
          exact D.concludes_output visited (.error e) fun _ => fault
      | ok _ =>
          obtain rfl := sown
          cases asked : Command.ofArgs? args with
          | none =>
              have visited := Tables.visited_of_phases same s.coupons.prefix_rfl
                (defined.seeded s.coupons).stays_refl
              refine D.concludes_output visited _ fun unasked => ?_
              rw [unasked] at asked
              cases asked
          | some command =>
              have known := defined.known_seeded s.coupons
              intro st tables calm
              obtain ⟨staying, answers⟩ :=
                D.concludes_command stays s.coupons known command st tables calm
              refine ⟨Tables.visited_of_phases same s.coupons.prefix_rfl staying, ?_⟩
              rintro rfl
              cases asked
              exact reports_of _ _ (answers rfl)

end Datastore

end Relational

namespace Visit

/-! ## One visit after another -/

theorem run_ended (v : Visit) (t : Tables) :
    Datastore.Ended t v.settings.coupons v.args (v.run t).1 (v.run t).2 := by
  unfold run
  split
  · have session := Pool.datastore.concludes_session
      (fun user coupon p free => Pool.Spares.stays
        (Pool.respects_claim (fun who q spares p => p.spares_send who q spares) Run.now user coupon
          v.settings.claims.timeout v.settings.claims.maxAttempts p) free)
      v.settings v.valid v.args (t := t)
    exact session (v.pool t) rfl rfl
  · rename_i faults cuts _
    have session := FaultyPool.datastore.concludes_session
      (fun user coupon s free => Pool.Spares.stays (FaultyPool.respects_claim Run.now user coupon
        v.settings.claims.timeout v.settings.claims.maxAttempts s) free)
      v.settings v.valid v.args (t := t)
    exact session ⟨v.pool t, faults, cuts⟩ rfl rfl

theorem runAll_append (before after : List Visit) (t : Tables) :
    runAll (before ++ after) t = runAll after (runAll before t) :=
  List.foldl_append

theorem runAll_grows (visits : List Visit) (t : Tables) : t.Grows (runAll visits t) := by
  induction visits generalizing t with
  | nil => exact .refl t
  | cons v rest ih => exact (v.run_ended t).1.grows.trans (ih (v.run t).2)

/-- Where a coupon that exists after visits has its total from: it existed before them, or one of
them created it, which lists that amount first. -/
def Origin (start : Tables) (visits : List Visit) (name : String) (total : Int) : Prop :=
  (∃ row, start.coupon? name = some row ∧ row.total = total) ∨
    ∃ before v after seed, visits = before ++ v :: after ∧
      (runAll before start).coupon? name = none ∧
      ((runAll (before ++ [v]) start).coupon? name).isSome ∧
      v.settings.coupons.find? (·.name = name) = some seed ∧ seed.amount = total

theorem Origin.append {start : Tables} {visits : List Visit} {name : String} {total : Int}
    (origin : Origin start visits name total) (later : List Visit) :
    Origin start (visits ++ later) name total := by
  rcases origin with old | ⟨before, v, after, seed, rfl, created⟩
  · exact Or.inl old
  · exact Or.inr ⟨before, v, after ++ later, seed, by simp, created⟩

theorem origin_of_found (start : Tables) (visits : List Visit) (name : String) (row : Coupon)
    (found : (runAll visits start).coupon? name = some row) :
    Origin start visits name row.total := by
  -- From the last visit backwards: it either created the row or found it with the same total.
  induction visits using List.reverseRecOn generalizing row with
  | nil => exact Or.inl ⟨row, found, rfl⟩
  | append_singleton earlier v ih =>
      have visited := (v.run_ended (runAll earlier start)).1
      have last : runAll (earlier ++ [v]) start = (v.run (runAll earlier start)).2 :=
        runAll_append earlier [v] start
      rw [last] at found
      cases known : (runAll earlier start).coupon? name with
      | some old =>
          obtain ⟨now, reached, total, -⟩ := visited.grows.rows name old known
          rw [found] at reached
          cases reached
          rw [total]
          exact (ih old known).append [v]
      | none =>
          obtain ⟨seed, listed, amount⟩ := visited.created name row known found
          exact Or.inr ⟨earlier, v, [], seed, rfl, known, by rw [last, found]; rfl, listed,
            amount.symm⟩

/-- What any sequence of visits leaves of a database. -/
structure Kept (start : Tables) (visits : List Visit) : Prop where
  /-- Between any two moments no total changes, no stock goes up and no claim disappears. -/
  grows : ∀ before between after, visits = before ++ between ++ after →
    (runAll before start).Grows (runAll (before ++ between) start)
  origin : ∀ name row, (runAll visits start).coupon? name = some row →
    Origin start visits name row.total
  /-- A visit without arguments finds all that it prints. -/
  overview : ∀ before v after, visits = before ++ v :: after → v.args = [] →
    Datastore.Reports (v.run (runAll before start)).1

theorem runAll_kept (start : Tables) (visits : List Visit) : Kept start visits where
  grows := by
    intro before between after _
    rw [runAll_append]
    exact runAll_grows between _
  origin := origin_of_found start visits
  overview := by
    intro before v after _ unasked
    exact (v.run_ended (runAll before start)).2 unasked

end Visit

end CouponDesk
