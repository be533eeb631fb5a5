import CouponDesk.Proofs.Agreement.Transactions

/-!
# Both stores give the same answers

A script that is carried out on the store in memory and on the store in a database has the same
answers from both, but for the ids of claims; and these are the same too unless a transaction that
inserted a claim was rolled back or dropped.  The tables match the store between the steps, and
while a transaction is open, its tables match the store that its commit would leave behind.
-/

set_option autoImplicit false

namespace CouponDesk.Agreement

open Memory (System Store Txn)
open Relational

/-! ## Between transactions -/

section Between

variable {exact : Prop} {known : List String} {times : List Int} {s : System} {p : Pool}
  {now : Int}

theorem Between.create (between : Between exact known times s p) (name : String)
    (amount now : Int) :
    (Records.createCoupon .sqlite (Pool.send none) now name amount p).1 =
        (s.store.create name amount).1 ∧
      Between exact (if amount ≤ 0 then known else name :: known) times
        { s with store := (s.store.create name amount).2 }
        (Records.createCoupon .sqlite (Pool.send none) now name amount p).2 := by
  have knownAfter : ∀ other ∈ if amount ≤ 0 then known else name :: known,
      ((s.store.create name amount).2.coupon? other).isSome := by
    intro other member
    split at member
    · exact Store.isSome_coupon?_create s.store name amount other (between.known other member)
    · rename_i positive
      rcases List.mem_cons.mp member with rfl | old
      · exact s.store.isSome_coupon?_created other amount positive
      · exact Store.isSome_coupon?_create s.store name amount other (between.known other old)
  rw [Records.createCoupon_idle between.idle, between.same.coupon]
  unfold Store.create at knownAfter ⊢
  by_cases refused : amount ≤ 0
  · simp only [if_pos refused] at knownAfter ⊢
    exact ⟨trivial, between⟩
  · simp only [if_neg refused] at knownAfter ⊢
    cases found : s.store.coupon? name with
    | some row =>
        rw [found] at knownAfter
        exact ⟨rfl, ⟨between.quiet, between.due, between.idle, between.same, between.ready,
          between.ids, knownAfter⟩⟩
    | none =>
        rw [found] at knownAfter
        have free : ¬ (p.committed.coupon? name).isSome = true := by
          rw [between.same.coupon, found]
          simp
        exact ⟨rfl, ⟨⟨between.quiet.line, between.quiet.live⟩, between.due,
          between.idle.commits _, between.same.create (.fresh name amount),
          between.ready.addCoupon name amount refused free, between.ids, knownAfter⟩⟩

theorem Between.claim (between : Between exact known (now :: times) s p) (user name : String)
    (deadline : Duration) (inTime : 0 < deadline.ceilMillis) (attempts : Nat) :
    ∃ a s' b p', s.claim user name deadline (Retry.limit attempts) = (some (a, 0), s') ∧
      Pool.claim now user name deadline attempts p = (b, p') ∧
      Agrees Answer.unnumbered exact (.claim a) (.claim b) ∧ Between exact known times s' p' := by
  have stands : Retry.pause? (Retry.limit attempts) 1 (s.store.verdict user name).1 = none := by
    cases refused : (s.store.verdict user name).1 with
    | ok claim => rfl
    | error e =>
        have final := s.store.verdict_final user name between.due e refused
        simp [Retry.pause?, final]
  obtain ⟨p', claims, idle, committed⟩ := between.idle.claim user name now
    between.ready.sound between.ready.fits deadline inTime attempts
  obtain ⟨same, ids⟩ := between.same.verdict_keeps between.due user name now
  refine ⟨_, _, _, p', s.claim_of_quiet user name deadline _ between.quiet stands, claims, ?_, ?_⟩
  · exact (between.same.verdict_agrees between.due user name now).weaken between.ids
  · refine ⟨between.quiet.verdict user name, s.store.verdict_failing user name between.due, idle,
      committed ▸ same, committed ▸ between.ready.verdict user name, fun holds => ?_, ?_⟩
    · rw [committed]
      exact ids (between.ids holds)
    · intro other member
      exact (s.store.isSome_coupon?_verdict user name other).trans (between.known other member)

end Between

/-! ## Step by step -/

theorem on_transaction {σ : Type} (desk : Desk σ) (settings : ClaimSettings) (ops : List Op)
    (ending : Ending) (s s' : σ) (txn : Nat) (begins : desk.begin s = ((txn, .ok ()), s')) :
    (Step.transaction ops ending).on desk settings s =
      let made := ops.mapM (Op.on desk txn) s'
      let ended := desk.finish txn ending made.2
      (.done (.ok ()) :: made.1 ++ [.done ended.1], ended.2) := by
  simp only [Step.on, bind_state, begins]
  rfl

structure Matched (exact : Prop) (known : List String) (times : List Int)
    (memory : List Answer × System) (database : List Answer × Pool) : Prop where
  answers : Agrees (List.map Answer.unnumbered) exact memory.1 database.1
  between : Between exact known times memory.2 database.2

section Steps

variable {exact : Prop} {known : List String} {times : List Int} {s : System} {p : Pool}
  (patience : Nat) (settings : ClaimSettings)

theorem Between.transaction (ops : List Op) (ending : Ending)
    (between : Between exact known (ops.flatMap Op.times ++ times) s p)
    (allowed : lockedFirst known [] ops = true)
    (keeps : exact → (Step.transaction ops ending).discards
      ((Step.transaction ops ending).on (Desk.memory patience) settings s).1 = false) :
    Matched exact known times
      ((Step.transaction ops ending).on (Desk.memory patience) settings s)
      ((Step.transaction ops ending).on Desk.database settings p) := by
  obtain ⟨s₁, p₁, begins, begun, within, kept, lastId⟩ := between.begin patience
  rw [on_transaction _ settings ops ending s s₁ 0 begins] at keeps ⊢
  rw [on_transaction _ settings ops ending p p₁ _ begun]
  obtain ⟨locked, answers, ⟨writes, w, within'⟩, kept', unnumbered⟩ :=
    within.ops patience ops allowed
  dsimp only at *
  by_cases committed : ending = .commit
  · subst committed
    obtain ⟨memory, database, after⟩ := within'.commit patience
    rw [memory, database]
    exact ⟨(Agrees.refl _).cons (answers.append _), after⟩
  · have ready : Ready (ops.mapM (Op.on Desk.database p.freshTxn) p₁).2.committed times := by
      rw [kept', kept]
      exact between.ready.skip _
    have ids : exact → (ops.mapM (Op.on Desk.database p.freshTxn) p₁).2.committed.lastId =
        (ops.mapM (Op.on (Desk.memory patience) 0) s₁).2.store.lastId := by
      intro holds
      have unclaimed : (ops.mapM (Op.on (Desk.memory patience) 0) s₁).1.any Answer.isClaim =
          false := by
        simpa [Step.discards, committed, Answer.isClaim] using keeps holds
      rw [kept', kept, between.ids holds, unnumbered unclaimed, lastId]
    obtain ⟨memory, database, after⟩ := within'.discard patience ready ids ending committed
    rw [memory, database]
    exact ⟨(Agrees.refl _).cons (answers.append _), after⟩

theorem on_createChecked_memory (name : String) (amount now : Int) :
    (Step.createChecked name amount now).on (Desk.memory patience) settings =
      (Step.create name amount now).on (Desk.memory patience) settings := by
  simp only [Step.on, Desk.memory, Store.createChecked_eq]

theorem on_createChecked_database (name : String) (amount now : Int) :
    (Step.createChecked name amount now).on Desk.database settings =
      (Step.create name amount now).on Desk.database settings := by
  simp only [Step.on, Desk.database, Records.create_createCoupon]

theorem Between.created (between : Between exact known times s p) (name : String)
    (amount now : Int) :
    Matched exact (if amount ≤ 0 then known else name :: known) times
      ((Step.create name amount now).on (Desk.memory patience) settings s)
      ((Step.create name amount now).on Desk.database settings p) := by
  obtain ⟨same, after⟩ := between.create name amount now
  have acts := s.transact_eq (fun store => store.create name amount) (by
    rw [show (s.store.create name amount).2.line = [] from after.quiet.line]
    exact nofun)
  have memory : (Step.create name amount now).on (Desk.memory patience) settings s =
      ([.coupon (s.store.create name amount).1],
        { s with store := (s.store.create name amount).2 }) :=
    map_reply (fun result => [Answer.coupon result]) acts
  have database : (Step.create name amount now).on Desk.database settings p =
      ([.coupon (s.store.create name amount).1],
        (Records.createCoupon .sqlite (Pool.send none) now name amount p).2) := by
    rw [← same]
    rfl
  rw [memory, database]
  exact ⟨.refl _, after⟩

/-- What each step does on one side it does on the other. -/
theorem Between.step (step : Step) (between : Between exact known (step.times ++ times) s p)
    (allowed : step.allowed known = true) (inTime : step.inTime settings = true)
    (keeps : exact → step.discards (step.on (Desk.memory patience) settings s).1 = false) :
    Matched exact (step.known known) times (step.on (Desk.memory patience) settings s)
      (step.on Desk.database settings p) := by
  cases step with
  | create name amount now => exact between.created patience settings name amount now
  | createChecked name amount now =>
      rw [on_createChecked_memory, on_createChecked_database]
      exact between.created patience settings name amount now
  | claim manner user name now =>
      obtain ⟨a, s', b, p', acts, claims, agrees, after⟩ := between.claim user name
        (manner.deadline settings) (of_decide_eq_true inTime) (manner.attempts settings)
      have memory : (Step.claim manner user name now).on (Desk.memory patience) settings s =
          ([.claim a], s') := by
        simp only [Step.on, bind_state, Desk.memory, acts]
        rfl
      have database : (Step.claim manner user name now).on Desk.database settings p =
          ([.claim b], p') :=
        map_reply (fun result => [Answer.claim result]) claims
      rw [memory, database]
      exact ⟨agrees.cons (.refl []), after⟩
  | get name =>
      have database : (Step.get name).on Desk.database settings p =
          ([.coupon (s.store.get name)], p) := by
        rw [← between.same.get]
        exact map_reply (fun result => [Answer.coupon result])
          (Records.get_idle between.idle name)
      rw [database]
      exact ⟨.refl _, between⟩
  | details name =>
      have database : (Step.details name).on Desk.database settings p =
          ([.details (s.store.details name)], p) := by
        rw [s.store.details_eq, ← between.same.coupon, ← between.same.claimants between.ready]
        exact map_reply (fun result => [Answer.details result])
          (Records.details_idle between.idle name)
      rw [database]
      exact ⟨.refl _, between⟩
  | claimants name =>
      have database : (Step.claimants name).on Desk.database settings p =
          ([.users (.ok (s.store.claimants name))], p) := by
        rw [← between.same.claimants between.ready]
        exact map_reply (fun result => [Answer.users result])
          (Records.claimants_idle between.idle name)
      rw [database]
      exact ⟨.refl _, between⟩
  | count name =>
      have database : (Step.count name).on Desk.database settings p =
          ([.count (.ok (s.store.count name))], p) := by
        rw [← between.same.count]
        exact map_reply (fun result => [Answer.count result])
          (Records.count_idle between.idle name)
      rw [database]
      exact ⟨.refl _, between⟩
  | transaction ops ending => exact between.transaction patience settings ops ending allowed keeps

/-- What a whole script does on one side it does on the other. -/
theorem Between.carryOut (script : List Step)
    (between : Between exact known (script.flatMap Step.times ++ times) s p)
    (allowed : allAllowed known script = true)
    (inTime : ∀ step ∈ script, step.inTime settings = true)
    (keeps : exact → discards script (carryOut (Desk.memory patience) settings script s).1 = false) :
    Agrees (List.map (List.map Answer.unnumbered)) exact
      (carryOut (Desk.memory patience) settings script s).1
      (carryOut Desk.database settings script p).1 := by
  unfold Agreement.carryOut at keeps ⊢
  -- Each step uses up its own times and leaves the match for the times of the rest.
  induction script generalizing known s p with
  | nil => exact .refl _
  | cons step rest ih =>
      rw [List.flatMap_cons, List.append_assoc] at between
      obtain ⟨may, rest_may⟩ := Bool.and_eq_true_iff.mp allowed
      simp only [List.mapM_cons, bind_state] at keeps ⊢
      have first := between.step patience settings step may (inTime step List.mem_cons_self)
        fun holds => (Bool.or_eq_false_iff.mp (keeps holds)).1
      exact first.answers.cons (ih first.between rest_may
        (fun later member => inTime later (List.mem_cons_of_mem _ member))
        fun holds => (Bool.or_eq_false_iff.mp (keeps holds)).2)

end Steps

/-! ## Whole scripts -/

theorem between_empty (size : Nat) (connected : 0 < size) (schema : List SchemaObject)
    (exact : Prop) (times : List Int) (ordered : times.Pairwise (· ≤ ·))
    (room : times.length < Nat.pow 2 63) :
    Between exact [] times {} { size, committed := { schema } } where
  quiet := ⟨rfl, rfl⟩
  due := rfl
  idle := ⟨⟨connected, rfl, rfl⟩, rfl, rfl⟩
  same := .of_empty schema
  ready := ⟨⟨List.nodup_nil, nofun, List.nodup_nil, nofun, .nil, nofun⟩, by simpa using ordered,
    by simpa using room⟩
  ids _ := rfl
  known := nofun

/-- An orderly script has the same answers from an empty store in memory and from an empty database,
but for the ids of claims; and the same ids too, unless a transaction discarded a claim. -/
theorem stores_agree (settings : ClaimSettings) (patience size : Nat) (connected : 0 < size)
    (schema : List SchemaObject) (script : List Step) (orderly : Orderly settings script) :
    let memory := (carryOut (Desk.memory patience) settings script {}).1
    let database := (carryOut Desk.database settings script { size, committed := { schema } }).1
    database.map (·.map Answer.unnumbered) = memory.map (·.map Answer.unnumbered) ∧
      (discards script memory = false → database = memory) := by
  have start := between_empty size connected schema
    (discards script (carryOut (Desk.memory patience) settings script {}).1 = false)
    (script.flatMap Step.times) orderly.times orderly.ids
  rw [← List.append_nil (script.flatMap Step.times)] at start
  exact start.carryOut patience settings script orderly.allowed orderly.inTime id

/-- A script in which a transaction tries more than it may, is committed all the same, and leaves one
unit for the last claim. -/
def lastUnit : List Step :=
  [.create "PROMO" 2 0, .claim .retrying "alice" "PROMO" 1,
    .transaction
      [.lock "GONE", .insert "alice" "PROMO" 2, .lock "PROMO", .insert "bob" "PROMO" 2,
        .decrement "PROMO", .decrement "PROMO"] .commit,
    .claim .once "carol" "PROMO" 3, .claimants "PROMO"]

theorem stores_agree_last_unit :
    Orderly {} lastUnit ∧
      (carryOut Desk.database {} lastUnit { size := 1, committed := { schema := [] } }).1 =
        (carryOut (Desk.memory 0) {} lastUnit {}).1 := by
  have orderly : Orderly {} lastUnit := ⟨rfl, by decide, by decide, by decide⟩
  have kept : discards lastUnit (carryOut (Desk.memory 0) {} lastUnit {}).1 = false := by
    decide +kernel
  exact ⟨orderly, (stores_agree {} 0 1 Nat.one_pos [] lastUnit orderly).2 kept⟩

end CouponDesk.Agreement
