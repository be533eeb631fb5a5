import CouponDesk.Proofs.Memory.Settling
import CouponDesk.Proofs.Memory.Waiting

/-!
# Deadlines

A clock that moves only while nothing can go on, and past no timer before it has gone off.  Under
such a clock a claim with a deadline has one of two courses.  It is granted the lock in time and is
decided at that very moment; or it stands in the line until its deadline, is cut off there, and
leaves nothing behind, neither in the tables nor in the line.
-/

set_option autoImplicit false

namespace CouponDesk

theorem Duration.ceilMillis_ofMillis (ms : Nat) : (Duration.ofMillis ms).ceilMillis = ms := by
  simp only [Duration.ceilMillis, Duration.ofMillis]
  omega

namespace Memory

open Store

namespace System

variable {s s' : System}

/-! ## The claim that is watched -/

section

variable (origin : System) (user coupon : String) (d : Nat)

def guest : TxnId := .attempt origin.calls.length 1

/-- The next call, if it is a claim in one attempt within `d` milliseconds. -/
def watched (phase : Phase) : Call :=
  { origin.firstCall user coupon (.ofMillis d) 1 with phase }

theorem watched_conclude (phase : Phase) (now : Nat) (result : Except Error Claim) :
    (origin.watched user coupon d phase).conclude now result =
      origin.watched user coupon d (.finished result now) := by
  have last : Retry.pause? 1 1 result = none := by cases result <;> simp [Retry.pause?]
  have stands : Retry.pause? (origin.watched user coupon d phase).limit
      (origin.watched user coupon d phase).attempt result = none := last
  unfold Call.conclude
  rw [stands]
  rfl

variable (s s' : System) (stage : Stage)

inductive Watched (action : Action) : Prop
  | stays (other : action.call? ≠ some origin.calls.length)
      (known' : s'.calls[origin.calls.length]? =
        some (origin.watched user coupon d (.trying stage (origin.now + d))))
  | moves (next : Stage) (acts : action = .advance origin.calls.length)
      (supports : s.store.Supports origin.guest user coupon stage)
      (move : Move user coupon origin.guest s.store stage s'.store next)
      (known' : s'.calls[origin.calls.length]? =
        some ((origin.watched user coupon d (.trying stage (origin.now + d))).proceed s.now
          (origin.now + d) next))
  | cutOff (acts : action = .expire origin.calls.length)
      (closed : s'.store = s.store.close origin.guest)
      (known' : s'.calls[origin.calls.length]? = some (origin.watched user coupon d
        (.finished (.error (.timeout coupon (.ofMillis d))) s.now)))

variable {origin user coupon d s s' stage}

theorem Does.watched {action : Action} (does : s.Does action s') (sound : s.Sound)
    (known : s.calls[origin.calls.length]? =
      some (origin.watched user coupon d (.trying stage (origin.now + d))))
    (kept : action ≠ .cancel origin.calls.length) :
    Watched origin user coupon d s s' stage action := by
  by_cases acts : action.call? = some origin.calls.length
  · cases does with
    | byHand _ number store hand change =>
      rw [Action.call?_of_hand hand] at acts
      cases acts
    | advance c call reached expires store next before trying asked =>
      obtain rfl := Option.some.inj acts
      rw [before, Option.some.injEq] at known
      subst known
      obtain ⟨rfl, rfl⟩ := Phase.trying.inj trying
      obtain ⟨supports, move⟩ := sound.move before trying asked
      exact .moves next rfl supports move (getElem?_putCall_self _ _ _ before)
    | expire c call reached due before trying =>
      obtain rfl := Option.some.inj acts
      rw [before, Option.some.injEq] at known
      subst known
      refine .cutOff rfl rfl ?_
      rw [watched_conclude]
      exact getElem?_putCall_self _ _ _ before
    | cancel | cancelPause => exact absurd (congrArg Action.cancel (Option.some.inj acts)) kept
    | _ => cases acts
  · refine .stays acts ?_
    obtain ⟨call', known', -⟩ := does.goes _ _ known
    cases does.turns _ call' known' with
    | stays _ _ before => exact known'.trans (before.symm.trans known)
    | starts name other deadline limit new =>
      have bound := (List.getElem?_eq_some_iff.mp known).1
      omega
    | wakes call due before resting =>
      rw [before, Option.some.injEq] at known
      subst known
      cases resting
    | _ => exact absurd rfl acts

end

/-! ## From the grant on -/

section

variable (origin : System) (user coupon : String) (d : Nat)

/-- The attempt has been granted the lock, and has done nothing with it but look at the row. -/
structure Fresh (s : System) : Prop where
  holds : s.store.holds origin.guest coupon = true
  stage : ∃ stage, s.calls[origin.calls.length]? =
      some (origin.watched user coupon d (.trying stage (origin.now + d))) ∧
    (stage = .locking ∨ stage = .inserting ∨ stage = .undoing (.noStock coupon) ∧
      ∃ row, s.store.coupon? coupon = some row ∧ row.remaining ≤ 0)

variable {origin user coupon d} {s : System}

/-- If it is the attempt alone that goes on from the grant, its claim is decided by the store as it
is then, without the transaction of the attempt. -/
theorem Fresh.drive (fresh : Fresh origin user coupon d s) (sound : s.Sound) :
    s.drive origin.calls.length (Stage.opening.rank + 1) =
      ({ s with store := ((s.store.close origin.guest).verdict user coupon).2 } : System).putCall
        origin.calls.length (origin.watched user coupon d
          (.finished ((s.store.close origin.guest).verdict user coupon).1 s.now)) := by
  obtain ⟨holds, stage, known, early⟩ := fresh
  have supports := (sound.calls _ _ known).stage stage _ rfl
  have runs : stage.run (Store.answer origin.guest) user coupon s.store =
      some ((s.store.close origin.guest).verdict user coupon) := by
    rcases early with rfl | rfl | ⟨rfl, row, found, empty⟩
    · have stays : s.store.join origin.guest coupon = s.store :=
        if_pos (ticket_of_holds _ _ _ holds)
      exact run_locking supports.1 supports.2 (by rwa [stays])
    · obtain ⟨live, idle, secured⟩ := supports
      obtain ⟨row, found, stock⟩ := secured.stock
      exact run_inserting live idle row found stock holds
    · rw [run_undoing, verdict_found (s.store.close origin.guest) user coupon row found,
        if_pos empty]
  have open_ : ∀ result, stage ≠ .settled result := by
    rcases early with rfl | rfl | ⟨rfl, -⟩ <;> exact fun _ => Stage.noConfusion
  have enough : stage.rank < Stage.opening.rank + 1 := by
    rcases early with rfl | rfl | ⟨rfl, -⟩ <;> simp [Stage.rank]
  have before : s.calls[origin.calls.length]? =
      some ((origin.watched user coupon d (.trying stage (origin.now + d))).proceed s.now
        (origin.now + d) stage) := by
    rw [Call.proceed_self _ _ _ _ rfl open_, known]
  rw [drive_of_run _ _ _ stage (origin.now + d) before enough (waits_eq_false_of_holds holds)
    ((s.store.close origin.guest).verdict user coupon).1
    ((s.store.close origin.guest).verdict user coupon).2 runs, watched_conclude]

/-! ## The course of a claim -/

variable (origin user coupon d) (history : List Step)

def Never : Prop := ∀ step ∈ history, step.after.store.holds origin.guest coupon = false

def GrantedAt (time : Nat) : Prop :=
  (∃ step ∈ history, step.after.store.holds origin.guest coupon = true) ∧
    ∀ step ∈ history, step.after.store.holds origin.guest coupon = true → step.after.now = time

/-- At this time the attempt found that the store dictates this result. -/
def DictatedAt (time : Nat) (result : Except Error Claim) : Prop :=
  ∃ step ∈ history, step.action = .advance origin.calls.length ∧ step.before.now = time ∧
    step.before.store.Dictates user coupon result

/-- The attempt changed nothing but its own place in the line. -/
def Spared : Prop :=
  ∀ step ∈ history, step.attempt? = some ⟨origin.calls.length, 1⟩ →
    step.before.store.Untouched origin.guest step.after.store

inductive Course (s : System) : Prop
  | waiting (stage : Stage) (early : stage = .opening ∨ stage = .locking)
      (known : s.calls[origin.calls.length]? =
        some (origin.watched user coupon d (.trying stage (origin.now + d))))
      (inTime : s.now ≤ origin.now + d) (unheld : s.store.holds origin.guest coupon = false)
      (never : Never origin coupon history) (spared : Spared origin history)
  | holding (stage : Stage)
      (known : s.calls[origin.calls.length]? =
        some (origin.watched user coupon d (.trying stage (origin.now + d))))
      (inTime : s.now ≤ origin.now + d) (holds : s.store.holds origin.guest coupon = true)
      (granted : GrantedAt origin coupon history s.now)
      (reason : ∀ e, stage = .undoing e → DictatedAt origin user coupon history s.now (.error e))
  | decided (result : Except Error Claim) (time : Nat)
      (known : s.calls[origin.calls.length]? =
        some (origin.watched user coupon d (.finished result time)))
      (inTime : time ≤ origin.now + d) (granted : GrantedAt origin coupon history time)
      (dictated : DictatedAt origin user coupon history time result)
  | timedOut
      (known : s.calls[origin.calls.length]? = some (origin.watched user coupon d
        (.finished (.error (.timeout coupon (.ofMillis d))) (origin.now + d))))
      (never : Never origin coupon history) (spared : Spared origin history)

variable {origin user coupon d history} {s' : System}

section

variable {step : Step} {time : Nat} {result : Except Error Claim}

theorem Never.snoc (never : Never origin coupon history)
    (last : step.after.store.holds origin.guest coupon = false) :
    Never origin coupon (history ++ [step]) := by
  intro other member
  rcases List.mem_append.mp member with old | new
  · exact never other old
  · rw [List.mem_singleton.mp new]
    exact last

theorem Never.not_held (never : Never origin coupon history) (member : step ∈ history) :
    step.after.store.holds origin.guest coupon ≠ true :=
  Bool.eq_false_iff.mp (never step member)

theorem GrantedAt.not_never (granted : GrantedAt origin coupon history time) :
    ¬ Never origin coupon history := by
  obtain ⟨⟨step, member, holds⟩, -⟩ := granted
  exact fun never => never.not_held member holds

theorem Never.granted (never : Never origin coupon history)
    (last : step.after.store.holds origin.guest coupon = true) :
    GrantedAt origin coupon (history ++ [step]) step.after.now := by
  refine ⟨⟨step, List.mem_append_right _ List.mem_cons_self, last⟩, fun other member holds => ?_⟩
  rcases List.mem_append.mp member with old | new
  · rw [never other old] at holds
    cases holds
  · rw [List.mem_singleton.mp new]

theorem GrantedAt.snoc (granted : GrantedAt origin coupon history time)
    (last : step.after.store.holds origin.guest coupon = true → step.after.now = time) :
    GrantedAt origin coupon (history ++ [step]) time := by
  obtain ⟨⟨first, member, holds⟩, all⟩ := granted
  refine ⟨⟨first, List.mem_append_left _ member, holds⟩, fun other member holds => ?_⟩
  rcases List.mem_append.mp member with old | new
  · exact all other old holds
  · rw [List.mem_singleton.mp new] at holds ⊢
    exact last holds

theorem DictatedAt.snoc (dictated : DictatedAt origin user coupon history time result)
    (step : Step) : DictatedAt origin user coupon (history ++ [step]) time result := by
  obtain ⟨first, member, found⟩ := dictated
  exact ⟨first, List.mem_append_left _ member, found⟩

theorem dictatedAt_last (history : List Step) (acts : step.action = .advance origin.calls.length)
    (dictates : step.before.store.Dictates user coupon result) :
    DictatedAt origin user coupon (history ++ [step]) step.before.now result :=
  ⟨step, List.mem_append_right _ List.mem_cons_self, acts, rfl, dictates⟩

theorem Spared.snoc (spared : Spared origin history)
    (last : step.attempt? = some ⟨origin.calls.length, 1⟩ →
      step.before.store.Untouched origin.guest step.after.store) :
    Spared origin (history ++ [step]) := by
  intro other member takes
  rcases List.mem_append.mp member with old | new
  · exact spared other old takes
  · rw [List.mem_singleton.mp new] at takes ⊢
    exact last takes

end

/-! ## Step by step -/

/-- An attempt that holds the lock does not let the clock move, nor itself be cut off. -/
theorem advance_ne_none_of_held {stage : Stage} {expires : Nat}
    (known : s.calls[origin.calls.length]? =
      some (origin.watched user coupon d (.trying stage expires)))
    (holds : s.store.holds origin.guest coupon = true) :
    s.advance origin.calls.length ≠ none :=
  Option.isSome_iff_ne_none.mp
    (advance_isSome _ _ stage expires known rfl (waits_eq_false_of_holds holds))

section

variable {stage : Stage} {action : Action} (sound : s.Sound) (does : s.Does action s')

include sound

theorem not_holds_of_over {phase : Phase} (stopped : ∀ stage expires, phase ≠ .trying stage expires)
    (known : s.calls[origin.calls.length]? = some (origin.watched user coupon d phase)) :
    s.store.holds origin.guest coupon = false := by
  refine (sound.no_lock_of_not_live ?_ coupon).1
  rw [Bool.eq_false_iff]
  intro live
  obtain ⟨-, stage, expires, trying⟩ := (sound.calls _ _ known).live 1 live
  exact stopped stage expires trying

/-- The attempt of the call is for this coupon, so it holds no lock of another. -/
theorem no_lock_of_unheld {phase : Phase}
    (known : s.calls[origin.calls.length]? = some (origin.watched user coupon d phase))
    (unheld : s.store.holds origin.guest coupon = false) (name : String) :
    s.store.holds origin.guest name = false := by
  rw [Bool.eq_false_iff]
  intro holds
  have same : name = coupon :=
    (sound.calls _ _ known).tickets 1 name (ticket_of_holds _ origin.guest name holds)
  rw [same, unheld] at holds
  cases holds

theorem begun_of_holds {expires : Nat}
    (known : s.calls[origin.calls.length]? =
      some (origin.watched user coupon d (.trying stage expires)))
    (holds : s.store.holds origin.guest coupon = true) : stage ≠ .opening := by
  rintro rfl
  have dead : s.store.isLive origin.guest = false :=
    (sound.calls _ _ known).stage .opening expires rfl
  have live := sound.store.locks.live _ (ticket_of_holds _ _ _ holds)
  rw [dead] at live
  cases live

include does

variable (timely : s.Timely action) (kept : action ≠ .cancel origin.calls.length)

/-- A claim that has ended stays as it is. -/
theorem over_stays {phase : Phase} (stopped : ∀ stage expires, phase ≠ .trying stage expires)
    (awake : ∀ wakes, phase ≠ .resting wakes)
    (known : s.calls[origin.calls.length]? = some (origin.watched user coupon d phase)) :
    s'.calls[origin.calls.length]? = some (origin.watched user coupon d phase) ∧
      s'.store.holds origin.guest coupon = false ∧
      Step.attempt? ⟨s, action, s'⟩ ≠ some ⟨origin.calls.length, 1⟩ := by
  obtain ⟨call', known', goes⟩ := does.goes _ _ known
  have same : call' = origin.watched user coupon d phase := by
    cases goes with
    | stays => rfl
    | carriesOn stage next expires due trying => exact absurd trying (stopped stage expires)
    | ends stage expires phase trying => exact absurd trying (stopped stage expires)
    | resumes wakes due resting => exact absurd resting (awake wakes)
    | abandons wakes resting => exact absurd resting (awake wakes)
  subst same
  refine ⟨known', not_holds_of_over (does.sound sound) stopped known', fun takes => ?_⟩
  obtain ⟨-, call, stage, expires, found, -, trying⟩ := (Step.attempt?_eq_some _ _).mp takes
  rw [known, Option.some.injEq] at found
  subst found
  exact stopped stage expires trying

include timely kept

theorem step_of_waiting (early : stage = .opening ∨ stage = .locking)
    (known : s.calls[origin.calls.length]? =
      some (origin.watched user coupon d (.trying stage (origin.now + d))))
    (inTime : s.now ≤ origin.now + d) (unheld : s.store.holds origin.guest coupon = false)
    (never : Never origin coupon history) (spared : Spared origin history)
    (exists_ : (s.store.coupon? coupon).isSome) :
    Course origin user coupon d (history ++ [⟨s, action, s'⟩]) s' ∧
      (s'.store.holds origin.guest coupon = true → Fresh origin user coupon d s') := by
  have sound' := does.sound sound
  have timer : s.timer? origin.calls.length = some (origin.now + d) := by
    simp [System.timer?, known, System.watched, Call.timer?]
  have inTime' : s'.now ≤ origin.now + d := does.now_le_timer timely timer inTime
  cases does.watched sound known kept with
  | stays other known' =>
    have untaken : Step.attempt? ⟨s, action, s'⟩ ≠ some ⟨origin.calls.length, 1⟩ := fun takes =>
      other ((Step.attempt?_eq_some _ _).mp takes).1
    by_cases holds : s'.store.holds origin.guest coupon = true
    · -- Another has made room: the attempt stands in the line, so it has been opened before.
      have opened : stage = .locking := early.resolve_left (begun_of_holds sound' known' holds)
      refine ⟨.holding stage known' inTime' holds (never.granted holds) fun e undoing => ?_,
        fun _ => ⟨holds, stage, known', Or.inl opened⟩⟩
      rw [opened] at undoing
      cases undoing
    · have unheld' := Bool.eq_false_iff.mpr holds
      exact ⟨.waiting stage early known' inTime' unheld' (never.snoc unheld')
        (spared.snoc fun takes => absurd takes untaken), fun granted => absurd granted holds⟩
  | moves next acts supports move known' =>
    have still : s'.now = s.now := does.now_eq fun ms => by simp [acts]
    rcases move.of_unheld early exists_ unheld with
      ⟨unheld', rfl, untouched⟩ | ⟨holds, rfl | ⟨rfl, empty, dictates⟩⟩
    · exact ⟨.waiting .locking (Or.inr rfl) known' inTime' unheld' (never.snoc unheld')
        (spared.snoc fun _ => untouched), fun granted => by rw [unheld'] at granted; cases granted⟩
    · exact ⟨.holding .inserting known' inTime' holds (never.granted holds) (by simp),
        fun _ => ⟨holds, _, known', Or.inr (Or.inl rfl)⟩⟩
    · refine ⟨.holding _ known' inTime' holds (never.granted holds) fun e undoing => ?_,
        fun _ => ⟨holds, _, known', Or.inr (Or.inr ⟨rfl, empty⟩)⟩⟩
      cases undoing
      rw [still]
      exact dictatedAt_last history acts dictates
  | cutOff acts closed known' =>
    have due : s.now = origin.now + d := by
      rw [acts] at timely
      obtain ⟨-, due, own, reached⟩ := timely
      rw [timer] at own
      cases own
      omega
    rw [due] at known'
    have unheld' := not_holds_of_over sound' (fun _ _ => Phase.noConfusion) known'
    refine ⟨.timedOut known' (never.snoc unheld') (spared.snoc fun _ => ?_),
      fun granted => by rw [unheld'] at granted; cases granted⟩
    change s.store.Untouched origin.guest s'.store
    rw [closed]
    exact untouched_close (no_lock_of_unheld sound known unheld)

theorem step_of_holding
    (known : s.calls[origin.calls.length]? =
      some (origin.watched user coupon d (.trying stage (origin.now + d))))
    (inTime : s.now ≤ origin.now + d) (holds : s.store.holds origin.guest coupon = true)
    (granted : GrantedAt origin coupon history s.now)
    (reason : ∀ e, stage = .undoing e → DictatedAt origin user coupon history s.now (.error e)) :
    Course origin user coupon d (history ++ [⟨s, action, s'⟩]) s' := by
  have goesOn := advance_ne_none_of_held known holds
  have still : s'.now = s.now := by
    refine does.now_eq fun ms passes => goesOn ?_
    rw [passes] at timely
    exact timely.1 _
  have granted' : GrantedAt origin coupon (history ++ [⟨s, action, s'⟩]) s.now :=
    granted.snoc fun _ => still
  cases does.watched sound known kept with
  | stays other known' =>
    have begun := begun_of_holds sound known holds
    have supports := ((does.sound sound).calls _ _ known').stage stage _ rfl
    refine .holding stage known' (by omega) (does.keeps_lock sound holds (supports.live begun))
      (still ▸ granted') fun e undoing => ?_
    rw [still]
    exact (reason e undoing).snoc _
  | moves next acts supports move known' =>
    rcases move.of_held sound.store supports holds with
      ⟨holds', open_, reasons⟩ | ⟨result, rfl, why⟩
    · rw [Call.proceed_open _ _ _ _ open_] at known'
      refine .holding next known' (by omega) holds' (still ▸ granted') fun e undoing => ?_
      rw [still]
      exact dictatedAt_last history acts (reasons e undoing)
    · change s'.calls[origin.calls.length]? = some (Call.conclude _ _ _) at known'
      rw [watched_conclude] at known'
      refine .decided result s.now known' inTime granted' ?_
      rcases why with dictates | ⟨e, rfl, rfl⟩
      · exact dictatedAt_last history acts dictates
      · exact (reason e rfl).snoc _
  | cutOff acts closed known' =>
    rw [acts] at timely
    exact absurd timely.1 goesOn

/-- Each step continues the course of the claim, and where the lock is granted the attempt has not
used it yet. -/
theorem Course.step (course : Course origin user coupon d history s)
    (exists_ : (s.store.coupon? coupon).isSome) :
    Course origin user coupon d (history ++ [⟨s, action, s'⟩]) s' ∧
      (s.store.holds origin.guest coupon = false → s'.store.holds origin.guest coupon = true →
        Fresh origin user coupon d s') := by
  cases course with
  | waiting stage early known inTime unheld never spared =>
    obtain ⟨next, fresh⟩ := step_of_waiting sound does timely kept early known inTime unheld never
      spared exists_
    exact ⟨next, fun _ => fresh⟩
  | holding stage known inTime holds granted reason =>
    refine ⟨step_of_holding sound does timely kept known inTime holds granted reason,
      fun unheld => ?_⟩
    rw [holds] at unheld
    cases unheld
  | decided result time known inTime granted dictated =>
    obtain ⟨known', unheld', -⟩ := over_stays sound does (fun _ _ => Phase.noConfusion)
      (fun _ => Phase.noConfusion) known
    refine ⟨.decided result time known' inTime (granted.snoc fun holds => ?_) (dictated.snoc _),
      fun _ holds => ?_⟩
    · rw [unheld'] at holds
      cases holds
    · rw [unheld'] at holds
      cases holds
  | timedOut known never spared =>
    obtain ⟨known', unheld', others⟩ := over_stays sound does (fun _ _ => Phase.noConfusion)
      (fun _ => Phase.noConfusion) known
    refine ⟨.timedOut known' (never.snoc unheld') (spared.snoc fun takes => absurd takes others),
      fun _ holds => ?_⟩
    rw [unheld'] at holds
    cases holds

end

variable (origin user coupon d history) in
structure Pursued (s : System) : Prop where
  sound : s.Sound
  known : (s.store.coupon? coupon).isSome
  course : Course origin user coupon d history s
  fresh : ∀ step ∈ history, step.before.store.holds origin.guest coupon = false →
    step.after.store.holds origin.guest coupon = true →
    step.after.Sound ∧ Fresh origin user coupon d step.after

theorem pursued_start (sound : origin.Sound) (exists_ : (origin.store.coupon? coupon).isSome) :
    Pursued origin user coupon d [] (origin.start user coupon (.ofMillis d) 1) := by
  have known : (origin.start user coupon (.ofMillis d) 1).calls[origin.calls.length]? =
      some (origin.watched user coupon d (.trying .opening (origin.now + d))) := by
    simp [System.start, System.watched, System.firstCall, Duration.ceilMillis_ofMillis]
  have dead : origin.store.isLive origin.guest = false := by
    rw [Bool.eq_false_iff]
    exact fun live => Nat.lt_irrefl _ (sound.owned _ 1 live)
  refine ⟨sound.start user coupon (.ofMillis d) 1, exists_, ?_, by simp⟩
  exact .waiting .opening (Or.inl rfl) known (Nat.le_add_right _ _)
    (sound.no_lock_of_not_live dead coupon).1 (by simp [Never]) (by simp [Spared])

theorem Pursued.step {action : Action} (pursued : Pursued origin user coupon d history s)
    (does : s.Does action s') (timely : s.Timely action)
    (kept : action ≠ .cancel origin.calls.length) :
    Pursued origin user coupon d (history ++ [⟨s, action, s'⟩]) s' := by
  obtain ⟨sound, known, course, fresh⟩ := pursued
  obtain ⟨next, granted⟩ := course.step sound does timely kept known
  refine ⟨does.sound sound, (does.grows sound).isSome coupon known, next, ?_⟩
  intro other member unheld holds
  rcases List.mem_append.mp member with old | new
  · exact fresh other old unheld holds
  · rw [List.mem_singleton.mp new] at unheld holds ⊢
    exact ⟨does.sound sound, granted unheld holds⟩

theorem trace_pursued (started : origin.Sound) (exists_ : (origin.store.coupon? coupon).isSome)
    (actions : List Action)
    (runs : run actions (origin.start user coupon (.ofMillis d) 1) = some s')
    (timely : ∀ step ∈ trace actions (origin.start user coupon (.ofMillis d) 1),
      step.before.Timely step.action)
    (kept : .cancel origin.calls.length ∉ actions) :
    Pursued origin user coupon d (trace actions (origin.start user coupon (.ofMillis d) 1)) s' := by
  refine trace_keeps_steps (Pursued origin user coupon d)
    (fun step => step.before.Timely step.action ∧ step.action ≠ .cancel origin.calls.length)
    ?_ actions ?_ [] (pursued_start started exists_) runs
  · rintro history s s' action step ⟨onTime, kept⟩ pursued
    exact pursued.step (act_does action step) onTime kept
  · refine fun step member => ⟨timely step member, fun cancels => kept ?_⟩
    rw [← cancels]
    exact mem_of_mem_trace actions step member

/-! ## All together -/

/-- A call is over, with a result that it came to at this time. -/
def FinishedAt (s : System) (c : Nat) (result : Except Error Claim) (time : Nat) : Prop :=
  ∃ call, s.calls[c]? = some call ∧ call.phase = .finished result time

variable (origin user coupon d history s') in
/-- What becomes of a claim that begins at `origin` and is to be over within `d` milliseconds. -/
structure KeepsDeadline : Prop where
  /-- The clock does not pass the deadline before the claim is over. -/
  ends : origin.now + d < s'.now →
    ∃ result time, time ≤ origin.now + d ∧ s'.FinishedAt origin.calls.length result time
  /-- Where the lock is granted the clock stands still until the claim is decided, as the store
  dictates; it does not time out. -/
  granted : ∀ step ∈ history, step.after.store.holds origin.guest coupon = true →
    step.after.now ≤ origin.now + d ∧
      (s'.now = step.after.now ∧ s'.store.holds origin.guest coupon = true ∨
        ∃ result, s'.FinishedAt origin.calls.length result step.after.now ∧
          result ≠ .error (.timeout coupon (.ofMillis d)) ∧
          DictatedAt origin user coupon history step.after.now result)
  /-- From the grant on the attempt needs no other: left to itself, it comes to the verdict of the
  store of that moment. -/
  alone : ∀ step ∈ history, step.before.store.holds origin.guest coupon = false →
    step.after.store.holds origin.guest coupon = true →
    step.after.drive origin.calls.length (Stage.opening.rank + 1) =
      ({ step.after with
        store := ((step.after.store.close origin.guest).verdict user coupon).2 } : System).putCall
          origin.calls.length (origin.watched user coupon d
            (.finished ((step.after.store.close origin.guest).verdict user coupon).1
              step.after.now))
  /-- If the lock is free at the beginning, so it does whatever the deadline. -/
  free : origin.store.holder? coupon = none →
    (origin.start user coupon (.ofMillis d) 1).drive origin.calls.length (Stage.opening.rank + 1) =
      origin.decided user coupon (.ofMillis d) 1
  /-- Without a grant the claim waits until its deadline, and no longer. -/
  waiting : Never origin coupon history →
    s'.now ≤ origin.now + d ∧ s'.outcome? origin.calls.length = none ∨
      s'.FinishedAt origin.calls.length (.error (.timeout coupon (.ofMillis d))) (origin.now + d)
  /-- At the deadline an attempt that waits can be cut off. -/
  cutOff : s'.store.waits origin.guest coupon = true → s'.now = origin.now + d →
    s'.Timely (.expire origin.calls.length) ∧
      ∃ next, s'.act (.expire origin.calls.length) = some next
  /-- Without a grant the tables and the ids are as if there were no claim, and the others in the
  line keep their order and their locks. -/
  spared : Never origin coupon history → Spared origin history
  /-- A claim that is over stands in the line no more. -/
  gone : ∀ result time, s'.FinishedAt origin.calls.length result time →
    ∀ ticket ∈ s'.store.line, ticket.txn ≠ origin.guest

/-- A claim that is over stands in the line no more. -/
theorem gone_of_finished (sound : s.Sound) (result : Except Error Claim) (time : Nat)
    (finished : s.FinishedAt origin.calls.length result time) :
    ∀ ticket ∈ s.store.line, ticket.txn ≠ origin.guest := by
  obtain ⟨call, known, finished⟩ := finished
  intro ticket member same
  have live := sound.store.locks.live ticket member
  rw [same] at live
  obtain ⟨-, stage, expires, trying⟩ := (sound.calls _ call known).live 1 live
  rw [finished] at trying
  cases trying

theorem not_waits_of_finished (sound : s.Sound) (result : Except Error Claim) (time : Nat)
    (finished : s.FinishedAt origin.calls.length result time) :
    s.store.waits origin.guest coupon = false := by
  have gone := gone_of_finished sound result time finished
  unfold Store.waits
  exact decide_eq_false fun waits => gone _ waits.1 rfl

theorem cutOff_of_waits {stage : Stage} (early : stage = .opening ∨ stage = .locking)
    (known : s.calls[origin.calls.length]? =
      some (origin.watched user coupon d (.trying stage (origin.now + d))))
    (waits : s.store.waits origin.guest coupon = true) (due : s.now = origin.now + d) :
    s.Timely (.expire origin.calls.length) ∧
      ∃ next, s.act (.expire origin.calls.length) = some next := by
  have asks : s.store.ask origin.guest user coupon stage = none := by
    rcases early with rfl | rfl <;> simp [Store.ask, Stage.turn, waits]
  have stuck : s.advance origin.calls.length = none := by
    rw [advance_eq _ _ stage _ known rfl]
    exact congrArg (Option.map _) asks
  have timer : s.timer? origin.calls.length = some (origin.now + d) := by
    simp [System.timer?, known, System.watched, Call.timer?]
  exact ⟨⟨stuck, _, timer, due.ge⟩, _, expire_eq _ _ stage _ known rfl⟩

theorem Course.ends (course : Course origin user coupon d history s)
    (passed : origin.now + d < s.now) :
    ∃ result time, time ≤ origin.now + d ∧ s.FinishedAt origin.calls.length result time := by
  cases course with
  | waiting stage early known inTime unheld never spared => omega
  | holding stage known inTime holds granted reason => omega
  | decided result time known inTime granted dictated => exact ⟨result, time, inTime, _, known, rfl⟩
  | timedOut known never spared => exact ⟨_, _, Nat.le_refl _, _, known, rfl⟩

theorem Course.granted (course : Course origin user coupon d history s) (step : Step)
    (member : step ∈ history) (held : step.after.store.holds origin.guest coupon = true) :
    step.after.now ≤ origin.now + d ∧
      (s.now = step.after.now ∧ s.store.holds origin.guest coupon = true ∨
        ∃ result, s.FinishedAt origin.calls.length result step.after.now ∧
          result ≠ .error (.timeout coupon (.ofMillis d)) ∧
          DictatedAt origin user coupon history step.after.now result) := by
  cases course with
  | waiting stage early known inTime unheld never spared =>
    exact absurd held (never.not_held member)
  | holding stage known inTime holds granted reason =>
    rw [granted.2 step member held]
    exact ⟨inTime, Or.inl ⟨rfl, holds⟩⟩
  | decided result time known inTime granted dictated =>
    rw [granted.2 step member held]
    obtain ⟨_, -, -, -, dictates⟩ := id dictated
    exact ⟨inTime, Or.inr ⟨result, ⟨_, known, rfl⟩, dictates.ne_timeout _ _, dictated⟩⟩
  | timedOut known never spared => exact absurd held (never.not_held member)

theorem Course.ungranted (course : Course origin user coupon d history s)
    (never : Never origin coupon history) :
    (s.now ≤ origin.now + d ∧ s.outcome? origin.calls.length = none ∨
      s.FinishedAt origin.calls.length (.error (.timeout coupon (.ofMillis d))) (origin.now + d)) ∧
      Spared origin history := by
  cases course with
  | waiting stage early known inTime unheld _ spared =>
    refine ⟨Or.inl ⟨inTime, ?_⟩, spared⟩
    simp [outcome?, known, System.watched, Call.outcome?]
  | holding stage known inTime holds granted reason => exact absurd never granted.not_never
  | decided result time known inTime granted dictated => exact absurd never granted.not_never
  | timedOut known _ spared => exact ⟨Or.inr ⟨_, known, rfl⟩, spared⟩

/-- At its deadline an attempt that waits can be cut off. -/
theorem Course.cutOff (course : Course origin user coupon d history s) (sound : s.Sound)
    (waits : s.store.waits origin.guest coupon = true) (due : s.now = origin.now + d) :
    s.Timely (.expire origin.calls.length) ∧
      ∃ next, s.act (.expire origin.calls.length) = some next := by
  cases course with
  | waiting stage early known inTime unheld never spared =>
    exact cutOff_of_waits early known waits due
  | holding stage known inTime holds granted reason =>
    rw [waits_eq_false_of_holds holds] at waits
    cases waits
  | decided result time known inTime granted dictated =>
    rw [not_waits_of_finished sound result time ⟨_, known, rfl⟩] at waits
    cases waits
  | timedOut known never spared =>
    rw [not_waits_of_finished sound _ _ ⟨_, known, rfl⟩] at waits
    cases waits

theorem Pursued.keepsDeadline (pursued : Pursued origin user coupon d history s')
    (started : origin.Sound) : KeepsDeadline origin user coupon d history s' where
  ends := pursued.course.ends
  granted := pursued.course.granted
  alone := by
    intro step member unheld holds
    obtain ⟨sound, fresh⟩ := pursued.fresh step member unheld holds
    exact fresh.drive sound
  free := drive_of_free user coupon (.ofMillis d) 1 started
  waiting := fun never => (pursued.course.ungranted never).1
  cutOff := pursued.course.cutOff pursued.sound
  spared := fun never => (pursued.course.ungranted never).2
  gone := gone_of_finished pursued.sound

/-- Whoever else acts on the store: under a clock that moves only while nothing can go on, and past
no timer, a claim is decided at the moment it is granted the lock, or cut off at its deadline
without a trace. -/
theorem run_keepsDeadline (before : List Action) (reached : run before {} = some origin)
    (user coupon : String) (exists_ : (origin.store.coupon? coupon).isSome) (d : Nat)
    (actions : List Action)
    (runs : run actions (origin.start user coupon (.ofMillis d) 1) = some s')
    (timely : ∀ step ∈ trace actions (origin.start user coupon (.ofMillis d) 1),
      step.before.Timely step.action)
    (kept : .cancel origin.calls.length ∉ actions) :
    KeepsDeadline origin user coupon d
      (trace actions (origin.start user coupon (.ofMillis d) 1)) s' := by
  have started := run_sound before reached
  exact (trace_pursued started exists_ actions runs timely kept).keepsDeadline started

end

/-- A hand-driven transaction holds the lock, and one caller waits for it. -/
def lineUp : List Action :=
  [.create "SOLO" 1, .begin 0, .lock 0 "SOLO", .start "ada" "SOLO" (.ofMillis 500) 1, .advance 0,
    .advance 0]

/-- The second in the line is cut off after 30 milliseconds; the first stays. -/
def outlasted : List Action := [.advance 1, .advance 1, .pass 30, .expire 1, .pass 10, .rollback 0]

/-- The lock is passed on after 10 milliseconds: the first takes the last unit, and the second is
decided at once. -/
def passedOn : List Action :=
  [.advance 1, .advance 1, .pass 10, .rollback 0, .advance 0, .advance 0, .advance 0, .advance 0,
    .advance 1, .advance 1]

theorem run_keepsDeadline_lineUp :
    ∃ origin late early, run lineUp {} = some origin ∧
      run outlasted (origin.start "bob" "SOLO" (.ofMillis 30) 1) = some late ∧
      run passedOn (origin.start "bob" "SOLO" (.ofMillis 30) 1) = some early ∧
      KeepsDeadline origin "bob" "SOLO" 30
        (trace outlasted (origin.start "bob" "SOLO" (.ofMillis 30) 1)) late ∧
      KeepsDeadline origin "bob" "SOLO" 30
        (trace passedOn (origin.start "bob" "SOLO" (.ofMillis 30) 1)) early ∧
      late.outcome? 1 = some (.error (.timeout "SOLO" (.ofMillis 30)), 30) ∧
      late.store.holds (.attempt 0 1) "SOLO" = true ∧
      early.outcome? 1 = some (.error (.noStock "SOLO"), 10) :=
  ⟨_, _, _, rfl, rfl, rfl,
    run_keepsDeadline lineUp rfl "bob" "SOLO" rfl 30 outlasted rfl (by decide)
      (by simp [outlasted]),
    run_keepsDeadline lineUp rfl "bob" "SOLO" rfl 30 passedOn rfl (by decide)
      (by simp [passedOn]),
    rfl, rfl, rfl⟩

/-- So it is on the virtual clock, however long it runs after the call. -/
theorem spawn_keepsDeadline {origin : System} (settled : origin.Settled) (user coupon : String)
    (exists_ : (origin.store.coupon? coupon).isSome) (d : Nat)
    (elapses : (origin.spawn user coupon (.ofMillis d) 1).2.Elapses s') :
    ∃ history, KeepsDeadline origin user coupon d history s' := by
  obtain ⟨spawns, -⟩ := settled.spawn user coupon (.ofMillis d) 1
  obtain ⟨actions, runs, unprompted, timely⟩ := spawns.trans elapses
  have kept : .cancel origin.calls.length ∉ actions := fun member => by
    cases unprompted _ member
  exact ⟨_, (trace_pursued settled.sound exists_ actions runs timely kept).keepsDeadline
    settled.sound⟩

/-- Who sleeps past the deadline of a claim finds it over, no later than its deadline. -/
theorem sleep_finishes {origin : System} (settled : origin.Settled) (user coupon : String)
    (exists_ : (origin.store.coupon? coupon).isSome) (d ms : Nat) (longer : d < ms) :
    ∃ result time, time ≤ origin.now + d ∧
      ((origin.spawn user coupon (.ofMillis d) 1).2.sleep ms).FinishedAt origin.calls.length
        result time := by
  let spawned := (origin.spawn user coupon (.ofMillis d) 1).2
  obtain ⟨spawns, rests⟩ := settled.spawn user coupon (.ofMillis d) 1
  have elapses := (rests.waitUntil (fun _ => false) (spawned.now + ms)).1
  obtain ⟨history, keeps⟩ := spawn_keepsDeadline settled user coupon exists_ d elapses
  refine keeps.ends ?_
  have later : origin.now ≤ spawned.now := spawns.now_le
  have slept : spawned.now + ms ≤ (spawned.waitUntil (fun _ => false) (spawned.now + ms)).now :=
    limit_le_waitUpTo _ _ _
  change origin.now + d < (spawned.waitUntil (fun _ => false) (spawned.now + ms)).now
  omega

end System

end Memory

end CouponDesk
