import CouponDesk.Proofs.Memory.Alone
import CouponDesk.Proofs.Memory.Timing
import CouponDesk.Proofs.Memory.Waiting

/-!
# The virtual clock keeps time

Whatever the clock is told to wait for, it first lets all calls go on that can, and then moves to
the next timer.  So it is one of the clocks that keep time: it never moves while a call can go on,
and never past a timer.
-/

set_option autoImplicit false

namespace CouponDesk.Memory.System

variable {s s' : System}

/-! ## Calls that cannot go on -/

/-- An attempt cannot go on exactly if it waits for the lock. -/
theorem advance_eq_none_iff (sound : s.Sound) (c : Nat) :
    s.advance c = none ↔ ∀ call stage expires, s.calls[c]? = some call →
      call.phase = .trying stage expires →
        s.store.waits (txnOf c call) call.coupon = true := by
  constructor
  · intro stuck call stage expires known trying
    rw [← Bool.not_eq_false]
    intro free
    have moves := advance_isSome c call stage expires known trying free
    rw [act, stuck] at moves
    cases moves
  · intro waits
    cases known : s.calls[c]? with
    | none => simp [advance, known]
    | some call =>
      by_cases trying : ∃ stage expires, call.phase = .trying stage expires
      · obtain ⟨stage, expires, trying⟩ := trying
        rw [advance_eq c call stage expires known trying, Option.map_eq_none_iff,
          Option.eq_none_iff_forall_not_mem]
        rintro ⟨store, next⟩ asked
        have supports := (sound.calls c call known).stage stage expires trying
        have free := Store.free_of_ask stage supports store next asked
        rw [waits call stage expires known trying] at free
        cases free
      · exact advance_of_stopped c call known fun stage expires same =>
          trying ⟨stage, expires, same⟩

/-- The attempt of a call, if one is under way, stands in the line. -/
def Queued (s : System) (c : Nat) : Prop :=
  ∀ call stage expires, s.calls[c]? = some call → call.phase = .trying stage expires →
    ⟨call.coupon, txnOf c call⟩ ∈ s.store.line

theorem queued_of_stuck (sound : s.Sound) (c : Nat) (stuck : s.advance c = none) : s.Queued c := by
  intro call stage expires known trying
  have waits := (advance_eq_none_iff sound c).mp stuck call stage expires known trying
  exact (of_decide_eq_true waits).1

/-- What another call or transaction does leaves an attempt in the line. -/
theorem Does.queued {action : Action} (does : s.Does action s') (sound : s.Sound) (c : Nat)
    (other : action.call? ≠ some c) (same : s'.calls[c]? = s.calls[c]?) (queued : s.Queued c) :
    s'.Queued c := by
  intro call stage expires known trying
  rw [same] at known
  have member := queued call stage expires known trying
  have kept : ∀ t store, t ≠ txnOf c call → s.store.Change t store →
      ⟨call.coupon, txnOf c call⟩ ∈ store.line := fun t store apart change =>
    (change.ticket_of_ne _ (Ne.symm apart) _).mpr member
  have foreign : ∀ d before, action.call? = some d → txnOf d before ≠ txnOf c call := by
    rintro d before acts same
    rw [(TxnId.attempt.inj same).1] at acts
    exact other acts
  cases does with
  | create name amount =>
    rw [show (s.store.create name amount).2.line = _ from (s.store.create_frame name amount).2.1]
    exact member
  | byHand _ number store hand change => exact kept _ store TxnId.noConfusion change
  | advance d before stage expires store next known trying asked =>
    obtain ⟨supports, move⟩ := sound.move known trying asked
    exact kept _ store (foreign d before rfl) (move.change supports)
  | expire d before stage expires known trying => exact kept _ _ (foreign d before rfl) .closed
  | cancel d before stage expires known trying => exact kept _ _ (foreign d before rfl) .closed
  | _ => exact member

theorem Does.calls_eq_set {action : Action} {c : Nat} (does : s.Does action s')
    (acts : action = .advance c ∨ action = .expire c) :
    ∃ last, s'.calls = s.calls.set c last := by
  rcases acts with rfl | rfl <;> cases does with
  | byHand _ number store hand change => cases hand
  | _ => exact ⟨_, rfl⟩

/-! ## Carrying one call on -/

section

variable (c : Nat)

theorem drive_elapses (fuel : Nat) : s.Elapses (s.drive c fuel) := by
  induction fuel generalizing s with
  | zero => exact .refl s
  | succ fuel ih =>
    unfold drive
    cases advanced : s.advance c with
    | none => exact .refl s
    | some next => exact (Elapses.step (.advance c) advanced rfl trivial).trans ih

theorem drive_keeps (holds : System → Prop)
    (kept : ∀ s s', s.Does (.advance c) s' → holds s → holds s') (fuel : Nat) (first : holds s) :
    holds (s.drive c fuel) := by
  induction fuel generalizing s with
  | zero => exact first
  | succ fuel ih =>
    unfold drive
    cases advanced : s.advance c with
    | none => exact first
    | some next => exact ih (kept s next (advance_does c advanced) first)

/-- With enough steps a call comes to a point where it cannot go on. -/
theorem drive_stuck (fuel : Nat) (sound : s.Sound)
    (enough : ∀ call stage expires, s.calls[c]? = some call → call.phase = .trying stage expires →
      stage.rank + s.store.toJoin (txnOf c call) call.coupon ≤ fuel) :
    (s.drive c fuel).advance c = none := by
  -- The induction is on the fuel; every step lowers the rank of the stage or joins the line.
  induction fuel generalizing s with
  | zero =>
    refine (advance_eq_none_iff sound c).mpr fun call stage expires known trying => ?_
    have supports := (sound.calls c call known).stage stage expires trying
    have spent := enough call stage expires known trying
    cases stage with
    | settled result => exact supports.elim
    | _ => simp [Stage.rank] at spent
  | succ fuel ih =>
    unfold drive
    cases advanced : s.advance c with
    | none => exact advanced
    | some next =>
      have does := advance_does c advanced
      refine ih (does.sound sound) fun call' reached expires' known' trying' => ?_
      cases does with
      | byHand _ number store hand change => cases hand
      | advance _ call stage expires store next known trying asked =>
        obtain rfl : call.proceed s.now expires next = call' := Option.some.inj
          ((getElem?_putCall_self (s := { s with store }) c call _ known).symm.trans known')
        obtain ⟨supports, move⟩ := sound.move known trying asked
        have spent := enough call stage expires known trying
        rcases move.nears (Store.free_of_ask stage supports store next asked) with
          ⟨result, rfl⟩ | nearer
        · exact absurd trying' (call.conclude_over s.now result reached expires')
        · have open_ : ∀ result, next ≠ .settled result := by
            rintro result rfl
            exact call.conclude_over s.now result reached expires' trying'
          rw [call.proceed_open s.now expires next open_] at trying' ⊢
          obtain ⟨rfl, -⟩ := Phase.trying.inj trying'
          change next.rank + store.toJoin (txnOf c call) call.coupon ≤ fuel
          omega

theorem cutIfDue_cases (s : System) (c : Nat) :
    s.cutIfDue c = s ∨ s.Due c ∧ s.act (.expire c) = some (s.cutIfDue c) := by
  unfold cutIfDue
  cases timer : (s.calls[c]?).bind Call.timer? with
  | none => exact Or.inl rfl
  | some due =>
    by_cases reached : due ≤ s.now
    · simp only [if_pos reached]
      cases expired : s.expire c with
      | none => exact Or.inl rfl
      | some next => exact Or.inr ⟨⟨due, timer, reached⟩, expired⟩
    · exact Or.inl (by simp only [if_neg reached])

theorem expire_stuck (step : s.expire c = some s') : s'.advance c = none := by
  cases expire_does c step with
  | byHand _ number store hand change => cases hand
  | expire _ call stage expires known trying =>
    exact advance_of_stopped c _
      (getElem?_putCall_self (s := { s with store := _ }) c call _ known)
      (call.conclude_over s.now _)

theorem drive_enough (sound : s.Sound) :
    (s.drive c (Stage.opening.rank + 1)).advance c = none := by
  refine drive_stuck c _ sound fun call stage expires known trying => Nat.add_le_add ?_ ?_
  · cases stage with
    | _ => simp [Stage.rank]
  · exact s.store.toJoin_le _ _

theorem proceed_elapses (sound : s.Sound) : s.Elapses (s.proceed c) := by
  have driven := s.drive_elapses c (Stage.opening.rank + 1)
  unfold proceed
  rcases cutIfDue_cases (s.drive c (Stage.opening.rank + 1)) c with same | ⟨due, step⟩
  · rw [same]
    exact driven
  · exact driven.trans (.step (.expire c) step rfl ⟨drive_enough c sound, due⟩)

theorem proceed_stuck (sound : s.Sound) : (s.proceed c).advance c = none := by
  unfold proceed
  rcases cutIfDue_cases (s.drive c (Stage.opening.rank + 1)) c with same | ⟨-, step⟩
  · rw [same]
    exact drive_enough c sound
  · exact expire_stuck c step

theorem proceed_keeps (holds : System → Prop)
    (kept : ∀ s s' action, action = .advance c ∨ action = .expire c → s.Does action s' →
      holds s → holds s') (first : holds s) : holds (s.proceed c) := by
  have driven := drive_keeps c holds (fun s s' does => kept s s' _ (Or.inl rfl) does)
    (Stage.opening.rank + 1) first
  unfold proceed
  rcases cutIfDue_cases (s.drive c (Stage.opening.rank + 1)) c with same | ⟨-, step⟩
  · rw [same]
    exact driven
  · exact kept _ _ _ (Or.inr rfl) (act_does _ step) driven

/-- When one call has gone on as long as it can, all stand in the line if the others did. -/
theorem queued_proceed (sound : s.Sound) (queued : ∀ d, d ≠ c → s.Queued d) (d : Nat) :
    (s.proceed c).Queued d := by
  by_cases own : d = c
  · subst own
    exact queued_of_stuck ((proceed_elapses d sound).sound sound) d (proceed_stuck d sound)
  · refine (proceed_keeps c (fun s => s.Sound ∧ s.Queued d) ?_ ⟨sound, queued d own⟩).2
    rintro s s' action acts does ⟨sound, queued⟩
    obtain ⟨last, calls⟩ := does.calls_eq_set acts
    have same : s'.calls[d]? = s.calls[d]? := by
      rw [calls, List.getElem?_set_ne (Ne.symm own)]
    have other : action.call? ≠ some d := by
      rcases acts with rfl | rfl <;> simpa [Action.call?] using Ne.symm own
    exact ⟨does.sound sound, does.queued sound d other same queued⟩

end

/-! ## Letting all go on -/

section

variable {c : Nat}

def underway (s : System) : Nat := s.calls.countP fun call => call.trying?.isSome

theorem granted?_holds (sound : s.Sound) (granted : s.granted? = some c) :
    ∃ call stage expires, s.calls[c]? = some call ∧ call.phase = .trying stage expires ∧
      s.store.holds (txnOf c call) call.coupon = true := by
  obtain ⟨⟨name, t⟩, member, chosen⟩ := List.exists_of_findSome?_eq_some granted
  cases t with
  | manual number => cases chosen
  | attempt d number =>
    have held : s.store.holds (.attempt d number) name = true ∧ d = c := by
      simpa using chosen
    obtain ⟨held, rfl⟩ := held
    have live := sound.store.locks.live _ member
    have made : d < s.calls.length := sound.owned d number live
    have known : s.calls[d]? = some s.calls[d] := List.getElem?_eq_getElem made
    have serves := sound.calls d _ known
    obtain ⟨own, stage, expires, trying⟩ := serves.live number live
    have named := serves.tickets number name member
    refine ⟨_, stage, expires, known, trying, ?_⟩
    rw [txnOf, ← own, ← named]
    exact held

theorem not_holds_of_granted?_eq_none (nobody : s.granted? = none) (number : Nat) (name : String)
    (member : ⟨name, .attempt c number⟩ ∈ s.store.line) :
    s.store.holds (.attempt c number) name = false := by
  have refused := List.findSome?_eq_none_iff.mp nobody _ member
  simpa using refused

theorem stuck_of_granted?_eq_none (sound : s.Sound) (queued : ∀ c, s.Queued c)
    (nobody : s.granted? = none) : s.Stuck := by
  intro c
  refine (advance_eq_none_iff sound c).mpr fun call stage expires known trying => ?_
  have member := queued c call stage expires known trying
  have unheld := not_holds_of_granted?_eq_none nobody call.attempt call.coupon member
  exact decide_eq_true ⟨member, Bool.eq_false_iff.mp unheld⟩

def Holding (s : System) (c : Nat) : Prop :=
  ∀ call stage expires, s.calls[c]? = some call → call.phase = .trying stage expires →
    s.store.holds (txnOf c call) call.coupon = true

theorem Holding.step {action : Action} (holding : s.Holding c) (sound : s.Sound)
    (acts : action = .advance c ∨ action = .expire c) (does : s.Does action s') :
    s'.Holding c := by
  intro call' reached due known' trying'
  cases does with
  | advance d call stage expires store next known trying asked =>
    obtain rfl : d = c := by simpa using acts
    obtain rfl : call.proceed s.now expires next = call' := Option.some.inj
      ((getElem?_putCall_self (s := { s with store }) d call _ known).symm.trans known')
    obtain ⟨supports, move⟩ := sound.move known trying asked
    rcases move.of_held sound.store supports (holding call stage expires known trying) with
      ⟨holds, open_, -⟩ | ⟨result, rfl, -⟩
    · rw [call.proceed_open s.now expires next open_]
      exact holds
    · exact absurd trying' (call.conclude_over s.now result reached due)
  | expire d call stage expires known trying =>
    obtain rfl : d = c := by simpa using acts
    obtain rfl : call.conclude s.now _ = call' := Option.some.inj
      ((getElem?_putCall_self (s := { s with store := _ }) d call _ known).symm.trans known')
    exact absurd trying' (call.conclude_over s.now _ reached due)
  | byHand _ number store hand change => rcases acts with rfl | rfl <;> cases hand
  | _ => simp at acts

/-- A call whose attempt has the lock makes it to the end of the attempt. -/
theorem proceed_of_holding (sound : s.Sound) (holding : s.Holding c) (call : Call)
    (known : s.calls[c]? = some call) :
    ∃ last, (s.proceed c).calls = s.calls.set c last ∧ last.trying? = none := by
  have bound : c < s.calls.length := (List.getElem?_eq_some_iff.mp known).1
  have same : s.calls = s.calls.set c call :=
    (congrArg System.calls (putCall_self c call known)).symm
  have kept : ∀ (mid next : System) (action : Action),
      action = .advance c ∨ action = .expire c → mid.Does action next →
      (mid.Sound ∧ mid.Holding c ∧ ∃ last, mid.calls = s.calls.set c last) →
      next.Sound ∧ next.Holding c ∧ ∃ last, next.calls = s.calls.set c last := by
    rintro mid next action acts does ⟨sound, holding, before, calls⟩
    obtain ⟨after, set⟩ := does.calls_eq_set acts
    exact ⟨does.sound sound, holding.step sound acts does, after, by rw [set, calls, List.set_set]⟩
  obtain ⟨sound', holding', last, calls⟩ := proceed_keeps c _ kept ⟨sound, holding, call, same⟩
  have known' : (s.proceed c).calls[c]? = some last := by
    rw [calls, List.getElem?_set_self bound]
  refine ⟨last, calls, ?_⟩
  unfold Call.trying?
  split
  · rename_i stage expires trying
    have waits := (advance_eq_none_iff sound' c).mp (proceed_stuck c sound) last stage expires
      known' trying
    rw [Store.waits_eq_false_of_holds (holding' last stage expires known' trying)] at waits
    cases waits
  · rfl

theorem underway_proceed_lt (sound : s.Sound) (granted : s.granted? = some c) :
    (s.proceed c).underway < s.underway := by
  obtain ⟨call, stage, expires, known, trying, holds⟩ := granted?_holds sound granted
  have holding : s.Holding c := by
    intro other _ _ also _
    rw [known] at also
    rwa [← Option.some.inj also]
  obtain ⟨last, calls, stops⟩ := proceed_of_holding sound holding call known
  obtain ⟨bound, same⟩ := List.getElem?_eq_some_iff.mp known
  have counted : (s.calls[c].trying?).isSome = true := by
    rw [same, Call.trying?, trying]
    rfl
  have positive : 0 < s.underway :=
    List.countP_pos_iff.mpr ⟨s.calls[c], List.getElem_mem bound, counted⟩
  unfold underway at positive ⊢
  rw [calls, List.countP_set bound, if_pos counted, stops]
  simp only [Option.isSome_none, Bool.false_eq_true, if_false]
  omega

theorem settleUpTo_spec (count : Nat) (sound : s.Sound) (queued : ∀ c, s.Queued c)
    (enough : s.underway ≤ count) :
    s.Elapses (settleUpTo count s) ∧ (settleUpTo count s).Stuck := by
  induction count generalizing s with
  | zero =>
    refine ⟨.refl s, fun c => (advance_eq_none_iff sound c).mpr ?_⟩
    intro call stage expires known trying
    have none_ := List.countP_eq_zero.mp (Nat.le_zero.mp enough) call (List.mem_of_getElem? known)
    simp [Call.trying?, trying] at none_
  | succ count ih =>
    unfold settleUpTo
    cases granted : s.granted? with
    | none => exact ⟨.refl s, stuck_of_granted?_eq_none sound queued granted⟩
    | some c =>
      have elapses := proceed_elapses c sound
      have fewer := underway_proceed_lt sound granted
      obtain ⟨later, stuck⟩ :=
        ih (elapses.sound sound) (queued_proceed c sound fun d _ => queued d) (by omega)
      exact ⟨elapses.trans later, stuck⟩

theorem settle_spec (sound : s.Sound) (queued : ∀ c, s.Queued c) :
    s.Elapses s.settle ∧ s.settle.Stuck :=
  settleUpTo_spec _ sound queued List.countP_le_length

end

/-! ## Timers -/

theorem earlier_eq_none_iff (a b : Option (Nat × Nat)) :
    earlier a b = none ↔ a = none ∧ b = none := by
  cases a with
  | none => simp [earlier]
  | some first =>
    cases b with
    | none => simp [earlier]
    | some second =>
      simp only [earlier]
      split <;> simp

theorem earlier_eq_some {a b : Option (Nat × Nat)} {next : Nat × Nat}
    (first : earlier a b = some next) :
    (a = some next ∨ b = some next) ∧
      ∀ other, a = some other ∨ b = some other → next.1 ≤ other.1 := by
  cases a with
  | none =>
    obtain rfl : b = some next := first
    exact ⟨Or.inr rfl, by simp⟩
  | some own =>
    cases b with
    | none =>
      obtain rfl : own = next := Option.some.inj first
      exact ⟨Or.inl rfl, by simp⟩
    | some rival =>
      simp only [earlier] at first
      split at first <;> cases first
      · refine ⟨Or.inr rfl, ?_⟩
        rintro other (same | same) <;> cases same <;> omega
      · refine ⟨Or.inl rfl, ?_⟩
        rintro other (same | same) <;> cases same <;> omega

theorem nextTimerFrom_none (calls : List Call) (c : Nat) (next : nextTimerFrom c calls = none) :
    ∀ call ∈ calls, call.timer? = none := by
  induction calls generalizing c with
  | nil => simp
  | cons first rest ih =>
    obtain ⟨own, others⟩ := (earlier_eq_none_iff _ _).mp next
    intro call member
    rcases List.mem_cons.mp member with rfl | later
    · exact Option.map_eq_none_iff.mp own
    · exact ih (c + 1) others call later

theorem nextTimerFrom_some (calls : List Call) (c due d : Nat)
    (next : nextTimerFrom c calls = some (due, d)) :
    (∃ i, d = c + i ∧ (calls[i]?).bind Call.timer? = some due) ∧
      ∀ call ∈ calls, ∀ other, call.timer? = some other → due ≤ other := by
  induction calls generalizing c due d with
  | nil => cases next
  | cons first rest ih =>
    obtain ⟨source, least⟩ := earlier_eq_some next
    constructor
    · rcases source with own | later
      · obtain ⟨time, timer, same⟩ := Option.map_eq_some_iff.mp own
        cases same
        exact ⟨0, rfl, timer⟩
      · obtain ⟨⟨i, rfl, timer⟩, -⟩ := ih (c + 1) due d later
        exact ⟨i + 1, by omega, timer⟩
    · intro call member other timer
      rcases List.mem_cons.mp member with rfl | later
      · exact least (other, c) (Or.inl (by simp [timer]))
      · cases others : nextTimerFrom (c + 1) rest with
        | none =>
          rw [nextTimerFrom_none rest (c + 1) others call later] at timer
          cases timer
        | some rival =>
          have bound := least rival (Or.inr others)
          exact bound.trans ((ih (c + 1) rival.1 rival.2 others).2 call later other timer)

theorem nextTimer_some {due c : Nat} (next : s.nextTimer = some (due, c)) :
    s.timer? c = some due ∧ s.QuietUntil due := by
  obtain ⟨⟨i, place, own⟩, first⟩ := nextTimerFrom_some s.calls 0 due c next
  rw [Nat.zero_add] at place
  subst place
  refine ⟨own, fun d other timer => ?_⟩
  obtain ⟨call, known, timer⟩ := Option.bind_eq_some_iff.mp timer
  exact first call (List.mem_of_getElem? known) other timer

theorem nextTimer_none (next : s.nextTimer = none) (time : Nat) : s.QuietUntil time := by
  intro d other timer
  obtain ⟨call, known, timer⟩ := Option.bind_eq_some_iff.mp timer
  rw [nextTimerFrom_none s.calls 0 next call (List.mem_of_getElem? known)] at timer
  cases timer

theorem timersLeft_set (calls : List Call) (c : Nat) (call call' : Call)
    (known : calls[c]? = some call) :
    (calls.set c call').foldr (fun call count => call.timersLeft + count) 0 + call.timersLeft =
      calls.foldr (fun call count => call.timersLeft + count) 0 + call'.timersLeft := by
  induction calls generalizing c with
  | nil => cases known
  | cons first rest ih =>
    cases c with
    | zero =>
      obtain rfl : first = call := Option.some.inj known
      simp only [List.set_cons_zero, List.foldr_cons]
      omega
    | succ c =>
      have later := ih c known
      simp only [List.set_cons_succ, List.foldr_cons]
      omega

theorem timersLeft_putCall (store : Store) (c : Nat) (call call' : Call)
    (known : s.calls[c]? = some call) :
    (({ s with store } : System).putCall c call').timersLeft + call.timersLeft =
      s.timersLeft + call'.timersLeft :=
  timersLeft_set s.calls c call call' known

theorem quietUntil_of_timersLeft (again : s.AttemptsLeft) (spent : s.timersLeft = 0) (time : Nat) :
    s.QuietUntil time := by
  intro c due timer
  obtain ⟨call, known, timer⟩ := Option.bind_eq_some_iff.mp timer
  -- Without this call there would be no more timers left than with it.
  have part := timersLeft_putCall s.store c call { call with phase := .cancelled } known
  have own : call.timersLeft = 0 := by
    simp only [Call.timersLeft] at part ⊢
    omega
  cases phase : call.phase with
  | trying stage expires => simp [Call.timersLeft, phase] at own
  | resting wakes =>
    have left := again c call wakes known phase
    simp [Call.timersLeft, phase] at own
    omega
  | _ => simp [Call.timer?, phase] at timer

/-- How many timers go off by an action. -/
def rings : Action → Nat
  | .expire _ | .wake _ => 1
  | _ => 0

theorem timersLeft_conclude_le (call : Call) (now : Nat) (result : Except Error Claim) :
    (call.conclude now result).timersLeft ≤ 2 * (call.limit - call.attempt) := by
  unfold Call.conclude
  split
  · exact Nat.le_refl _
  · exact Nat.zero_le _

theorem Does.timersLeft {action : Action} (does : s.Does action s') (again : s.AttemptsLeft)
    (unprompted : action.unprompted = true) : rings action + s'.timersLeft ≤ s.timersLeft := by
  cases does with
  | advance c call stage expires store next known trying asked =>
    have part := timersLeft_putCall store c call (call.proceed s.now expires next) known
    have own : call.timersLeft = 2 * (call.limit - call.attempt) + 1 := by
      simp [Call.timersLeft, trying]
    have less : (call.proceed s.now expires next).timersLeft ≤ call.timersLeft := by
      rw [own]
      cases next with
      | settled result =>
        exact (timersLeft_conclude_le call s.now result).trans (Nat.le_succ _)
      | _ => exact Nat.le_refl _
    simp only [rings]
    omega
  | expire c call stage expires known trying =>
    have part := timersLeft_putCall (s.store.close (txnOf c call)) c call
      (call.conclude s.now (.error (.timeout call.coupon call.deadline))) known
    have less := timersLeft_conclude_le call s.now (.error (.timeout call.coupon call.deadline))
    have own : call.timersLeft = 2 * (call.limit - call.attempt) + 1 := by
      simp [Call.timersLeft, trying]
    simp only [rings]
    omega
  | wake c call wakes known resting =>
    let next : Call :=
      { call with attempt := call.attempt + 1, phase := .trying .opening (call.expiry s.now) }
    have part := timersLeft_putCall s.store c call next known
    have left := again c call wakes known resting
    have own : call.timersLeft = 2 * (call.limit - call.attempt) := by
      simp [Call.timersLeft, resting]
    have less : next.timersLeft = 2 * (call.limit - (call.attempt + 1)) + 1 := rfl
    change 1 + (s.putCall c next).timersLeft ≤ s.timersLeft
    change (s.putCall c next).timersLeft + _ = _ at part
    omega
  | byHand _ number store hand change => cases action <;> simp_all [Action.unprompted, Action.hand?]
  | pass ms => exact (Nat.zero_add _).le
  | _ => cases unprompted

theorem Elapses.timersLeft_le (elapses : s.Elapses s') (again : s.AttemptsLeft) :
    s'.timersLeft ≤ s.timersLeft := by
  refine (elapses.keeps (fun later => later.AttemptsLeft ∧ later.timersLeft ≤ s.timersLeft) ?_
    ⟨again, Nat.le_refl _⟩).2
  rintro mid next action unprompted does ⟨again, fewer⟩
  have spent := does.timersLeft again unprompted
  exact ⟨does.attemptsLeft again, by omega⟩

/-! ## The clock keeps time -/

/-- A system in which only the clock can go on. -/
structure Settled (s : System) : Prop where
  sound : s.Sound
  again : s.AttemptsLeft
  stuck : s.Stuck

theorem settled_empty : Settled {} where
  sound := sound_empty
  again := by simp [AttemptsLeft]
  stuck := fun c => by simp [advance]

theorem Settled.queued (settled : s.Settled) (c : Nat) : s.Queued c :=
  queued_of_stuck settled.sound c (settled.stuck c)

theorem settled_settle (sound : s.Sound) (again : s.AttemptsLeft) (queued : ∀ c, s.Queued c) :
    s.Elapses s.settle ∧ s.settle.Settled := by
  obtain ⟨elapses, stuck⟩ := settle_spec sound queued
  exact ⟨elapses, elapses.sound sound, elapses.attemptsLeft again, stuck⟩

/-- One call begins an attempt, and then all go on that can. -/
theorem settled_proceed (c : Nat) (sound : s.Sound) (again : s.AttemptsLeft)
    (queued : ∀ d, d ≠ c → s.Queued d) :
    s.Elapses (s.proceed c).settle ∧ (s.proceed c).settle.Settled := by
  have first := proceed_elapses c sound
  obtain ⟨later, settled⟩ := settled_settle (first.sound sound) (first.attemptsLeft again)
    (queued_proceed c sound queued)
  exact ⟨first.trans later, settled⟩

theorem Settled.moveTo (settled : s.Settled) (time : Nat) (quiet : s.QuietUntil time) :
    s.Elapses (s.moveTo time) ∧ (s.moveTo time).Settled := by
  have elapses : s.Elapses (s.moveTo time) := by
    rcases Nat.le_total s.now time with later | past
    · have whole : s.now + (time - s.now) = time := Nat.add_sub_cancel' later
      refine .step (.pass (time - s.now)) ?_ rfl ⟨settled.stuck, whole.symm ▸ quiet⟩
      rw [act, whole, System.moveTo, Nat.max_eq_right later]
    · rw [System.moveTo, Nat.max_eq_left past]
      exact .refl s
  have sound := elapses.sound settled.sound
  refine ⟨elapses, sound, elapses.attemptsLeft settled.again, fun c => ?_⟩
  exact (advance_eq_none_iff sound c).mpr
    ((advance_eq_none_iff settled.sound c).mp (settled.stuck c))

/-- Other calls stand where they stood, whatever is done by hand or to one call. -/
theorem Settled.queued_step {action : Action} (settled : s.Settled) (does : s.Does action s')
    (c : Nat) (other : action.call? ≠ some c) (same : s'.calls[c]? = s.calls[c]?) : s'.Queued c :=
  does.queued settled.sound c other same (settled.queued c)

theorem Settled.expire {c : Nat} (settled : s.Settled) (step : s.expire c = some s') :
    s'.Elapses s'.settle ∧ s'.settle.Settled := by
  have does := expire_does c step
  have sound := does.sound settled.sound
  refine settled_settle sound (does.attemptsLeft settled.again) fun d => ?_
  by_cases own : d = c
  · subst own
    exact queued_of_stuck sound d (expire_stuck d step)
  · obtain ⟨last, calls⟩ := does.calls_eq_set (Or.inr rfl)
    refine settled.queued_step does d (by simpa [Action.call?] using Ne.symm own) ?_
    rw [calls, List.getElem?_set_ne (Ne.symm own)]

theorem Settled.wake {c : Nat} (settled : s.Settled) (step : s.wake c = some s') :
    s'.Elapses (s'.proceed c).settle ∧ (s'.proceed c).settle.Settled := by
  have does := wake_does c step
  refine settled_proceed c (does.sound settled.sound) (does.attemptsLeft settled.again)
    fun d apart => settled.queued_step does d (by simp [Action.call?]) ?_
  cases does with
  | byHand _ number store hand change => cases hand
  | wake _ call wakes known resting => exact List.getElem?_set_ne (Ne.symm apart)

/-- A timer that is due goes off, and all go on that can then. -/
theorem Settled.fire {c : Nat} (settled : s.Settled) (due : s.Due c) :
    s.Elapses (s.fire c) ∧ (s.fire c).Settled ∧ (s.fire c).timersLeft < s.timersLeft := by
  have spends : ∀ (action : Action) (next last : System), s.act action = some next →
      action.unprompted = true → rings action = 1 → next.Elapses last →
      last.timersLeft < s.timersLeft := by
    intro action next last step unprompted rings later
    have does := act_does action step
    have spent := does.timersLeft settled.again unprompted
    have rest := later.timersLeft_le (does.attemptsLeft settled.again)
    omega
  obtain ⟨time, timer, -⟩ := id due
  obtain ⟨call, known, timer⟩ := Option.bind_eq_some_iff.mp timer
  unfold System.fire
  cases phase : call.phase with
  | trying stage expires =>
    have step := expire_eq c call stage expires known phase
    obtain ⟨later, rests⟩ := settled.expire step
    have first := Elapses.step (.expire c) step rfl ⟨settled.stuck c, due⟩
    rw [step]
    exact ⟨first.trans later, rests, spends (.expire c) _ _ step rfl rfl later⟩
  | resting wakes =>
    have spared : s.expire c = none := by
      simp [System.expire, known, phase]
    have step := wake_eq c call wakes known phase
    obtain ⟨later, rests⟩ := settled.wake step
    have first := Elapses.step (.wake c) step rfl due
    rw [spared, step]
    exact ⟨first.trans later, rests, spends (.wake c) _ _ step rfl rfl later⟩
  | _ => simp [Call.timer?, phase] at timer

/-- The clock moves to the next timer, and the timer goes off. -/
theorem Settled.ring {due c : Nat} (settled : s.Settled) (next : s.nextTimer = some (due, c)) :
    s.Elapses ((s.moveTo due).fire c) ∧ ((s.moveTo due).fire c).Settled ∧
      ((s.moveTo due).fire c).timersLeft < s.timersLeft := by
  obtain ⟨timer, quiet⟩ := nextTimer_some next
  obtain ⟨moves, moved⟩ := settled.moveTo due quiet
  obtain ⟨fires, fired, fewer⟩ := moved.fire ⟨due, timer, Nat.le_max_right _ _⟩
  exact ⟨moves.trans fires, fired, fewer⟩

theorem Settled.waitUpTo (settled : s.Settled) (stop : System → Bool) (limit count : Nat)
    (enough : s.timersLeft ≤ count) :
    s.Elapses (waitUpTo stop limit count s) ∧ (waitUpTo stop limit count s).Settled := by
  -- The induction is on the timers that are allowed to go off; each that does leaves fewer.
  induction count generalizing s with
  | zero =>
    unfold System.waitUpTo
    split
    · exact ⟨.refl s, settled⟩
    · exact settled.moveTo limit
        (quietUntil_of_timersLeft settled.again (Nat.le_zero.mp enough) limit)
  | succ count ih =>
    unfold System.waitUpTo
    split
    · exact ⟨.refl s, settled⟩
    · cases next : s.nextTimer with
      | none => exact settled.moveTo limit (nextTimer_none next limit)
      | some first =>
        obtain ⟨due, c⟩ := first
        dsimp only
        split
        · obtain ⟨rings, rests, fewer⟩ := settled.ring next
          obtain ⟨later, last⟩ := ih rests (by omega)
          exact ⟨rings.trans later, last⟩
        · have quiet := (nextTimer_some next).2
          refine settled.moveTo limit fun d time other => ?_
          have bound := quiet d time other
          omega

theorem Settled.awaitUpTo (settled : s.Settled) (stop : System → Bool) (count : Nat) :
    s.Elapses (awaitUpTo stop count s) ∧ (awaitUpTo stop count s).Settled := by
  induction count generalizing s with
  | zero => exact ⟨.refl s, settled⟩
  | succ count ih =>
    unfold System.awaitUpTo
    split
    · exact ⟨.refl s, settled⟩
    · cases next : s.nextTimer with
      | none => exact ⟨.refl s, settled⟩
      | some first =>
        obtain ⟨due, c⟩ := first
        obtain ⟨rings, rests, -⟩ := settled.ring next
        obtain ⟨later, last⟩ := ih rests
        exact ⟨rings.trans later, last⟩

/-- Whatever the clock is told to wait for, and however long, it keeps time. -/
theorem Settled.waitUntil (settled : s.Settled) (stop : System → Bool) (limit : Nat) :
    s.Elapses (s.waitUntil stop limit) ∧ (s.waitUntil stop limit).Settled :=
  settled.waitUpTo stop limit s.timersLeft (Nat.le_refl _)

theorem limit_le_waitUpTo (limit count : Nat) (s : System) :
    limit ≤ (waitUpTo (fun _ => false) limit count s).now := by
  induction count generalizing s with
  | zero => exact Nat.le_max_right _ _
  | succ count ih =>
    unfold System.waitUpTo
    cases s.nextTimer with
    | none => exact Nat.le_max_right _ _
    | some first =>
      dsimp only
      split
      · cases ‹false = true›
      · split
        · exact ih _
        · exact Nat.le_max_right _ _

theorem Settled.await (settled : s.Settled) (stop : System → Bool) :
    s.Elapses (s.await stop) ∧ (s.await stop).Settled :=
  settled.awaitUpTo stop s.timersLeft

theorem Settled.spawn (settled : s.Settled) (user coupon : String) (deadline : Duration)
    (limit : Nat) :
    (s.start user coupon deadline limit).Elapses (s.spawn user coupon deadline limit).2 ∧
      (s.spawn user coupon deadline limit).2.Settled := by
  have does : s.Does (.start user coupon deadline limit) (s.start user coupon deadline limit) :=
    .start user coupon deadline limit
  refine settled_proceed s.calls.length (does.sound settled.sound)
    (does.attemptsLeft settled.again) fun d apart => ?_
  refine settled.queued_step does d (by simp [Action.call?]) ?_
  change (s.calls ++ [_])[d]? = s.calls[d]?
  rcases Nat.lt_or_gt_of_ne apart with old | beyond
  · exact List.getElem?_append_left old
  · rw [List.getElem?_eq_none (Nat.le_of_lt beyond), List.getElem?_eq_none]
    rw [List.length_append]
    exact beyond

/-- Something is done by hand, and all go on that can then. -/
theorem Settled.byHand {action : Action} (settled : s.Settled) (does : s.Does action s')
    (byNone : action.call? = none) (calls : s'.calls = s.calls) :
    s'.Elapses s'.settle ∧ s'.settle.Settled :=
  settled_settle (does.sound settled.sound) (does.attemptsLeft settled.again) fun c =>
    settled.queued_step does c (by simp [byNone]) (congrArg (·[c]?) calls)

theorem Settled.cancel {c : Nat} (settled : s.Settled) (step : s.cancel c = some s') :
    s'.Elapses s'.settle ∧ s'.settle.Settled := by
  have does := cancel_does c step
  obtain ⟨last, calls, cancelled⟩ :
      ∃ last, s'.calls = s.calls.set c last ∧ last.phase = .cancelled := by
    cases does with
    | byHand _ number store hand change => cases hand
    | _ => exact ⟨_, rfl, rfl⟩
  refine settled_settle (does.sound settled.sound) (does.attemptsLeft settled.again) fun d => ?_
  by_cases own : d = c
  · subst own
    intro call stage expires known trying
    rw [calls, List.getElem?_set, if_pos rfl] at known
    have same : last = call := by
      split at known
      · exact Option.some.inj known
      · cases known
    rw [← same, cancelled] at trying
    cases trying
  · refine settled.queued_step does d (by simpa [Action.call?] using Ne.symm own) ?_
    rw [calls, List.getElem?_set_ne (Ne.symm own)]

end CouponDesk.Memory.System
