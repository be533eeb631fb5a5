import CouponDesk.Proofs.Memory.Locks
import CouponDesk.Proofs.Memory.Stock
import Mathlib.Algebra.BigOperators.Group.Finset.Basic
import Mathlib.Algebra.Order.BigOperators.Group.Finset

/-!
# Progress

An attempt asks for one lock only, and the transaction that holds it waits for nothing.  So there
is always someone who can go on, and what the calls can still do before they are answered is
bounded: at most eight steps for each attempt that is left to them.  Calls that are neither cut
off nor abandoned are therefore all answered, whatever the order of their steps.
-/

set_option autoImplicit false

namespace CouponDesk.Memory

def Action.carries : Action → Bool
  | .advance _ | .wake _ => true
  | _ => false

/-- A step by which no attempt is cut off or abandoned and nothing is done by hand. -/
def Action.calm : Action → Bool
  | .create _ _ | .failCommits _ | .start _ _ _ _ | .advance _ | .wake _ | .pass _ => true
  | _ => false

/-- The steps that an action adds to those in which calls can still be carried on. -/
def Action.allowance : Action → Nat
  | .start _ _ _ limit => 8 * Retry.limit limit
  | _ => 0

/-- The steps that a list of actions adds to those in which calls can still be carried on. -/
def allowanceOf (actions : List Action) : Nat :=
  actions.foldr (fun action total => action.allowance + total) 0

theorem Action.hand?_of_calm (action : Action) (calm : action.calm = true) :
    action.hand? = none := by
  cases action with
  | begin | lock | leave | insert | decrement | commit | rollback => cases calm
  | _ => rfl

theorem Action.allowance_of_no_start (action : Action)
    (other : ∀ user coupon deadline limit, action ≠ .start user coupon deadline limit) :
    action.allowance = 0 := by
  cases action with
  | start user coupon deadline limit => exact absurd rfl (other user coupon deadline limit)
  | _ => rfl

namespace Call

def isOpen (call : Call) : Bool :=
  match call.phase with
  | .trying _ _ | .resting _ => true
  | _ => false

theorem isOpen_of_trying (call : Call) (stage : Stage) (expires : Nat)
    (trying : call.phase = .trying stage expires) : call.isOpen = true := by
  unfold isOpen
  rw [trying]

theorem proceed_not_cancelled (call : Call) (now expires : Nat) (stage : Stage) :
    (call.proceed now expires stage).phase ≠ .cancelled := by
  cases stage with
  | settled result =>
      change (call.conclude now result).phase ≠ .cancelled
      unfold conclude
      split
      · exact Phase.noConfusion
      · exact Phase.noConfusion
  | _ => exact Phase.noConfusion

/-- After its attempt has ended, a call that pauses has attempts left. -/
theorem lt_limit_of_conclude_resting (call : Call) (now wakes : Nat)
    (result : Except Error Claim)
    (resting : (call.conclude now result).phase = .resting wakes) :
    (call.conclude now result).attempt < (call.conclude now result).limit := by
  unfold conclude at resting ⊢
  split
  · exact Retry.lt_of_pause?_eq_some ‹_›
  · rename_i stands
    rw [stands] at resting
    cases resting

/-- A bound on the steps with which a call can still be carried on; `toJoin` is one as long as its
attempt does not stand in the line. -/
def work (call : Call) (toJoin : Nat) : Nat :=
  match call.phase with
  | .trying stage _ => 8 * (call.limit - call.attempt) + stage.rank + toJoin
  | .resting _ => 8 * (call.limit - call.attempt)
  | _ => 0

theorem work_of_trying (call : Call) (toJoin : Nat) (stage : Stage) (expires : Nat)
    (trying : call.phase = .trying stage expires) :
    call.work toJoin = 8 * (call.limit - call.attempt) + stage.rank + toJoin := by
  unfold work
  rw [trying]

theorem work_conclude_le (call : Call) (now toJoin : Nat) (result : Except Error Claim) :
    (call.conclude now result).work toJoin ≤ 8 * (call.limit - call.attempt) := by
  unfold conclude
  split
  · exact Nat.le_refl _
  · exact Nat.zero_le _

end Call

/-! ## Standing in the line -/

namespace Store

variable {s store : Store} {t : TxnId} {coupon : String}

def toJoin (s : Store) (t : TxnId) (name : String) : Nat :=
  if ⟨name, t⟩ ∈ s.line then 0 else 1

theorem toJoin_le (s : Store) (t : TxnId) (name : String) : s.toJoin t name ≤ 1 := by
  unfold toJoin
  split
  · exact Nat.zero_le 1
  · exact Nat.le_refl 1

theorem toJoin_of_mem (s : Store) (t : TxnId) (name : String) (member : ⟨name, t⟩ ∈ s.line) :
    s.toJoin t name = 0 := if_pos member

theorem toJoin_congr (t u : TxnId) (name : String)
    (same : ⟨name, u⟩ ∈ store.line ↔ ⟨name, t⟩ ∈ s.line) :
    store.toJoin u name = s.toJoin t name := by
  unfold toJoin
  exact if_congr same rfl rfl

theorem mem_join (s : Store) (t : TxnId) (name : String) : ⟨name, t⟩ ∈ (s.join t name).line := by
  unfold join
  split
  · assumption
  · exact List.mem_append_right _ (List.mem_singleton_self _)

/-- Whoever has to wait for a lock on joining its line did not stand there before. -/
theorem not_mem_of_queued (free : s.waits t coupon = false)
    (taken : (s.join t coupon).holds t coupon = false) : ⟨coupon, t⟩ ∉ s.line := by
  intro member
  have stays : s.join t coupon = s := if_pos member
  rw [stays] at taken
  unfold waits at free
  simp [member, taken] at free

theorem exists_holder (name : String) (member : ⟨name, t⟩ ∈ s.line) :
    ∃ u, s.holds u name = true := by
  have found : (s.line.find? (·.coupon = name)).isSome := by
    rw [List.find?_isSome]
    exact ⟨_, member, by simp⟩
  obtain ⟨ticket, found⟩ := Option.isSome_iff_exists.mp found
  have named : ticket.coupon = name := by simpa using List.find?_some found
  refine ⟨ticket.txn, (holds_iff s ticket.txn name).mpr ?_⟩
  rw [found, ← named]

end Store

def Attempt.txn (a : Attempt) : TxnId := .attempt a.call a.number

/-- A move ends an attempt, or brings it nearer to its end, or into the line. -/
theorem Move.nears {s store : Store} {t : TxnId} {user coupon : String} {stage next : Stage}
    (move : Move user coupon t s stage store next) (free : s.waits t coupon = false) :
    (∃ result, next = .settled result) ∨
      next.rank + store.toJoin t coupon < stage.rank + s.toJoin t coupon := by
  have after := store.toJoin_le t coupon
  cases move with
  | opens | missing | repeated | draws | takes =>
      exact Or.inr (Nat.add_lt_add_right (by simp [Stage.rank]) (s.toJoin t coupon))
  | queues row found taken =>
      -- The stage stays, but the attempt did not stand in the line before.
      have absent : s.toJoin t coupon = 1 := if_neg (Store.not_mem_of_queued free taken)
      have present := (s.join t coupon).toJoin_of_mem t coupon (s.mem_join t coupon)
      exact Or.inr (by omega)
  | soldOut row found empty holds =>
      simp only [Stage.rank]
      exact Or.inr (by omega)
  | secures row found stock holds =>
      have present := (s.join t coupon).toJoin_of_mem t coupon (s.mem_join t coupon)
      simp only [Stage.rank]
      exact Or.inr (by omega)
  | loses | clashes | commits | undoes => exact Or.inl ⟨_, rfl⟩

namespace System

variable {s s' : System}

/-! ## Where calls alone act -/

def AttemptsLeft (s : System) : Prop :=
  ∀ (c : Nat) (call : Call) (wakes : Nat), s.calls[c]? = some call →
    call.phase = .resting wakes → call.attempt < call.limit

structure ByCalls (s : System) : Prop where
  sound : s.Sound
  unmanned : ∀ number, s.store.isLive (.manual number) = false
  again : s.AttemptsLeft

theorem byCalls_empty : ByCalls {} where
  sound := sound_empty
  unmanned := fun number => rfl
  again := by
    intro c call wakes known
    simp at known

theorem Does.attemptsLeft {action : Action} (does : s.Does action s') (again : s.AttemptsLeft) :
    s'.AttemptsLeft := by
  intro c call wakes known resting
  cases does.turns c call known with
  | stays _ _ before => exact again c call wakes before resting
  | starts user coupon deadline limit new => cases resting
  | advances other stage next expires before trying asked =>
      cases next with
      | settled result => exact other.lt_limit_of_conclude_resting s.now wakes result resting
      | _ => cases resting
  | expires other stage due before trying =>
      exact other.lt_limit_of_conclude_resting s.now wakes _ resting
  | wakes other due before pauses => cases resting
  | cancels other before => cases resting

theorem ByCalls.step (driven : s.ByCalls) (action : Action) (byCall : action.hand? = none)
    (step : s.act action = some s') : s'.ByCalls where
  sound := (act_does action step).sound driven.sound
  unmanned := by
    intro number
    refine act_not_live number action ?_ step driven.sound (driven.unmanned number)
    rintro rfl
    cases byCall
  again := (act_does action step).attemptsLeft driven.again

theorem ByCalls.keeps (driven : s.ByCalls) (actions : List Action)
    (byCalls : ∀ action ∈ actions, action.hand? = none) (runs : run actions s = some s') :
    s'.ByCalls := by
  induction actions generalizing s with
  | nil =>
      cases runs
      exact driven
  | cons action rest ih =>
      obtain ⟨next, step, runs⟩ := Option.bind_eq_some_iff.mp runs
      refine ih ?_ (fun other member => byCalls other (List.mem_cons_of_mem _ member)) runs
      exact driven.step action (byCalls action List.mem_cons_self) step

/-! ## Waiting -/

/-- Whoever stands in the line is an attempt under way, and stands there for one coupon only. -/
theorem ByCalls.ticket (driven : s.ByCalls) (t : TxnId) (name : String)
    (member : ⟨name, t⟩ ∈ s.store.line) :
    (∃ a, t = Attempt.txn a ∧ s.Underway a) ∧
      ∀ other, ⟨other, t⟩ ∈ s.store.line → other = name := by
  have live := driven.sound.store.locks.live _ member
  cases t with
  | manual number =>
      rw [driven.unmanned number] at live
      cases live
  | attempt c number =>
      have bound := driven.sound.owned c number live
      have known : s.calls[c]? = some s.calls[c] := List.getElem?_eq_getElem bound
      have serves := driven.sound.calls c _ known
      obtain ⟨same, stage, expires, trying⟩ := serves.live number live
      refine ⟨⟨⟨c, number⟩, rfl, s.calls[c], stage, expires, known, same.symm, trying⟩, ?_⟩
      intro other also
      rw [serves.tickets number other also, serves.tickets number name member]

/-- A lock that someone waits for is held by an attempt that waits for nothing. -/
theorem ByCalls.waits (driven : s.ByCalls) (t : TxnId) (name : String)
    (waits : s.store.waits t name = true) :
    ∃ a b, t = Attempt.txn a ∧ s.Underway a ∧ s.Underway b ∧
      s.store.holds b.txn name = true ∧ ∀ other, s.store.waits b.txn other = false := by
  have member : ⟨name, t⟩ ∈ s.store.line := (of_decide_eq_true waits).1
  obtain ⟨u, holds⟩ := Store.exists_holder name member
  obtain ⟨⟨a, same, underway⟩, -⟩ := driven.ticket t name member
  obtain ⟨⟨b, rfl, underway'⟩, single⟩ :=
    driven.ticket u name (Store.ticket_of_holds _ u name holds)
  refine ⟨a, b, same, underway, underway', holds, fun other => ?_⟩
  -- The holder stands in the line for this coupon only, and there it is the first.
  rw [Bool.eq_false_iff]
  intro waiting
  obtain rfl := single other (of_decide_eq_true waiting).1
  rw [Store.waits_eq_false_of_holds holds] at waiting
  cases waiting

theorem advance_isSome (c : Nat) (call : Call) (stage : Stage) (expires : Nat)
    (known : s.calls[c]? = some call) (trying : call.phase = .trying stage expires)
    (free : s.store.waits (txnOf c call) call.coupon = false) :
    (s.act (.advance c)).isSome = true := by
  change (s.advance c).isSome = true
  rw [advance_eq c call stage expires known trying, Option.isSome_map]
  exact Store.ask_isSome stage free

theorem wake_isSome (c : Nat) (call : Call) (wakes : Nat) (known : s.calls[c]? = some call)
    (resting : call.phase = .resting wakes) : (s.act (.wake c)).isSome = true := by
  rw [act, wake_eq c call wakes known resting]
  rfl

/-- As long as a call is open, some open call can be carried on. -/
theorem ByCalls.progress (driven : s.ByCalls) (c : Nat) (call : Call)
    (known : s.calls[c]? = some call) (open_ : call.isOpen = true) :
    ∃ d other, s.calls[d]? = some other ∧ other.isOpen = true ∧
      ((s.act (.advance d)).isSome = true ∨ (s.act (.wake d)).isSome = true) := by
  cases phase : call.phase with
  | trying stage expires =>
      cases waits : s.store.waits (txnOf c call) call.coupon with
      | false =>
          exact ⟨c, call, known, open_,
            Or.inl (advance_isSome c call stage expires known phase waits)⟩
      | true =>
          obtain ⟨-, b, -, -, ⟨other, stage', expires', known', same, trying'⟩, -, free⟩ :=
            driven.waits _ _ waits
          have own : txnOf b.call other = b.txn := congrArg (TxnId.attempt b.call) same
          exact ⟨b.call, other, known', other.isOpen_of_trying stage' expires' trying',
            Or.inl (advance_isSome b.call other stage' expires' known' trying'
              (by rw [own]; exact free other.coupon))⟩
  | resting wakes =>
      exact ⟨c, call, known, open_, Or.inr (wake_isSome c call wakes known phase)⟩
  | finished result at_ =>
      unfold Call.isOpen at open_
      rw [phase] at open_
      cases open_
  | cancelled =>
      unfold Call.isOpen at open_
      rw [phase] at open_
      cases open_

/-! ## The work that is left -/

def workOf (s : System) (c : Nat) : Nat :=
  match s.calls[c]? with
  | some call => call.work (s.store.toJoin (txnOf c call) call.coupon)
  | none => 0

def work (s : System) : Nat := ∑ c ∈ Finset.range s.calls.length, s.workOf c

theorem workOf_eq (c : Nat) (call : Call) (known : s.calls[c]? = some call) :
    s.workOf c = call.work (s.store.toJoin (txnOf c call) call.coupon) := by
  unfold workOf
  rw [known]

theorem work_congr (calls : s'.calls = s.calls) (line : s'.store.line = s.store.line) :
    s'.work = s.work := by
  unfold work workOf Store.toJoin
  rw [calls, line]

/-- What one call does adds nothing to the work of the others. -/
theorem work_putCall_lt (c : Nat) (call call' : Call) (store : Store)
    (known : s.calls[c]? = some call) (change : s.store.Change (txnOf c call) store)
    (less : call'.work (store.toJoin (txnOf c call') call'.coupon) <
      call.work (s.store.toJoin (txnOf c call) call.coupon)) :
    (({ s with store } : System).putCall c call').work < s.work := by
  have bound : c < s.calls.length := (List.getElem?_eq_some_iff.mp known).1
  have length : (({ s with store } : System).putCall c call').calls.length = s.calls.length :=
    List.length_set
  have known' := getElem?_putCall (s := { s with store }) c call call' known
  have own : (({ s with store } : System).putCall c call').workOf c < s.workOf c := by
    rw [workOf_eq c call known, workOf_eq c call' ((known' c).trans (if_pos rfl))]
    exact less
  have others : ∀ d, c ≠ d →
      (({ s with store } : System).putCall c call').workOf d = s.workOf d := by
    intro d apart
    unfold workOf
    rw [known' d, if_neg apart]
    cases known : s.calls[d]? with
    | none => rfl
    | some other =>
        have foreign : txnOf d other ≠ txnOf c call :=
          fun same => apart (TxnId.attempt.inj same).1.symm
        exact congrArg other.work
          (Store.toJoin_congr _ _ _ (change.ticket_of_ne _ foreign other.coupon))
  unfold work
  rw [length]
  refine Finset.sum_lt_sum ?_ ⟨c, Finset.mem_range.mpr bound, own⟩
  intro d _
  by_cases same : c = d
  · subst same
    exact Nat.le_of_lt own
  · exact Nat.le_of_eq (others d same)

/-- A new call has at most eight steps for each attempt allowed to it. -/
theorem work_start_le (user coupon : String) (deadline : Duration) (limit : Nat) :
    (s.start user coupon deadline limit).work ≤ s.work + 8 * Retry.limit limit := by
  have length : (s.start user coupon deadline limit).calls.length = s.calls.length + 1 :=
    List.length_append
  have earlier : ∀ c ∈ Finset.range s.calls.length,
      (s.start user coupon deadline limit).workOf c = s.workOf c := by
    intro c member
    unfold workOf
    change (match (s.calls ++ [_])[c]? with | some call => _ | none => 0) = _
    rw [List.getElem?_append_left (Finset.mem_range.mp member)]
    rfl
  have added : (s.start user coupon deadline limit).workOf s.calls.length ≤
      8 * Retry.limit limit := by
    have toJoin := s.store.toJoin_le (.attempt s.calls.length 1) coupon
    rw [workOf_eq s.calls.length _ List.getElem?_concat_length]
    change 8 * (limit - 1) + Stage.opening.rank +
      s.store.toJoin (.attempt s.calls.length 1) coupon ≤ 8 * max limit 1
    simp only [Stage.rank]
    omega
  unfold work
  rw [length, Finset.sum_range_succ, Finset.sum_congr rfl earlier]
  exact Nat.add_le_add_left added _

theorem work_advance_lt (sound : s.Sound) (c : Nat) (call : Call) (stage : Stage) (expires : Nat)
    (store : Store) (next : Stage) (known : s.calls[c]? = some call)
    (trying : call.phase = .trying stage expires)
    (asked : s.store.ask (txnOf c call) call.user call.coupon stage = some (store, next)) :
    (({ s with store } : System).putCall c (call.proceed s.now expires next)).work < s.work := by
  obtain ⟨supports, move⟩ := sound.move known trying asked
  refine work_putCall_lt c call _ store known (move.change supports) ?_
  rw [call.work_of_trying _ stage expires trying]
  by_cases settled : ∃ result, next = .settled result
  · obtain ⟨result, rfl⟩ := settled
    have positive : 0 < stage.rank := by
      cases stage with
      | settled given => exact supports.elim
      | _ => exact Nat.zero_lt_succ _
    have left := call.work_conclude_le s.now
      (store.toJoin (txnOf c (call.conclude s.now result)) (call.conclude s.now result).coupon)
      result
    exact Nat.lt_of_le_of_lt left (by omega)
  · have open_ : ∀ result, next ≠ .settled result := fun result same => settled ⟨result, same⟩
    have free := Store.free_of_ask stage supports store next asked
    have nearer := (move.nears free).resolve_left settled
    rw [call.proceed_open s.now expires next open_]
    change 8 * (call.limit - call.attempt) + next.rank + store.toJoin (txnOf c call) call.coupon < _
    omega

/-- The end of a pause spends one of the steps set aside for the next attempt. -/
theorem work_wake_lt (again : s.AttemptsLeft) (c : Nat) (call : Call) (wakes : Nat)
    (known : s.calls[c]? = some call) (resting : call.phase = .resting wakes) :
    (s.putCall c { call with
      attempt := call.attempt + 1, phase := .trying .opening (call.expiry s.now) }).work <
      s.work := by
  refine work_putCall_lt c call _ s.store known .kept ?_
  have left := again c call wakes known resting
  have toJoin := s.store.toJoin_le (.attempt c (call.attempt + 1)) call.coupon
  have before : call.work (s.store.toJoin (txnOf c call) call.coupon) =
      8 * (call.limit - call.attempt) := by
    unfold Call.work
    rw [resting]
  rw [before]
  change 8 * (call.limit - (call.attempt + 1)) + Stage.opening.rank +
    s.store.toJoin (.attempt c (call.attempt + 1)) call.coupon < _
  simp only [Stage.rank]
  omega

/-- Every step that carries a call on takes from the work that is left, and only new calls add to
it. -/
theorem Does.work {action : Action} (does : s.Does action s') (driven : s.ByCalls)
    (calm : action.calm = true) :
    (if action.carries then 1 else 0) + s'.work ≤ s.work + action.allowance := by
  have same : s'.calls = s.calls → s'.store.line = s.store.line →
      0 + s'.work ≤ s.work + 0 := by
    intro calls line
    rw [work_congr calls line, Nat.zero_add, Nat.add_zero]
  cases does with
  | create name amount => exact same rfl (s.store.create_frame name amount).2.1
  | start user coupon deadline limit =>
      simpa [Action.carries, Action.allowance] using
        work_start_le (s := s) user coupon deadline limit
  | advance c call stage expires store next known trying asked =>
      have less := work_advance_lt driven.sound c call stage expires store next known trying asked
      simp only [Action.carries, if_true, Action.allowance]
      omega
  | wake c call wakes known resting =>
      have less := work_wake_lt driven.again c call wakes known resting
      simp only [Action.carries, if_true, Action.allowance]
      omega
  | byHand action number store hand change =>
      rw [action.hand?_of_calm calm] at hand
      cases hand
  | failCommits count => exact same rfl rfl
  | pass ms => exact same rfl rfl
  | expire | cancel | cancelPause => cases calm

theorem ByCalls.run_work (driven : s.ByCalls) (actions : List Action)
    (calm : ∀ action ∈ actions, action.calm = true) (runs : run actions s = some s') :
    actions.countP Action.carries + s'.work ≤ s.work + allowanceOf actions := by
  induction actions generalizing s with
  | nil =>
      cases runs
      simp [allowanceOf]
  | cons action rest ih =>
      obtain ⟨next, step, runs⟩ := Option.bind_eq_some_iff.mp runs
      have first := calm action List.mem_cons_self
      have spent := (act_does action step).work driven first
      have later := ih (driven.step action (action.hand?_of_calm first) step)
        (fun other member => calm other (List.mem_cons_of_mem _ member)) runs
      have total : allowanceOf (action :: rest) = action.allowance + allowanceOf rest := rfl
      rw [List.countP_cons, total]
      omega

/-! ## The end of a run -/

def Still (s : System) : Prop :=
  ∀ c, s.act (.advance c) = none ∧ s.act (.wake c) = none

theorem ByCalls.closed_of_still (driven : s.ByCalls) (still : s.Still) (c : Nat) (call : Call)
    (known : s.calls[c]? = some call) : call.isOpen = false := by
  rw [Bool.eq_false_iff]
  intro open_
  obtain ⟨d, other, -, -, enabled⟩ := driven.progress c call known open_
  obtain ⟨stuck, asleep⟩ := still d
  rcases enabled with advances | wakes
  · rw [stuck] at advances
    cases advances
  · rw [asleep] at wakes
    cases wakes

theorem Does.cancelled_before {action : Action} (does : s.Does action s')
    (calm : action.calm = true) (c : Nat) (call : Call) (known : s'.calls[c]? = some call)
    (cancelled : call.phase = .cancelled) : s.calls[c]? = some call := by
  cases does.turns c call known with
  | stays _ _ before => exact before
  | starts user coupon deadline limit new => cases cancelled
  | advances other stage next expires before trying asked =>
      exact absurd cancelled (other.proceed_not_cancelled s.now expires next)
  | wakes other due before resting => cases cancelled
  | expires | cancels => cases calm

theorem run_cancelled_before (actions : List Action)
    (calm : ∀ action ∈ actions, action.calm = true) (runs : run actions s = some s') (c : Nat)
    (call : Call) (known : s'.calls[c]? = some call) (cancelled : call.phase = .cancelled) :
    s.calls[c]? = some call := by
  refine run_keeps (fun last => last.calls[c]? = some call → s.calls[c]? = some call)
    (fun action => action.calm = true) ?_ actions calm runs id known
  intro mid last action calm does before known
  exact before (does.cancelled_before calm c call known cancelled)

/-- Carrying calls on comes to an end. -/
theorem ByCalls.exists_still (driven : s.ByCalls) :
    ∃ actions last, (∀ action ∈ actions, action.carries = true) ∧ run actions s = some last ∧
      last.Still := by
  -- By induction on the work: as long as a call can be carried on, a step leaves less of it.
  induction left : s.work using Nat.strongRecOn generalizing s with
  | ind left ih =>
    by_cases still : s.Still
    · exact ⟨[], s, by simp, rfl, still⟩
    · have enabled : ∃ action next, action.carries = true ∧ s.act action = some next := by
        unfold Still at still
        push Not at still
        obtain ⟨c, moves⟩ := still
        by_cases stuck : s.act (.advance c) = none
        · obtain ⟨next, step⟩ := Option.ne_none_iff_exists'.mp (moves stuck)
          exact ⟨.wake c, next, rfl, step⟩
        · obtain ⟨next, step⟩ := Option.ne_none_iff_exists'.mp stuck
          exact ⟨.advance c, next, rfl, step⟩
      obtain ⟨action, next, carries, step⟩ := enabled
      have calm : action.calm = true ∧ action.allowance = 0 := by
        cases action with
        | advance c => exact ⟨rfl, rfl⟩
        | wake c => exact ⟨rfl, rfl⟩
        | _ => cases carries
      have spent := (act_does action step).work driven calm.1
      rw [if_pos carries, calm.2] at spent
      obtain ⟨rest, last, all, runs, still⟩ :=
        ih next.work (by omega) (driven.step action (action.hand?_of_calm calm.1) step) rfl
      refine ⟨action :: rest, last, ?_, ?_, still⟩
      · rintro other (_ | ⟨_, member⟩)
        · exact carries
        · exact all other member
      · rw [run, step]
        exact runs

/-- What takes from a quantity that does not grow happens finitely often. -/
theorem idle_of_falls (left : Nat → Nat) (takes : Nat → Bool) (bound : Nat)
    (falls : ∀ n, bound ≤ n → (if takes n then 1 else 0) + left (n + 1) ≤ left n) :
    ∃ last, ∀ n, last ≤ n → takes n = false := by
  have shrinks : ∀ n m, bound ≤ n → n ≤ m → left m ≤ left n := by
    intro n m late order
    induction m, order using Nat.le_induction with
    | base => exact Nat.le_refl _
    | succ m order ih =>
        have spent := falls m (by omega)
        omega
  have idle : ∀ rest n, bound ≤ n → left n = rest → ∃ last, ∀ m, last ≤ m → takes m = false := by
    intro rest
    induction rest using Nat.strongRecOn with
    | ind rest ih =>
      intro n late same
      by_cases taken : ∃ m, n ≤ m ∧ takes m = true
      · obtain ⟨m, order, taken⟩ := taken
        have spent := falls m (by omega)
        have less := shrinks n m late order
        rw [if_pos taken] at spent
        exact ih (left (m + 1)) (by omega) (m + 1) (by omega) rfl
      · refine ⟨n, fun m order => ?_⟩
        rw [Bool.eq_false_iff]
        exact fun takes => taken ⟨m, order, takes⟩
  exact idle (left bound) bound (Nat.le_refl bound) rfl

/-- In an endless run with finitely many calls, calls are carried on finitely often. -/
theorem ByCalls.eventually_idle (driven : s.ByCalls) (states : Nat → System)
    (actions : Nat → Action) (first : states 0 = s)
    (steps : ∀ n, (states n).act (actions n) = some (states (n + 1)))
    (calm : ∀ n, (actions n).calm = true) (bound : Nat)
    (noStart : ∀ n, bound ≤ n → ∀ user coupon deadline limit,
      actions n ≠ .start user coupon deadline limit) :
    ∃ last, ∀ n, last ≤ n → (actions n).carries = false := by
  have drivenAt : ∀ n, (states n).ByCalls := by
    intro n
    induction n with
    | zero =>
        rw [first]
        exact driven
    | succ n ih => exact ih.step _ ((actions n).hand?_of_calm (calm n)) (steps n)
  refine idle_of_falls (fun n => (states n).work) (fun n => (actions n).carries) bound ?_
  intro n late
  have spent := (act_does _ (steps n)).work (drivenAt n) (calm n)
  rw [(actions n).allowance_of_no_start (noStart n late)] at spent
  exact spent

/-! ## All together -/

/-- What is known of how the calls in a state go on. -/
structure DeadlockFree (s : System) : Prop where
  /-- Who waits for a lock waits for an attempt that waits for nothing. -/
  waitsFor : ∀ t name, s.store.waits t name = true →
    ∃ a b, t = Attempt.txn a ∧ s.Underway a ∧ s.Underway b ∧
      s.store.holds b.txn name = true ∧ ∀ other, s.store.waits b.txn other = false
  progress : ∀ (c : Nat) (call : Call), s.calls[c]? = some call → call.isOpen = true →
    ∃ d other, s.calls[d]? = some other ∧ other.isOpen = true ∧
      ((s.act (.advance d)).isSome = true ∨ (s.act (.wake d)).isSome = true)
  bounded : ∀ actions s', (∀ action ∈ actions, action.calm = true) → run actions s = some s' →
    actions.countP Action.carries ≤ s.work + allowanceOf actions
  /-- An endless run makes calls without end, or does not carry them on. -/
  finite : ∀ (states : Nat → System) (actions : Nat → Action), states 0 = s →
    (∀ n, (states n).act (actions n) = some (states (n + 1))) →
    (∀ n, (actions n).calm = true) →
    (∃ bound, ∀ n, bound ≤ n → ∀ user coupon deadline limit,
      actions n ≠ .start user coupon deadline limit) →
    ∃ last, ∀ n, last ≤ n → (actions n).carries = false
  /-- Where no call can be carried on all are answered, but for those abandoned before. -/
  answered : ∀ actions s', (∀ action ∈ actions, action.calm = true) → run actions s = some s' →
    s'.Still → ∀ (c : Nat) (call : Call), s'.calls[c]? = some call →
      (∃ result at_, call.phase = .finished result at_) ∨
        s.calls[c]? = some call ∧ call.phase = .cancelled
  completes : ∃ actions last, (∀ action ∈ actions, action.carries = true) ∧
    run actions s = some last ∧ last.Still

/-- Whatever calls are made, with failing commits, and wherever attempts were cut off or abandoned
before: where all transactions belong to calls, the calls never block each other for good. -/
theorem run_deadlockFree (actions : List Action)
    (byCalls : ∀ action ∈ actions, action.hand? = none) (runs : run actions {} = some s) :
    DeadlockFree s := by
  have driven : s.ByCalls := byCalls_empty.keeps actions byCalls runs
  constructor
  case waitsFor => exact driven.waits
  case progress => exact driven.progress
  case bounded =>
    intro more s' calm runs
    have spent := driven.run_work more calm runs
    omega
  case finite =>
    rintro states more first steps calm ⟨bound, noStart⟩
    exact driven.eventually_idle states more first steps calm bound noStart
  case answered =>
    intro more s' calm runs still c call known
    have later := driven.keeps more (fun action member => action.hand?_of_calm (calm action member))
      runs
    have closed := later.closed_of_still still c call known
    cases phase : call.phase with
    | finished result at_ => exact Or.inl ⟨result, at_, rfl⟩
    | cancelled => exact Or.inr ⟨run_cancelled_before more calm runs c call known phase, rfl⟩
    | trying | resting =>
        unfold Call.isOpen at closed
        rw [phase] at closed
        cases closed
  case completes => exact driven.exists_still

theorem run_deadlockFree_last_unit :
    ∃ s, run (lastUnitRace.take 7) {} = some s ∧ DeadlockFree s ∧
      s.store.waits (.attempt 1 1) "SOLO" = true ∧ s.store.holds (.attempt 0 1) "SOLO" = true ∧
      s.work = 17 :=
  ⟨_, rfl, run_deadlockFree (lastUnitRace.take 7) (by decide) rfl, rfl, rfl, rfl⟩

end System

end CouponDesk.Memory
