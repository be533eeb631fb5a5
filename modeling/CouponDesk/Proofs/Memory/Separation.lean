import CouponDesk.Proofs.Memory.Beside
import CouponDesk.Proofs.Memory.Locks

/-!
# Different coupons do not interfere

The tables, the line for the locks and the sequence of ids are shared by all coupons.  Nothing but
the ids passes from one coupon to another there: a run without the steps that concern other coupons
is a run, and at every moment of it the coupon and the calls on it are as they were.
-/

set_option autoImplicit false

namespace CouponDesk.Memory

open Store

namespace System

/-! ## Two systems that show the same of a coupon -/

/-- The second system has the calls on a coupon only, and shows of it what the first one does;
`coupons` are those of the calls of the first one, also of those to come. -/
structure Beside (coupons : List String) (name : String) (s s' : System) : Prop where
  sound : s.Sound
  sound' : s'.Sound
  store : s.store.Beside (place coupons name) name s'.store
  calls : s'.calls.map Call.anonymous =
    (s.calls.filter (·.coupon = name)).map Call.anonymous
  made : s.calls.map (·.coupon) <+: coupons
  now : s'.now = s.now

namespace Beside

variable {coupons : List String} {name : String} {s s' t : System}

theorem getElem?_coupons (made : s.calls.map (·.coupon) <+: coupons) (c : Nat) (call : Call)
    (known : s.calls[c]? = some call) : coupons[c]? = some call.coupon := by
  obtain ⟨rest, rfl⟩ := made
  have mapped : (s.calls.map (·.coupon))[c]? = some call.coupon := by
    rw [List.getElem?_map, known, Option.map_some]
  rw [List.getElem?_append_left (List.getElem?_eq_some_iff.mp mapped).1, mapped]

theorem place_eq (made : s.calls.map (·.coupon) <+: coupons) (c : Nat)
    (bound : c ≤ s.calls.length) :
    place coupons name c = (s.calls.take c).countP (·.coupon = name) := by
  obtain ⟨rest, rfl⟩ := made
  unfold place
  rw [List.take_append_of_le_length (by rw [List.length_map]; exact bound), ← List.map_take,
    List.count_eq_countP, List.countP_map]
  exact List.countP_congr (by simp)

/-- A call on the coupon is there in both systems, but for ids. -/
theorem known (beside : Beside coupons name s s') (c : Nat) (call : Call)
    (known : s.calls[c]? = some call) (on : call.coupon = name) :
    ∃ call', s'.calls[place coupons name c]? = some call' ∧ call'.anonymous = call.anonymous := by
  have bound := (List.getElem?_eq_some_iff.mp known).1
  have mapped : (s'.calls.map Call.anonymous)[place coupons name c]? = some call.anonymous := by
    rw [beside.calls, place_eq beside.made c (Nat.le_of_lt bound), List.getElem?_map,
      getElem?_filter (·.coupon = name) s.calls c call known (decide_eq_true on)]
    rfl
  rw [List.getElem?_map] at mapped
  exact Option.map_eq_some_iff.mp mapped

theorem txnOf_eq (c : Nat) (call call' : Call) (same : call'.anonymous = call.anonymous) :
    txnOf (place coupons name c) call' = (txnOf c call).renumber (place coupons name) := by
  obtain ⟨-, -, -, attempt⟩ := Call.fields_of_anonymous same
  exact congrArg (TxnId.attempt _) attempt

theorem apart (beside : Beside coupons name s s') (c : Nat) (call : Call)
    (known : s.calls[c]? = some call) (on : call.coupon = name) :
    s.store.Apart (place coupons name) name (txnOf c call) := by
  intro u member renamed
  cases u with
  | manual number => cases renamed
  | attempt d number =>
      obtain ⟨places, rfl⟩ : place coupons name d = place coupons name c ∧ number = call.attempt :=
        TxnId.attempt.inj renamed
      have bound := beside.sound.owned d _ (beside.sound.store.locks.live _ member)
      have found : s.calls[d]? = some s.calls[d] := List.getElem?_eq_getElem bound
      have asks := (beside.sound.calls d _ found).tickets _ name member
      have first := getElem?_coupons beside.made d _ found
      have second := getElem?_coupons beside.made c call known
      rw [← asks] at first
      rw [on] at second
      rw [place_inj coupons name d c first second places]
      rfl

theorem putCall (beside : Beside coupons name s s') (c : Nat) (call next next' : Call)
    (store store' : Store) (known : s.calls[c]? = some call) (on : call.coupon = name)
    (stays : next.coupon = call.coupon) (same : next'.anonymous = next.anonymous)
    (stores : store.Beside (place coupons name) name store')
    (sound : (({ s with store } : System).putCall c next).Sound) (action : Action)
    (step : s'.act action =
      some (({ s' with store := store' } : System).putCall (place coupons name c) next')) :
    Beside coupons name (({ s with store } : System).putCall c next)
      (({ s' with store := store' } : System).putCall (place coupons name c) next') where
  sound := sound
  sound' := (act_does action step).sound beside.sound'
  store := stores
  calls := by
    have bound := (List.getElem?_eq_some_iff.mp known).1
    change (s'.calls.set _ next').map _ = ((s.calls.set c next).filter _).map _
    rw [filter_set_kept (·.coupon = name) s.calls c call next known (decide_eq_true on)
        (decide_eq_true (stays.trans on)), List.map_set, List.map_set, beside.calls, same,
      place_eq beside.made c (Nat.le_of_lt bound)]
  made := by
    change (s.calls.set c next).map _ <+: coupons
    rw [map_set_of_eq (·.coupon) s.calls c call next known stays]
    exact beside.made
  now := beside.now

theorem putCall_aside (beside : Beside coupons name s s') (c : Nat) (call next : Call)
    (store : Store) (known : s.calls[c]? = some call) (other : call.coupon ≠ name)
    (stays : next.coupon = call.coupon)
    (stores : store.Beside (place coupons name) name s'.store)
    (sound : (({ s with store } : System).putCall c next).Sound) :
    Beside coupons name (({ s with store } : System).putCall c next) s' where
  sound := sound
  sound' := beside.sound'
  store := stores
  calls := by
    have others : next.coupon ≠ name := by
      rw [stays]
      exact other
    change _ = ((s.calls.set c next).filter _).map _
    rw [filter_set_dropped (·.coupon = name) s.calls c call next known (decide_eq_false other)
      (decide_eq_false others), beside.calls]
  made := by
    change (s.calls.set c next).map _ <+: coupons
    rw [map_set_of_eq (·.coupon) s.calls c call next known stays]
    exact beside.made
  now := beside.now

/-! ### Steps that concern the coupon -/

theorem advance (beside : Beside coupons name s s') (c : Nat) (call : Call) (stage : Stage)
    (expires : Nat) (store : Store) (next : Stage) (known : s.calls[c]? = some call)
    (on : call.coupon = name) (trying : call.phase = .trying stage expires)
    (asked : s.store.ask (txnOf c call) call.user call.coupon stage = some (store, next))
    (sound : (({ s with store } : System).putCall c (call.proceed s.now expires next)).Sound) :
    ∃ t', s'.act (.advance (place coupons name c)) = some t' ∧
      Beside coupons name
        (({ s with store } : System).putCall c (call.proceed s.now expires next)) t' := by
  obtain ⟨call', known', same⟩ := beside.known c call known on
  obtain ⟨user, coupon, -, -⟩ := Call.fields_of_anonymous same
  obtain ⟨stage', trying', stages⟩ := Call.trying_of_anonymous same stage trying
  obtain ⟨supports, -⟩ := beside.sound.move known trying asked
  have supports' := (beside.sound'.calls _ call' known').stage stage' expires trying'
  have apart := beside.apart c call known on
  have txns : txnOf (place coupons name c) call' =
      (txnOf c call).renumber (place coupons name) := txnOf_eq c call call' same
  have free := free_of_ask stage supports store next asked
  subst on
  have free' : s'.store.waits (txnOf (place coupons call.coupon c) call') call'.coupon = false := by
    rw [coupon, txns, beside.store.waits apart]
    exact free
  -- Neither attempt has to wait, so each of them has its reply, and the replies agree.
  have asked' := ask_eq_reply beside.sound'.store beside.store.due' stage' supports' free'
  rw [ask_eq_reply beside.sound.store beside.store.due stage supports free,
    Option.some.injEq] at asked
  have replies := beside.store.reply apart beside.sound.store beside.sound'.store call.user stage
    stage' supports stages
  rw [asked] at replies
  have step : s'.act (.advance (place coupons call.coupon c)) = _ :=
    advance_eq _ call' stage' expires known' trying'
  rw [user, coupon, txns] at asked' step
  rw [asked', Option.map_some] at step
  refine ⟨_, step, beside.putCall c call _ _ store _ known rfl ?_ ?_ replies.1 sound _ step⟩
  · exact (call.proceed_goes s.now expires stage next trying).request.2
  · rw [beside.now]
    exact Call.proceed_of_anonymous same _ _ replies.2

theorem close (beside : Beside coupons name s s') (c : Nat) (call call' : Call)
    (known : s.calls[c]? = some call) (on : call.coupon = name)
    (same : call'.anonymous = call.anonymous) :
    (s.store.close (txnOf c call)).Beside (place coupons name) name
      (s'.store.close (txnOf (place coupons name c) call')) := by
  rw [txnOf_eq c call call' same]
  exact beside.store.close (beside.apart c call known on)

theorem follows (beside : Beside coupons name s s') (action : Action)
    (steady : action.steady = true) (concerns : action.concerns coupons name = true)
    (step : s.act action = some t) (made : t.calls.map (·.coupon) <+: coupons) :
    ∃ t', s'.act (action.renumber (place coupons name)) = some t' ∧
      Beside coupons name t t' := by
  have does := act_does action step
  have sound := does.sound beside.sound
  have on : ∀ (c : Nat) (call : Call), s.calls[c]? = some call →
      decide (coupons[c]? = some name) = true → call.coupon = name := by
    intro c call known asks
    have at_ := getElem?_coupons beside.made c call known
    rw [of_decide_eq_true asks] at at_
    exact (Option.some.inj at_).symm
  cases does with
  | create given amount =>
      obtain rfl : given = name := of_decide_eq_true concerns
      exact ⟨_, rfl, sound, beside.sound'.create given amount, beside.store.create amount,
        beside.calls, beside.made, beside.now⟩
  | start user coupon deadline limit =>
      obtain rfl : coupon = name := of_decide_eq_true concerns
      refine ⟨_, rfl, sound, beside.sound'.start user coupon deadline limit, beside.store, ?_,
        made, beside.now⟩
      change (s'.calls ++ [_]).map _ = ((s.calls ++ [_]).filter _).map _
      rw [List.map_append, beside.calls, List.filter_append, List.map_append, beside.now]
      simp
  | advance c call stage expires store next known trying asked =>
      exact beside.advance c call stage expires store next known (on c call known concerns) trying
        asked sound
  | expire c call stage expires known trying =>
      have own := on c call known concerns
      obtain ⟨call', known', same⟩ := beside.known c call known own
      obtain ⟨-, coupon, deadline, -⟩ := Call.fields_of_anonymous same
      obtain ⟨stage', trying', -⟩ := Call.trying_of_anonymous same stage trying
      have step' : s'.act (.expire (place coupons name c)) = _ :=
        expire_eq _ call' stage' expires known' trying'
      refine ⟨_, step', beside.putCall c call _ _ _ _ known own ?_ ?_
        (beside.close c call call' known own same) sound _ step'⟩
      · exact (call.conclude_goes s.now expires stage _ trying).request.2
      · rw [beside.now, coupon, deadline]
        exact Call.conclude_of_anonymous same _
  | wake c call wakes known resting =>
      have own := on c call known concerns
      obtain ⟨call', known', same⟩ := beside.known c call known own
      obtain ⟨-, -, deadline, attempt⟩ := Call.fields_of_anonymous same
      have step' : s'.act (.wake (place coupons name c)) = _ :=
        wake_eq _ call' wakes known' (Call.resting_of_anonymous same wakes resting)
      refine ⟨_, step', beside.putCall c call _ _ _ _ known own rfl ?_ beside.store sound _ step'⟩
      refine Call.update_of_anonymous same _ _ _ _ (congrArg (· + 1) attempt) ?_
      unfold Call.expiry
      rw [deadline, beside.now]
  | cancel c call stage expires known trying =>
      have own := on c call known concerns
      obtain ⟨call', known', same⟩ := beside.known c call known own
      obtain ⟨-, -, -, attempt⟩ := Call.fields_of_anonymous same
      obtain ⟨stage', trying', -⟩ := Call.trying_of_anonymous same stage trying
      have step' : s'.act (.cancel (place coupons name c)) = _ :=
        cancel_eq _ call' stage' expires known' trying'
      exact ⟨_, step', beside.putCall c call _ _ _ _ known own rfl
        (Call.update_of_anonymous same _ _ _ _ attempt rfl)
        (beside.close c call call' known own same) sound _ step'⟩
  | cancelPause c call wakes known resting =>
      have own := on c call known concerns
      obtain ⟨call', known', same⟩ := beside.known c call known own
      obtain ⟨-, -, -, attempt⟩ := Call.fields_of_anonymous same
      have step' : s'.act (.cancel (place coupons name c)) = _ :=
        cancel_eq_of_resting _ call' wakes known' (Call.resting_of_anonymous same wakes resting)
      exact ⟨_, step', beside.putCall c call _ _ _ _ known own rfl
        (Call.update_of_anonymous same _ _ _ _ attempt rfl) beside.store sound _ step'⟩
  | pass ms =>
      exact ⟨_, rfl, sound, ⟨beside.sound'.store, beside.sound'.calls, beside.sound'.owned⟩,
        beside.store, beside.calls, beside.made, congrArg (· + ms) beside.now⟩
  | byHand action number store hand change =>
      rw [action.hand?_of_steady steady] at hand
      cases hand
  | failCommits count => cases steady

/-! ### Steps that concern other coupons -/

theorem ignores (beside : Beside coupons name s s') (action : Action)
    (steady : action.steady = true) (concerns : action.concerns coupons name = false)
    (step : s.act action = some t) (made : t.calls.map (·.coupon) <+: coupons) :
    Beside coupons name t s' := by
  have does := act_does action step
  have sound := does.sound beside.sound
  have other : ∀ (c : Nat) (call : Call), s.calls[c]? = some call →
      decide (coupons[c]? = some name) = false → call.coupon ≠ name := by
    intro c call known asks same
    refine of_decide_eq_false asks ?_
    rw [getElem?_coupons beside.made c call known, same]
  have tickets : ∀ (c : Nat) (call : Call), s.calls[c]? = some call →
      ∀ given, ⟨given, txnOf c call⟩ ∈ s.store.line → given = call.coupon :=
    fun c call known given => (beside.sound.calls c call known).tickets call.attempt given
  have closes : ∀ (c : Nat) (call : Call), s.calls[c]? = some call → call.coupon ≠ name →
      (s.store.close (txnOf c call)).Beside (place coupons name) name s'.store := by
    intro c call known apart
    exact beside.store.aside rfl rfl
      (s.store.filter_line_close _ call.coupon name (tickets c call known) apart) beside.store.due
  cases does with
  | create given amount =>
      have apart : given ≠ name := of_decide_eq_false concerns
      exact ⟨sound, beside.sound', beside.store.create_aside given amount apart, beside.calls,
        beside.made, beside.now⟩
  | start user coupon deadline limit =>
      have apart : coupon ≠ name := of_decide_eq_false concerns
      refine ⟨sound, beside.sound', beside.store, ?_, made, beside.now⟩
      change _ = ((s.calls ++ [_]).filter _).map _
      rw [beside.calls, List.filter_append]
      simp [apart]
  | advance c call stage expires store next known trying asked =>
      have apart := other c call known concerns
      obtain ⟨supports, move⟩ := beside.sound.move known trying asked
      exact beside.putCall_aside c call _ store known apart
        (call.proceed_goes s.now expires stage next trying).request.2
        (beside.store.move move supports (tickets c call known) apart) sound
  | expire c call stage expires known trying =>
      have apart := other c call known concerns
      exact beside.putCall_aside c call _ _ known apart
        (call.conclude_goes s.now expires stage _ trying).request.2 (closes c call known apart)
        sound
  | wake c call wakes known resting =>
      exact beside.putCall_aside c call _ s.store known (other c call known concerns) rfl
        beside.store sound
  | cancel c call stage expires known trying =>
      have apart := other c call known concerns
      exact beside.putCall_aside c call _ _ known apart rfl (closes c call known apart) sound
  | cancelPause c call wakes known resting =>
      exact beside.putCall_aside c call _ s.store known (other c call known concerns) rfl
        beside.store sound
  | pass ms => cases concerns
  | byHand action number store hand change =>
      rw [action.hand?_of_steady steady] at hand
      cases hand
  | failCommits count => cases steady

/-! ### Runs -/

theorem empty (coupons : List String) (name : String) : Beside coupons name {} {} where
  sound := sound_empty
  sound' := sound_empty
  store := ⟨rfl, rfl, rfl, rfl, rfl⟩
  calls := rfl
  made := List.nil_prefix
  now := rfl

theorem run (beside : Beside coupons name s s') (actions : List Action)
    (steady : ∀ action ∈ actions, action.steady = true) (runs : System.run actions s = some t)
    (made : s.calls.map (·.coupon) ++ couponsOf actions <+: coupons) :
    ∃ t', System.run (restrict coupons name actions) s' = some t' ∧ Beside coupons name t t' := by
  -- By induction on the actions; the second system takes a step only where the coupon is concerned.
  induction actions generalizing s s' with
  | nil =>
      cases runs
      exact ⟨s', rfl, beside⟩
  | cons action rest ih =>
      obtain ⟨next, step, later⟩ := Option.bind_eq_some_iff.mp runs
      have first : System.run [action] s = some next := by
        rw [System.run, step]
        rfl
      rw [← List.singleton_append, couponsOf_append, ← List.append_assoc,
        ← run_coupons [action] first] at made
      have head := steady action List.mem_cons_self
      have made' := (List.prefix_append _ _).trans made
      have tail := fun other member => steady other (List.mem_cons_of_mem action member)
      by_cases concerns : action.concerns coupons name = true
      · obtain ⟨next', step', beside'⟩ := beside.follows action head concerns step made'
        obtain ⟨t', runs', last⟩ := ih beside' tail later made
        refine ⟨t', ?_, last⟩
        unfold restrict
        rw [List.filter_cons_of_pos concerns, List.map_cons, System.run, step']
        exact runs'
      · have beside' := beside.ignores action head (Bool.eq_false_iff.mpr concerns) step made'
        obtain ⟨t', runs', last⟩ := ih beside' tail later made
        refine ⟨t', ?_, last⟩
        unfold restrict
        rw [List.filter_cons_of_neg concerns]
        exact runs'

end Beside

/-- Of one coupon, two systems show the same: its row and its claims, and the calls on it, with the
stages and the results of their attempts, but for ids. -/
structure SameOn (coupons : List String) (name : String) (s s' : System) : Prop where
  row : s'.store.coupon? name = s.store.coupon? name
  claims : (s'.store.claimsOn name).map Claim.anonymous =
    (s.store.claimsOn name).map Claim.anonymous
  claimants : s'.store.claimants name = s.store.claimants name
  count : s'.store.count name = s.store.count name
  calls : s'.calls.map Call.anonymous =
    (s.calls.filter (·.coupon = name)).map Call.anonymous
  now : s'.now = s.now
  /-- The call of the new number waits where the other one does. -/
  waits : ∀ (c : Nat) (call : Call), s.calls[c]? = some call → call.coupon = name →
    ∃ call', s'.calls[place coupons name c]? = some call' ∧ call'.anonymous = call.anonymous ∧
      s'.store.waits (txnOf (place coupons name c) call') name =
        s.store.waits (txnOf c call) name

theorem Beside.sameOn {coupons : List String} {name : String} {s s' : System}
    (beside : Beside coupons name s s') : SameOn coupons name s s' where
  row := beside.store.row
  claims := beside.store.claims
  claimants := by
    unfold Store.claimants
    rw [beside.store.users]
  count := by
    have lengths := congrArg List.length beside.store.claims
    rw [List.length_map, List.length_map] at lengths
    exact lengths
  calls := beside.calls
  now := beside.now
  waits := by
    intro c call known on
    obtain ⟨call', known', same⟩ := beside.known c call known on
    refine ⟨call', known', same, ?_⟩
    rw [Beside.txnOf_eq c call call' same]
    exact beside.store.waits (beside.apart c call known on)

/-- Without the steps of calls on other coupons and of the creation of other coupons, a run is
still possible, and wherever it is stopped, it shows the same of the coupon as the whole run
there. -/
theorem run_restrict {s : System} (actions : List Action)
    (steady : ∀ action ∈ actions, action.steady = true) (runs : run actions {} = some s)
    (name : String) :
    ∃ s', run (restrict (couponsOf actions) name actions) {} = some s' ∧
      ∀ before after, actions = before ++ after → ∃ mid mid',
        run before {} = some mid ∧ run (restrict (couponsOf actions) name before) {} = some mid' ∧
        run (restrict (couponsOf actions) name after) mid' = some s' ∧
        SameOn (couponsOf actions) name mid mid' := by
  have first := Beside.empty (couponsOf actions) name
  obtain ⟨s', restricted, -⟩ := first.run actions steady runs (List.prefix_refl _)
  refine ⟨s', restricted, fun before after split => ?_⟩
  have whole := runs
  rw [split, run_append] at whole
  obtain ⟨mid, reached, -⟩ := Option.bind_eq_some_iff.mp whole
  have made : couponsOf before <+: couponsOf actions := by
    rw [split, couponsOf_append]
    exact List.prefix_append _ _
  obtain ⟨mid', reached', beside⟩ := first.run before
    (fun action member => steady action (by rw [split]; exact List.mem_append_left _ member))
    reached made
  refine ⟨mid, mid', reached, reached', ?_, beside.sameOn⟩
  have parts : restrict (couponsOf actions) name actions =
      restrict (couponsOf actions) name before ++ restrict (couponsOf actions) name after := by
    rw [← restrict_append, ← split]
  rw [parts, run_append, reached'] at restricted
  exact restricted

/-- Two coupons are asked for side by side.  On each a call waits; one of them is cut off and made
again, and finds the last unit gone. -/
def counters : List Action :=
  [.create "DUO" 2, .create "SOLO" 1, .start "first" "DUO" .zero 1, .start "first" "SOLO" .zero 1,
    .start "second" "SOLO" .zero 2, .start "second" "DUO" .zero 1, .advance 0, .advance 1,
    .advance 2, .advance 3, .advance 0, .advance 1, .advance 2, .advance 3, .advance 0, .advance 1,
    .expire 2, .advance 0, .advance 1, .expire 0, .advance 1, .advance 3, .pass 25, .wake 2,
    .advance 2, .advance 3, .advance 2, .advance 3, .advance 2, .advance 3]

theorem run_restrict_counters :
    ∃ s, run counters {} = some s ∧
      s.store.claims = [⟨2, "first", "SOLO"⟩, ⟨3, "second", "DUO"⟩] ∧
      restrict (couponsOf counters) "SOLO" counters =
        [.create "SOLO" 1, .start "first" "SOLO" .zero 1, .start "second" "SOLO" .zero 2,
          .advance 0, .advance 1, .advance 0, .advance 1, .advance 0, .expire 1, .advance 0,
          .advance 0, .pass 25, .wake 1, .advance 1, .advance 1, .advance 1] ∧
      (run (restrict (couponsOf counters) "SOLO" counters) {}).map (·.store.claims) =
        some [⟨1, "first", "SOLO"⟩] ∧
      ∃ s', run (restrict (couponsOf counters) "SOLO" counters) {} = some s' ∧
        ∀ before after, counters = before ++ after → ∃ mid mid',
          run before {} = some mid ∧
          run (restrict (couponsOf counters) "SOLO" before) {} = some mid' ∧
          run (restrict (couponsOf counters) "SOLO" after) mid' = some s' ∧
          SameOn (couponsOf counters) "SOLO" mid mid' :=
  ⟨_, rfl, rfl, rfl, rfl, run_restrict counters (by decide) rfl "SOLO"⟩

end System

end CouponDesk.Memory
