import CouponDesk.Proofs.Memory.Race

/-!
# The part of a run that concerns one coupon

In a run the coupon is created, calls on it are made, carried on, cut off and abandoned, and time
passes.  Taken out of the run, these steps make calls of other numbers, to which claims of other
ids are granted; so here is what remains of a call without its ids, and the number of a call among
those on its coupon.
-/

set_option autoImplicit false

namespace CouponDesk

/-! ## Without ids -/

def Claim.anonymous (claim : Claim) : Claim := { claim with id := 0 }

def Stage.anonymous : Stage → Stage
  | .taking claim => .taking claim.anonymous
  | .committing claim => .committing claim.anonymous
  | .settled result => .settled (result.map Claim.anonymous)
  | stage => stage

theorem Retry.pause?_anonymous (limit attempt : Nat) (result : Except Error Claim) :
    pause? limit attempt (result.map Claim.anonymous) = pause? limit attempt result := by
  cases result with
  | ok claim => rfl
  | error e => rfl

namespace Memory

def Phase.anonymous : Phase → Phase
  | .trying stage expires => .trying stage.anonymous expires
  | .finished result at_ => .finished (result.map Claim.anonymous) at_
  | phase => phase

namespace Call

def anonymous (call : Call) : Call := { call with phase := call.phase.anonymous }

variable {call call' : Call} {now expires : Nat}

theorem anonymous_conclude (result : Except Error Claim) :
    (call.conclude now result).anonymous =
      call.anonymous.conclude now (result.map Claim.anonymous) := by
  have again : Retry.pause? call.anonymous.limit call.anonymous.attempt
      (result.map Claim.anonymous) = Retry.pause? call.limit call.attempt result :=
    Retry.pause?_anonymous call.limit call.attempt result
  unfold conclude
  rw [again]
  split
  · rfl
  · rfl

theorem anonymous_proceed (stage : Stage) :
    (call.proceed now expires stage).anonymous =
      call.anonymous.proceed now expires stage.anonymous := by
  cases stage with
  | settled result => exact anonymous_conclude result
  | _ => rfl

theorem fields_of_anonymous (same : call'.anonymous = call.anonymous) :
    call'.user = call.user ∧ call'.coupon = call.coupon ∧ call'.deadline = call.deadline ∧
      call'.attempt = call.attempt := by
  obtain ⟨user, coupon, deadline, -, -, attempt, -⟩ := Call.mk.inj same
  exact ⟨user, coupon, deadline, attempt⟩

theorem update_of_anonymous (same : call'.anonymous = call.anonymous) (attempt attempt' : Nat)
    (phase phase' : Phase) (attempts : attempt' = attempt)
    (phases : phase'.anonymous = phase.anonymous) :
    ({ call' with attempt := attempt', phase := phase' } : Call).anonymous =
      ({ call with attempt, phase } : Call).anonymous := by
  obtain ⟨user, coupon, deadline, limit, started, -, -⟩ := Call.mk.inj same
  unfold anonymous
  rw [user, coupon, deadline, limit, started, attempts, phases]

theorem conclude_of_anonymous (same : call'.anonymous = call.anonymous)
    (result : Except Error Claim) :
    (call'.conclude now result).anonymous = (call.conclude now result).anonymous := by
  rw [anonymous_conclude, anonymous_conclude, same]

theorem proceed_of_anonymous (same : call'.anonymous = call.anonymous) (stage stage' : Stage)
    (stages : stage'.anonymous = stage.anonymous) :
    (call'.proceed now expires stage').anonymous = (call.proceed now expires stage).anonymous := by
  rw [anonymous_proceed, anonymous_proceed, same, stages]

/-- Calls that differ in ids are at the same stage, but for the ids. -/
theorem trying_of_anonymous (same : call'.anonymous = call.anonymous) (stage : Stage)
    (trying : call.phase = .trying stage expires) :
    ∃ stage', call'.phase = .trying stage' expires ∧ stage'.anonymous = stage.anonymous := by
  have phases : call'.phase.anonymous = call.phase.anonymous := congrArg Call.phase same
  rw [trying] at phases
  cases phase : call'.phase with
  | trying stage' due =>
      rw [phase] at phases
      obtain ⟨stages, rfl⟩ := Phase.trying.inj phases
      exact ⟨stage', rfl, stages⟩
  | _ =>
      rw [phase] at phases
      cases phases

theorem resting_of_anonymous (same : call'.anonymous = call.anonymous) (wakes : Nat)
    (resting : call.phase = .resting wakes) : call'.phase = .resting wakes := by
  have phases : call'.phase.anonymous = call.phase.anonymous := congrArg Call.phase same
  rw [resting] at phases
  cases phase : call'.phase with
  | resting due =>
      rw [phase] at phases
      exact phases
  | _ =>
      rw [phase] at phases
      cases phases

end Call

/-! ## Members of a part of a list -/

section Parts

variable {α : Type} (keep : α → Bool) (items : List α) (i : Nat) (old new : α)

theorem set_eq_append (at_ : items[i]? = some old) :
    items.set i new = items.take i ++ new :: items.drop (i + 1) := by
  rw [List.set_eq_take_append_cons_drop, if_pos (List.getElem?_eq_some_iff.mp at_).1]

theorem eq_append (at_ : items[i]? = some old) :
    items = items.take i ++ old :: items.drop (i + 1) := by
  obtain ⟨bound, found⟩ := List.getElem?_eq_some_iff.mp at_
  rw [← set_eq_append items i old old at_, ← found, List.set_getElem_self]

theorem getElem?_filter (at_ : items[i]? = some old) (kept : keep old = true) :
    (items.filter keep)[(items.take i).countP keep]? = some old := by
  have parts : items.filter keep =
      (items.take i).filter keep ++ old :: (items.drop (i + 1)).filter keep := by
    conv_lhs => rw [eq_append items i old at_]
    rw [List.filter_append, List.filter_cons_of_pos kept]
  rw [parts, List.countP_eq_length_filter, List.getElem?_append_right (Nat.le_refl _),
    Nat.sub_self, List.getElem?_cons_zero]

theorem filter_set_kept (at_ : items[i]? = some old) (kept : keep old = true)
    (keeps : keep new = true) :
    (items.set i new).filter keep =
      (items.filter keep).set ((items.take i).countP keep) new := by
  have parts : items.filter keep =
      (items.take i).filter keep ++ old :: (items.drop (i + 1)).filter keep := by
    conv_lhs => rw [eq_append items i old at_]
    rw [List.filter_append, List.filter_cons_of_pos kept]
  rw [parts, set_eq_append items i old new at_, List.filter_append, List.filter_cons_of_pos keeps,
    List.countP_eq_length_filter, List.set_append_right _ _ (Nat.le_refl _), Nat.sub_self,
    List.set_cons_zero]

theorem filter_set_dropped (at_ : items[i]? = some old) (dropped : keep old = false)
    (drops : keep new = false) : (items.set i new).filter keep = items.filter keep := by
  conv_rhs => rw [eq_append items i old at_]
  rw [set_eq_append items i old new at_, List.filter_append, List.filter_append,
    List.filter_cons_of_neg (by simp [drops]), List.filter_cons_of_neg (by simp [dropped])]

end Parts

/-! ## Numbers among the calls on a coupon -/

/-- The number that a call, on a coupon of this name, has among the calls on it; `coupons` are
those of all calls in order. -/
def place (coupons : List String) (name : String) (c : Nat) : Nat := (coupons.take c).count name

theorem place_lt (coupons : List String) (name : String) (c d : Nat) (order : c < d)
    (at_ : coupons[c]? = some name) : place coupons name c < place coupons name d := by
  have next : coupons.take (c + 1) = coupons.take c ++ [name] := by
    rw [List.take_add_one, at_, Option.toList_some]
  have within : coupons.take (c + 1) <+: coupons.take d := List.take_prefix_take_left order
  have fewer := within.sublist.count_le name
  rw [next, List.count_append, List.count_singleton_self] at fewer
  exact fewer

theorem place_inj (coupons : List String) (name : String) (c d : Nat)
    (first : coupons[c]? = some name) (second : coupons[d]? = some name)
    (same : place coupons name c = place coupons name d) : c = d := by
  rcases Nat.lt_trichotomy c d with before | equal | after
  · have less := place_lt coupons name c d before first
    omega
  · exact equal
  · have less := place_lt coupons name d c after second
    omega

def TxnId.renumber (number : Nat → Nat) : TxnId → TxnId
  | .attempt c nth => .attempt (number c) nth
  | .manual nth => .manual nth

def Ticket.renumber (number : Nat → Nat) (ticket : Ticket) : Ticket :=
  { ticket with txn := ticket.txn.renumber number }

/-! ## Actions -/

namespace Action

/-- A step of calls, of the creation of coupons or of the clock: nothing is done by hand, and no
commit is made to fail. -/
def steady : Action → Bool
  | .create _ _ | .start _ _ _ _ | .advance _ | .expire _ | .wake _ | .cancel _ | .pass _ => true
  | _ => false

theorem hand?_of_steady (action : Action) (steady : action.steady = true) :
    action.hand? = none := by
  cases action with
  | begin | lock | leave | insert | decrement | commit | rollback => cases steady
  | _ => rfl

/-- Whether an action concerns a coupon, when `coupons` are those of all calls. -/
def concerns (coupons : List String) (name : String) : Action → Bool
  | .create given _ => given = name
  | .start _ coupon _ _ => coupon = name
  | .advance c | .expire c | .wake c | .cancel c => coupons[c]? = some name
  | _ => true

def renumber (number : Nat → Nat) : Action → Action
  | .advance c => .advance (number c)
  | .expire c => .expire (number c)
  | .wake c => .wake (number c)
  | .cancel c => .cancel (number c)
  | action => action

end Action

def couponsOf (actions : List Action) : List String :=
  (actions.filterMap Action.request?).map (·.2)

theorem couponsOf_append (before after : List Action) :
    couponsOf (before ++ after) = couponsOf before ++ couponsOf after := by
  unfold couponsOf
  rw [List.filterMap_append, List.map_append]

theorem System.run_coupons {s s' : System} (actions : List Action)
    (runs : System.run actions s = some s') :
    s'.calls.map (·.coupon) = s.calls.map (·.coupon) ++ couponsOf actions := by
  have coupons := congrArg (List.map (·.2)) (System.run_requests actions runs)
  rw [List.map_append, List.map_map, List.map_map] at coupons
  exact coupons

/-- The actions that concern a coupon, as a run of their own. -/
def restrict (coupons : List String) (name : String) (actions : List Action) : List Action :=
  (actions.filter (·.concerns coupons name)).map (·.renumber (place coupons name))

theorem restrict_append (coupons : List String) (name : String) (before after : List Action) :
    restrict coupons name (before ++ after) =
      restrict coupons name before ++ restrict coupons name after := by
  unfold restrict
  rw [List.filter_append, List.map_append]

end Memory

end CouponDesk
