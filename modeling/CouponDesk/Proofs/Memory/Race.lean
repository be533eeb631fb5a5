import CouponDesk.Proofs.Memory.Effects
import Mathlib.Data.Finset.Card
import Mathlib.Data.Finset.Dedup

/-!
# Races for a coupon

Many requests at once, from a store in which nothing is under way, with no attempt cut off,
abandoned or made to fail.  The order of the steps decides who wins, but not how many: on each
coupon as many requests succeed as there are units and new users, whichever are fewer.
-/

set_option autoImplicit false

namespace CouponDesk.Memory

/-- A step of a race among the calls from number `first` on: a request is made, or is carried on,
or time passes. -/
def Action.Races (first : Nat) : Action → Prop
  | .start _ _ _ _ => True
  | .advance c => first ≤ c
  | .pass _ => True
  | _ => False

instance (first : Nat) (action : Action) : Decidable (action.Races first) :=
  match action with
  | .start _ _ _ _ | .pass _ => isTrue trivial
  | .advance c => inferInstanceAs (Decidable (first ≤ c))
  | .create _ _ | .failCommits _ | .begin _ | .lock _ _ | .leave _ _ | .insert _ _ _
  | .decrement _ _ | .commit _ | .rollback _ | .expire _ | .wake _ | .cancel _ => isFalse id

def Action.request? : Action → Option (String × String)
  | .start user coupon _ _ => some (user, coupon)
  | _ => none

namespace Call

def error? (call : Call) : Option Error :=
  match call.phase with
  | .finished (.error e) _ => some e
  | _ => none

theorem granted?_of_error (call : Call) (e : Error) (error : call.error? = some e) :
    call.granted? = none := by
  unfold error? at error
  unfold granted?
  split at error
  · rename_i e' now phase
    rw [phase]
  · cases error

end Call

def requestsOn (calls : List Call) (name : String) : List Call :=
  calls.filter (·.coupon = name)

def winners (calls : List Call) (name : String) : List Call :=
  (requestsOn calls name).filter (·.granted?.isSome)

/-- The users who request a coupon and hold no claim on it. -/
def newcomers (s : Store) (calls : List Call) (name : String) : Finset String :=
  ((requestsOn calls name).map (·.user)).toFinset \ (s.claimants name).toFinset

/-- How some calls on a coupon with a given row end, from a store `s` to a store `s'`. -/
structure Settled (s s' : Store) (calls : List Call) (name : String) (row : Coupon) : Prop where
  exact_ : (winners calls name).length = min row.remaining.toNat (newcomers s calls name).card
  once : ((winners calls name).map (·.user)).Nodup
  others : ∀ call ∈ requestsOn calls name, call.granted? = none →
    call.error? = some (.noStock name) ∨ call.error? = some (.alreadyClaimed call.user name)
  stocked : ((newcomers s calls name).card : Int) < row.remaining →
    ∀ call ∈ requestsOn calls name, call.error? ≠ some (.noStock name)
  soldOut : row.remaining = 0 →
    ∀ call ∈ requestsOn calls name, call.error? = some (.noStock name)
  row : s'.coupon? name = some { row with
    remaining := row.remaining - min row.remaining.toNat (newcomers s calls name).card }
  claimants : ∃ users, users.Perm ((winners calls name).map (·.user)) ∧
    s'.claimants name = s.claimants name ++ users

/-- How some calls end, from a store `s` to a store `s'`. -/
structure Outcomes (s s' : Store) (calls : List Call) : Prop where
  settled : ∀ name row, s.coupon? name = some row → Settled s s' calls name row
  missing : ∀ name, s.coupon? name = none →
    ∀ call ∈ requestsOn calls name, call.error? = some (.couponNotFound name)
  untouched : ∀ name, requestsOn calls name = [] →
    s'.coupon? name = s.coupon? name ∧ s'.claimsOn name = s.claimsOn name

/-! ## Lists of answers -/

def won (calls : List Call) (name : String) : List Claim :=
  (calls.filterMap Call.granted?).filter (·.coupon = name)

theorem filterMap_eq_of_getElem? {α β : Type} (pick : α → Option β) (before after : List α)
    (same : ∀ i : Nat, (after[i]?).bind pick = (before[i]?).bind pick) :
    after.filterMap pick = before.filterMap pick := by
  induction before generalizing after with
  | nil =>
      rw [List.filterMap_nil, List.filterMap_eq_nil_iff]
      intro item member
      obtain ⟨i, at_⟩ := List.mem_iff_getElem?.mp member
      have nothing := same i
      rw [at_] at nothing
      exact nothing
  | cons head rest ih =>
      cases after with
      | nil =>
          rw [List.filterMap_nil, eq_comm, List.filterMap_eq_nil_iff]
          intro item member
          obtain ⟨i, at_⟩ := List.mem_iff_getElem?.mp member
          have nothing := same i
          rw [at_] at nothing
          exact nothing.symm
      | cons head' rest' =>
          have first : pick head' = pick head := same 0
          have tail := ih rest' fun i => same (i + 1)
          rw [List.filterMap_cons, List.filterMap_cons, first, tail]

/-- A new pick at one place is one more pick. -/
theorem filterMap_set_perm {α β : Type} (pick : α → Option β) (items : List α) (i : Nat)
    (old new : α) (picked : β) (at_ : items[i]? = some old) (before : pick old = none)
    (after : pick new = some picked) :
    ((items.set i new).filterMap pick).Perm (picked :: items.filterMap pick) := by
  induction items generalizing i with
  | nil => cases at_
  | cons head rest ih =>
      cases i with
      | zero =>
          obtain rfl : head = old := Option.some.inj at_
          rw [List.set_cons_zero, List.filterMap_cons_some after, List.filterMap_cons_none before]
      | succ i =>
          have tail := ih i at_
          rw [List.set_cons_succ]
          cases first : pick head with
          | none =>
              rw [List.filterMap_cons_none first, List.filterMap_cons_none first]
              exact tail
          | some item =>
              rw [List.filterMap_cons_some first, List.filterMap_cons_some first]
              exact (tail.cons item).trans (List.Perm.swap picked item _)

theorem foldl_firstOccurrences (users seen : List String) (once : (seen ++ users).Nodup) :
    users.foldl (fun seen user => if user ∈ seen then seen else seen ++ [user]) seen =
      seen ++ users := by
  induction users generalizing seen with
  | nil => simp
  | cons user rest ih =>
      have fresh : user ∉ seen := by
        intro member
        rw [List.nodup_append] at once
        exact once.2.2 user member user List.mem_cons_self rfl
      have regrouped : seen ++ user :: rest = (seen ++ [user]) ++ rest := by simp
      rw [List.foldl_cons, if_neg fresh, regrouped]
      rw [regrouped] at once
      exact ih (seen ++ [user]) once

theorem firstOccurrences_of_nodup (users : List String) (once : users.Nodup) :
    firstOccurrences users = users :=
  foldl_firstOccurrences users [] once

/-! ## What holds during a race -/

/-- The ground on which a request is turned down; it does not go away during a race. -/
inductive Grounds (origin s : Store) (user coupon : String) : Error → Prop
  | missing (missing : s.coupon? coupon = none) :
      Grounds origin s user coupon (.couponNotFound coupon)
  | soldOut (row : Coupon) (found : s.coupon? coupon = some row) (empty : row.remaining = 0) :
      Grounds origin s user coupon (.noStock coupon)
  | repeated (row : Coupon) (found : origin.coupon? coupon = some row) (stock : 0 < row.remaining)
      (claimed : (user, coupon) ∈ s.keys) :
      Grounds origin s user coupon (.alreadyClaimed user coupon)

structure Standing (origin s : Store) (call : Call) : Prop where
  undoing : ∀ e expires, call.phase = .trying (.undoing e) expires →
    Grounds origin s call.user call.coupon e
  granted : ∀ claim now, call.phase = .finished (.ok claim) now →
    claim ∈ s.claims ∧ claim.user = call.user ∧ claim.coupon = call.coupon
  refused : ∀ e now, call.phase = .finished (.error e) now →
    Grounds origin s call.user call.coupon e

structure Racing (origin s : System) : Prop where
  sound : s.Sound
  due : s.store.failing = 0
  first : origin.calls.length ≤ s.calls.length
  rows : ∀ name, s.store.coupon? name = none ↔ origin.store.coupon? name = none
  ledger : ∀ name row, origin.store.coupon? name = some row → ∃ added : List Claim,
    s.store.claimsOn name = origin.store.claimsOn name ++ added ∧
      s.store.coupon? name = some { row with remaining := row.remaining - added.length } ∧
      added.Perm (won (s.calls.drop origin.calls.length) name)
  standing : ∀ (c : Nat) (call : Call), origin.calls.length ≤ c → s.calls[c]? = some call →
    Standing origin.store s.store call

theorem Action.Races.byCall {first : Nat} {action : Action} (races : action.Races first) :
    action.hand? = none := by
  cases action with
  | start user coupon deadline limit => rfl
  | advance c => rfl
  | pass ms => rfl
  | _ => exact races.elim

section Store

variable {origin s store : Store} {t : TxnId} {user coupon : String} {e : Error}

theorem Store.Change.keys_mem (change : s.Change t store) (key : String × String)
    (member : key ∈ s.keys) : key ∈ store.keys := by
  rcases change.tables with ⟨-, -, keys⟩ | ⟨-, -, rfl⟩
  · rw [keys]
    exact member
  · exact List.mem_append_left _ member

theorem Grounds.stable (grounds : Grounds origin s user coupon e) (change : s.Change t store)
    (sound : store.Sound) : Grounds origin store user coupon e := by
  cases grounds with
  | missing missing => exact .missing ((change.coupon?_none_iff coupon).mpr missing)
  | soldOut row found empty =>
      obtain ⟨row', found', -, -, fewer⟩ := change.row coupon row found
      have bounds := sound.row coupon row' found'
      exact .soldOut row' found' (by omega)
  | repeated row found stock claimed =>
      exact .repeated row found stock (change.keys_mem _ claimed)

theorem Standing.stable {call : Call} (standing : Standing origin s call)
    (change : s.Change t store) (sound : store.Sound) : Standing origin store call where
  undoing := fun e expires trying => (standing.undoing e expires trying).stable change sound
  granted := by
    intro claim now finished
    obtain ⟨member, own⟩ := standing.granted claim now finished
    exact ⟨change.claims_prefix.subset member, own⟩
  refused := fun e now finished => (standing.refused e now finished).stable change sound

/-- A call that is neither turned down nor over stands anyhow. -/
theorem Standing.of_open (origin s : Store) (call : Call) (stage : Stage) (expires : Nat)
    (trying : call.phase = .trying stage expires) (heeded : ∀ e, stage ≠ .undoing e) :
    Standing origin s call := by
  constructor
  · intro e due undoing
    rw [trying] at undoing
    exact absurd (Phase.trying.inj undoing).1 (heeded e)
  · intro claim now finished
    rw [trying] at finished
    cases finished
  · intro e now finished
    rw [trying] at finished
    cases finished

theorem Standing.of_undoing (call : Call) (expires : Nat)
    (trying : call.phase = .trying (.undoing e) expires)
    (grounds : Grounds origin s call.user call.coupon e) : Standing origin s call := by
  constructor
  · intro other due undoing
    rw [trying] at undoing
    cases undoing
    exact grounds
  · intro claim now finished
    rw [trying] at finished
    cases finished
  · intro other now finished
    rw [trying] at finished
    cases finished

theorem Standing.of_refused (call : Call) (now : Nat)
    (finished : call.phase = .finished (.error e) now)
    (grounds : Grounds origin s call.user call.coupon e) : Standing origin s call := by
  constructor
  · intro other due undoing
    rw [finished] at undoing
    cases undoing
  · intro claim now' granted
    rw [finished] at granted
    cases granted
  · intro other now' refused
    rw [finished] at refused
    cases refused
    exact grounds

theorem Standing.of_granted (call : Call) (claim : Claim) (now : Nat)
    (finished : call.phase = .finished (.ok claim) now) (member : claim ∈ s.claims)
    (own : claim.user = call.user ∧ claim.coupon = call.coupon) : Standing origin s call := by
  constructor
  · intro e due undoing
    rw [finished] at undoing
    cases undoing
  · intro claim' now' granted
    rw [finished] at granted
    cases granted
    exact ⟨member, own⟩
  · intro e now' refused
    rw [finished] at refused
    cases refused

/-- A coupon with stock left had stock at the beginning. -/
theorem Racing.stock {origin s : System} (racing : Racing origin s) (name : String) (row : Coupon)
    (found : s.store.coupon? name = some row) (stock : 0 < row.remaining) :
    ∃ first, origin.store.coupon? name = some first ∧ 0 < first.remaining := by
  cases present : origin.store.coupon? name with
  | none =>
      rw [(racing.rows name).mpr present] at found
      cases found
  | some first =>
      obtain ⟨added, -, now, -⟩ := racing.ledger name first present
      rw [found, Option.some.injEq] at now
      subst now
      dsimp only at stock
      exact ⟨first, rfl, by omega⟩

end Store

variable {origin s s' : System}

theorem Racing.standing_move (racing : Racing origin s) (c : Nat) (call : Call) (stage : Stage)
    (expires : Nat) (store : Store) (next : Stage) (late : origin.calls.length ≤ c)
    (known : s.calls[c]? = some call) (trying : call.phase = .trying stage expires)
    (move : Move call.user call.coupon (System.txnOf c call) s.store stage store next)
    (supports : s.store.Supports (System.txnOf c call) call.user call.coupon stage)
    (sound : store.Sound) :
    Standing origin.store store (call.proceed s.now expires next) := by
  have before := racing.standing c call late known
  have change := move.change supports
  -- An attempt that has secured its unit is turned down only over a claim of the same user.
  have repeated : s.store.Secured (System.txnOf c call) call.coupon →
      (call.user, call.coupon) ∈ s.store.keys →
      Grounds origin.store s.store call.user call.coupon
        (.alreadyClaimed call.user call.coupon) := by
    rintro ⟨-, row, found, stock⟩ claimed
    obtain ⟨first, present, some_⟩ := racing.stock call.coupon row found stock
    exact .repeated first present some_ claimed
  have refused : ∀ e, e.retryable = false → Grounds origin.store store call.user call.coupon e →
      Standing origin.store store (call.conclude s.now (.error e)) := by
    intro e final grounds
    rw [call.conclude_final s.now (.error e) fun other same => by
      rw [← Except.error.inj same]
      exact final]
    exact .of_refused _ s.now rfl grounds
  cases move with
  | missing missing => exact .of_undoing _ expires rfl (.missing missing)
  | soldOut row found empty holds =>
      refine .of_undoing _ expires rfl (.soldOut row ?_ empty)
      exact (Store.coupon?_join s.store _ call.coupon call.coupon).trans found
  | repeated claimed =>
      exact .of_undoing _ expires rfl (repeated supports.2.2 claimed)
  | loses claim injected =>
      rw [racing.due] at injected
      cases injected
  | clashes claim due claimed =>
      exact refused _ rfl ((repeated supports.2.2.2.2 claimed).stable change sound)
  | commits claim due unclaimed =>
      obtain ⟨-, writes, user, coupon, -⟩ := supports
      refine .of_granted _ claim s.now rfl ?_ ⟨user, coupon⟩
      rw [writes]
      exact List.mem_append_right _ (List.mem_singleton_self claim)
  | undoes e =>
      have grounds := before.undoing e expires trying
      exact refused e supports.2.2.1.final (grounds.stable change sound)
  | _ => exact .of_open _ _ _ _ expires rfl (fun e => Stage.noConfusion)

theorem Racing.standing_step {action : Action} (racing : Racing origin s)
    (races : action.Races origin.calls.length) (does : s.Does action s') (c : Nat) (call' : Call)
    (late : origin.calls.length ≤ c) (known' : s'.calls[c]? = some call') :
    Standing origin.store s'.store call' := by
  cases does with
  | start user coupon deadline limit =>
      change (s.calls ++ [_])[c]? = some call' at known'
      rcases getElem?_snoc s.calls _ call' c known' with old | ⟨-, rfl⟩
      · exact racing.standing c call' late old
      · exact .of_open _ _ _ _ _ rfl (fun e => Stage.noConfusion)
  | advance d call stage expires store next known trying asked =>
      obtain ⟨supports, move⟩ := racing.sound.move known trying asked
      have change := move.change supports
      have sound := change.sound racing.sound.store
      rcases System.putCall_cases d c _ call' known' with ⟨rfl, rfl⟩ | ⟨-, old⟩
      · exact racing.standing_move d call stage expires store next late known trying move supports
          sound
      · exact (racing.standing c call' late old).stable change sound
  | pass ms => exact racing.standing c call' late known'
  | byHand action number store hand change =>
      rw [races.byCall] at hand
      cases hand
  | _ => exact races.elim

theorem won_congr (n : Nat) (name : String) (silent : ∀ c, s'.claimOf? c = s.claimOf? c) :
    won (s'.calls.drop n) name = won (s.calls.drop n) name := by
  unfold won
  rw [filterMap_eq_of_getElem? Call.granted? (s.calls.drop n) (s'.calls.drop n)]
  intro i
  rw [List.getElem?_drop, List.getElem?_drop]
  exact silent (n + i)

/-- A call that is granted a claim adds it to those that were won. -/
theorem won_granted (n c : Nat) (call call' : Call) (claim : Claim) (name : String) (late : n ≤ c)
    (known : s.calls[c]? = some call) (before : call.granted? = none)
    (after : call'.granted? = some claim) :
    (won ((s.calls.set c call').drop n) name).Perm
      ([claim].filter (·.coupon = name) ++ won (s.calls.drop n) name) := by
  have at_ : (s.calls.drop n)[c - n]? = some call := by
    rw [List.getElem?_drop, show n + (c - n) = c by omega]
    exact known
  have more := filterMap_set_perm Call.granted? (s.calls.drop n) (c - n) call call' claim at_ before
    after
  have dropped : (s.calls.set c call').drop n = (s.calls.drop n).set (c - n) call' := by
    rw [List.drop_set, if_neg (by omega)]
  unfold won
  rw [dropped, ← List.filter_append]
  exact more.filter _

theorem Racing.ledger_step {action : Action} (racing : Racing origin s)
    (races : action.Races origin.calls.length) (does : s.Does action s') (name : String)
    (row : Coupon) (found : origin.store.coupon? name = some row) :
    ∃ added : List Claim, s'.store.claimsOn name = origin.store.claimsOn name ++ added ∧
      s'.store.coupon? name = some { row with remaining := row.remaining - added.length } ∧
      added.Perm (won (s'.calls.drop origin.calls.length) name) := by
  obtain ⟨added, claims, now, granted⟩ := racing.ledger name row found
  cases does.effect racing.sound races.byCall with
  | quiet _ same silent =>
      refine ⟨added, ?_, ?_, ?_⟩
      · rw [same.claimsOn, claims]
      · rw [same.coupon?, now]
      · rw [won_congr origin.calls.length name silent]
        exact granted
  | created given amount positive free more silent => exact races.elim
  | granted c call claim expires known trying user coupon grants answered =>
      have more := won_granted origin.calls.length c call (call.conclude s.now (.ok claim)) claim
        name races known (call.granted?_of_trying _ expires trying) rfl
      rw [← answered] at more
      by_cases same : claim.coupon = name
      · subst same
        refine ⟨added ++ [claim], ?_, ?_, ?_⟩
        · rw [grants.claimsOn_self, claims, List.append_assoc]
        · have one : row.remaining - added.length - 1 =
              row.remaining - (added ++ [claim]).length := by
            rw [List.length_append, List.length_singleton]
            omega
          rw [grants.coupon?_self, now, Option.map_some, ← one]
        · rw [List.filter_cons_of_pos (by simp), List.filter_nil, List.singleton_append] at more
          exact (List.perm_append_singleton claim added).trans
            ((granted.cons claim).trans more.symm)
      · refine ⟨added, ?_, ?_, ?_⟩
        · rw [grants.claimsOn_of_ne name same, claims]
        · rw [grants.coupon?_of_ne name same, now]
        · rw [List.filter_cons_of_neg (by simpa using same), List.filter_nil, List.nil_append]
            at more
          exact granted.trans more.symm

theorem Racing.rows_step {action : Action} (racing : Racing origin s)
    (races : action.Races origin.calls.length) (does : s.Does action s') (name : String) :
    s'.store.coupon? name = none ↔ origin.store.coupon? name = none := by
  rw [← racing.rows name]
  cases does.effect racing.sound races.byCall with
  | quiet _ same silent => rw [same.coupon?]
  | created given amount positive free more silent => exact races.elim
  | granted c call claim expires known trying user coupon grants answered =>
      exact grants.coupon?_none_iff name

theorem Move.due {store next : Store} {t : TxnId} {user coupon : String} {stage reached : Stage}
    (move : Move user coupon t store stage next reached) (due : store.failing = 0) :
    next.failing = 0 := by
  have joined : (store.join t coupon).failing = 0 := by
    unfold Store.join
    split
    · exact due
    · exact due
  cases move with
  | queues row found taken => exact joined
  | soldOut row found empty holds => exact joined
  | secures row found stock holds => exact joined
  | loses claim injected =>
      rw [due] at injected
      cases injected
  | _ => exact due

theorem Racing.step {action : Action} (racing : Racing origin s)
    (races : action.Races origin.calls.length) (does : s.Does action s') : Racing origin s' where
  sound := does.sound racing.sound
  due := by
    cases does with
    | advance c call stage expires store next known trying asked =>
        have move := (racing.sound.move known trying asked).2
        exact move.due racing.due
    | start user coupon deadline limit => exact racing.due
    | pass ms => exact racing.due
    | byHand action number store hand change =>
        rw [races.byCall] at hand
        cases hand
    | _ => exact races.elim
  first := Nat.le_trans racing.first does.calls_length_le
  rows := racing.rows_step races does
  ledger := racing.ledger_step races does
  standing := racing.standing_step races does

theorem Racing.begin_ (sound : s.Sound) (due : s.store.failing = 0) : Racing s s where
  sound := sound
  due := due
  first := Nat.le_refl _
  rows := fun name => Iff.rfl
  ledger := by
    intro name row found
    refine ⟨[], ?_, ?_, ?_⟩
    · rw [List.append_nil]
    · rw [found, List.length_nil]
      simp
    · rw [List.drop_length]
      exact List.Perm.nil
  standing := by
    intro c call late known
    have bound := (List.getElem?_eq_some_iff.mp known).1
    omega

/-! ## Who has won -/

theorem Store.Sound.nodup_users {store : Store} (sound : store.Sound) (name : String) :
    ((store.claimsOn name).map (·.user)).Nodup := by
  have keys : (store.claims.map Claim.key).Nodup := by
    rw [← sound.keys.index]
    exact sound.keys.once
  have apart : ∀ claim ∈ store.claimsOn name, ∀ other ∈ store.claimsOn name,
      claim.user = other.user → claim = other := by
    intro claim member other otherMember same
    obtain ⟨committed, named⟩ := List.mem_filter.mp member
    obtain ⟨otherCommitted, otherNamed⟩ := List.mem_filter.mp otherMember
    have coupon : claim.coupon = other.coupon :=
      (of_decide_eq_true named).trans (of_decide_eq_true otherNamed).symm
    exact List.inj_on_of_nodup_map keys committed otherCommitted (Prod.ext same coupon)
  exact List.Nodup.map_on apart (keys.of_map.filter _)

theorem Store.Sound.claimants_eq {store : Store} (sound : store.Sound) (name : String) :
    store.claimants name = (store.claimsOn name).map (·.user) :=
  firstOccurrences_of_nodup _ (sound.nodup_users name)

theorem Standing.cases_of_finished {origin store : Store} {call : Call}
    (standing : Standing origin store call) (ended : call.isFinished = true) :
    (∃ claim, call.granted? = some claim ∧ call.error? = none ∧ claim ∈ store.claims ∧
        claim.user = call.user ∧ claim.coupon = call.coupon) ∨
      ∃ e, call.granted? = none ∧ call.error? = some e ∧
        Grounds origin store call.user call.coupon e := by
  unfold Call.isFinished Call.outcome? at ended
  cases phase : call.phase with
  | finished result now =>
      cases result with
      | ok claim =>
          have own := standing.granted claim now phase
          exact Or.inl ⟨claim, by simp [Call.granted?, phase], by simp [Call.error?, phase], own⟩
      | error e =>
          have grounds := standing.refused e now phase
          exact Or.inr ⟨e, by simp [Call.granted?, phase], by simp [Call.error?, phase], grounds⟩
  | _ =>
      rw [phase] at ended
      cases ended

theorem users_won (calls : List Call) (name : String)
    (own : ∀ call ∈ calls, ∀ claim, call.granted? = some claim →
      claim.user = call.user ∧ claim.coupon = call.coupon) :
    (won calls name).map (·.user) = (winners calls name).map (·.user) := by
  induction calls with
  | nil => rfl
  | cons call rest ih =>
      have tail := ih fun other member => own other (List.mem_cons_of_mem call member)
      unfold won winners requestsOn at tail ⊢
      cases answer : call.granted? with
      | none =>
          rw [List.filterMap_cons_none answer, tail]
          by_cases same : call.coupon = name
          · simp [same, answer]
          · simp [same]
      | some claim =>
          obtain ⟨user, coupon⟩ := own call List.mem_cons_self claim answer
          rw [List.filterMap_cons_some answer]
          by_cases same : call.coupon = name
          · simp [same, answer, coupon, user, tail]
          · simp [same, coupon, tail]

theorem Racing.standing_of_mem (racing : Racing origin s) (call : Call)
    (member : call ∈ s.calls.drop origin.calls.length) :
    Standing origin.store s.store call := by
  obtain ⟨i, at_⟩ := List.mem_iff_getElem?.mp member
  rw [List.getElem?_drop] at at_
  exact racing.standing (origin.calls.length + i) call (Nat.le_add_right _ _) at_

theorem mem_requestsOn (calls : List Call) (name : String) (call : Call) :
    call ∈ requestsOn calls name ↔ call ∈ calls ∧ call.coupon = name := by
  unfold requestsOn
  rw [List.mem_filter, decide_eq_true_eq]

structure Tally (origin s : System) (name : String) (row : Coupon) (added : List Claim) :
    Prop where
  claims : s.store.claimsOn name = origin.store.claimsOn name ++ added
  left : s.store.coupon? name = some { row with remaining := row.remaining - added.length }
  users : (added.map (·.user)).Perm
    ((winners (s.calls.drop origin.calls.length) name).map (·.user))
  once : (added.map (·.user)).Nodup
  new_ : ∀ user ∈ added.map (·.user), user ∉ origin.store.claimants name
  fits : (added.length : Int) ≤ row.remaining

theorem Racing.tally (racing : Racing origin s) (sound : origin.Sound)
    (ended : ∀ call ∈ s.calls.drop origin.calls.length, call.isFinished = true)
    (name : String) (row : Coupon) (found : origin.store.coupon? name = some row) :
    ∃ added, Tally origin s name row added := by
  obtain ⟨added, claims, now, granted⟩ := racing.ledger name row found
  have own : ∀ call ∈ s.calls.drop origin.calls.length, ∀ claim, call.granted? = some claim →
      claim.user = call.user ∧ claim.coupon = call.coupon := by
    intro call member claim answer
    rcases (racing.standing_of_mem call member).cases_of_finished (ended call member) with
      ⟨claim', answer', -, -, user, coupon⟩ | ⟨e, none_, -, -⟩
    · rw [answer, Option.some.injEq] at answer'
      subst answer'
      exact ⟨user, coupon⟩
    · rw [answer] at none_
      cases none_
  have once := racing.sound.store.nodup_users name
  rw [claims, List.map_append, List.nodup_append] at once
  have bounds := racing.sound.store.row name _ now
  refine ⟨added, claims, now, ?_, once.2.1, ?_, ?_⟩
  · rw [← users_won _ name own]
    exact granted.map _
  · intro user member old
    rw [sound.store.claimants_eq] at old
    exact once.2.2 user old user member rfl
  · dsimp only at bounds
    omega

namespace Tally

variable {name : String} {row : Coupon} {added : List Claim}

theorem length_le_newcomers (tally : Tally origin s name row added) :
    added.length ≤ (newcomers origin.store (s.calls.drop origin.calls.length) name).card := by
  have within : (added.map (·.user)).toFinset ⊆
      newcomers origin.store (s.calls.drop origin.calls.length) name := by
    intro user member
    rw [List.mem_toFinset] at member
    have winner := tally.users.mem_iff.mp member
    obtain ⟨call, callMember, same⟩ := List.mem_map.mp winner
    unfold newcomers
    rw [Finset.mem_sdiff, List.mem_toFinset, List.mem_toFinset]
    refine ⟨?_, tally.new_ user member⟩
    exact List.mem_map.mpr ⟨call, (List.mem_filter.mp callMember).1, same⟩
  have fewer := Finset.card_le_card within
  rw [List.toFinset_card_of_nodup tally.once, List.length_map] at fewer
  exact fewer

/-- While stock is left, every new user who asks has won. -/
theorem newcomers_le_length (tally : Tally origin s name row added) (racing : Racing origin s)
    (sound : origin.Sound)
    (ended : ∀ call ∈ s.calls.drop origin.calls.length, call.isFinished = true)
    (left : (added.length : Int) < row.remaining) :
    (newcomers origin.store (s.calls.drop origin.calls.length) name).card ≤ added.length := by
  have within : newcomers origin.store (s.calls.drop origin.calls.length) name ⊆
      (added.map (·.user)).toFinset := by
    intro user member
    unfold newcomers at member
    rw [Finset.mem_sdiff, List.mem_toFinset, List.mem_toFinset] at member
    obtain ⟨asks, new_⟩ := member
    obtain ⟨call, callMember, rfl⟩ := List.mem_map.mp asks
    obtain ⟨callMember, coupon⟩ := (mem_requestsOn _ name call).mp callMember
    -- Stock is left, so whoever was turned down holds a claim, as do those who were granted one.
    have held : call.user ∈ (s.store.claimsOn name).map (·.user) := by
      rcases (racing.standing_of_mem call callMember).cases_of_finished (ended call callMember) with
        ⟨claim, -, -, committed, own, same⟩ | ⟨e, -, -, grounds⟩
      · refine List.mem_map.mpr ⟨claim, List.mem_filter.mpr ⟨committed, ?_⟩, own⟩
        exact decide_eq_true (same.trans coupon)
      · rw [coupon] at grounds
        cases grounds with
        | missing missing =>
            rw [tally.left] at missing
            cases missing
        | soldOut row' found empty =>
            rw [tally.left, Option.some.injEq] at found
            rw [← found] at empty
            dsimp only at empty
            omega
        | repeated row' found stock claimed =>
            exact (racing.sound.store.mem_keys call.user name).mp claimed
    rw [tally.claims, List.map_append, List.mem_append] at held
    rw [List.mem_toFinset]
    rcases held with old | added
    · rw [sound.store.claimants_eq] at new_
      exact absurd old new_
    · exact added
  have fewer := Finset.card_le_card within
  rw [List.toFinset_card_of_nodup tally.once, List.length_map] at fewer
  exact fewer

theorem length_eq (tally : Tally origin s name row added) (racing : Racing origin s)
    (sound : origin.Sound)
    (ended : ∀ call ∈ s.calls.drop origin.calls.length, call.isFinished = true) :
    added.length = min row.remaining.toNat
      (newcomers origin.store (s.calls.drop origin.calls.length) name).card := by
  have fits := tally.fits
  have atMost := tally.length_le_newcomers
  by_cases left : (added.length : Int) < row.remaining
  · have atLeast := tally.newcomers_le_length racing sound ended left
    omega
  · omega

end Tally

/-- How a request on a coupon that exists can be turned down in the end. -/
theorem Racing.turned_down (racing : Racing origin s)
    (ended : ∀ call ∈ s.calls.drop origin.calls.length, call.isFinished = true)
    {name : String} {row : Coupon} {added : List Claim} (tally : Tally origin s name row added)
    (found : origin.store.coupon? name = some row) (call : Call)
    (member : call ∈ requestsOn (s.calls.drop origin.calls.length) name)
    (ungranted : call.granted? = none) :
    (call.error? = some (.noStock name) ∧ (added.length : Int) = row.remaining) ∨
      call.error? = some (.alreadyClaimed call.user name) ∧ 0 < row.remaining := by
  obtain ⟨callMember, coupon⟩ := (mem_requestsOn _ name call).mp member
  rcases (racing.standing_of_mem call callMember).cases_of_finished (ended call callMember) with
    ⟨claim, granted, -⟩ | ⟨e, -, refused, grounds⟩
  · rw [granted] at ungranted
    cases ungranted
  · rw [coupon] at grounds
    cases grounds with
    | missing missing =>
        rw [tally.left] at missing
        cases missing
    | soldOut row' now empty =>
        rw [tally.left, Option.some.injEq] at now
        rw [← now] at empty
        dsimp only at empty
        exact Or.inl ⟨refused, by omega⟩
    | repeated row' first stock claimed =>
        rw [found, Option.some.injEq] at first
        subst first
        exact Or.inr ⟨refused, stock⟩

theorem Racing.settled (racing : Racing origin s) (sound : origin.Sound)
    (ended : ∀ call ∈ s.calls.drop origin.calls.length, call.isFinished = true)
    (name : String) (row : Coupon) (found : origin.store.coupon? name = some row) :
    Settled origin.store s.store (s.calls.drop origin.calls.length) name row := by
  obtain ⟨added, tally⟩ := racing.tally sound ended name row found
  have count := tally.length_eq racing sound ended
  have atMost := tally.length_le_newcomers
  have wins : (winners (s.calls.drop origin.calls.length) name).length = added.length := by
    have same := tally.users.length_eq
    rw [List.length_map, List.length_map] at same
    exact same.symm
  refine ⟨?_, ?_, ?_, ?_, ?_, ?_, ?_⟩
  · rw [wins, count]
  · exact tally.users.nodup_iff.mp tally.once
  · intro call member ungranted
    rcases racing.turned_down ended tally found call member ungranted with ⟨error, -⟩ | ⟨error, -⟩
    · exact Or.inl error
    · exact Or.inr error
  · intro plenty call member error
    have ungranted := call.granted?_of_error _ error
    rcases racing.turned_down ended tally found call member ungranted with ⟨-, all⟩ | ⟨other, -⟩
    · omega
    · rw [error] at other
      cases other
  · intro empty call member
    have ungranted : call.granted? = none := by
      cases answer : call.granted? with
      | none => rfl
      | some claim =>
          have winner : call ∈ winners (s.calls.drop origin.calls.length) name :=
            List.mem_filter.mpr ⟨member, by rw [answer]; rfl⟩
          have some_ := List.length_pos_of_mem winner
          omega
    rcases racing.turned_down ended tally found call member ungranted with ⟨error, -⟩ | ⟨-, stock⟩
    · exact error
    · omega
  · rw [tally.left, ← count]
  · refine ⟨added.map (·.user), tally.users, ?_⟩
    rw [racing.sound.store.claimants_eq, sound.store.claimants_eq, tally.claims, List.map_append]

theorem Racing.outcomes (racing : Racing origin s) (sound : origin.Sound)
    (ended : ∀ call ∈ s.calls.drop origin.calls.length, call.isFinished = true) :
    Outcomes origin.store s.store (s.calls.drop origin.calls.length) where
  settled := racing.settled sound ended
  missing := by
    intro name missing call member
    have absent := (racing.rows name).mpr missing
    obtain ⟨callMember, coupon⟩ := (mem_requestsOn _ name call).mp member
    rcases (racing.standing_of_mem call callMember).cases_of_finished (ended call callMember) with
      ⟨claim, -, -, committed, -, same⟩ | ⟨e, -, refused, grounds⟩
    · have known := racing.sound.store.keys.named claim committed
      rw [same, coupon, absent] at known
      cases known
    · rw [coupon] at grounds
      cases grounds with
      | missing absent => exact refused
      | soldOut row found empty =>
          rw [absent] at found
          cases found
      | repeated row found stock claimed =>
          rw [missing] at found
          cases found
  untouched := by
    intro name nobody
    cases found : origin.store.coupon? name with
    | none =>
        have absent := (racing.rows name).mpr found
        refine ⟨absent, ?_⟩
        rw [racing.sound.store.claimsOn_of_missing name absent,
          sound.store.claimsOn_of_missing name found]
    | some row =>
        obtain ⟨added, tally⟩ := racing.tally sound ended name row found
        have nothing : added = [] := by
          have users := tally.users
          unfold winners at users
          rw [nobody, List.filter_nil, List.map_nil, List.perm_nil, List.map_eq_nil_iff] at users
          exact users
        subst nothing
        refine ⟨?_, ?_⟩
        · rw [tally.left]
          simp
        · rw [tally.claims, List.append_nil]

/-! ## The requests of a race -/

def Call.request (call : Call) : String × String := (call.user, call.coupon)

theorem map_set_of_eq {α β : Type} (f : α → β) (items : List α) (i : Nat) (old new : α)
    (at_ : items[i]? = some old) (same : f new = f old) :
    (items.set i new).map f = items.map f := by
  have kept : (items.map f)[i]? = some (f new) := by
    rw [List.getElem?_map, at_, Option.map_some, same]
  obtain ⟨bound, found⟩ := List.getElem?_eq_some_iff.mp kept
  rw [List.map_set, ← found, List.set_getElem_self]

theorem System.Does.requests {action : Action} (does : s.Does action s') :
    s'.calls.map Call.request = s.calls.map Call.request ++ action.request?.toList := by
  have unchanged : ∀ (c : Nat) (call call' : Call), s.calls[c]? = some call → call.Goes call' →
      (s.calls.set c call').map Call.request = s.calls.map Call.request ++ [] := by
    intro c call call' known goes
    rw [List.append_nil]
    exact map_set_of_eq Call.request s.calls c call call' known
      (Prod.ext goes.request.1 goes.request.2)
  cases does with
  | start user coupon deadline limit => exact List.map_append
  | advance c call stage expires store next known trying asked =>
      exact unchanged c call _ known (call.proceed_goes s.now expires stage next trying)
  | expire c call stage expires known trying =>
      exact unchanged c call _ known (call.conclude_goes s.now expires stage _ trying)
  | wake c call wakes known resting => exact unchanged c call _ known (.resumes wakes _ resting)
  | cancel c call stage expires known trying =>
      exact unchanged c call _ known
        (.ends stage expires .cancelled trying fun next due => Phase.noConfusion)
  | cancelPause c call wakes known resting =>
      exact unchanged c call _ known (.abandons wakes resting)
  | byHand action number store hand change =>
      cases action with
      | start user coupon deadline limit => cases hand
      | _ => exact (List.append_nil _).symm
  | _ => exact (List.append_nil _).symm

theorem System.run_requests (actions : List Action) (runs : System.run actions s = some s') :
    s'.calls.map Call.request = s.calls.map Call.request ++ actions.filterMap Action.request? := by
  induction actions generalizing s with
  | nil =>
      rw [← Option.some.inj runs, List.filterMap_nil, List.append_nil]
  | cons action rest ih =>
      obtain ⟨next, step, runs⟩ := Option.bind_eq_some_iff.mp runs
      have head := (System.act_does action step).requests
      rw [ih runs, head, List.append_assoc]
      cases asks : action.request? with
      | none => rw [List.filterMap_cons_none asks, Option.toList_none, List.nil_append]
      | some request =>
          rw [List.filterMap_cons_some asks, Option.toList_some, List.singleton_append]

/-- However the steps of the requests interleave: when all are over, on every coupon exactly as many
have won as there were units and new users, whichever were fewer, and all others were turned down.
The requests may start from any state that can be reached. -/
theorem System.race_outcomes (setup batch : List Action) (s s' : System)
    (reached : run setup {} = some s) (due : s.store.failing = 0)
    (races : ∀ action ∈ batch, action.Races s.calls.length) (runs : run batch s = some s')
    (ended : ∀ call ∈ s'.calls.drop s.calls.length, call.isFinished = true) :
    (s'.calls.drop s.calls.length).map Call.request = batch.filterMap Action.request? ∧
      Outcomes s.store s'.store (s'.calls.drop s.calls.length) := by
  have sound := run_sound setup reached
  have racing : Racing s s' := by
    refine run_keeps (Racing s) (Action.Races s.calls.length) ?_ batch races runs
      (.begin_ sound due)
    exact fun before after action allowed does racing => racing.step allowed does
  refine ⟨?_, racing.outcomes sound ended⟩
  have requests := run_requests batch runs
  rw [List.map_drop, requests]
  exact List.drop_left' (by rw [List.length_map])

/-- Two users, one of them twice, race for one unit, and one request is for no coupon at all. -/
def soloRace : List Action :=
  [.start "first" "SOLO" .zero 1, .start "second" "SOLO" .zero 1, .start "first" "SOLO" .zero 1,
    .start "first" "GONE" .zero 1, .advance 1, .advance 0, .advance 1, .advance 0, .advance 3,
    .advance 3, .advance 3, .advance 1, .advance 1, .advance 2, .advance 2, .advance 1, .advance 0,
    .advance 0, .advance 2, .advance 2]

theorem System.race_outcomes_solo :
    ∃ s s', run [.create "SOLO" 1] {} = some s ∧ run soloRace s = some s' ∧
      (s'.calls.drop s.calls.length).map Call.request = soloRace.filterMap Action.request? ∧
      Outcomes s.store s'.store (s'.calls.drop s.calls.length) :=
  ⟨_, _, rfl, rfl, race_outcomes [.create "SOLO" 1] soloRace _ _ rfl rfl (by decide) rfl
    (by decide)⟩

end CouponDesk.Memory
