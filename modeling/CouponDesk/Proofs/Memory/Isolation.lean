import CouponDesk.Proofs.Memory.Anonymity
import CouponDesk.Proofs.Memory.Closing
import CouponDesk.Proofs.Memory.Takings

/-!
# Isolation

Before it commits, a transaction is seen by nobody.  A list of operations among which it never
commits is set against the same list without its operations, carried out in the store in which it
were closed: the tables are the same at the end, and so are all replies to other transactions, but
for ids and for those who wait for its locks.  The transaction itself sees what it has taken.  When
it ends in any way without a commit, what is left is the store in which it never was, but for the
ids that it has drawn.
-/

set_option autoImplicit false

namespace CouponDesk.Memory

def Operation.inserts : Operation → Bool
  | .ask _ (.insert _ _) => true
  | _ => false

namespace Store

/-- Nobody makes use of a lock, or gives up waiting for it, while `t` holds it. -/
def Patient (t : TxnId) : List Operation → Store → Prop
  | [], _ => True
  | op :: rest, s => s.impatient t op = false ∧ Patient t rest (s.after op)

def drawn (t : TxnId) (ops : List Operation) (s : Store) : Nat :=
  (s.accepted ops).countP fun op => op.inserts && op.txn? = some t

variable {s s' : Store} {t u : TxnId}

/-! ## Ids -/

/-- Only a claim that is staged takes an id. -/
theorem lastId_after (op : Operation) :
    (s.after op).lastId =
      s.lastId + if op.inserts && (s.rejection? op).isNone then 1 else 0 := by
  cases op with
  | create name amount =>
      change (s.create name amount).2.lastId = s.lastId
      rcases s.create_cases name amount with kept | ⟨-, -, added⟩
      · rw [kept]
      · rw [added]
  | failCommits count => rfl
  | drop t => rfl
  | leave t name =>
      simp only [after, leave]
      split <;> rfl
  | ask t request =>
      cases request with
      | begin => rfl
      | rollback => rfl
      | lock name =>
          simp only [after, perform]
          cases found : s.coupon? name with
          | none => exact congrArg lastId (congrArg Prod.snd (lock_missing s t name found))
          | some row =>
              rw [lock_found s t name row found]
              unfold join
              split <;> rfl
      | decrement name =>
          change (s.decrement t name).2.lastId = s.lastId
          rcases s.decrement_cases t name with kept | taken
          · rw [kept]
          · rw [taken]
            rfl
      | commit =>
          simp only [after, perform, commit]
          split
          · rfl
          · split <;> rfl
      | insert user name =>
          simp only [after, rejection?, perform, Operation.inserts, Prod.map, id,
            Bool.true_and]
          cases found : s.coupon? name with
          | none =>
              rw [insert_missing t user name found]
              rfl
          | some row =>
              rw [insert_found t user name row found]
              split <;> rfl

theorem refusalOf_unnumbered (request : Request) (reply : request.Reply) :
    refusalOf (request.unnumbered reply) = refusalOf reply := by
  cases request with
  | insert user name => cases reply <;> rfl
  | _ => rfl

/-- Stores that differ in ids only refuse the same. -/
theorem rejection?_of_alike (alike : s.anonymous = s'.anonymous) (op : Operation) :
    s.rejection? op = s'.rejection? op := by
  have asked : ∀ t request, (s.perform t request).1.bind refusalOf =
      (s'.perform t request).1.bind refusalOf := by
    intro t request
    have replies := congrArg (Option.bind · refusalOf) (reply_of_alike alike t request)
    simpa only [Option.bind_map, Function.comp_def, refusalOf_unnumbered] using replies
  cases op with
  | create name amount =>
      have replies : (s.create name amount).1 = (s'.create name amount).1 := by
        have first := congrArg Prod.fst (create_anonymous s name amount)
        have second := congrArg Prod.fst (create_anonymous s' name amount)
        rw [← alike] at second
        exact first.symm.trans second
      exact congrArg refusalOf replies
  | ask t request =>
      cases request with
      | begin => exact asked t .begin
      | lock name => exact asked t (.lock name)
      | insert user name => exact asked t (.insert user name)
      | decrement name => exact asked t (.decrement name)
      | commit => rfl
      | rollback => exact asked t .rollback
  | _ => rfl

theorem lastId_of_alike (alike : s.anonymous = s'.anonymous) (op : Operation) :
    (s.after op).lastId + s'.lastId = (s'.after op).lastId + s.lastId := by
  rw [lastId_after, lastId_after, rejection?_of_alike alike]
  omega

/-! ## Without the operations of a transaction -/

theorem drawn_cons (t : TxnId) (op : Operation) (rest : List Operation) (s : Store) :
    drawn t (op :: rest) s =
      (if op.inserts && (s.rejection? op).isNone && op.txn? = some t then 1 else 0) +
        drawn t rest (s.after op) := by
  unfold drawn
  rw [accepted]
  cases s.rejection? op with
  | some e => simp
  | none =>
      simp only [Option.isSome_none, Bool.false_eq_true, if_false, List.countP_cons,
        Option.isNone_none, Bool.and_true]
      exact Nat.add_comm _ _

theorem admits_of_close (op : Operation) (other : op.txn? ≠ some t) :
    (s.close t).admits op = s.admits op := by
  have live : ∀ u, some u ≠ some t → (s.close t).isLive u = s.isLive u := by
    intro u apart
    have other : u ≠ t := fun same => apart (congrArg some same)
    rw [isLive_close]
    simp [other]
  cases op with
  | ask u request => cases request <;> simp only [admits, live u other]
  | leave u name => exact live u other
  | _ => rfl

theorem carryOut_without (sound : s.Sound) (ops : List Operation)
    (uncommitted : .ask t .commit ∉ ops) (patient : Patient t ops s)
    (carried : s.carryOut ops = some s') (other : Store)
    (alike : (s.close t).anonymous = other.anonymous) :
    ∃ other', other.carryOut (ops.filter (·.txn? ≠ some t)) = some other' ∧
      (s'.close t).anonymous = other'.anonymous ∧
      s'.lastId + other.lastId = other'.lastId + s.lastId + drawn t ops s := by
  induction ops generalizing s other with
  | nil =>
      obtain rfl := Option.some.inj carried
      exact ⟨other, rfl, alike, Nat.add_comm _ _⟩
  | cons op rest ih =>
      obtain ⟨admitted, carried⟩ := Option.ite_none_right_eq_some.mp carried
      obtain ⟨unhindered, patient⟩ := patient
      have sound' := after_sound sound op admitted
      have later : .ask t .commit ∉ rest := fun member =>
        uncommitted (List.mem_cons_of_mem op member)
      rw [drawn_cons]
      by_cases own : op.txn? = some t
      · -- Its own operation does not show in the store in which it is closed.
        have alone : op ≠ .ask t .commit := by
          rintro rfl
          exact uncommitted List.mem_cons_self
        have closed := close_after (s := s) op own alone
        have alike' : ((s.after op).close t).anonymous = other.anonymous := by
          rw [closed]
          exact alike
        obtain ⟨other', carried', last, ids⟩ := ih sound' later patient carried other alike'
        refine ⟨other', ?_, last, ?_⟩
        · rw [List.filter_cons_of_neg (by simp [own])]
          exact carried'
        · rw [lastId_after] at ids
          simp only [own, decide_true, Bool.and_true]
          omega
      · -- What others do, they do there as well.
        have same := after_of_close sound op own unhindered
        have alike' : ((s.after op).close t).anonymous = (other.after op).anonymous := by
          rw [← same]
          exact after_of_alike alike op
        have ids : (s.after op).lastId + other.lastId = (other.after op).lastId + s.lastId := by
          have closed := lastId_of_alike alike op
          rw [same] at closed
          exact closed
        obtain ⟨other', carried', last, ids'⟩ := ih sound' later patient carried _ alike'
        refine ⟨other', ?_, last, ?_⟩
        · rw [List.filter_cons_of_pos (by simp [own])]
          refine Option.ite_none_right_eq_some.mpr ⟨?_, carried'⟩
          rw [← admits_of_alike alike, admits_of_close op own]
          exact admitted
        · simp only [own, decide_false, Bool.and_false, Bool.false_eq_true, if_false]
          omega

/-- Where only `t` acts, nothing at all is left but the ids that it has drawn. -/
theorem carryOut_alone (ops : List Operation) (uncommitted : .ask t .commit ∉ ops)
    (own : ∀ op ∈ ops, op.txn? = some t) (carried : s.carryOut ops = some s') :
    s'.close t = { s.close t with lastId := s'.lastId } := by
  induction ops generalizing s with
  | nil =>
      obtain rfl := Option.some.inj carried
      rfl
  | cons op rest ih =>
      obtain ⟨-, carried⟩ := Option.ite_none_right_eq_some.mp carried
      have later := ih (fun member => uncommitted (List.mem_cons_of_mem op member))
        (fun other member => own other (List.mem_cons_of_mem op member)) carried
      have alone : op ≠ .ask t .commit := by
        rintro rfl
        exact uncommitted List.mem_cons_self
      rw [later, close_after (s := s) op (own op List.mem_cons_self) alone]

/-! ## What others see -/

/-- Two stores tell those who only read the same. -/
structure ReadsLike (s s' : Store) : Prop where
  get : ∀ name, s'.get name = s.get name
  claimants : ∀ name, s'.claimants name = s.claimants name
  count : ∀ name, s'.count name = s.count name
  totalClaims : s'.totalClaims = s.totalClaims
  details : ∀ name, s'.details name = s.details name

/-- What is read depends on the rows and on the claims without their ids. -/
theorem readsLike_of_tables (coupons : s'.coupons = s.coupons)
    (claims : s'.claims.map Claim.anonymous = s.claims.map Claim.anonymous) : s.ReadsLike s' := by
  have row : ∀ name, s'.coupon? name = s.coupon? name := coupon?_congr coupons
  have on : ∀ (store : Store) (name : String), (store.claimsOn name).map Claim.anonymous =
      (store.claims.map Claim.anonymous).filter (·.coupon = name) := by
    intro store name
    rw [List.filter_map]
    rfl
  have claimsOn : ∀ name, (s'.claimsOn name).map Claim.anonymous =
      (s.claimsOn name).map Claim.anonymous := by
    intro name
    rw [on, on, claims]
  have claimants : ∀ name, s'.claimants name = s.claimants name := by
    intro name
    have users := congrArg (List.map (·.user)) (claimsOn name)
    rw [List.map_map, List.map_map] at users
    exact congrArg firstOccurrences users
  refine ⟨?_, claimants, ?_, ?_, ?_⟩
  · intro name
    unfold get
    rw [row]
  · intro name
    have lengths := congrArg List.length (claimsOn name)
    rwa [List.length_map, List.length_map] at lengths
  · have lengths := congrArg List.length claims
    rwa [List.length_map, List.length_map] at lengths
  · intro name
    rw [details_eq, details_eq, row, claimants]

theorem SameTables.readsLike (same : s.SameTables s') : s.ReadsLike s' :=
  readsLike_of_tables same.coupons (by rw [same.claims])

/-- Closing a transaction does not show in the tables, so neither does what it did, its commit
apart. -/
theorem after_hidden (op : Operation) (own : op.txn? = some t)
    (uncommitted : op ≠ .ask t .commit) : s.SameTables (s.after op) := by
  have closed := close_after (s := s) op own uncommitted
  have coupons := congrArg Store.coupons closed
  have claims := congrArg Store.claims closed
  have keys := congrArg Store.keys closed
  exact ⟨coupons, claims, keys⟩

/-- A store in which a transaction is under way, and one in which it never was. -/
structure Twin (t : TxnId) (s other : Store) (ids : Nat) : Prop where
  coupons : other.coupons = s.coupons
  keys : other.keys = s.keys
  claims : other.claims.map Claim.anonymous = s.claims.map Claim.anonymous
  reads : s.ReadsLike other
  /-- Other transactions get the same replies, unless they wait for its locks. -/
  replies : ∀ u, u ≠ t → ∀ request, s.hinders t u request = false →
    (other.perform u request).1.map request.unnumbered =
      (s.perform u request).1.map request.unnumbered
  /-- All that sets the stores apart is gone when the transaction is closed, but for the ids. -/
  closed : (s.close t).anonymous = other.anonymous
  lastId : s.lastId = other.lastId + ids

theorem Sound.twin (sound : s.Sound) (other : Store) (ids : Nat)
    (closed : (s.close t).anonymous = other.anonymous) (lastId : s.lastId = other.lastId + ids) :
    s.Twin t other ids := by
  have coupons : other.coupons = s.coupons := (congrArg Store.coupons closed).symm
  have claims : other.claims.map Claim.anonymous = s.claims.map Claim.anonymous :=
    (congrArg Store.claims closed).symm
  have keys : other.keys = s.keys := (congrArg Store.keys closed).symm
  refine ⟨coupons, keys, claims, readsLike_of_tables coupons claims, ?_, closed, lastId⟩
  intro u apart request free
  have same := congrArg Prod.fst (perform_of_close sound apart request free)
  rw [← reply_of_alike closed u request, same]

/-- What a transaction leaves behind when it is closed: nothing, and to others what was theirs. -/
structure Freed (t : TxnId) (s s' : Store) : Prop where
  tables : s.SameTables s'
  lastId : s'.lastId = s.lastId
  failing : s'.failing = s.failing
  gone : s'.isLive t = false ∧ s'.txn t = {}
  unlocked : ∀ name, s'.holds t name = false ∧ ⟨name, t⟩ ∉ s'.line
  others : ∀ u, u ≠ t → s'.isLive u = s.isLive u ∧ s'.txn u = s.txn u ∧
    ∀ name, ⟨name, u⟩ ∈ s'.line ↔ ⟨name, u⟩ ∈ s.line

theorem freed_close (s : Store) (t : TxnId) : s.Freed t (s.close t) where
  tables := ⟨rfl, rfl, rfl⟩
  lastId := rfl
  failing := rfl
  gone := ⟨not_live_close s t, txn_close_self s t⟩
  unlocked := by
    intro name
    have absent : ⟨name, t⟩ ∉ (s.close t).line := by
      simp [ticket_close]
    refine ⟨?_, absent⟩
    cases holds : (s.close t).holds t name with
    | false => rfl
    | true => exact absurd (ticket_of_holds _ t name holds) absent
  others := by
    intro u apart
    have change : s.Change t (s.close t) := .closed
    exact ⟨change.isLive_of_ne u apart, change.txn_of_ne u apart, change.ticket_of_ne u apart⟩

/-- What a transaction is granted in the course of a list of operations, and what others see of
it, before it commits. -/
structure Hidden (t : TxnId) (past : List Operation) (s : Store) (ops : List Operation)
    (s' : Store) : Prop where
  unseen : ∀ op, op.txn? = some t → op ≠ .ask t .commit →
    s'.SameTables (s'.after op) ∧ s'.ReadsLike (s'.after op)
  masked : ∀ u, u ≠ t → ∀ request, s'.hinders t u request = false →
    ((s'.close t).perform u request).1 = (s'.perform u request).1
  apart : Patient t ops s → ∃ other,
    (s.close t).carryOut (ops.filter (·.txn? ≠ some t)) = some other ∧
      s'.Twin t other (drawn t ops s)
  alone : (∀ op ∈ ops, op.txn? = some t) → s'.close t = { s.close t with lastId := s'.lastId }
  ended : s'.perform t .rollback = (some (.ok ()), s'.close t) ∧ s'.after (.drop t) = s'.close t ∧
    s'.Freed t (s'.close t)
  locks : s'.isLive t = true → ∀ name row, (s'.lock t name).1 = some (.ok row) →
    ∃ committed, s'.coupon? name = some committed ∧ 0 ≤ row.remaining ∧
      row = { committed with
        remaining := committed.remaining - units t name (past ++ ops) }
  takes : s'.isLive t = true → ∀ name row, (s'.decrement t name).1 = .ok row →
    ∃ committed, s'.coupon? name = some committed ∧ 0 ≤ row.remaining ∧
      row = { committed with
        remaining := committed.remaining -
          units t name (past ++ ops ++ [.ask t (.decrement name)]) }

theorem Sound.lock_shows (sound : s.Sound) (name : String) (row : Coupon)
    (granted : (s.lock t name).1 = some (.ok row)) :
    ∃ committed, s.coupon? name = some committed ∧ 0 ≤ row.remaining ∧
      row = { committed with
        remaining := committed.remaining - (s.txn t).taken.count name } := by
  cases found : s.coupon? name with
  | none =>
      rw [lock_missing s t name found] at granted
      cases granted
  | some committed =>
      have named := (coupon?_some s name committed found).2
      have enough := sound.locks.enough t name committed found
      rw [lock_found s t name committed found] at granted
      dsimp only at granted
      split at granted
      · obtain rfl := Except.ok.inj (Option.some.inj granted)
        refine ⟨committed, rfl, ?_, by simp only [view, txn_join, named]⟩
        simp only [view, txn_join, named]
        omega
      · cases granted

theorem Sound.decrement_shows (sound : s.Sound) (name : String) (row : Coupon)
    (granted : (s.decrement t name).1 = .ok row) :
    ∃ committed, s.coupon? name = some committed ∧ 0 ≤ row.remaining ∧
      row = { committed with
        remaining := committed.remaining - ((s.txn t).taken.count name + 1 : Nat) } := by
  have accepted : s.rejection? (.ask t (.decrement name)) = none := congrArg refusalOf granted
  obtain ⟨committed, found, left, taken⟩ := sound.decrement_of_accepted name accepted
  rw [taken] at granted
  obtain rfl := Except.ok.inj granted
  refine ⟨committed, found, ?_, ?_⟩
  · dsimp only
    omega
  · simp only [Coupon.mk.injEq, true_and]
    omega

theorem Sound.hides (sound : s.Sound) (past ops : List Operation)
    (reached : carryOut past {} = some s) (uncommitted : .ask t .commit ∉ ops)
    (carried : s.carryOut ops = some s') : Hidden t past s ops s' := by
  have sound' := carryOut_sound sound ops carried
  have reached' : carryOut (past ++ ops) {} = some s' := by
    rw [carryOut_append, reached, Option.bind_some, carried]
  constructor
  case unseen =>
    intro op own other
    have same := after_hidden (s := s') op own other
    exact ⟨same, same.readsLike⟩
  case masked =>
    intro u apart request free
    have same := congrArg Prod.fst (perform_of_close sound' apart request free)
    exact same
  case apart =>
    intro patient
    obtain ⟨other, without, closed, ids⟩ :=
      carryOut_without sound ops uncommitted patient carried (s.close t) rfl
    refine ⟨other, without, sound'.twin other _ closed ?_⟩
    have same : (s.close t).lastId = s.lastId := rfl
    omega
  case alone => exact fun own => carryOut_alone ops uncommitted own carried
  case ended => exact ⟨rfl, rfl, s'.freed_close t⟩
  case locks =>
    intro live name row granted
    rw [← count_taken_eq_units (past ++ ops) reached' live name]
    exact sound'.lock_shows name row granted
  case takes =>
    intro live name row granted
    have accepted : s'.rejection? (.ask t (.decrement name)) = none := congrArg refusalOf granted
    rw [units_append (past ++ ops) _ t name reached', accepted,
      ← count_taken_eq_units (past ++ ops) reached' live name]
    simpa using sound'.decrement_shows name row granted

end Store

namespace System

/-- From every state of a run, whatever a transaction does without committing, and whatever others
do between its steps, it is hidden.  The steps of every run are such operations. -/
theorem run_hides {s : System} (actions : List Action) (runs : run actions {} = some s)
    (t : TxnId) (ops : List Operation) (store : Store) (uncommitted : .ask t .commit ∉ ops)
    (carried : s.store.carryOut ops = some store) :
    Store.Hidden t (operations actions {}) s.store ops store ∧
      ∀ more s', run more s = some s' →
        s.store.carryOut (operations more s) = some s'.store := by
  have sound := run_sound actions runs
  refine ⟨sound.store.hides _ ops (run_operates sound_empty actions runs) uncommitted carried, ?_⟩
  exact fun more s' => run_operates sound more

/-- A transaction has taken a unit under the lock, beside another one. -/
def secluded : List Action :=
  [.create "SOLO" 3, .begin 0, .begin 1, .lock 0 "SOLO", .decrement 0 "SOLO"]

/-- It goes on, while the other stages a claim and waits for the lock. -/
def aside : List Operation :=
  [.ask (.manual 0) (.insert "first" "SOLO"), .ask (.manual 1) (.insert "second" "SOLO"),
    .ask (.manual 1) (.lock "SOLO"), .ask (.manual 0) (.decrement "SOLO")]

theorem run_hides_aside :
    ∃ s store, run secluded {} = some s ∧ s.store.carryOut aside = some store ∧
      .ask (.manual 0) .commit ∉ aside ∧ Store.Patient (.manual 0) aside s.store ∧
      Store.Hidden (.manual 0) (operations secluded {}) s.store aside store ∧
      Store.units (.manual 0) "SOLO" (operations secluded {} ++ aside) = 2 ∧
      (store.lock (.manual 0) "SOLO").1 = some (.ok ⟨"SOLO", 3, 1⟩) ∧
      (store.insert (.manual 1) "first" "SOLO").1 = .ok ⟨3, "first", "SOLO"⟩ ∧
      store.coupons = [⟨"SOLO", 3, 3⟩] ∧ (store.close (.manual 0)).lastId = 2 :=
  ⟨_, _, rfl, rfl, by decide, ⟨rfl, rfl, rfl, rfl, trivial⟩,
    (run_hides secluded rfl (.manual 0) aside _ (by decide) rfl).1, rfl, rfl, rfl, rfl, rfl⟩

end System

end CouponDesk.Memory
