import CouponDesk.Proofs.Relational.Pools
import CouponDesk.Proofs.Relational.Programs

/-!
# Records with nobody else

What the operations on records come to on a pool that nobody else uses: outside a transaction, in
the only one that is open, and over a whole claim, whose answer and whose traces are
`Tables.verdict`.
-/

set_option autoImplicit false

namespace CouponDesk.Relational

/-! ## One more coupon, one more claim -/

namespace Tables

/-- A coupon with its full stock is refused for its name alone. -/
theorem addCoupon_fresh (t : Tables) (name : String) (amount : Int) (positive : ¬ amount ≤ 0) :
    t.addCoupon (.fresh name amount) =
      if (t.coupon? name).isSome then .error .unique
      else .ok { t with coupons := t.coupons ++ [.fresh name amount] } := by
  have checked : isSound (.fresh name amount) = true := by
    simp only [isSound, Bool.and_eq_true, decide_eq_true_eq]
    simp only [Coupon.fresh]
    omega
  unfold addCoupon
  rw [if_neg (not_not.mpr checked)]
  rfl

def enter (t : Tables) (user coupon : String) (now : Int) : Tables :=
  { t with
    claims := t.claims ++ [⟨t.lastId + 1, user, coupon, now⟩]
    lastId := t.lastId + 1 }

theorem addClaim_eq (t : Tables) (user coupon : String) (now : Int) :
    t.addClaim user coupon now =
      if (user, coupon) ∈ t.claims.map ClaimRow.key then .error .unique
      else if (t.coupon? coupon).isNone then .error .foreignKey
      else .ok (⟨t.lastId + 1, user, coupon, now⟩, t.enter user coupon now) := by
  have same : (t.claims.any fun row => row.user = user && row.coupon = coupon) = true ↔
      (user, coupon) ∈ t.claims.map ClaimRow.key := by
    simp [ClaimRow.key]
  unfold addClaim
  simp only [same]
  rfl

variable {t : Tables}

theorem Sound.enter (sound : t.Sound) (user coupon : String) (now : Int)
    (free : (user, coupon) ∉ t.claims.map ClaimRow.key) (known : (t.coupon? coupon).isSome) :
    (t.enter user coupon now).Sound := by
  refine sound.addClaim user coupon now ⟨t.lastId + 1, user, coupon, now⟩ _ ?_
  rw [addClaim_eq, if_neg free, if_neg (by simpa [Option.isSome_iff_ne_none] using known)]

theorem claim?_enter (sound : t.Sound) (user coupon : String) (now : Int) :
    (t.enter user coupon now).claim? (t.lastId + 1) =
      some ⟨t.lastId + 1, user, coupon, now⟩ := by
  have fresh : t.claims.find? (fun old => decide (old.id = t.lastId + 1)) = none := by
    rw [List.find?_eq_none]
    intro old member
    have bound := sound.idBound old member
    simp only [decide_eq_true_eq]
    omega
  simp [claim?, enter, List.find?_append, fresh]

end Tables

/-! ## In the only transaction -/

namespace Program

variable {α : Type} {p : Pool} {c : Nat} {w : Tables}

/-- In the only open transaction a program of inner statements is carried out on its tables. -/
theorem run_open (rest : Program α) (only : rest.Only Statement.Inner) (opens : p.Open c w) :
    ∃ p', rest.run (Pool.send (some c)) p = ((rest.run Tables.send w).1, p') ∧
      p'.Open c (rest.run Tables.send w).2 ∧ p'.committed = p.committed := by
  -- Each statement leaves the transaction open, on the tables that the rest goes on with.
  induction rest generalizing p w with
  | done value => exact ⟨p, rfl, opens, rfl⟩
  | ask q resume ih =>
      obtain ⟨inner, after⟩ := only
      obtain ⟨between, sent, stillOpen, kept⟩ := opens.send q inner
      obtain ⟨p', runs, opens', kept'⟩ := ih (w.exec q).1 (after _) stillOpen
      refine ⟨p', ?_, opens', kept'.trans kept⟩
      simp only [run, bind_state, sent]
      exact runs

end Program

namespace Records

open Program

theorem inner_findCoupon (name : String) :
    (findCoupon Program.send name).Only Statement.Inner := by
  unfold findCoupon
  refine only_bind _ _ _ ⟨trivial, fun reply => trivial⟩ fun reply => ?_
  split <;> trivial

theorem inner_lock (name : String) : (lock .sqlite Program.send name).Only Statement.Inner := by
  unfold lock findForUpdate
  rw [if_neg (by decide)]
  refine only_bind _ _ _ (only_bind _ _ _ ⟨trivial, fun reply => trivial⟩ fun reply => ?_)
    fun found => trivial
  split
  · trivial
  · exact inner_findCoupon name

theorem inner_takeUnit (name : String) : (takeUnit Program.send name).Only Statement.Inner := by
  unfold takeUnit
  refine only_bind _ _ _ ⟨trivial, fun reply => trivial⟩ fun reply => ?_
  split
  · trivial
  · refine only_bind _ _ _ (inner_findCoupon name) fun found => ?_
    split
    · trivial
    · trivial
    · split <;> trivial

theorem inner_insertClaim (now : Int) (user name : String) :
    (insertClaim .sqlite Program.send now user name).Only Statement.Inner := by
  unfold insertClaim addClaim
  rw [if_neg (by decide)]
  refine only_bind _ _ _ (only_bind _ _ _ ⟨trivial, fun reply => trivial⟩ fun reply => ?_)
    fun inserted => ?_
  · split
    · trivial
    · split
      · trivial
      · split
        · trivial
        · refine only_bind _ _ _ ⟨trivial, fun reply => trivial⟩ fun reply => ?_
          split <;> trivial
  · split <;> trivial

/-! ## On tables of one's own -/

theorem lock_alone (t : Tables) (name : String) :
    lock .sqlite Tables.send name t = (required name (.ok (t.coupon? name)), t) := rfl

theorem takeUnit_alone {t : Tables} (sound : t.Sound) (name : String) :
    takeUnit Tables.send name t =
      match t.coupon? name with
      | none => (.error (.couponNotFound name), t)
      | some row =>
          if row.remaining ≤ 0 then (.error (.noStock name), t)
          else (.ok { row with remaining := row.remaining - 1 }, (t.takeUnit name).2) := by
  have sent : takeUnit Tables.send name t =
      (match (t.takeUnit name).2.coupon? name with
        | none => .error (.couponNotFound name)
        | some row => if (t.takeUnit name).1 = 0 then .error (.noStock name) else .ok row,
      (t.takeUnit name).2) := by
    unfold takeUnit findCoupon
    simp only [bind_state, Tables.send, Tables.exec]
    cases (t.takeUnit name).2.coupon? name with
    | none => rfl
    | some row =>
        change (if (t.takeUnit name).1 = 0 then (pure _ : StateM Tables _) else pure _) _ = _
        split <;> rfl
  rw [sent]
  cases found : t.coupon? name with
  | none =>
      rw [sound.takeUnit_empty (by simp [found])]
      simp [found]
  | some row =>
      by_cases empty : row.remaining ≤ 0
      · rw [sound.takeUnit_empty (by simpa [found] using empty)]
        simp [found, empty]
      · have affected := sound.takeUnit_affected row found (by omega)
        have able : Tables.canTake name row = true := by
          simp [Tables.canTake, (Tables.coupon?_some t name row found).2]
          omega
        simp [Tables.coupon?_takeUnit, found, affected, able, empty]

theorem addClaim_alone {t : Tables} (sound : t.Sound) (user name : String) (now : Int)
    (fits : t.lastId + 1 < Nat.pow 2 63) :
    addClaim .sqlite Tables.send user name now t =
      match t.addClaim user name now with
      | .ok (row, after) => (.ok row.claim, after)
      | .error broken => (.error (.violation broken), t) := by
  unfold addClaim
  rw [if_neg (by decide)]
  simp only [bind_state, Tables.send, Tables.exec, t.addClaim_eq user name now]
  by_cases claimed : (user, name) ∈ t.claims.map ClaimRow.key
  · simp only [if_pos claimed]
    rfl
  · by_cases missing : (t.coupon? name).isNone = true
    · simp only [if_neg claimed, if_pos missing]
      rfl
    · have inRange : ¬ Nat.pow 2 63 ≤ t.lastId + 1 := Nat.not_le.mpr fits
      have read : Tables.send (.findClaim (t.lastId + 1)) (t.enter user name now) =
          (.ok (some ⟨t.lastId + 1, user, name⟩), t.enter user name now) := by
        simp only [Tables.send, Tables.exec, Tables.claim?_enter sound user name now]
        rfl
      simp only [if_neg claimed, if_neg missing]
      rw [if_neg (by decide), if_neg inRange]
      simp only [bind_state, read]
      rfl

theorem insertClaim_alone {t : Tables} (sound : t.Sound) (user name : String) (now : Int)
    (fits : t.lastId + 1 < Nat.pow 2 63) :
    insertClaim .sqlite Tables.send now user name t =
      if (user, name) ∈ t.claims.map ClaimRow.key then (.error (.alreadyClaimed user name), t)
      else if (t.coupon? name).isNone then (.error (.couponNotFound name), t)
      else (.ok ⟨t.lastId + 1, user, name⟩, t.enter user name now) := by
  unfold insertClaim
  simp only [bind_state, addClaim_alone sound user name now fits, t.addClaim_eq user name now]
  split_ifs <;> rfl

/-! ## Outside any transaction -/

variable {p : Pool}

theorem get_idle (idle : p.Idle) (name : String) :
    get (Pool.send none) name p = (required name (.ok (p.committed.coupon? name)), p) := by
  unfold get findCoupon
  simp only [bind_state, idle.send]
  rfl

theorem claimants_idle (idle : p.Idle) (name : String) :
    claimants (Pool.send none) name p = (.ok (firstOccurrences (p.committed.users name)), p) := by
  unfold claimants
  simp only [bind_state, idle.send]
  rfl

theorem count_idle (idle : p.Idle) (name : String) :
    count (Pool.send none) name p = (.ok (p.committed.claimsOn name).length, p) := by
  unfold count
  simp only [bind_state, idle.send]
  rfl

theorem details_idle (idle : p.Idle) (name : String) :
    details (Pool.send none) name p =
      (match p.committed.coupon? name with
        | none => .error (.couponNotFound name)
        | some row => .ok (.of row (firstOccurrences (p.committed.users name))), p) := by
  unfold details Catalog.details
  simp only [bind_state, get_idle idle]
  cases p.committed.coupon? name with
  | none => rfl
  | some row =>
      simp only [required, bind_state, claimants_idle idle]
      rfl

theorem addCoupon_idle (idle : p.Idle) (row : Coupon) (now : Int) :
    addCoupon .sqlite (Pool.send none) row now p =
      match p.committed.addCoupon row with
      | .ok after => (.ok row, { p with committed := after })
      | .error broken => (.error (.violation broken), p) := by
  unfold addCoupon
  rw [if_neg (by decide)]
  simp only [bind_state, idle.send, Tables.exec]
  cases added : p.committed.addCoupon row with
  | error broken => rfl
  | ok after =>
      have found : after.coupon? row.name = some row := by
        obtain ⟨-, -, -, free, rfl⟩ := Tables.addCoupon_ok row after added
        unfold Tables.coupon? at free ⊢
        simp [List.find?_append, free]
      have read : Pool.send none (.findCoupon row.name false) { p with committed := after } =
          (.ok (some row), { p with committed := after }) := by
        rw [(idle.commits after).send]
        simp only [Tables.exec, found]
      dsimp only
      rw [if_neg (by decide)]
      simp only [bind_state, read]
      rfl

/-- The catalogue looks at the amount first, and so does the creation of a record. -/
theorem create_createCoupon {m : Type → Type} [Monad m] (send : (q : Statement) → m q.Reply)
    (d : Dialect) (now : Int) (name : String) (amount : Int) :
    Catalog.create (createCoupon d send now) name amount =
      createCoupon d send now name amount := by
  unfold Catalog.create
  by_cases refused : amount ≤ 0
  · rw [if_pos refused, createCoupon, if_pos refused]
  · rw [if_neg refused]

theorem createCoupon_idle (idle : p.Idle) (now : Int) (name : String) (amount : Int) :
    createCoupon .sqlite (Pool.send none) now name amount p =
      if amount ≤ 0 then (.error (.invalidAmount amount), p)
      else if (p.committed.coupon? name).isSome then (.error (.couponExists name), p)
      else (.ok (.fresh name amount),
        { p with committed :=
          { p.committed with coupons := p.committed.coupons ++ [.fresh name amount] } }) := by
  unfold createCoupon
  by_cases refused : amount ≤ 0
  · rw [if_pos refused, if_pos refused]
    rfl
  · rw [if_neg refused, if_neg refused]
    simp only [bind_state, addCoupon_idle idle, p.committed.addCoupon_fresh name amount refused]
    split_ifs <;> rfl

end Records

/-! ## A claim on an idle pool -/

/-- What a claim comes to that no transaction disturbs: its answer, and the tables afterwards. -/
def Tables.verdict (t : Tables) (user name : String) (now : Int) : Except Error Claim × Tables :=
  match t.coupon? name with
  | none => (.error (.couponNotFound name), t)
  | some row =>
      if row.remaining ≤ 0 then (.error (.noStock name), t)
      else if t.claims.any (·.key = (user, name)) then (.error (.alreadyClaimed user name), t)
      else (.ok ⟨t.lastId + 1, user, name⟩, ((t.enter user name now).takeUnit name).2)

theorem Tables.verdict_found (t : Tables) (user name : String) (now : Int) (row : Coupon)
    (found : t.coupon? name = some row) :
    t.verdict user name now =
      if row.remaining ≤ 0 then (.error (.noStock name), t)
      else if (user, name) ∈ t.claims.map ClaimRow.key then (.error (.alreadyClaimed user name), t)
      else (.ok ⟨t.lastId + 1, user, name⟩, ((t.enter user name now).takeUnit name).2) := by
  have claimed : t.claims.any (·.key = (user, name)) = true ↔
      (user, name) ∈ t.claims.map ClaimRow.key := by simp
  unfold verdict
  simp only [found, claimed]

/-- No other attempt follows a claim that nothing disturbs. -/
theorem Tables.verdict_final (t : Tables) (user name : String) (now : Int) (limit : Nat) :
    Retry.pause? limit 1 (t.verdict user name now).1 = none := by
  unfold verdict
  split
  · rfl
  · split_ifs <;> rfl

/-- A first attempt whose result stands is the only one. -/
theorem run_once {σ : Type} (pause : Nat → StateM σ Unit) (once : StateM σ (Except Error Claim))
    (attempts : Nat) (s s' : σ) (result : Except Error Claim) (made : once s = (result, s'))
    (stands : Retry.pause? (Retry.limit attempts) 1 result = none) :
    Retry.run pause once attempts s = (result, s') := by
  unfold Retry.run
  rw [Retry.runFrom_eq, bind_state, made]
  simp only [stands]
  rfl

namespace Pool

variable {p : Pool} {d : Nat} {w : Tables} {user name : String} {now : Int}

abbrev performs (d : Nat) (now : Int) : (r : Request) → StateM Pool r.Reply :=
  Records.perform .sqlite (Pool.send (some d)) now

theorem run_reply (stage : Stage) (request : Request) (resume : request.Reply → Stage)
    (reply : request.Reply) (p' : Pool) (asks : stage.turn user name = .ask request resume)
    (replies : performs d now request p = (reply, p')) :
    stage.run (performs d now) user name p = (resume reply).run (performs d now) user name p' := by
  rw [Stage.run_of_ask (performs d now) user name stage request resume asks]
  simp only [bind_state, replies]

theorem Open.reply (opens : p.Open d w) (now : Int) (request : Request) {reply : request.Reply}
    {w' : Tables} (alone : Records.perform .sqlite Tables.send now request w = (reply, w'))
    (only : (Records.perform .sqlite Program.send now request).Only Statement.Inner) :
    ∃ p', performs d now request p = (reply, p') ∧ p'.Open d w' ∧ p'.committed = p.committed := by
  have runs := Program.run_open (Records.perform .sqlite Program.send now request) only opens
  rwa [Records.run_perform, Records.run_perform, alone] at runs

theorem Open.run_undoing (opens : p.Open d w) (e : Error) :
    ∃ p', (Stage.undoing e).run (performs d now) user name p = (.error e, p') ∧ p'.Idle ∧
      p'.committed = p.committed := by
  obtain ⟨p', sent, idle, kept⟩ := opens.rollback
  have replies : performs d now .rollback p = (.ok (), p') := by
    simp only [performs, Records.perform, bind_state, sent]
    rfl
  rw [run_reply (.undoing e) .rollback _ _ p' rfl replies, Stage.run_settled]
  exact ⟨p', rfl, idle, kept⟩

theorem Open.run_committing (opens : p.Open d w) (claim : Claim) :
    ∃ p', (Stage.committing claim).run (performs d now) user name p = (.ok claim, p') ∧ p'.Idle ∧
      p'.committed = w := by
  obtain ⟨p', sent, idle, kept⟩ := opens.commit
  have replies : performs d now .commit p = (.ok (), p') := by
    simp only [performs, Records.perform, bind_state, sent]
    rfl
  rw [run_reply (.committing claim) .commit _ _ p' rfl replies, Stage.run_settled]
  exact ⟨p', rfl, idle, kept⟩

theorem Open.run_inserting (opens : p.Open d w) (kept : p.committed = w) (sound : w.Sound)
    (fits : w.lastId + 1 < Nat.pow 2 63) (row : Coupon) (found : w.coupon? name = some row)
    (stock : 0 < row.remaining) :
    ∃ p', Stage.inserting.run (performs d now) user name p = ((w.verdict user name now).1, p') ∧
      p'.Idle ∧ p'.committed = (w.verdict user name now).2 := by
  have known : (w.coupon? name).isSome := by rw [found]; rfl
  have inserts := Records.insertClaim_alone sound user name now fits
  rw [Tables.verdict_found w user name now row found, if_neg (show ¬ row.remaining ≤ 0 by omega)]
  by_cases claimed : (user, name) ∈ w.claims.map ClaimRow.key
  · rw [if_pos claimed] at inserts
    obtain ⟨p₁, replies, opens₁, kept₁⟩ := opens.reply now (.insert user name) inserts
      (Records.inner_insertClaim now user name)
    obtain ⟨p₂, runs, idle, kept₂⟩ := opens₁.run_undoing (.alreadyClaimed user name)
    rw [run_reply .inserting (.insert user name) _ _ p₁ rfl replies, if_pos claimed]
    exact ⟨p₂, runs, idle, by rw [kept₂, kept₁, kept]⟩
  · rw [if_neg claimed, if_neg (by simp [found])] at inserts
    have takes := Records.takeUnit_alone (sound.enter user name now claimed known) name
    have seen : (w.enter user name now).coupon? name = some row := found
    simp only [seen, if_neg (show ¬ row.remaining ≤ 0 by omega)] at takes
    obtain ⟨p₁, replies₁, opens₁, -⟩ := opens.reply now (.insert user name) inserts
      (Records.inner_insertClaim now user name)
    obtain ⟨p₂, replies₂, opens₂, -⟩ := opens₁.reply now (.decrement name) takes
      (Records.inner_takeUnit name)
    rw [run_reply .inserting (.insert user name) _ _ p₁ rfl replies₁,
      run_reply (.taking _) (.decrement name) _ _ p₂ rfl replies₂, if_neg claimed]
    exact opens₂.run_committing _

theorem Idle.attempt (idle : p.Idle) (user name : String) (now : Int)
    (sound : p.committed.Sound) (fits : p.committed.lastId + 1 < Nat.pow 2 63) (d : Nat) :
    ∃ p', CouponDesk.attempt (performs d now) user name p =
        ((p.committed.verdict user name now).1, p') ∧
      p'.Idle ∧ p'.committed = (p.committed.verdict user name now).2 := by
  obtain ⟨p₁, begins, opens₁, kept₁⟩ := idle.begin d
  have begun : performs d now .begin p = (.ok (), p₁) := by
    simp only [performs, Records.perform, bind_state, begins]
    rfl
  have locks := Records.lock_alone p.committed name
  unfold CouponDesk.attempt
  rw [run_reply .opening .begin _ _ p₁ rfl begun]
  cases found : p.committed.coupon? name with
  | none =>
      rw [found] at locks
      obtain ⟨p₂, replies, opens₂, kept₂⟩ := opens₁.reply now (.lock name) locks (Records.inner_lock name)
      obtain ⟨p₃, runs, idle, kept₃⟩ := opens₂.run_undoing (.couponNotFound name)
      rw [run_reply .locking (.lock name) _ _ p₂ rfl replies]
      simp only [Tables.verdict, found]
      exact ⟨p₃, runs, idle, by rw [kept₃, kept₂, kept₁]⟩
  | some row =>
      rw [found] at locks
      obtain ⟨p₂, replies, opens₂, kept₂⟩ := opens₁.reply now (.lock name) locks (Records.inner_lock name)
      rw [run_reply .locking (.lock name) _ _ p₂ rfl replies]
      dsimp only [Records.required, Stage.checkStock]
      by_cases empty : row.remaining ≤ 0
      · obtain ⟨p₃, runs, idle, kept₃⟩ := opens₂.run_undoing (.noStock name)
        simp only [Tables.verdict, found, if_pos empty]
        exact ⟨p₃, runs, idle, by rw [kept₃, kept₂, kept₁]⟩
      · rw [if_neg empty]
        exact opens₂.run_inserting (kept₂.trans kept₁) sound fits row found (by omega)

/-- A claim that finds the pool idle comes to the verdict, in one attempt. -/
theorem Idle.claim (idle : p.Idle) (user name : String) (now : Int)
    (sound : p.committed.Sound) (fits : p.committed.lastId + 1 < Nat.pow 2 63) (deadline : Duration)
    (inTime : 0 < deadline.ceilMillis) (attempts : Nat) :
    ∃ p', Pool.claim now user name deadline attempts p =
        ((p.committed.verdict user name now).1, p') ∧
      p'.Idle ∧ p'.committed = (p.committed.verdict user name now).2 := by
  have ready : p.isBusy = false := by
    simp [isBusy, isExhausted, idle.opened, idle.writer, Nat.ne_of_gt idle.size]
  obtain ⟨p', runs, idle', kept⟩ := idle.attempt user name now sound fits p.freshTxn
  have once : claimOnce now user name deadline p = ((p.committed.verdict user name now).1, p') := by
    unfold claimOnce
    simp only [idle.unclosed, ready, Nat.ne_of_gt inTime]
    exact runs
  refine ⟨p', ?_, idle', kept⟩
  exact run_once _ _ attempts p p' _ once (Tables.verdict_final _ user name now _)

end Pool

end CouponDesk.Relational
