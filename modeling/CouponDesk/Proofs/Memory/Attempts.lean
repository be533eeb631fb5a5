import CouponDesk.Memory.System
import CouponDesk.Proofs.Memory.Soundness

/-!
# One step of an attempt

An attempt relies on a few facts at each stage (`Store.Supports`): which writes its transaction has
staged and whether it holds the lock of its coupon.  Under them a step of the attempt is one of
the moves listed in `Move`; each move leads to a stage whose facts hold again, and no change by
another transaction disturbs them.
-/

set_option autoImplicit false

namespace CouponDesk.Memory

/-- The store and the stage after the next request of an attempt; the stage stays while the
attempt joins the line for the lock, and there is nothing to do while it waits there. -/
def Store.ask (s : Store) (t : TxnId) (user coupon : String) (stage : Stage) :
    Option (Store × Stage) :=
  match stage.turn user coupon with
  | .answer result => some (s, .settled result)
  | .ask request resume =>
      if s.waits t coupon then none
      else
        match s.perform t request with
        | (some reply, store) => some (store, resume reply)
        | (none, store) => some (store, stage)

structure Store.Secured (s : Store) (t : TxnId) (coupon : String) : Prop where
  holds : s.holds t coupon = true
  stock : ∃ row, s.coupon? coupon = some row ∧ 0 < row.remaining

/-- The answers by which a claim of a user on a coupon is turned down for good. -/
inductive Rejection (user coupon : String) : Error → Prop
  | missing : Rejection user coupon (.couponNotFound coupon)
  | soldOut : Rejection user coupon (.noStock coupon)
  | repeated : Rejection user coupon (.alreadyClaimed user coupon)

/-- Such an answer stands: the attempt is not made again. -/
theorem Rejection.final {user coupon : String} {e : Error} (rejection : Rejection user coupon e) :
    e.retryable = false := by
  cases rejection with
  | _ => rfl

def Store.Supports (s : Store) (t : TxnId) (user coupon : String) : Stage → Prop
  | .opening => s.isLive t = false
  | .locking => s.isLive t = true ∧ s.txn t = {}
  | .inserting => s.isLive t = true ∧ s.txn t = {} ∧ s.Secured t coupon
  | .taking claim =>
      s.isLive t = true ∧ s.txn t = { staged := [claim] } ∧ claim.user = user ∧
        claim.coupon = coupon ∧ s.Secured t coupon
  | .committing claim =>
      s.isLive t = true ∧ s.txn t = { taken := [coupon], staged := [claim] } ∧
        claim.user = user ∧ claim.coupon = coupon ∧ s.Secured t coupon
  | .undoing e =>
      s.isLive t = true ∧ s.txn t = {} ∧ Rejection user coupon e ∧
        (s.holds t coupon = true ∨ ⟨coupon, t⟩ ∉ s.line)
  | .settled _ => False

inductive Move (user coupon : String) (t : TxnId) (s : Store) : Stage → Store → Stage → Prop
  | opens : Move user coupon t s .opening (s.begin t) .locking
  | missing (missing : s.coupon? coupon = none) :
      Move user coupon t s .locking s (.undoing (.couponNotFound coupon))
  | queues (row : Coupon) (found : s.coupon? coupon = some row)
      (taken : (s.join t coupon).holds t coupon = false) :
      Move user coupon t s .locking (s.join t coupon) .locking
  | soldOut (row : Coupon) (found : s.coupon? coupon = some row) (empty : row.remaining = 0)
      (holds : (s.join t coupon).holds t coupon = true) :
      Move user coupon t s .locking (s.join t coupon) (.undoing (.noStock coupon))
  | secures (row : Coupon) (found : s.coupon? coupon = some row) (stock : 0 < row.remaining)
      (holds : (s.join t coupon).holds t coupon = true) :
      Move user coupon t s .locking (s.join t coupon) .inserting
  | repeated (claimed : (user, coupon) ∈ s.keys) :
      Move user coupon t s .inserting s (.undoing (.alreadyClaimed user coupon))
  | draws (unclaimed : (user, coupon) ∉ s.keys) :
      Move user coupon t s .inserting (s.draw t user coupon)
        (.taking ⟨s.lastId + 1, user, coupon⟩)
  | takes (claim : Claim) :
      Move user coupon t s (.taking claim) (s.take t coupon) (.committing claim)
  | loses (claim : Claim) (injected : 0 < s.failing) :
      Move user coupon t s (.committing claim) { s.close t with failing := s.failing - 1 }
        (.settled (.error (.transient .injectedCommit)))
  | clashes (claim : Claim) (due : s.failing = 0) (claimed : (user, coupon) ∈ s.keys) :
      Move user coupon t s (.committing claim) (s.close t)
        (.settled (.error (.alreadyClaimed user coupon)))
  | commits (claim : Claim) (due : s.failing = 0) (unclaimed : (user, coupon) ∉ s.keys) :
      Move user coupon t s (.committing claim) ((s.close t).apply (s.txn t))
        (.settled (.ok claim))
  | undoes (e : Error) : Move user coupon t s (.undoing e) (s.close t) (.settled (.error e))

namespace Store

variable {s : Store} {t : TxnId} {user coupon : String}

/-! ## The requests under the facts of their stage -/

theorem waits_eq_false_of_holds (holds : s.holds t coupon = true) : s.waits t coupon = false := by
  unfold waits
  simp [holds]

theorem waits_eq_false_of_not_live (sound : s.Sound) (dead : s.isLive t = false) :
    s.waits t coupon = false := by
  have absent : ⟨coupon, t⟩ ∉ s.line := by
    intro member
    have live := sound.locks.live _ member
    rw [dead] at live
    cases live
  unfold waits
  simp [absent]

theorem insert_repeated (row : Coupon) (found : s.coupon? coupon = some row)
    (claimed : (user, coupon) ∈ s.keys) :
    s.insert t user coupon = (.error (.alreadyClaimed user coupon), s) := by
  unfold insert
  rw [found]
  exact if_pos (Or.inl claimed)

theorem insert_draws (row : Coupon) (found : s.coupon? coupon = some row)
    (unclaimed : (user, coupon) ∉ s.keys) (idle : s.txn t = {}) :
    s.insert t user coupon = (.ok ⟨s.lastId + 1, user, coupon⟩, s.draw t user coupon) := by
  unfold insert
  rw [found]
  exact if_neg (by simp [unclaimed, idle])

theorem decrement_takes (row : Coupon) (found : s.coupon? coupon = some row)
    (holds : s.holds t coupon = true) (stock : (s.txn t).taken.count coupon < row.remaining) :
    ∃ row', s.decrement t coupon = (.ok row', s.take t coupon) := by
  have named := (coupon?_some s coupon row found).2
  have left : ¬ (s.view t row).remaining ≤ 0 := by
    simp only [view, named]
    omega
  unfold decrement
  rw [if_neg (by simp [holds]), found]
  dsimp only
  rw [if_neg left]
  exact ⟨_, rfl⟩

/-- What a commit of one unit and one claim on the same coupon comes to. -/
theorem refusal?_single (claim : Claim) (row : Coupon) (found : s.coupon? coupon = some row)
    (stock : 0 < row.remaining) :
    s.refusal? { taken := [coupon], staged := [claim] } =
      if claim.key ∈ s.keys then some (.alreadyClaimed claim.user claim.coupon) else none := by
  unfold refusal?
  dsimp only
  split
  · rename_i name short
    have lacking := List.find?_some short
    rw [List.mem_singleton.mp (List.mem_of_find?_eq_some short), found, List.count_cons_self,
      List.count_nil, decide_eq_true_eq] at lacking
    omega
  · by_cases claimed : claim.key ∈ s.keys
    · simp [claimed]
    · simp [claimed]

/-! ## Every step is a move -/

theorem txn_join (s : Store) (t : TxnId) (name : String) : (s.join t name).txn t = s.txn t := by
  unfold join
  split <;> rfl

theorem checkStock_move (sound : s.Sound) (row : Coupon) (found : s.coupon? coupon = some row)
    (holds : (s.join t coupon).holds t coupon = true) (idle : s.txn t = {}) :
    Move user coupon t s .locking (s.join t coupon)
      (Stage.checkStock coupon ((s.join t coupon).view t row)) := by
  have stocked := sound.row coupon row found
  have whole : ((s.join t coupon).view t row).remaining = row.remaining := by
    simp [view, txn_join, idle]
  unfold Stage.checkStock
  rw [whole]
  by_cases empty : row.remaining ≤ 0
  · rw [if_pos empty]
    exact .soldOut row found (by omega) holds
  · rw [if_neg empty]
    exact .secures row found (by omega) holds

theorem ask_locking (sound : s.Sound) (idle : s.txn t = {}) (store : Store) (next : Stage)
    (asked : s.ask t user coupon .locking = some (store, next)) :
    Move user coupon t s .locking store next := by
  simp only [ask, Stage.turn] at asked
  split at asked
  · cases asked
  · cases found : s.coupon? coupon with
    | none =>
        simp only [perform, lock_missing s t coupon found, Option.some.injEq,
          Prod.mk.injEq] at asked
        obtain ⟨rfl, rfl⟩ := asked
        exact .missing found
    | some row =>
        simp only [perform, lock_found s t coupon row found] at asked
        by_cases holds : (s.join t coupon).holds t coupon = true
        · simp only [if_pos holds, Option.some.injEq, Prod.mk.injEq] at asked
          obtain ⟨rfl, rfl⟩ := asked
          exact checkStock_move sound row found holds idle
        · simp only [if_neg holds, Option.some.injEq, Prod.mk.injEq] at asked
          obtain ⟨rfl, rfl⟩ := asked
          exact .queues row found (by simpa using holds)

theorem ask_inserting (idle : s.txn t = {}) (secured : s.Secured t coupon) (store : Store)
    (next : Stage) (asked : s.ask t user coupon .inserting = some (store, next)) :
    Move user coupon t s .inserting store next := by
  obtain ⟨row, found, -⟩ := secured.stock
  simp only [ask, Stage.turn, waits_eq_false_of_holds secured.holds, perform] at asked
  by_cases claimed : (user, coupon) ∈ s.keys
  · rw [insert_repeated row found claimed] at asked
    simp only [Prod.map, id, Bool.false_eq_true, if_false, Option.some.injEq,
      Prod.mk.injEq] at asked
    obtain ⟨rfl, rfl⟩ := asked
    exact .repeated claimed
  · rw [insert_draws row found claimed idle] at asked
    simp only [Prod.map, id, Bool.false_eq_true, if_false, Option.some.injEq,
      Prod.mk.injEq] at asked
    obtain ⟨rfl, rfl⟩ := asked
    exact .draws claimed

theorem ask_taking (claim : Claim) (untaken : (s.txn t).taken = []) (secured : s.Secured t coupon)
    (store : Store) (next : Stage)
    (asked : s.ask t user coupon (.taking claim) = some (store, next)) :
    Move user coupon t s (.taking claim) store next := by
  obtain ⟨row, found, stock⟩ := secured.stock
  obtain ⟨row', taken⟩ := decrement_takes row found secured.holds (by simpa [untaken] using stock)
  simp only [ask, Stage.turn, waits_eq_false_of_holds secured.holds, perform, taken, Prod.map, id,
    Bool.false_eq_true, if_false, Option.some.injEq, Prod.mk.injEq] at asked
  obtain ⟨rfl, rfl⟩ := asked
  exact .takes claim

theorem ask_committing (claim : Claim)
    (writes : s.txn t = { taken := [coupon], staged := [claim] }) (own : claim.key = (user, coupon))
    (secured : s.Secured t coupon) (store : Store) (next : Stage)
    (asked : s.ask t user coupon (.committing claim) = some (store, next)) :
    Move user coupon t s (.committing claim) store next := by
  obtain ⟨row, found, stock⟩ := secured.stock
  obtain ⟨rfl, rfl⟩ := Prod.mk.inj own
  have refused := refusal?_single (s := s.close t) claim row found stock
  simp only [ask, Stage.turn, waits_eq_false_of_holds secured.holds, perform, commit, writes,
    refused] at asked
  by_cases injected : 0 < s.failing
  · have set : 0 < (s.close t).failing := injected
    simp only [if_pos set, Prod.map, id, Bool.false_eq_true, if_false, Option.some.injEq,
      Prod.mk.injEq] at asked
    obtain ⟨rfl, rfl⟩ := asked
    exact .loses claim injected
  · have unset : ¬ 0 < (s.close t).failing := injected
    by_cases claimed : claim.key ∈ s.keys
    · have index : claim.key ∈ (s.close t).keys := claimed
      simp only [if_neg unset, if_pos index, Prod.map, id, Bool.false_eq_true, if_false,
        Option.some.injEq, Prod.mk.injEq] at asked
      obtain ⟨rfl, rfl⟩ := asked
      exact .clashes claim (by omega) claimed
    · have index : claim.key ∉ (s.close t).keys := claimed
      simp only [if_neg unset, if_neg index, Prod.map, id, Bool.false_eq_true, if_false,
        Option.some.injEq, Prod.mk.injEq] at asked
      obtain ⟨rfl, rfl⟩ := asked
      rw [← writes]
      exact .commits claim (by omega) claimed

/-- A step of an attempt that a sound store supports is one of the listed moves. -/
theorem ask_move (sound : s.Sound) (stage : Stage) (supports : s.Supports t user coupon stage)
    (store : Store) (next : Stage) (asked : s.ask t user coupon stage = some (store, next)) :
    Move user coupon t s stage store next := by
  cases stage with
  | opening =>
      simp only [ask, Stage.turn, waits_eq_false_of_not_live sound supports, perform,
        Bool.false_eq_true, if_false, Option.some.injEq, Prod.mk.injEq] at asked
      obtain ⟨rfl, rfl⟩ := asked
      exact .opens
  | locking => exact ask_locking sound supports.2 store next asked
  | inserting => exact ask_inserting supports.2.1 supports.2.2 store next asked
  | taking claim =>
      obtain ⟨-, writes, -, -, secured⟩ := supports
      exact ask_taking claim (by rw [writes]) secured store next asked
  | committing claim =>
      obtain ⟨-, writes, rfl, rfl, secured⟩ := supports
      exact ask_committing claim writes rfl secured store next asked
  | undoing e =>
      simp only [ask, Stage.turn, perform] at asked
      split at asked
      · cases asked
      · simp only [Option.some.injEq, Prod.mk.injEq] at asked
        obtain ⟨rfl, rfl⟩ := asked
        exact .undoes e
  | settled result => exact supports.elim

/-- An attempt that need not wait has its next request performed. -/
theorem ask_isSome (stage : Stage) (free : s.waits t coupon = false) :
    (s.ask t user coupon stage).isSome = true := by
  unfold ask
  cases stage.turn user coupon with
  | answer result => rfl
  | ask request resume =>
      rw [free]
      dsimp only
      rw [if_neg Bool.false_ne_true]
      split
      · rfl
      · rfl

theorem free_of_ask (stage : Stage) (supports : s.Supports t user coupon stage) (store : Store)
    (next : Stage) (asked : s.ask t user coupon stage = some (store, next)) :
    s.waits t coupon = false := by
  unfold ask at asked
  cases turned : stage.turn user coupon with
  | answer result =>
      cases stage with
      | settled given => exact supports.elim
      | _ => cases turned
  | ask request resume =>
      rw [turned] at asked
      dsimp only at asked
      split at asked
      · cases asked
      · exact Bool.eq_false_iff.mpr ‹_›

/-! ## What a move does to the store -/

theorem isLive_join (s : Store) (t u : TxnId) (name : String) :
    (s.join t name).isLive u = s.isLive u := by
  unfold join
  split <;> rfl

theorem coupon?_join (s : Store) (t : TxnId) (given name : String) :
    (s.join t given).coupon? name = s.coupon? name := by
  unfold join
  split <;> rfl

end Store

open Store

variable {s store : Store} {t : TxnId} {user coupon : String} {stage next : Stage}

theorem Move.change (move : Move user coupon t s stage store next)
    (supports : s.Supports t user coupon stage) : s.Change t store := by
  cases move with
  | opens => exact .opened supports
  | missing missing => exact .kept
  | queues row found taken => exact join_change s t coupon row supports.1 found
  | soldOut row found empty holds => exact join_change s t coupon row supports.1 found
  | secures row found stock holds => exact join_change s t coupon row supports.1 found
  | repeated claimed => exact .kept
  | draws unclaimed =>
      obtain ⟨live, idle, secured⟩ := supports
      obtain ⟨row, found, -⟩ := secured.stock
      exact .drawn user coupon row live found unclaimed (by simp [idle])
  | takes claim =>
      obtain ⟨live, writes, -, -, secured⟩ := supports
      obtain ⟨row, found, stock⟩ := secured.stock
      exact .took coupon row live found secured.holds (by simpa [writes] using stock)
  | loses claim injected => exact .lost injected
  | clashes claim due claimed => exact .closed
  | commits claim due unclaimed =>
      obtain ⟨-, writes, rfl, rfl, secured⟩ := supports
      obtain ⟨row, found, stock⟩ := secured.stock
      refine .committed due ?_
      rw [writes, refusal?_single claim row found stock]
      exact if_neg unclaimed
  | undoes e => exact .closed

/-- The stage after a move is supported, or the attempt is over and its transaction gone. -/
theorem Move.supports (move : Move user coupon t s stage store next) (sound : s.Sound)
    (supports : s.Supports t user coupon stage) :
    store.Supports t user coupon next ∨
      store.isLive t = false ∧ ∃ result, next = .settled result := by
  have closed : (s.close t).isLive t = false := by
    rw [isLive_close]
    simp
  cases move with
  | opens =>
      refine Or.inl ⟨by rw [isLive_begin]; simp, ?_⟩
      rw [txn_begin, txn_of_not_live s t supports]
  | missing missing =>
      refine Or.inl ⟨supports.1, supports.2, .missing, Or.inr ?_⟩
      intro member
      have named := sound.locks.named _ member
      rw [missing] at named
      cases named
  | queues row found taken =>
      exact Or.inl ⟨(isLive_join s t t coupon).trans supports.1,
        (txn_join s t coupon).trans supports.2⟩
  | soldOut row found empty holds =>
      exact Or.inl ⟨(isLive_join s t t coupon).trans supports.1,
        (txn_join s t coupon).trans supports.2, .soldOut, Or.inl holds⟩
  | secures row found stock holds =>
      exact Or.inl ⟨(isLive_join s t t coupon).trans supports.1,
        (txn_join s t coupon).trans supports.2, holds,
        ⟨row, (coupon?_join s t coupon coupon).trans found, stock⟩⟩
  | repeated claimed =>
      exact Or.inl ⟨supports.1, supports.2.1, .repeated, Or.inl supports.2.2.holds⟩
  | draws unclaimed =>
      obtain ⟨live, idle, secured⟩ := supports
      refine Or.inl ⟨(isLive_putTxn s t t _).trans live, ?_, rfl, rfl, secured.holds,
        secured.stock⟩
      rw [txn_draw t user coupon live, idle]
      rfl
  | takes claim =>
      obtain ⟨live, writes, claimUser, claimCoupon, secured⟩ := supports
      refine Or.inl ⟨(isLive_putTxn s t t _).trans live, ?_, claimUser, claimCoupon,
        secured.holds, secured.stock⟩
      rw [txn_take t coupon live, writes]
  | loses claim injected => exact Or.inr ⟨closed, _, rfl⟩
  | clashes claim due claimed => exact Or.inr ⟨closed, _, rfl⟩
  | commits claim due unclaimed => exact Or.inr ⟨closed, _, rfl⟩
  | undoes e => exact Or.inr ⟨closed, _, rfl⟩

/-! ## What others do meanwhile -/

/-- A row does not change under a lock, but by the transaction that holds it. -/
theorem Store.Change.row_of_holds (change : s.Change t store) (sound : s.Sound) (u : TxnId)
    (apart : u ≠ t) (name : String) (holds : s.holds u name = true) :
    store.coupon? name = s.coupon? name := by
  rcases change.tables with ⟨coupons, -, -⟩ | ⟨-, -, rfl⟩
  · exact coupon?_congr coupons name
  · have untaken : (s.txn t).taken.count name = 0 := by
      rw [List.count_eq_zero]
      intro member
      exact apart (holder_unique s u t name holds (sound.locks.taken t name member))
    rw [coupon?_commit, untaken]
    cases s.coupon? name <;> simp

/-- Whatever leaves a transaction's writes, its tickets, its locks and the rows under them alone
leaves its attempt supported. -/
theorem Store.Supports.stable (supports : s.Supports t user coupon stage)
    (live : store.isLive t = s.isLive t) (txn : store.txn t = s.txn t)
    (ticket : ⟨coupon, t⟩ ∈ store.line ↔ ⟨coupon, t⟩ ∈ s.line)
    (holds : s.holds t coupon = true → store.holds t coupon = true)
    (row : s.holds t coupon = true → ∀ row, s.coupon? coupon = some row →
      store.coupon? coupon = some row) :
    store.Supports t user coupon stage := by
  have secured : s.Secured t coupon → store.Secured t coupon := by
    rintro ⟨held, found, known, stock⟩
    exact ⟨holds held, found, row held found known, stock⟩
  cases stage with
  | opening => exact live.trans supports
  | locking => exact ⟨live.trans supports.1, txn.trans supports.2⟩
  | inserting =>
      exact ⟨live.trans supports.1, txn.trans supports.2.1, secured supports.2.2⟩
  | taking claim =>
      obtain ⟨alive, writes, claimUser, claimCoupon, held⟩ := supports
      exact ⟨live.trans alive, txn.trans writes, claimUser, claimCoupon, secured held⟩
  | committing claim =>
      obtain ⟨alive, writes, claimUser, claimCoupon, held⟩ := supports
      exact ⟨live.trans alive, txn.trans writes, claimUser, claimCoupon, secured held⟩
  | undoing e =>
      obtain ⟨alive, idle, rejection, free⟩ := supports
      exact ⟨live.trans alive, txn.trans idle, rejection, free.imp holds fun absent member =>
        absent (ticket.mp member)⟩
  | settled result => exact supports

theorem Store.Change.supports_of_ne (change : s.Change t store) (sound : s.Sound) (u : TxnId)
    (apart : u ≠ t) (supports : s.Supports u user coupon stage) :
    store.Supports u user coupon stage := by
  refine supports.stable (change.isLive_of_ne u apart) (change.txn_of_ne u apart)
    (change.ticket_of_ne u apart coupon) (change.keeps_lock u coupon (Or.inl apart)) ?_
  intro holds row found
  rw [change.row_of_holds sound u apart coupon holds, found]

theorem create_supports (s : Store) (name : String) (amount : Int) (u : TxnId)
    (supports : s.Supports u user coupon stage) :
    (s.create name amount).2.Supports u user coupon stage := by
  have kept := coupon?_create s name amount coupon
  rcases create_cases s name amount with same | ⟨-, -, added⟩
  · rw [same]
    exact supports
  · rw [added] at kept ⊢
    exact supports.stable rfl rfl Iff.rfl id fun _ => kept

theorem failCommits_supports (s : Store) (count : Nat) (u : TxnId)
    (supports : s.Supports u user coupon stage) :
    (s.failCommits count).Supports u user coupon stage :=
  supports.stable rfl rfl Iff.rfl id fun _ _ found => found

end CouponDesk.Memory
