import CouponDesk.Proofs.Agreement.Matching

/-!
# Hand-driven transactions on both stores

Between its transactions a script finds a store in memory and tables that match it.  While one is
open, its tables match the store that its commit would leave behind; so each of its operations has
the same answer on both sides, and so has its end.
-/

set_option autoImplicit false

namespace CouponDesk.Agreement

open Memory (System Store Txn)
open Relational

/-! ## Operations as requests -/

theorem map_reply {σ α β : Type} (f : α → β) {made : StateM σ α} {s s' : σ} {a : α}
    (replies : made s = (a, s')) : (f <$> made) s = (f a, s') := by
  change (f (made s).1, (made s).2) = _
  rw [replies]

namespace Op

def request : Op → Request
  | .lock name => .lock name
  | .insert user name _ => .insert user name
  | .decrement name => .decrement name

def now : Op → Int
  | .insert _ _ now => now
  | .lock _ | .decrement _ => 0

def answer : (op : Op) → op.request.Reply → Answer
  | .lock _, reply => .coupon reply
  | .insert _ _ _, reply => .claim reply
  | .decrement _, reply => .coupon reply

theorem on_database (op : Op) (d : Nat) :
    op.on Desk.database d = op.answer <$> Pool.performs d op.now op.request := by
  cases op <;> rfl

theorem inner (op : Op) :
    (Records.perform .sqlite Program.send op.now op.request).Only Statement.Inner := by
  cases op with
  | lock name => exact Records.inner_lock name
  | insert user name now => exact Records.inner_insertClaim now user name
  | decrement name => exact Records.inner_takeUnit name

end Op

/-! ## Between transactions -/

/-- No transaction is open, and the tables match the store.  The times are those at which claims are
still to be made. -/
structure Between (exact : Prop) (known : List String) (times : List Int) (s : System) (p : Pool) :
    Prop where
  quiet : s.store.Quiet
  due : s.store.failing = 0
  idle : p.Idle
  same : Matches s.store p.committed
  ready : Ready p.committed times
  ids : exact → p.committed.lastId = s.store.lastId
  known : ∀ name ∈ known, (s.store.coupon? name).isSome

/-! ## In a transaction -/

/-- One transaction is open, alone: it has staged these writes, and its tables match the store that
their commit would leave behind. -/
structure Within (exact : Prop) (known locked : List String) (times : List Int) (s : System)
    (p : Pool) (d : Nat) (writes : Txn) (w : Tables) : Prop where
  solo : s.store.Solo (.manual 0) writes
  due : s.store.failing = 0
  opens : p.Open d w
  same : Matches (s.store.prospect writes) w
  base : Matches s.store.deserted p.committed
  ready : Ready w times
  ids : exact → w.lastId = s.store.lastId
  known : ∀ name ∈ known, (s.store.coupon? name).isSome
  locked : ∀ name ∈ locked, s.store.holds (.manual 0) name = true
  taken : ∀ name ∈ writes.taken, (s.store.coupon? name).isSome

/-- What goes on in a transaction on both sides: the answers agree, its writes are not committed, and
no id is used unless a claim is answered. -/
structure Continues {α : Type} (strip : α → α) (isClaim : α → Bool) (exact : Prop)
    (known locked : List String) (times : List Int) (s : System) (p : Pool) (d : Nat)
    (memory : α × System) (database : α × Pool) : Prop where
  answers : Agrees strip exact memory.1 database.1
  within : ∃ writes w, Within exact known locked times memory.2 database.2 d writes w
  kept : database.2.committed = p.committed
  unnumbered : isClaim memory.1 = false → memory.2.store.lastId = s.store.lastId

section Within

variable {exact : Prop} {known locked : List String} {times : List Int} {s : System} {p : Pool}
  {d : Nat} {writes : Txn} {w : Tables}

theorem Within.manual (within : Within exact known locked times s p d writes w) :
    ∀ ticket ∈ s.store.line, ∃ number, ticket.txn = .manual number :=
  fun ticket member => ⟨0, within.solo.line ticket member⟩

/-- What the transaction's own tables answer is what the operation is answered with. -/
theorem Within.reply (within : Within exact known locked times s p d writes w) (op : Op)
    {reply : op.request.Reply} {w' : Tables}
    (alone : Records.perform .sqlite Tables.send op.now op.request w = (reply, w')) :
    ∃ p', op.on Desk.database d p = (op.answer reply, p') ∧ p'.Open d w' ∧
      p'.committed = p.committed := by
  obtain ⟨p', replies, opens, kept⟩ := within.opens.reply op.now op.request alone op.inner
  refine ⟨p', ?_, opens, kept⟩
  rw [op.on_database]
  exact map_reply op.answer replies

/-- A refusal changes nothing on either side. -/
theorem Within.refused (op : Op)
    (within : Within exact known locked (op.times ++ times) s p d writes w) (patience : Nat)
    {reply : op.request.Reply}
    (memory : op.on (Desk.memory patience) 0 s = (op.answer reply, s))
    (alone : Records.perform .sqlite Tables.send op.now op.request w = (reply, w)) :
    Continues Answer.unnumbered Answer.isClaim exact known locked times s p d
      (op.on (Desk.memory patience) 0 s) (op.on Desk.database d p) := by
  obtain ⟨p', database, opens, kept⟩ := within.reply op alone
  rw [memory, database]
  exact
    { answers := .refl _
      within := ⟨writes, w,
        { within with opens, base := kept ▸ within.base, ready := within.ready.skip op.times }⟩
      kept
      unnumbered := fun _ => rfl }

theorem Within.lock (within : Within exact known locked times s p d writes w) (patience : Nat)
    (name : String) :
    Continues Answer.unnumbered Answer.isClaim exact known
      ((Op.lock name).locked known locked) times s p d
      ((Op.lock name).on (Desk.memory patience) 0 s) ((Op.lock name).on Desk.database d p) := by
  obtain ⟨p', database, opens, kept⟩ := within.reply (.lock name) (Records.lock_alone w name)
  obtain ⟨line, granted, solo, held, holds⟩ := within.solo.lock_grants name
  have memory : (Op.lock name).on (Desk.memory patience) 0 s =
      (.coupon ((s.store.prospect writes).get name), { s with store := { s.store with line } }) := by
    simp only [Op.on, bind_state, Desk.memory, s.lock_eq 0 patience name _ _ granted]
    rfl
  rw [memory, database, ← within.same.get]
  refine ⟨.refl _, ⟨writes, w, ?_⟩, kept, fun _ => rfl⟩
  exact
    { solo
      due := within.due
      opens
      same := within.same
      base := kept ▸ within.base
      ready := within.ready
      ids := within.ids
      known := within.known
      locked := by
        intro other member
        simp only [Op.locked] at member
        split at member
        · rename_i present
          rcases List.mem_cons.mp member with rfl | old
          · exact holds (within.known other present)
          · exact held other (within.locked other old)
        · exact held other (within.locked other member)
      taken := within.taken }

theorem Within.insert (patience : Nat) (user name : String) (now : Int)
    (within : Within exact known locked (now :: times) s p d writes w) :
    Continues Answer.unnumbered Answer.isClaim exact known locked times s p d
      ((Op.insert user name now).on (Desk.memory patience) 0 s)
      ((Op.insert user name now).on Desk.database d p) := by
  have staged := within.solo.insert_eq user name
  have inserts := Records.insertClaim_alone within.ready.sound user name now within.ready.fits
  simp only [← within.same.coupon, ← within.same.mem_keys] at staged
  have memory : (Op.insert user name now).on (Desk.memory patience) 0 s =
      (.claim (s.store.insert (.manual 0) user name).1,
        { s with store := (s.store.insert (.manual 0) user name).2 }) := by
    have acts := s.transact_eq (fun store => store.insert (.manual 0) user name) (by
      rw [(s.store.insert_keeps _ _ _).1]
      exact within.manual)
    exact map_reply Answer.claim acts
  by_cases missing : (w.coupon? name).isNone = true
  · have unclaimed : (user, name) ∉ w.claims.map ClaimRow.key := by
      intro claimed
      obtain ⟨row, member, same⟩ := List.mem_map.mp claimed
      have known := within.ready.sound.named row member
      rw [show row.coupon = name from congrArg Prod.snd same] at known
      simp_all
    rw [if_pos missing] at staged
    rw [if_neg unclaimed, if_pos missing] at inserts
    exact within.refused (.insert user name now) patience (by rw [memory, staged]; rfl) inserts
  · rw [if_neg missing] at staged inserts
    by_cases claimed : (user, name) ∈ w.claims.map ClaimRow.key
    · rw [if_pos claimed] at staged inserts
      exact within.refused (.insert user name now) patience (by rw [memory, staged]; rfl) inserts
    · rw [if_neg claimed] at staged inserts
      obtain ⟨p', database, opens, kept⟩ := within.reply (.insert user name now) inserts
      have known : (w.coupon? name).isSome = true := by
        simpa [Option.isSome_iff_ne_none] using missing
      have same := Matches.enter (s := s.store.deserted) within.same
        ⟨s.store.lastId + 1, user, name⟩ now (s.store.lastId + 1)
      rw [memory, staged, database]
      refine ⟨⟨rfl, fun holds => by rw [within.ids holds]; rfl⟩,
        ⟨{ writes with staged := writes.staged ++ [⟨s.store.lastId + 1, user, name⟩] },
          w.enter user name now, ?_⟩, kept, nofun⟩
      exact
        { solo := within.solo.draw user name
          due := within.due
          opens
          same
          base := kept ▸ ⟨within.base.coupon, within.base.claims, within.base.keys⟩
          ready := within.ready.enter user name claimed known
          ids := fun holds => congrArg (· + 1) (within.ids holds)
          known := within.known
          locked := within.locked
          taken := within.taken }

theorem Within.decrement (within : Within exact known locked times s p d writes w) (patience : Nat)
    (name : String) (allowed : name ∈ locked) :
    Continues Answer.unnumbered Answer.isClaim exact known locked times s p d
      ((Op.decrement name).on (Desk.memory patience) 0 s)
      ((Op.decrement name).on Desk.database d p) := by
  have taken := within.solo.decrement_eq name (within.locked name allowed)
  have takes := Records.takeUnit_alone within.ready.sound name
  simp only [← within.same.coupon] at taken
  have memory : (Op.decrement name).on (Desk.memory patience) 0 s =
      (.coupon (s.store.decrement (.manual 0) name).1,
        { s with store := (s.store.decrement (.manual 0) name).2 }) := by
    have acts := s.transact_eq (fun store => store.decrement (.manual 0) name) (by
      rw [(s.store.decrement_keeps _ _).1]
      exact within.manual)
    exact map_reply Answer.coupon acts
  cases found : w.coupon? name with
  | none =>
      rw [found] at taken takes
      exact within.refused (.decrement name) patience (by rw [memory, taken]; rfl) takes
  | some row =>
      simp only [found] at taken takes
      by_cases empty : row.remaining ≤ 0
      · rw [if_pos empty] at taken takes
        exact within.refused (.decrement name) patience (by rw [memory, taken]; rfl) takes
      · rw [if_neg empty] at taken takes
        obtain ⟨p', database, opens, kept⟩ := within.reply (.decrement name) takes
        have same := Matches.take (s := s.store.deserted) within.same name row found (by omega)
        have present : (s.store.coupon? name).isSome := by
          rw [← s.store.isSome_coupon?_prospect writes, ← within.same.coupon, found]
          rfl
        rw [memory, taken, database]
        refine ⟨.refl _,
          ⟨{ writes with taken := name :: writes.taken }, (w.takeUnit name).2, ?_⟩, kept,
          fun _ => rfl⟩
        exact
          { solo := within.solo.take name
            due := within.due
            opens
            same
            base := kept ▸ within.base
            ready := within.ready.takeUnit name
            ids := within.ids
            known := within.known
            locked := within.locked
            taken := by
              intro other member
              rcases List.mem_cons.mp member with rfl | old
              · exact present
              · exact within.taken other old }

/-- Without the lock the answers differ, whatever the stock: only the store in memory looks at the
lock. -/
theorem decrement_differs (opens : p.Open d w) (sound : w.Sound) (patience : Nat) (name : String)
    (unheld : s.store.holds (.manual 0) name = false) :
    ((Op.decrement name).on (Desk.memory patience) 0 s).1 ≠
      ((Op.decrement name).on Desk.database d p).1 := by
  have refused : ((Op.decrement name).on (Desk.memory patience) 0 s).1 =
      .coupon (.error (.transient (.unlocked name))) := by
    have answers : (s.store.decrement (.manual 0) name).1 =
        .error (.transient (.unlocked name)) := by
      simp [Store.decrement, unheld]
    exact congrArg Answer.coupon answers
  obtain ⟨p', replies, -, -⟩ := opens.reply 0 (.decrement name)
    (Records.takeUnit_alone sound name) (Records.inner_takeUnit name)
  have database := congrArg Prod.fst (map_reply Answer.coupon replies)
  intro same
  rw [refused] at same
  have answered := same.trans database
  cases found : w.coupon? name with
  | none => simp [found] at answered
  | some row =>
      simp only [found] at answered
      split at answered <;> simp at answered

theorem Within.op (patience : Nat) (op : Op)
    (within : Within exact known locked (op.times ++ times) s p d writes w)
    (allowed : op.allowed locked = true) :
    Continues Answer.unnumbered Answer.isClaim exact known (op.locked known locked) times s p d
      (op.on (Desk.memory patience) 0 s) (op.on Desk.database d p) := by
  cases op with
  | lock name => exact within.lock patience name
  | insert user name now => exact within.insert patience user name now
  | decrement name => exact within.decrement patience name (of_decide_eq_true allowed)

theorem Within.ops (patience : Nat) (ops : List Op)
    (within : Within exact known locked (ops.flatMap Op.times ++ times) s p d writes w)
    (allowed : lockedFirst known locked ops = true) :
    ∃ locked', Continues (List.map Answer.unnumbered) (·.any Answer.isClaim) exact known locked'
      times s p d (ops.mapM (Op.on (Desk.memory patience) 0) s)
      (ops.mapM (Op.on Desk.database d) p) := by
  -- Along the operations the match between the prospect and the working tables is carried on, for
  -- the times that are left.
  induction ops generalizing locked s p writes w with
  | nil => exact ⟨locked, .refl _, ⟨writes, w, within⟩, rfl, fun _ => rfl⟩
  | cons op rest ih =>
      rw [List.flatMap_cons, List.append_assoc] at within
      obtain ⟨may, rest_may⟩ := Bool.and_eq_true_iff.mp allowed
      obtain ⟨answers, ⟨writes', w', within'⟩, kept, unnumbered⟩ := within.op patience op may
      obtain ⟨locked', more⟩ := ih within' rest_may
      simp only [List.mapM_cons, bind_state]
      refine ⟨locked', answers.cons more.answers, more.within, more.kept.trans kept, ?_⟩
      intro unclaimed
      obtain ⟨first, rest⟩ := Bool.or_eq_false_iff.mp (List.any_cons.symm.trans unclaimed)
      exact (more.unnumbered rest).trans (unnumbered first)

/-- A commit breaks no constraint, and what it leaves behind matches on both sides. -/
theorem Within.commit (within : Within exact known locked times s p d writes w) (patience : Nat) :
    ((Desk.memory patience).finish 0 .commit s).1 = .ok () ∧
      (Desk.database.finish d .commit p).1 = .ok () ∧
      Between exact known times ((Desk.memory patience).finish 0 .commit s).2
        (Desk.database.finish d .commit p).2 := by
  have stock : ∀ name ∈ writes.taken, ∃ row, (s.store.prospect writes).coupon? name = some row ∧
      0 ≤ row.remaining := by
    intro name member
    have known := within.taken name member
    rw [← s.store.isSome_coupon?_prospect writes, ← within.same.coupon] at known
    obtain ⟨row, found⟩ := Option.isSome_iff_exists.mp known
    have stocked := within.ready.sound.stock row (Tables.coupon?_some w name row found).1
    exact ⟨row, (within.same.coupon name).symm.trans found, stocked.2.1⟩
  have once : (s.store.prospect writes).keys.Nodup := by
    rw [within.same.keys, ← within.same.claims]
    exact within.ready.sound.once
  have committed := within.solo.commit_eq within.due stock once
  have memory : (Desk.memory patience).finish 0 .commit s =
      (.ok (), { s with store := s.store.prospect writes }) := by
    have acts := s.transact_eq (fun store => store.commit (.manual 0)) (by
      rw [committed]
      exact nofun)
    rw [committed] at acts
    exact acts
  obtain ⟨p', sent, idle, kept⟩ := within.opens.commit
  have database : Desk.database.finish d .commit p = (.ok (), p') :=
    map_reply (Except.mapError Error.database) sent
  rw [memory, database]
  refine ⟨rfl, rfl, ?_⟩
  exact
    { quiet := ⟨rfl, rfl⟩
      due := within.due
      idle
      same := kept ▸ within.same
      ready := kept ▸ within.ready
      ids := fun holds => (congrArg Tables.lastId kept).trans (within.ids holds)
      known := fun name member =>
        (s.store.isSome_coupon?_prospect writes name).trans (within.known name member) }

/-- A transaction that ends without a commit leaves what was there before. -/
theorem Within.discard (within : Within exact known locked times s p d writes w) (patience : Nat)
    (ready : Ready p.committed times) (ids : exact → p.committed.lastId = s.store.lastId)
    (ending : Ending) (discards : ending ≠ .commit) :
    ((Desk.memory patience).finish 0 ending s).1 = .ok () ∧
      (Desk.database.finish d ending p).1 = .ok () ∧
      Between exact known times ((Desk.memory patience).finish 0 ending s).2
        (Desk.database.finish d ending p).2 := by
  have memory : (Desk.memory patience).finish 0 ending s =
      (.ok (), { s with store := s.store.deserted }) := by
    have acts := s.transact_eq (fun store => ((.ok () : Except Error Unit), store.close (.manual 0)))
      (by rw [within.solo.close]; exact nofun)
    rw [within.solo.close] at acts
    cases ending with
    | commit => exact absurd rfl discards
    | rollback => exact acts
    | drop => exact acts
  obtain ⟨p', database, idle, kept⟩ : ∃ p', Desk.database.finish d ending p = (.ok (), p') ∧
      p'.Idle ∧ p'.committed = p.committed := by
    obtain ⟨p', sent, idle, kept⟩ := within.opens.rollback
    cases ending with
    | commit => exact absurd rfl discards
    | rollback => exact ⟨p', map_reply (Except.mapError Error.database) sent, idle, kept⟩
    | drop => exact ⟨p.dropTxn d, rfl, within.opens.dropTxn, rfl⟩
  rw [memory, database]
  refine ⟨rfl, rfl, ?_⟩
  exact
    { quiet := ⟨rfl, rfl⟩
      due := within.due
      idle
      same := kept ▸ within.base
      ready := kept ▸ ready
      ids := fun holds => (congrArg Tables.lastId kept).trans (ids holds)
      known := within.known }

theorem Between.begin (patience : Nat) (between : Between exact known times s p) :
    ∃ s' p', (Desk.memory patience).begin s = ((0, .ok ()), s') ∧
      Desk.database.begin p = ((p.freshTxn, .ok ()), p') ∧
      Within exact known [] times s' p' p.freshTxn {} p.committed ∧
      p'.committed = p.committed ∧ s'.store.lastId = s.store.lastId := by
  have solo := between.quiet.begin (.manual 0)
  have acts := s.transact_eq
    (fun store => (((0, .ok ()) : Nat × Except Error Unit), store.begin (.manual 0)))
    (fun ticket member => ⟨0, solo.line ticket member⟩)
  obtain ⟨p', sent, opens, kept⟩ := between.idle.begin p.freshTxn
  refine ⟨_, p', acts, ?_, ?_, kept, rfl⟩
  · change ((p.freshTxn, (Pool.send (some p.freshTxn) .begin p).1.mapError Error.database),
      (Pool.send (some p.freshTxn) .begin p).2) = _
    rw [sent]
    rfl
  · exact
      { solo
        due := between.due
        opens
        same := by rw [between.quiet.prospect]; exact between.same
        base := by
          rw [kept]
          exact ⟨between.same.coupon, between.same.claims, between.same.keys⟩
        ready := between.ready
        ids := between.ids
        known := between.known
        locked := nofun
        taken := nofun }

end Within

end CouponDesk.Agreement
