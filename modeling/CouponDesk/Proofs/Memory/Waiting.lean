import CouponDesk.Proofs.Memory.Growth
import CouponDesk.Proofs.Memory.Locks

/-!
# Waiting for a lock

What an attempt does to the store before it holds the lock of its coupon, and what is left to it
afterwards.  Before, it changes nothing but its own place in the line; afterwards it keeps the lock
to its end and comes to what the store dictates.
-/

set_option autoImplicit false

namespace CouponDesk.Memory

namespace Store

/-- What a claim comes to whose transaction holds the lock of the coupon. -/
inductive Dictates (s : Store) (user coupon : String) : Except Error Claim → Prop
  | soldOut (row : Coupon) (found : s.coupon? coupon = some row) (empty : row.remaining ≤ 0) :
      Dictates s user coupon (.error (.noStock coupon))
  | repeated (row : Coupon) (found : s.coupon? coupon = some row) (stock : 0 < row.remaining)
      (claimed : (user, coupon) ∈ s.keys) :
      Dictates s user coupon (.error (.alreadyClaimed user coupon))
  | lost (row : Coupon) (found : s.coupon? coupon = some row) (stock : 0 < row.remaining)
      (injected : 0 < s.failing) :
      Dictates s user coupon (.error (.transient .injectedCommit))
  | granted (claim : Claim) (row : Coupon) (found : s.coupon? coupon = some row)
      (stock : 0 < row.remaining) (unclaimed : (user, coupon) ∉ s.keys) (due : s.failing = 0)
      (own : claim.key = (user, coupon)) :
      Dictates s user coupon (.ok claim)

/-- A step by which nothing changes but the transaction `t` and its place in the line: the others
stand there in the same order, and the same of them hold locks. -/
structure Untouched (s : Store) (t : TxnId) (next : Store) : Prop where
  tables : s.SameTables next
  lastId : next.lastId = s.lastId
  failing : next.failing = s.failing
  line : next.line.filter (·.txn ≠ t) = s.line.filter (·.txn ≠ t)
  locks : ∀ name, next.holder? name = s.holder? name

variable {s store : Store} {t : TxnId} {user coupon : String} {stage next : Stage}

theorem Dictates.ne_timeout {result : Except Error Claim} (dictates : s.Dictates user coupon result)
    (name : String) (deadline : Duration) : result ≠ .error (.timeout name deadline) := by
  cases dictates with
  | _ => simp

theorem holder?_of_find? {name : String} (same : store.line.find? (·.coupon = name) =
    s.line.find? (·.coupon = name)) : store.holder? name = s.holder? name := by
  unfold holder?
  rw [same]

theorem untouched_begin (s : Store) (t : TxnId) : s.Untouched t (s.begin t) :=
  ⟨⟨rfl, rfl, rfl⟩, rfl, rfl, rfl, fun _ => rfl⟩

theorem Supports.live (supports : s.Supports t user coupon stage) (begun : stage ≠ .opening) :
    s.isLive t = true := by
  cases stage with
  | opening => exact absurd rfl begun
  | settled result => exact supports.elim
  | _ => exact supports.1

/-- Nobody's place is changed when a transaction without locks leaves. -/
theorem untouched_close (unheld : ∀ name, s.holds t name = false) : s.Untouched t (s.close t) where
  tables := ⟨rfl, rfl, rfl⟩
  lastId := rfl
  failing := rfl
  line := by simp [close, List.filter_filter]
  locks := by
    intro name
    refine holder?_of_find? ?_
    cases found : s.line.find? (·.coupon = name) with
    | none =>
      have absent := List.find?_eq_none.mp found
      exact List.find?_eq_none.mpr fun ticket member => absent ticket (List.mem_filter.mp member).1
    | some ticket =>
      have named : ticket.coupon = name := by simpa using List.find?_some found
      have held : s.holds ticket.txn name = true := by rw [holds_iff, found, ← named]
      have apart : ticket.txn ≠ t := by
        intro same
        rw [same, unheld name] at held
        cases held
      have kept := (holds_iff _ _ _).mp (holds_close s t ticket.txn name apart held)
      rw [kept, ← named]

/-- Nobody's place is changed when a transaction joins the line behind another. -/
theorem untouched_join (taken : (s.join t coupon).holds t coupon = false) :
    s.Untouched t (s.join t coupon) := by
  by_cases present : ⟨coupon, t⟩ ∈ s.line
  · have stays : s.join t coupon = s := if_pos present
    rw [stays]
    exact ⟨⟨rfl, rfl, rfl⟩, rfl, rfl, rfl, fun _ => rfl⟩
  · have joined : s.join t coupon = { s with line := s.line ++ [⟨coupon, t⟩] } := if_neg present
    rw [joined] at taken ⊢
    refine ⟨⟨rfl, rfl, rfl⟩, rfl, rfl, by simp, fun name => holder?_of_find? ?_⟩
    cases found : s.line.find? (·.coupon = name) with
    | some ticket => simp [List.find?_append, found]
    | none =>
      have other : coupon ≠ name := by
        rintro rfl
        have first : Store.holds { s with line := s.line ++ [⟨coupon, t⟩] } t coupon = true := by
          rw [holds_iff]
          simp [List.find?_append, found]
        rw [first] at taken
        cases taken
      simp [List.find?_append, found, other]

end Store

open Store

/-- An attempt that does not hold the lock is granted it by its next move, or changes nothing but
its own place. -/
theorem Move.of_unheld {s store : Store} {t : TxnId} {user coupon : String} {stage next : Stage}
    (move : Move user coupon t s stage store next) (early : stage = .opening ∨ stage = .locking)
    (known : (s.coupon? coupon).isSome) (unheld : s.holds t coupon = false) :
    store.holds t coupon = false ∧ next = .locking ∧ s.Untouched t store ∨
      store.holds t coupon = true ∧ (next = .inserting ∨ next = .undoing (.noStock coupon) ∧
        (∃ row, store.coupon? coupon = some row ∧ row.remaining ≤ 0) ∧
        s.Dictates user coupon (.error (.noStock coupon))) := by
  cases move with
  | opens => exact Or.inl ⟨unheld, rfl, untouched_begin s t⟩
  | missing missing =>
    rw [missing] at known
    cases known
  | queues row found taken => exact Or.inl ⟨taken, rfl, untouched_join taken⟩
  | soldOut row found empty holds =>
    have exhausted := Int.le_of_eq empty
    exact Or.inr ⟨holds, Or.inr ⟨rfl,
      ⟨row, (coupon?_join s t coupon coupon).trans found, exhausted⟩,
      .soldOut row found exhausted⟩⟩
  | secures row found stock holds => exact Or.inr ⟨holds, Or.inl rfl⟩
  | _ => simp at early

/-- An attempt that holds the lock keeps it to its last move, and ends with what the store dictates
there or did when it was turned down. -/
theorem Move.of_held {s store : Store} {t : TxnId} {user coupon : String} {stage next : Stage}
    (move : Move user coupon t s stage store next) (sound : s.Sound)
    (supports : s.Supports t user coupon stage) (holds : s.holds t coupon = true) :
    store.holds t coupon = true ∧ (∀ result, next ≠ .settled result) ∧
        (∀ e, next = .undoing e → s.Dictates user coupon (.error e)) ∨
      ∃ result, next = .settled result ∧
        (s.Dictates user coupon result ∨ ∃ e, stage = .undoing e ∧ result = .error e) := by
  have ticket := ticket_of_holds s t coupon holds
  have stays : s.join t coupon = s := if_pos ticket
  cases move with
  | opens =>
    have live := sound.locks.live _ ticket
    rw [show s.isLive t = false from supports] at live
    cases live
  | missing missing =>
    have named := sound.locks.named _ ticket
    rw [missing] at named
    cases named
  | queues row found taken =>
    rw [stays, holds] at taken
    cases taken
  | soldOut row found empty held =>
    refine Or.inl ⟨held, fun _ => Stage.noConfusion, fun e same => ?_⟩
    cases same
    exact .soldOut row found (Int.le_of_eq empty)
  | secures row found stock held => exact Or.inl ⟨held, fun _ => Stage.noConfusion, by simp⟩
  | repeated claimed =>
    refine Or.inl ⟨holds, fun _ => Stage.noConfusion, fun e same => ?_⟩
    cases same
    obtain ⟨row, found, stock⟩ := supports.2.2.stock
    exact .repeated row found stock claimed
  | draws unclaimed => exact Or.inl ⟨holds, fun _ => Stage.noConfusion, by simp⟩
  | takes claim => exact Or.inl ⟨holds, fun _ => Stage.noConfusion, by simp⟩
  | loses claim injected =>
    obtain ⟨row, found, stock⟩ := supports.2.2.2.2.stock
    exact Or.inr ⟨_, rfl, Or.inl (.lost row found stock injected)⟩
  | clashes claim due claimed =>
    obtain ⟨row, found, stock⟩ := supports.2.2.2.2.stock
    exact Or.inr ⟨_, rfl, Or.inl (.repeated row found stock claimed)⟩
  | commits claim due unclaimed =>
    obtain ⟨-, -, rfl, rfl, secured⟩ := supports
    obtain ⟨row, found, stock⟩ := secured.stock
    exact Or.inr ⟨_, rfl, Or.inl (.granted claim row found stock unclaimed due rfl)⟩
  | undoes e => exact Or.inr ⟨_, rfl, Or.inr ⟨e, rfl, rfl⟩⟩

end CouponDesk.Memory
