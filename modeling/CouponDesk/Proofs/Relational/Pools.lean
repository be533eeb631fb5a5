import CouponDesk.Proofs.Relational.Tables
import CouponDesk.Relational.Pool

/-!
# How a pool carries statements out

A statement is carried out on the tables that its sender sees, unless something stands in its way.
Nothing does when nobody else uses the pool: outside a transaction (`Idle`) and inside the only one
(`Open`), every statement is then `Tables.exec`.
-/

set_option autoImplicit false

namespace CouponDesk.Relational

/-- A statement that neither begins nor ends a transaction. -/
def Statement.Inner : Statement → Prop
  | .begin | .commit | .rollback => False
  | _ => True

def Tables.send (q : Statement) : StateM Tables q.Reply := fun t => t.exec q

namespace Pool

@[simp]
theorem seen_none (p : Pool) : p.seen none = p.committed := by
  unfold seen
  split <;> rfl

theorem send_inner (p : Pool) (c : Nat) (q : Statement) (inner : q.Inner) :
    p.send (some c) q =
      match p.obstacle? (some c) q with
      | some f => (.error f, p)
      | none =>
          (((p.seen (some c)).exec q).1,
            if (p.seen (some c)).writes q then p.put (some c) ((p.seen (some c)).exec q).2
            else p) := by
  cases q <;> first | rfl | cases inner

/-- A statement outside any transaction is carried out on the committed tables. -/
theorem send_none (p : Pool) (q : Statement) :
    p.send none q =
      match p.obstacle? none q with
      | some f => (.error f, p)
      | none =>
          ((p.committed.exec q).1,
            if p.committed.writes q then { p with committed := (p.committed.exec q).2 } else p) := by
  unfold send
  simp only [seen_none]
  rfl

/-! ## With nobody else -/

structure Usable (p : Pool) : Prop where
  size : 0 < p.size
  writable : p.readOnly = false
  unclosed : p.closed = false

/-- No transaction is open. -/
structure Idle (p : Pool) : Prop extends Usable p where
  opened : p.opened = []
  writer : p.writer = none

structure Open (p : Pool) (c : Nat) (w : Tables) : Prop extends Usable p where
  opened : p.opened = [c]
  writer : p.writer = some (c, w) ∨ p.writer = none ∧ w = p.committed

variable {p : Pool} {c : Nat} {w : Tables}

theorem Idle.commits (idle : p.Idle) (t : Tables) : Idle { p with committed := t } :=
  ⟨⟨idle.size, idle.writable, idle.unclosed⟩, idle.opened, idle.writer⟩

theorem Idle.send (idle : p.Idle) (q : Statement) :
    p.send none q = ((p.committed.exec q).1, { p with committed := (p.committed.exec q).2 }) := by
  have free : p.obstacle? none q = none := by
    have available : p.unavailable? = none := by
      simp [unavailable?, isExhausted, idle.unclosed, idle.opened, Nat.ne_of_gt idle.size]
    have unlocked : p.lockedOut none = false := by simp [lockedOut, idle.writer]
    simp [obstacle?, available, unlocked, idle.writable]
  rw [p.send_none, free]
  dsimp only
  split
  · rfl
  · rename_i reads
    rw [p.committed.exec_of_not_writes q (by simpa using reads)]

theorem Idle.begin (idle : p.Idle) (c : Nat) :
    ∃ p', p.send (some c) .begin = (.ok (), p') ∧ p'.Open c p.committed ∧
      p'.committed = p.committed := by
  have available : p.unavailable? = none := by
    simp [unavailable?, isExhausted, idle.unclosed, idle.opened, Nat.ne_of_gt idle.size]
  refine ⟨{ p with opened := [c] }, ?_,
    ⟨⟨idle.size, idle.writable, idle.unclosed⟩, rfl, Or.inr ⟨idle.writer, rfl⟩⟩, rfl⟩
  change p.openTxn c = _
  simp only [openTxn, available, idle.opened, List.nil_append]
  rfl

theorem Open.seen (opens : p.Open c w) : p.seen (some c) = w := by
  rcases opens.writer with writer | ⟨writer, rfl⟩ <;> simp [Pool.seen, writer]

theorem Open.send (opens : p.Open c w) (q : Statement) (inner : q.Inner) :
    ∃ p', p.send (some c) q = ((w.exec q).1, p') ∧ p'.Open c (w.exec q).2 ∧
      p'.committed = p.committed := by
  have free : p.obstacle? (some c) q = none := by
    have unlocked : p.lockedOut (some c) = false := by
      rcases opens.writer with writer | ⟨writer, -⟩ <;> simp [lockedOut, writer]
    simp [obstacle?, unlocked, opens.writable]
  rw [p.send_inner c q inner, free, opens.seen]
  refine ⟨_, rfl, ?_⟩
  by_cases writes : w.writes q = true
  · rw [if_pos writes]
    exact ⟨⟨⟨opens.size, opens.writable, opens.unclosed⟩, opens.opened, Or.inl rfl⟩, rfl⟩
  · rw [if_neg writes, w.exec_of_not_writes q (by simpa using writes)]
    exact ⟨opens, rfl⟩

theorem Open.dropTxn (opens : p.Open c w) : (p.dropTxn c).Idle where
  toUsable := ⟨opens.size, opens.writable, opens.unclosed⟩
  opened := by simp [Pool.dropTxn, opens.opened]
  writer := by
    rcases opens.writer with writer | ⟨writer, -⟩ <;> simp [Pool.dropTxn, writer, Option.filter]

theorem Open.commit (opens : p.Open c w) :
    ∃ p', p.send (some c) .commit = (.ok (), p') ∧ p'.Idle ∧ p'.committed = w :=
  ⟨p.commitTxn c, rfl, ⟨⟨opens.size, opens.writable, opens.unclosed⟩, opens.dropTxn.opened,
    opens.dropTxn.writer⟩, opens.seen⟩

theorem Open.rollback (opens : p.Open c w) :
    ∃ p', p.send (some c) .rollback = (.ok (), p') ∧ p'.Idle ∧ p'.committed = p.committed :=
  ⟨p.dropTxn c, rfl, opens.dropTxn, rfl⟩

end Pool

end CouponDesk.Relational
