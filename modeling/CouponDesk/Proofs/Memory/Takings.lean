import CouponDesk.Proofs.Memory.Ranks
import CouponDesk.Proofs.Memory.Refusals

/-!
# What a transaction takes

The units of a coupon that a transaction has staged are those that it was granted since it began.
Nobody else has a hand in them, and what is refused does not count.
-/

set_option autoImplicit false

namespace CouponDesk.Memory

namespace Store

/-- How many units of a coupon a transaction has been granted since it began last, when all these
operations were carried out from the beginning. -/
def units (t : TxnId) (name : String) (ops : List Operation) : Nat :=
  ((({} : Store).accepted ops).reverse.takeWhile (· ≠ .ask t .begin)).count
    (.ask t (.decrement name))

variable {s s' : Store} {t : TxnId}

theorem Sound.decrement_of_accepted (sound : s.Sound) (name : String)
    (accepted : s.rejection? (.ask t (.decrement name)) = none) :
    ∃ row, s.coupon? name = some row ∧ ((s.txn t).taken.count name : Int) < row.remaining ∧
      s.decrement t name =
        (.ok { row with remaining := row.remaining - (s.txn t).taken.count name - 1 },
          s.take t name) := by
  have granted : refusalOf (s.decrement t name).1 = none := accepted
  cases holds : s.holds t name with
  | false =>
      rw [decrement_unheld t name holds] at granted
      cases granted
  | true =>
      have ticket := ticket_of_holds s t name holds
      obtain ⟨row, found⟩ := Option.isSome_iff_exists.mp (sound.locks.named _ ticket)
      rw [decrement_held t name row found holds] at granted ⊢
      split at granted
      · cases granted
      · rename_i left
        exact ⟨row, found, by omega, if_neg left⟩

/-- What is not done by a transaction leaves it and its writes alone. -/
theorem after_of_other (op : Operation) (admitted : s.admits op = true)
    (other : op.txn? ≠ some t) :
    (s.after op).isLive t = s.isLive t ∧ (s.after op).txn t = s.txn t := by
  cases acting : op.txn? with
  | some u =>
      have change := after_change op u acting admitted
      have apart : t ≠ u := by
        rintro rfl
        exact other acting
      exact ⟨change.isLive_of_ne t apart, change.txn_of_ne t apart⟩
  | none =>
      cases op <;> simp only [Operation.txn?, reduceCtorEq] at acting
      case create name amount =>
        simp only [after]
        rcases s.create_cases name amount with kept | ⟨-, -, added⟩
        · rw [kept]
          exact ⟨rfl, rfl⟩
        · rw [added]
          exact ⟨rfl, rfl⟩
      case failCommits count => exact ⟨rfl, rfl⟩

theorem not_live_close (s : Store) (t : TxnId) : (s.close t).isLive t = false := by
  rw [isLive_close]
  simp

/-- A transaction that is live after an operation has begun in it, or was live before. -/
theorem live_before (op : Operation) (admitted : s.admits op = true)
    (live : (s.after op).isLive t = true) (other : op ≠ .ask t .begin) : s.isLive t = true := by
  by_cases own : op.txn? = some t
  · cases op <;> simp only [Operation.txn?, Option.some.injEq, reduceCtorEq] at own <;> subst own
    case leave name => exact admitted
    case drop =>
      rw [after, not_live_close] at live
      cases live
    case ask request =>
      cases request with
      | begin => exact absurd rfl other
      | _ => exact admitted
  · rwa [(after_of_other op admitted own).1] at live

/-- What an accepted operation makes of the units that a transaction has taken. -/
theorem Sound.taken_after (sound : s.Sound) (op : Operation) (admitted : s.admits op = true)
    (accepted : s.rejection? op = none) (live : (s.after op).isLive t = true) (name : String) :
    ((s.after op).txn t).taken.count name =
      if op = .ask t .begin then 0
      else (s.txn t).taken.count name + if op = .ask t (.decrement name) then 1 else 0 := by
  by_cases own : op.txn? = some t
  · cases op <;> simp only [Operation.txn?, Option.some.injEq, reduceCtorEq] at own <;> subst own
    case leave t given =>
      simp only [after, leave, reduceCtorEq, if_false, Nat.add_zero]
      split <;> rfl
    case drop =>
      rw [after, not_live_close] at live
      cases live
    case ask t request =>
      cases request with
      | begin =>
          have fresh : s.isLive t = false := by simpa [admits] using admitted
          simp only [after, perform, txn_begin, txn_of_not_live s t fresh]
          rfl
      | lock given =>
          simp only [after, perform, Operation.ask.injEq, reduceCtorEq, and_false, if_false,
            Nat.add_zero]
          cases found : s.coupon? given with
          | none => rw [lock_missing s t given found]
          | some row => rw [lock_found s t given row found, txn_join]
      | insert user given =>
          simp only [after, perform, Operation.ask.injEq, reduceCtorEq, and_false, if_false,
            Nat.add_zero, Prod.map, id]
          rcases s.insert_cases t user given with same | drawn
          · rw [same]
          · rw [drawn, txn_draw t user given admitted]
      | decrement given =>
          obtain ⟨row, -, -, taken⟩ := sound.decrement_of_accepted given accepted
          simp only [after, perform, taken, Prod.map, id, txn_take t given admitted,
            Operation.ask.injEq, reduceCtorEq, and_false, if_false, true_and,
            Request.decrement.injEq, List.count_cons, beq_iff_eq]
      | commit =>
          have dead : (s.after (.ask t .commit)).isLive t = (s.close t).isLive t :=
            congrArg (fun entries => (entries.lookup t).isSome) (s.commit_ends t).2
          rw [dead, not_live_close] at live
          cases live
      | rollback =>
          simp only [after, perform] at live
          rw [not_live_close] at live
          cases live
  · -- Nobody else has a hand in the units of `t`.
    have apart : ∀ request, op ≠ .ask t request := by
      rintro request rfl
      exact own rfl
    rw [(after_of_other op admitted own).2, if_neg (apart _), if_neg (apart _), Nat.add_zero]

theorem accepted_append (first second : List Operation) (carried : s.carryOut first = some s') :
    s.accepted (first ++ second) = s.accepted first ++ s'.accepted second := by
  induction first generalizing s with
  | nil =>
      obtain rfl := Option.some.inj carried
      rfl
  | cons op rest ih =>
      obtain ⟨-, carried⟩ := Option.ite_none_right_eq_some.mp carried
      simp only [List.cons_append, accepted, ih carried]
      split <;> rfl

theorem units_append (past : List Operation) (op : Operation) (t : TxnId) (name : String)
    (carried : carryOut past {} = some s) :
    units t name (past ++ [op]) =
      if (s.rejection? op).isSome then units t name past
      else if op = .ask t .begin then 0
      else units t name past + if op = .ask t (.decrement name) then 1 else 0 := by
  unfold units
  rw [accepted_append past [op] carried]
  cases rejected : s.rejection? op with
  | some e => simp [accepted, rejected]
  | none =>
      simp only [accepted, rejected, Option.isSome_none, Bool.false_eq_true, if_false,
        List.reverse_append, List.reverse_singleton, List.singleton_append]
      by_cases begins : op = .ask t .begin
      · rw [if_pos begins, List.takeWhile_cons_of_neg (by simp [begins])]
        rfl
      · rw [if_neg begins, List.takeWhile_cons_of_pos (by simpa using begins), List.count_cons]
        simp

/-- A transaction has staged as many units as it has been granted since it began. -/
theorem count_taken_eq_units (past : List Operation) (carried : carryOut past {} = some s)
    (live : s.isLive t = true) (name : String) :
    (s.txn t).taken.count name = units t name past := by
  have all : s.Sound ∧ carryOut ([] ++ past) {} = some s ∧ (s.isLive t = true →
      (s.txn t).taken.count name = units t name ([] ++ past)) := by
    refine carryOut_keeps
      (fun past s => s.Sound ∧ carryOut past {} = some s ∧ (s.isLive t = true →
        (s.txn t).taken.count name = units t name past))
      (fun _ => True) ?_ past (fun _ _ => trivial) [] ⟨sound_empty, rfl, by simp [isLive]⟩ carried
    rintro past s op - admitted ⟨sound, carried, counted⟩
    have grown : carryOut (past ++ [op]) {} = some (s.after op) := by
      rw [carryOut_append, carried, Option.bind_some, carryOut_single op admitted]
    refine ⟨after_sound sound op admitted, grown, ?_⟩
    intro live
    rw [units_append past op t name carried]
    cases rejected : s.rejection? op with
    | some e =>
        rw [sound.after_of_rejected e op rejected] at live ⊢
        exact counted live
    | none =>
        rw [sound.taken_after op admitted rejected live name]
        by_cases begins : op = .ask t .begin
        · simp [begins]
        · rw [counted (live_before op admitted live begins)]
          simp [begins]
  exact all.2.2 live

end Store

end CouponDesk.Memory
