import CouponDesk.Proofs.Memory.Changes

/-!
# What a transaction leaves alone

A change by one transaction touches neither the writes of another nor a lock that another holds,
and the committed tables change in one way only, by a commit that nothing forbids.
-/

set_option autoImplicit false

namespace CouponDesk.Memory.Store

variable {s s' : Store} {t : TxnId}

/-! ## The committed tables -/

/-- The tables stay as they are, or the writes of the transaction are applied to them. -/
theorem Change.tables (change : s.Change t s') :
    (s'.coupons = s.coupons ∧ s'.claims = s.claims ∧ s'.keys = s.keys) ∨
      (s.failing = 0 ∧ s.refusal? (s.txn t) = none ∧ s' = (s.close t).apply (s.txn t)) := by
  cases change with
  | committed due allowed => exact Or.inr ⟨due, allowed, rfl⟩
  | _ => exact Or.inl ⟨rfl, rfl, rfl⟩

theorem coupon?_congr (coupons : s'.coupons = s.coupons) (name : String) :
    s'.coupon? name = s.coupon? name := by
  unfold coupon?
  rw [coupons]

theorem coupon?_commit (writes : Txn) (name : String) :
    ((s.close t).apply writes).coupon? name =
      (s.coupon? name).map fun row =>
        { row with remaining := row.remaining - writes.taken.count name } :=
  coupon?_apply (s.close t) writes name

/-- A coupon stays, with its name and its total. -/
theorem Change.row (change : s.Change t s') (name : String) (row : Coupon)
    (found : s.coupon? name = some row) :
    ∃ row', s'.coupon? name = some row' ∧ row'.name = row.name ∧ row'.total = row.total ∧
      row'.remaining ≤ row.remaining := by
  rcases change.tables with ⟨coupons, -, -⟩ | ⟨-, -, rfl⟩
  · exact ⟨row, by rw [coupon?_congr coupons, found], rfl, rfl, Int.le_refl _⟩
  · refine ⟨{ row with remaining := row.remaining - (s.txn t).taken.count name }, ?_, rfl, rfl, ?_⟩
    · rw [coupon?_commit, found]
      rfl
    · dsimp only
      omega

theorem Change.coupon?_none_iff (change : s.Change t s') (name : String) :
    s'.coupon? name = none ↔ s.coupon? name = none := by
  rcases change.tables with ⟨coupons, -, -⟩ | ⟨-, -, rfl⟩
  · rw [coupon?_congr coupons]
  · rw [coupon?_commit, Option.map_eq_none_iff]

theorem Change.coupon?_isSome (change : s.Change t s') (name : String) :
    (s'.coupon? name).isSome = (s.coupon? name).isSome := by
  rw [Bool.eq_iff_iff, Option.isSome_iff_ne_none, Option.isSome_iff_ne_none]
  exact not_congr (change.coupon?_none_iff name)

/-- Committed claims stay, and new ones come after them. -/
theorem Change.claims_prefix (change : s.Change t s') : s.claims <+: s'.claims := by
  rcases change.tables with ⟨-, claims, -⟩ | ⟨-, -, rfl⟩
  · exact ⟨[], by rw [claims, List.append_nil]⟩
  · exact ⟨(s.txn t).staged, rfl⟩

theorem Change.lastId_le (change : s.Change t s') : s.lastId ≤ s'.lastId := by
  cases change with
  | drawn user name row live found unclaimed unstaged => exact Nat.le_succ _
  | _ => exact Nat.le_refl _

/-! ## Locks -/

theorem holds_erase (u : TxnId) (name : String) (ticket : Ticket) (other : ticket ≠ ⟨name, u⟩)
    (holds : s.holds u name = true) :
    Store.holds { s with line := s.line.erase ticket } u name = true := by
  rw [holds_iff] at holds ⊢
  rw [List.find?_eq_some_iff_append] at holds
  obtain ⟨matched, before, after, split, earlier⟩ := holds
  have behind : (⟨name, u⟩ :: after).erase ticket = ⟨name, u⟩ :: after.erase ticket := by
    rw [List.erase_cons_tail]
    simpa using fun same => other same.symm
  rw [List.find?_eq_some_iff_append]
  by_cases front : ticket ∈ before
  · refine ⟨matched, before.erase ticket, after, ?_, ?_⟩
    · simp only [split, List.erase_append_left _ front]
    · intro ticket' member
      exact earlier ticket' (List.mem_of_mem_erase member)
  · refine ⟨matched, before, after.erase ticket, ?_, earlier⟩
    simp only [split, List.erase_append_right _ front, behind]

/-- A lock is lost only by ending the transaction that holds it. -/
theorem Change.keeps_lock (change : s.Change t s') (u : TxnId) (name : String)
    (stays : u ≠ t ∨ s'.isLive u = true) (holds : s.holds u name = true) :
    s'.holds u name = true := by
  have closing : (s.close t).isLive u = true ∨ u ≠ t → (s.close t).holds u name = true := by
    intro stays
    refine holds_close s t u name ?_ holds
    rcases stays with live | apart
    · rw [isLive_close] at live
      simp only [Bool.and_eq_true, decide_eq_true_eq] at live
      exact live.1
    · exact apart
  cases change with
  | kept => exact holds
  | opened fresh => exact holds
  | queued joined row live found absent => exact holds_append s u name _ holds
  | left given waiting =>
      refine holds_erase u name _ ?_ holds
      rintro same
      obtain ⟨rfl, rfl⟩ := Ticket.mk.inj same
      rw [holds] at waiting
      cases waiting
  | drawn user drawn row live found unclaimed unstaged => exact holds
  | took taken row live found held stock => exact holds
  | closed => exact closing stays.symm
  | lost injected => exact closing stays.symm
  | committed due allowed => exact closing stays.symm

/-- The tickets of another transaction stay in the line, and none are added to them. -/
theorem Change.ticket_of_ne (change : s.Change t s') (u : TxnId) (apart : u ≠ t) (name : String) :
    ⟨name, u⟩ ∈ s'.line ↔ ⟨name, u⟩ ∈ s.line := by
  have other : ∀ given, (⟨name, u⟩ : Ticket) ≠ ⟨given, t⟩ := by
    intro given same
    exact apart (Ticket.mk.inj same).2
  cases change with
  | queued joined row live found absent => simp [apart]
  | left given waiting => exact List.mem_erase_of_ne (other given)
  | closed => simp [ticket_close, apart]
  | lost injected =>
      change ⟨name, u⟩ ∈ (s.close t).line ↔ _
      simp [ticket_close, apart]
  | committed due allowed =>
      change ⟨name, u⟩ ∈ (s.close t).line ↔ _
      simp [ticket_close, apart]
  | _ => exact Iff.rfl

/-! ## Writes -/

theorem Change.isLive_of_ne (change : s.Change t s') (u : TxnId) (apart : u ≠ t) :
    s'.isLive u = s.isLive u := by
  have closing : (s.close t).isLive u = s.isLive u := by
    rw [isLive_close]
    simp [apart]
  cases change with
  | opened fresh =>
      rw [isLive_begin]
      simp [apart]
  | drawn user name row live found unclaimed unstaged => exact isLive_putTxn s t u _
  | took name row live found holds stock => exact isLive_putTxn s t u _
  | closed => exact closing
  | lost injected => exact closing
  | committed due allowed => exact closing
  | _ => rfl

theorem Change.txn_of_ne (change : s.Change t s') (u : TxnId) (apart : u ≠ t) :
    s'.txn u = s.txn u := by
  cases change with
  | opened fresh => exact txn_begin s t u
  | drawn user name row live found unclaimed unstaged => exact txn_putTxn_of_ne s t u _ apart
  | took name row live found holds stock => exact txn_putTxn_of_ne s t u _ apart
  | closed => exact txn_close_of_ne s t u apart
  | lost injected => exact txn_close_of_ne s t u apart
  | committed due allowed => exact txn_close_of_ne s t u apart
  | _ => rfl

theorem txn_draw (t : TxnId) (user name : String) (live : s.isLive t = true) :
    (s.draw t user name).txn t =
      { s.txn t with staged := (s.txn t).staged ++ [⟨s.lastId + 1, user, name⟩] } :=
  txn_putTxn_self s t _ live

theorem txn_take (t : TxnId) (name : String) (live : s.isLive t = true) :
    (s.take t name).txn t = { s.txn t with taken := name :: (s.txn t).taken } :=
  txn_putTxn_self s t _ live

/-! ## Closing and the elementary updates -/

variable {u : TxnId}

theorem close_close (s : Store) (t u : TxnId) : (s.close u).close t = (s.close t).close u := by
  simp only [close, List.filter_filter, Bool.and_comm]

theorem close_self (s : Store) (t : TxnId) : (s.close t).close t = s.close t := by
  simp only [close, List.filter_filter, Bool.and_self]

theorem close_begin (apart : u ≠ t) : (s.begin u).close t = (s.close t).begin u := by
  simp [close, begin, apart]

theorem close_begin_self (s : Store) (t : TxnId) : (s.begin t).close t = s.close t := by
  simp [close, begin]

theorem close_putTxn (s : Store) (t u : TxnId) (writes : Txn) :
    (s.putTxn u writes).close t = (s.close t).putTxn u writes := by
  have live : (s.live.map fun entry => if entry.1 = u then (u, writes) else entry).filter
      (·.1 ≠ t) = (s.live.filter (·.1 ≠ t)).map fun entry =>
        if entry.1 = u then (u, writes) else entry := by
    rw [List.filter_map]
    refine congrArg _ (List.filter_congr ?_)
    rintro ⟨v, old⟩ -
    by_cases same : v = u <;> simp [same]
  simp only [close, putTxn, live]

theorem close_putTxn_self (s : Store) (t : TxnId) (writes : Txn) :
    (s.putTxn t writes).close t = s.close t := by
  have gone : (s.close t).live.map (fun entry => if entry.1 = t then (t, writes) else entry) =
      (s.close t).live := by
    refine (List.map_congr_left ?_).trans (List.map_id _)
    intro entry member
    exact if_neg (by simpa using (List.mem_filter.mp member).2)
  rw [close_putTxn, putTxn, gone]

theorem close_draw (apart : u ≠ t) (user name : String) :
    (s.draw u user name).close t = (s.close t).draw u user name := by
  unfold draw
  rw [txn_close_of_ne s t u apart]
  exact congrArg (fun store : Store => { store with lastId := s.lastId + 1 })
    (close_putTxn s t u _)

theorem close_draw_self (s : Store) (t : TxnId) (user name : String) :
    (s.draw t user name).close t = { s.close t with lastId := s.lastId + 1 } :=
  congrArg (fun store : Store => { store with lastId := s.lastId + 1 })
    (close_putTxn_self s t _)

theorem close_take_self (s : Store) (t : TxnId) (name : String) :
    (s.take t name).close t = s.close t := close_putTxn_self s t _

theorem close_take (apart : u ≠ t) (name : String) :
    (s.take u name).close t = (s.close t).take u name := by
  unfold take
  rw [close_putTxn, txn_close_of_ne s t u apart]

theorem close_join (apart : u ≠ t) (name : String) :
    (s.join u name).close t = (s.close t).join u name := by
  have member : ⟨name, u⟩ ∈ (s.close t).line ↔ ⟨name, u⟩ ∈ s.line := by
    simp [ticket_close, apart]
  unfold join
  by_cases present : ⟨name, u⟩ ∈ s.line
  · rw [if_pos present, if_pos (member.mpr present)]
  · rw [if_neg present, if_neg (mt member.mp present)]
    simp [close, apart]

theorem close_join_self (s : Store) (t : TxnId) (name : String) :
    (s.join t name).close t = s.close t := by
  unfold join
  split
  · rfl
  · simp [close]

end CouponDesk.Memory.Store
