import CouponDesk.Memory.Store

/-!
# Lookups after an update

What the lookups of a store (a coupon's row, the holder of a lock, the writes of a transaction)
give after each of the elementary updates that the operations are made of.  Later proofs speak of
a store through these lookups only.
-/

set_option autoImplicit false

namespace CouponDesk.Memory.Store

/-! ## Rows -/

theorem coupon?_some (s : Store) (name : String) (row : Coupon)
    (found : s.coupon? name = some row) : row ∈ s.coupons ∧ row.name = name := by
  refine ⟨List.mem_of_find?_eq_some found, ?_⟩
  have matched := List.find?_some found
  simpa using matched

theorem coupon?_isSome_of_mem (s : Store) (row : Coupon) (member : row ∈ s.coupons) :
    (s.coupon? row.name).isSome := by
  unfold coupon?
  rw [List.find?_isSome]
  exact ⟨row, member, by simp⟩

theorem coupon?_apply (s : Store) (writes : Txn) (name : String) :
    (s.apply writes).coupon? name =
      (s.coupon? name).map fun row =>
        { row with remaining := row.remaining - writes.taken.count name } := by
  unfold coupon? apply
  rw [List.find?_map]
  cases found : s.coupons.find? (·.name = name) with
  | none => simpa [Function.comp_def] using found
  | some row =>
      have named : row.name = name := by simpa using List.find?_some found
      have same : s.coupons.find? ((fun row : Coupon => decide (row.name = name)) ∘
          fun row => { row with remaining := row.remaining - writes.taken.count row.name }) =
          some row := found
      rw [same]
      simp [named]

theorem coupon?_append (s : Store) (row : Coupon) (name : String) :
    coupon? { s with coupons := s.coupons ++ [row] } name =
      (s.coupon? name).or (if row.name = name then some row else none) := by
  simp only [coupon?, List.find?_append]
  congr 1
  by_cases named : row.name = name <;> simp [named]

/-! ## Locks -/

theorem holds_iff (s : Store) (t : TxnId) (name : String) :
    s.holds t name = true ↔ s.line.find? (·.coupon = name) = some ⟨name, t⟩ := by
  unfold holds holder?
  rw [decide_eq_true_iff, Option.map_eq_some_iff]
  constructor
  · rintro ⟨ticket, found, rfl⟩
    have named : ticket.coupon = name := by simpa using List.find?_some found
    rw [found, ← named]
  · intro found
    exact ⟨_, found, rfl⟩

theorem ticket_of_holds (s : Store) (t : TxnId) (name : String) (holds : s.holds t name = true) :
    ⟨name, t⟩ ∈ s.line :=
  List.mem_of_find?_eq_some ((holds_iff s t name).mp holds)

/-- A lock has one holder. -/
theorem holder_unique (s : Store) (t u : TxnId) (name : String) (first : s.holds t name = true)
    (second : s.holds u name = true) : t = u := by
  rw [holds_iff] at first second
  rw [first] at second
  exact (Ticket.mk.inj (Option.some.inj second)).2

/-- Who holds a lock keeps it while others join the line behind. -/
theorem holds_append (s : Store) (t : TxnId) (name : String) (ticket : Ticket)
    (holds : s.holds t name = true) :
    Store.holds { s with line := s.line ++ [ticket] } t name = true := by
  rw [holds_iff] at holds ⊢
  simp only [List.find?_append, holds, Option.some_or]

/-- Who holds a lock keeps it while tickets other than its own are taken out of the line. -/
theorem holds_filter (s : Store) (t : TxnId) (name : String) (stays : Ticket → Bool)
    (own : stays ⟨name, t⟩ = true) (holds : s.holds t name = true) :
    Store.holds { s with line := s.line.filter stays } t name = true := by
  rw [holds_iff] at holds ⊢
  rw [List.find?_eq_some_iff_append] at holds
  obtain ⟨matched, before, after, split, earlier⟩ := holds
  rw [List.find?_eq_some_iff_append]
  refine ⟨matched, before.filter stays, after.filter stays, ?_, ?_⟩
  · simp only [split, List.filter_append, List.filter_cons_of_pos own]
  · intro ticket member
    exact earlier ticket (List.mem_filter.mp member).1

/-! ## Transactions -/

theorem lookup_filter_ne {β : Type} (t u : TxnId) (entries : List (TxnId × β)) :
    (entries.filter (·.1 ≠ t)).lookup u = if u = t then none else entries.lookup u := by
  induction entries with
  | nil => simp
  | cons entry rest ih =>
      obtain ⟨key, value⟩ := entry
      by_cases removed : key = t
      · subst removed
        have dropped : ((key, value) :: rest).filter (·.1 ≠ key) = rest.filter (·.1 ≠ key) := by
          simp
        rw [dropped, ih]
        by_cases same : u = key
        · simp [same]
        · have apart : (u == key) = false := by simpa using same
          simp [same, List.lookup_cons, apart]
      · have kept : ((key, value) :: rest).filter (·.1 ≠ t) =
            (key, value) :: rest.filter (·.1 ≠ t) := by simp [removed]
        rw [kept, List.lookup_cons, List.lookup_cons, ih]
        by_cases same : u = key
        · subst same
          simp [removed]
        · have apart : (u == key) = false := by simpa using same
          simp [apart]

theorem lookup_map_put (t u : TxnId) (writes : Txn) (entries : List (TxnId × Txn)) :
    (entries.map fun entry => if entry.1 = t then (t, writes) else entry).lookup u =
      if u = t then (entries.lookup u).map fun _ => writes else entries.lookup u := by
  induction entries with
  | nil => simp
  | cons entry rest ih =>
      obtain ⟨key, value⟩ := entry
      rw [List.map_cons]
      by_cases replaced : key = t
      · subst replaced
        rw [if_pos rfl, List.lookup_cons, List.lookup_cons, ih]
        by_cases same : u = key
        · simp [same]
        · have apart : (u == key) = false := by simpa using same
          simp [same, apart]
      · rw [if_neg replaced, List.lookup_cons, List.lookup_cons, ih]
        by_cases same : u = key
        · subst same
          simp [replaced]
        · have apart : (u == key) = false := by simpa using same
          simp [apart]

theorem txn_of_not_live (s : Store) (t : TxnId) (dead : s.isLive t = false) : s.txn t = {} := by
  unfold isLive at dead
  unfold txn
  rw [Option.isSome_eq_false_iff, Option.isNone_iff_eq_none] at dead
  rw [dead]
  rfl

theorem isLive_begin (s : Store) (t u : TxnId) :
    (s.begin t).isLive u = (decide (u = t) || s.isLive u) := by
  unfold isLive begin
  rw [List.lookup_append, Option.isSome_or]
  by_cases same : u = t
  · simp [same]
  · have apart : (u == t) = false := by simpa using same
    simp [same, List.lookup_cons, apart]

theorem txn_begin (s : Store) (t u : TxnId) : (s.begin t).txn u = s.txn u := by
  unfold txn begin
  rw [List.lookup_append]
  cases s.live.lookup u with
  | some writes => simp
  | none =>
      by_cases same : u = t
      · simp [same]
      · have apart : (u == t) = false := by simpa using same
        simp [List.lookup_cons, apart]

theorem isLive_putTxn (s : Store) (t u : TxnId) (writes : Txn) :
    (s.putTxn t writes).isLive u = s.isLive u := by
  unfold isLive putTxn
  rw [lookup_map_put]
  by_cases same : u = t <;> simp [same]

theorem txn_putTxn_self (s : Store) (t : TxnId) (writes : Txn) (live : s.isLive t = true) :
    (s.putTxn t writes).txn t = writes := by
  unfold isLive at live
  unfold txn putTxn
  obtain ⟨old, found⟩ := Option.isSome_iff_exists.mp live
  rw [lookup_map_put, if_pos rfl, found]
  rfl

theorem txn_putTxn_of_ne (s : Store) (t u : TxnId) (writes : Txn) (apart : u ≠ t) :
    (s.putTxn t writes).txn u = s.txn u := by
  unfold txn putTxn
  rw [lookup_map_put, if_neg apart]

theorem isLive_close (s : Store) (t u : TxnId) :
    (s.close t).isLive u = (decide (u ≠ t) && s.isLive u) := by
  unfold isLive close
  rw [lookup_filter_ne]
  by_cases same : u = t <;> simp [same]

theorem txn_close_self (s : Store) (t : TxnId) : (s.close t).txn t = {} := by
  apply txn_of_not_live
  rw [isLive_close]
  simp

theorem txn_close_of_ne (s : Store) (t u : TxnId) (apart : u ≠ t) :
    (s.close t).txn u = s.txn u := by
  unfold txn close
  rw [lookup_filter_ne, if_neg apart]

theorem ticket_close (s : Store) (t u : TxnId) (name : String) :
    ⟨name, u⟩ ∈ (s.close t).line ↔ ⟨name, u⟩ ∈ s.line ∧ u ≠ t := by
  simp [close]

theorem holds_close (s : Store) (t u : TxnId) (name : String) (apart : u ≠ t)
    (holds : s.holds u name = true) : (s.close t).holds u name = true :=
  holds_filter s u name (·.txn ≠ t) (by simpa using apart) holds

end CouponDesk.Memory.Store
