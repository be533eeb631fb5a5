import CouponDesk.Proofs.Memory.Alone

/-!
# What a transaction alone has staged

The answers that a hand-driven transaction gets when it is alone are read off the store that its
commit would leave behind, its `prospect`; and the commit leaves just that behind.
-/

set_option autoImplicit false

namespace CouponDesk.Memory

namespace Store

/-- The store as the commit of these writes would leave it. -/
def prospect (s : Store) (writes : Txn) : Store := s.deserted.apply writes

theorem coupon?_prospect (s : Store) (writes : Txn) (name : String) :
    (s.prospect writes).coupon? name = (s.coupon? name).map fun row =>
      { row with remaining := row.remaining - writes.taken.count name } :=
  coupon?_apply s.deserted writes name

theorem isSome_coupon?_prospect (s : Store) (writes : Txn) (name : String) :
    ((s.prospect writes).coupon? name).isSome = (s.coupon? name).isSome := by
  rw [coupon?_prospect, Option.isSome_map]

theorem apply_empty (s : Store) : s.apply {} = s := by
  simp [apply]

theorem Quiet.prospect {s : Store} (quiet : s.Quiet) (t : TxnId) :
    (s.begin t).prospect {} = s := by
  rw [Store.prospect, apply_empty]
  exact quiet.deserted

namespace Solo

variable {s : Store} {t : TxnId} {writes : Txn} (solo : s.Solo t writes)

include solo

theorem view (name : String) (row : Coupon) (found : s.coupon? name = some row) :
    s.view t row = { row with remaining := row.remaining - writes.taken.count name } := by
  rw [Store.view, solo.txn, (coupon?_some s name row found).2]

/-- A lock is granted at once, and nothing changes but the line; what was held is held on, and so is
the lock of a coupon that exists. -/
theorem lock_grants (name : String) :
    ∃ line, s.lock t name = (some ((s.prospect writes).get name), { s with line }) ∧
      Store.Solo { s with line } t writes ∧
      (∀ other, s.holds t other = true → Store.holds { s with line } t other = true) ∧
      ((s.coupon? name).isSome → Store.holds { s with line } t name = true) := by
  unfold get
  rw [coupon?_prospect]
  cases found : s.coupon? name with
  | none => exact ⟨s.line, lock_missing s t name found, solo, fun _ => id, by simp⟩
  | some row =>
      have joined : s.join t name = { s with line := (s.join t name).line } := by
        unfold Store.join
        split <;> rfl
      have member : ∀ ticket ∈ s.line, ticket ∈ (s.join t name).line := by
        intro ticket old
        unfold Store.join
        split
        · exact old
        · exact List.mem_append_left _ old
      refine ⟨(s.join t name).line, ?_, ?_, ?_, ?_⟩
      · rw [solo.lock name row found, solo.view name row found, ← joined]
        rfl
      · rw [← joined]
        exact solo.join name
      · intro other holds
        rw [← joined, (solo.join name).holds_iff]
        exact member _ ((solo.holds_iff other).mp holds)
      · rw [← joined]
        exact fun _ => solo.holds_join name

theorem insert_eq (user name : String) :
    s.insert t user name =
      if ((s.prospect writes).coupon? name).isNone then (.error (.couponNotFound name), s)
      else if (user, name) ∈ (s.prospect writes).keys then
        (.error (.alreadyClaimed user name), s)
      else (.ok ⟨s.lastId + 1, user, name⟩, s.draw t user name) := by
  have staged : (user, name) ∈ (s.prospect writes).keys ↔
      (user, name) ∈ s.keys ∨ (user, name) ∈ writes.staged.map Claim.key := List.mem_append
  cases found : s.coupon? name with
  | none =>
      rw [if_pos (show ((s.prospect writes).coupon? name).isNone = true by
        rw [coupon?_prospect, found]; rfl)]
      simp only [insert, found]
  | some row =>
      rw [if_neg (show ¬ ((s.prospect writes).coupon? name).isNone = true by
        rw [coupon?_prospect, found]; simp)]
      simp only [insert, found, solo.txn, Store.draw, staged]

/-- Under the lock a unit is taken unless the prospect has none left. -/
theorem decrement_eq (name : String) (holds : s.holds t name = true) :
    s.decrement t name =
      match (s.prospect writes).coupon? name with
      | none => (.error (.couponNotFound name), s)
      | some row =>
          if row.remaining ≤ 0 then (.error (.noStock name), s)
          else (.ok { row with remaining := row.remaining - 1 }, s.take t name) := by
  unfold decrement
  rw [if_neg (not_not.mpr holds), coupon?_prospect]
  cases found : s.coupon? name with
  | none => rfl
  | some row =>
      simp only [solo.view name row found]
      rfl

/-- A commit that breaks no constraint leaves the prospect behind. -/
theorem commit_eq (due : s.failing = 0)
    (stock : ∀ name ∈ writes.taken, ∃ row, (s.prospect writes).coupon? name = some row ∧
      0 ≤ row.remaining)
    (once : (s.prospect writes).keys.Nodup) : s.commit t = (.ok (), s.prospect writes) := by
  have enough : (s.close t).refusal? writes = none := by
    unfold refusal?
    split
    · rename_i name overdrawn
      obtain ⟨row, seen, left⟩ := stock name (List.mem_of_find?_eq_some overdrawn)
      rw [coupon?_prospect] at seen
      obtain ⟨old, found, rfl⟩ := Option.map_eq_some_iff.mp seen
      have known : (s.close t).coupon? name = some old := found
      have short := List.find?_some overdrawn
      simp only [known, decide_eq_true_eq] at short
      exact absurd left (Int.not_le.mpr short)
    · have apart : ∀ claim ∈ writes.staged, ¬ decide (claim.key ∈ (s.close t).keys) = true := by
        intro claim member old
        exact (List.nodup_append.mp once).2.2 _ (of_decide_eq_true old) _
          (List.mem_map_of_mem member) rfl
      rw [List.find?_eq_none.mpr apart]
  unfold commit
  simp only [solo.txn, enough]
  rw [if_neg (by simp [Store.close, due]), solo.close]
  rfl

end Solo

/-! ## What goes on between transactions -/

theorem verdict_failing (s : Store) (user name : String) (due : s.failing = 0) :
    (s.verdict user name).2.failing = 0 := by
  unfold verdict
  split
  · exact due
  · rw [if_neg (show ¬ 0 < s.failing by omega)]
    split_ifs <;> exact due

theorem isSome_coupon?_verdict (s : Store) (user name other : String) :
    ((s.verdict user name).2.coupon? other).isSome = (s.coupon? other).isSome := by
  unfold verdict
  split
  · rfl
  · split_ifs
    · rfl
    · rfl
    · rfl
    · dsimp only
      rw [coupon?_apply, Option.isSome_map]
      rfl

theorem isSome_coupon?_created (s : Store) (name : String) (amount : Int)
    (positive : ¬ amount ≤ 0) : ((s.create name amount).2.coupon? name).isSome := by
  cases found : s.coupon? name with
  | some row => rw [coupon?_create s name amount name row found]; rfl
  | none =>
      simp only [create, if_neg positive, found]
      rw [coupon?_append, found]
      simp [Coupon.fresh]

/-- The catalogue looks at the amount first, and so does the store. -/
theorem createChecked_eq (s : Store) (name : String) (amount : Int) :
    s.createChecked name amount = s.create name amount := by
  unfold createChecked Catalog.create
  by_cases refused : amount ≤ 0
  · rw [if_pos refused, create, if_pos refused]
    rfl
  · rw [if_neg refused]

theorem details_eq (s : Store) (name : String) :
    s.details name =
      match s.coupon? name with
      | none => .error (.couponNotFound name)
      | some row => .ok (.of row (s.claimants name)) := by
  unfold details Catalog.details
  dsimp only [get]
  cases s.coupon? name <;> rfl

end Store

/-- A hand-driven transaction acts on the store, and nothing else happens. -/
theorem System.transact_eq {α : Type} (s : System) (f : Store → α × Store)
    (manual : ∀ ticket ∈ (f s.store).2.line, ∃ number, ticket.txn = .manual number) :
    s.transact f = ((f s.store).1, { s with store := (f s.store).2 }) := by
  unfold transact
  exact congrArg (Prod.mk _) (settle_of_manual manual)

theorem System.lock_eq (s : System) (number patience : Nat) (name : String)
    (reply : Except Error Coupon) (store : Store)
    (granted : s.store.lock (.manual number) name = (some reply, store)) :
    s.lock number name patience = (some reply, { s with store }) := by
  simp only [lock, granted]

end CouponDesk.Memory
