import CouponDesk.Proofs.Memory.Answers

/-!
# The hard constraints

What no use of the store can break, said of its lists as they stand: the rows, the committed and
staged claims, their keys and ids, and the units that live transactions have taken.  As long as
coupons are created with signed 64-bit amounts, every number that is then computed from them is one
as well.
-/

set_option autoImplicit false

namespace CouponDesk.Memory

namespace Store

def allClaims (s : Store) : List Claim := s.claims ++ s.live.flatMap (·.2.staged)

structure Constrained (s : Store) : Prop where
  names : (s.coupons.map (·.name)).Nodup
  stock : ∀ row ∈ s.coupons, 0 < row.total ∧ 0 ≤ row.remaining ∧ row.remaining ≤ row.total
  once : (s.claims.map Claim.key).Nodup
  index : ∀ key, key ∈ s.keys ↔ key ∈ s.claims.map Claim.key
  named : ∀ claim ∈ s.allClaims, (s.coupon? claim.coupon).isSome
  ids : (s.allClaims.map (·.id)).Nodup
  idBound : ∀ claim ∈ s.allClaims, 0 < claim.id ∧ claim.id ≤ s.lastId
  /-- The units of a coupon that a live transaction has taken; of a missing coupon none. -/
  taken : ∀ entry ∈ s.live, ∀ name, (entry.2.taken.count name : Int) ≤ s.stock name

/-- What is computed from the amounts, wherever a transaction stands. -/
structure Fits (s : Store) : Prop where
  claimed : ∀ row ∈ s.coupons, FitsAmount row.claimed
  /-- The committed row less the units taken: what a locked lookup reads, what a decrement checks,
  and what a commit checks and writes. -/
  seen : ∀ t, ∀ row ∈ s.coupons, FitsAmount (s.view t row).remaining
  decremented : ∀ t name row, (s.decrement t name).1 = .ok row → FitsAmount row.remaining
  counted : ∀ t name, FitsAmount (((s.decrement t name).2.txn t).taken.count name : Int)
  committed : ∀ t, ∀ row ∈ (s.commit t).2.coupons, FitsAmount row.remaining

/-! ## Live transactions are listed once -/

variable {s s' : Store} {t : TxnId}

theorem Change.nodup_live (change : s.Change t s') (once : (s.live.map Prod.fst).Nodup) :
    (s'.live.map Prod.fst).Nodup := by
  have put : ∀ writes, ((s.putTxn t writes).live.map Prod.fst) = s.live.map Prod.fst := by
    intro writes
    unfold putTxn
    rw [List.map_map]
    apply List.map_congr_left
    intro entry member
    by_cases own : entry.1 = t <;> simp [own]
  have closed : ((s.close t).live.map Prod.fst).Nodup :=
    once.sublist (List.filter_sublist.map Prod.fst)
  cases change with
  | opened fresh =>
      simp only [begin, List.map_append, List.nodup_append, List.map_singleton]
      refine ⟨once, by simp, ?_⟩
      rintro u member _ new rfl
      rw [List.mem_singleton.mp new] at member
      obtain ⟨entry, listed, own⟩ := List.mem_map.mp member
      have absent : s.live.lookup t = none := by simpa [isLive] using fresh
      rw [List.lookup_eq_none_iff] at absent
      have apart := absent entry listed
      simp [own] at apart
  | drawn user name row live found unclaimed unstaged =>
      change ((s.putTxn t _).live.map Prod.fst).Nodup
      rw [put]
      exact once
  | took name row live found holds stock =>
      unfold take
      rw [put]
      exact once
  | closed => exact closed
  | lost injected => exact closed
  | committed due allowed => exact closed
  | _ => exact once

theorem txn_of_mem (once : (s.live.map Prod.fst).Nodup) (entry : TxnId × Txn)
    (member : entry ∈ s.live) : s.txn entry.1 = entry.2 := by
  obtain ⟨u, writes⟩ := entry
  have found : s.live.lookup u = some writes := by
    generalize s.live = entries at once member
    induction entries with
    | nil => cases member
    | cons head rest ih =>
        obtain ⟨key, value⟩ := head
        rw [List.map_cons, List.nodup_cons] at once
        rcases List.mem_cons.mp member with same | later
        · simp [← same]
        · have apart : (u == key) = false := by
            rw [beq_eq_false_iff_ne]
            rintro rfl
            exact once.1 (List.mem_map.mpr ⟨_, later, rfl⟩)
          rw [List.lookup_cons, apart]
          exact ih once.2 later
  simp [txn, found]

/-! ## The constraints of a sound store -/

theorem Sound.taken_le_stock (sound : s.Sound) (t : TxnId) (name : String) :
    ((s.txn t).taken.count name : Int) ≤ s.stock name := by
  unfold stock
  cases found : s.coupon? name with
  | some row => exact sound.locks.enough t name row found
  | none =>
      have untaken : (s.txn t).taken.count name = 0 := by
        rw [List.count_eq_zero]
        intro member
        have named := sound.locks.named _
          (ticket_of_holds s t name (sound.locks.taken t name member))
        rw [found] at named
        cases named
      simp [untaken]

theorem Sound.nodup_ids (sound : s.Sound) (once : (s.live.map Prod.fst).Nodup) :
    (s.allClaims.map (·.id)).Nodup := by
  unfold allClaims
  rw [List.map_append, List.nodup_append]
  refine ⟨sound.ids.once, ?_, ?_⟩
  · -- The lists of two transactions are apart, and within one list no id stands twice.
    rw [List.map_flatMap, List.nodup_flatMap]
    constructor
    · intro entry member
      rw [← txn_of_mem once entry member]
      exact sound.ids.stagedOnce entry.1
    · have distinct : s.live.Pairwise fun a b => a.1 ≠ b.1 := List.pairwise_map.mp once
      refine distinct.imp_of_mem ?_
      intro a b memberA memberB apart id inA inB
      obtain ⟨claim, staged, rfl⟩ := List.mem_map.mp inA
      obtain ⟨other, otherStaged, same⟩ := List.mem_map.mp inB
      rw [← txn_of_mem once a memberA] at staged
      rw [← txn_of_mem once b memberB] at otherStaged
      exact sound.ids.stagedApart a.1 b.1 apart claim staged other otherStaged same.symm
  · rintro id old other new rfl
    obtain ⟨claim, member, rfl⟩ := List.mem_map.mp old
    obtain ⟨staged, listed, same⟩ := List.mem_map.mp new
    obtain ⟨entry, live, inEntry⟩ := List.mem_flatMap.mp listed
    rw [← txn_of_mem once entry live] at inEntry
    exact sound.ids.apart entry.1 staged inEntry claim member same

theorem Sound.constrained (sound : s.Sound) (once : (s.live.map Prod.fst).Nodup) :
    s.Constrained where
  names := sound.rows.names
  stock := sound.rows.stock
  once := by
    rw [← sound.keys.index]
    exact sound.keys.once
  index := by
    intro key
    rw [sound.keys.index]
  named := by
    intro claim member
    rcases List.mem_append.mp member with committed | staged
    · exact sound.keys.named claim committed
    · obtain ⟨entry, live, inEntry⟩ := List.mem_flatMap.mp staged
      rw [← txn_of_mem once entry live] at inEntry
      exact sound.keys.stagedNamed entry.1 claim inEntry
  ids := sound.nodup_ids once
  idBound := by
    intro claim member
    rcases List.mem_append.mp member with committed | staged
    · exact sound.ids.bound claim committed
    · obtain ⟨entry, live, inEntry⟩ := List.mem_flatMap.mp staged
      rw [← txn_of_mem once entry live] at inEntry
      exact sound.ids.stagedBound entry.1 claim inEntry
  taken := by
    intro entry live name
    rw [← txn_of_mem once entry live]
    exact sound.taken_le_stock entry.1 name

/-! ## Amounts -/

def FitTotals (s : Store) : Prop := ∀ row ∈ s.coupons, FitsAmount row.total

theorem Change.fitTotals (change : s.Change t s') (fit : s.FitTotals) : s'.FitTotals := by
  intro row member
  rcases change.tables with ⟨coupons, -, -⟩ | ⟨-, -, rfl⟩
  · rw [coupons] at member
    exact fit row member
  · obtain ⟨old, oldMember, rfl⟩ := List.mem_map.mp member
    exact fit old oldMember

theorem create_fitTotals (name : String) (amount : Int) (fits : FitsAmount amount)
    (fit : s.FitTotals) : (s.create name amount).2.FitTotals := by
  rcases create_cases s name amount with kept | ⟨-, -, added⟩
  · rw [kept]
    exact fit
  · rw [added]
    intro row member
    rcases List.mem_append.mp member with old | new
    · exact fit row old
    · rw [List.mem_singleton.mp new]
      exact fits

theorem FitTotals.between (fit : s.FitTotals) (row : Coupon) (member : row ∈ s.coupons) (n : Int)
    (least : 0 ≤ n) (most : n ≤ row.total) : FitsAmount n := by
  have total := fit row member
  unfold FitsAmount at total ⊢
  omega

theorem FitTotals.remaining (fit : s.FitTotals) (sound : s.Sound) (row : Coupon)
    (member : row ∈ s.coupons) : FitsAmount row.remaining := by
  have stock := sound.rows.stock row member
  exact fit.between row member row.remaining (by omega) (by omega)

/-- The number of units that a transaction has taken lies below the total of their coupon. -/
theorem FitTotals.taken (fit : s.FitTotals) (sound : s.Sound) (t : TxnId) (name : String) :
    FitsAmount ((s.txn t).taken.count name : Int) := by
  have enough := sound.taken_le_stock t name
  unfold stock at enough
  cases found : s.coupon? name with
  | none =>
      rw [found] at enough
      dsimp only at enough
      unfold FitsAmount
      omega
  | some row =>
      rw [found] at enough
      dsimp only at enough
      obtain ⟨member, -⟩ := coupon?_some s name row found
      have stock := sound.rows.stock row member
      exact fit.between row member _ (by omega) (by omega)

theorem live_of_holds (sound : s.Sound) (t : TxnId) (name : String) (holds : s.holds t name = true) :
    s.isLive t = true :=
  sound.locks.live _ (ticket_of_holds s t name holds)

/-- A decrement is a change also of a transaction that is not live: then it is refused. -/
theorem Sound.decrement_change (sound : s.Sound) (t : TxnId) (name : String) :
    s.Change t (s.decrement t name).2 := by
  cases live : s.isLive t with
  | true => exact Store.decrement_change s t name live
  | false =>
      have unheld : ¬ s.holds t name = true := by
        intro holds
        rw [live_of_holds sound t name holds] at live
        cases live
      unfold decrement
      rw [if_pos unheld]
      exact .kept

theorem decrement_ok (t : TxnId) (name : String) (row : Coupon)
    (taken : (s.decrement t name).1 = .ok row) :
    ∃ old, s.coupon? name = some old ∧ 0 < (s.view t old).remaining ∧
      row.remaining = (s.view t old).remaining - 1 := by
  unfold decrement at taken
  split at taken
  · cases taken
  · cases found : s.coupon? name with
    | none =>
        rw [found] at taken
        cases taken
    | some old =>
        rw [found] at taken
        dsimp only at taken
        split at taken
        · cases taken
        · rename_i left
          cases taken
          exact ⟨old, rfl, by omega, rfl⟩

theorem Sound.fits (sound : s.Sound) (fit : s.FitTotals) : s.Fits where
  claimed := by
    intro row member
    have stock := sound.rows.stock row member
    exact fit.between row member row.claimed (by unfold Coupon.claimed; omega)
      (by unfold Coupon.claimed; omega)
  seen := by
    intro t row member
    have stock := sound.rows.stock row member
    have enough := sound.locks.taken_le t sound.rows row member
    exact fit.between row member _ (by unfold view; dsimp only; omega)
      (by unfold view; dsimp only; omega)
  decremented := by
    intro t name row taken
    obtain ⟨old, found, left, remaining⟩ := decrement_ok t name row taken
    obtain ⟨member, -⟩ := coupon?_some s name old found
    have stock := sound.rows.stock old member
    have below : (s.view t old).remaining ≤ old.remaining := by
      unfold view
      dsimp only
      omega
    exact fit.between old member row.remaining (by omega) (by omega)
  counted := by
    intro t name
    have change := sound.decrement_change t name
    exact (change.fitTotals fit).taken (change.sound sound) t name
  committed := by
    intro t row member
    have change := s.commit_change t
    exact (change.fitTotals fit).remaining (change.sound sound) row member

end Store

def Action.Fits : Action → Prop
  | .create _ amount => FitsAmount amount
  | _ => True

instance (action : Action) : Decidable action.Fits := by
  cases action <;> unfold Action.Fits <;> infer_instance

namespace System

variable {s s' : System}

theorem Does.nodup_live {action : Action} (does : s.Does action s') (sound : s.Sound)
    (once : (s.store.live.map Prod.fst).Nodup) : (s'.store.live.map Prod.fst).Nodup := by
  rcases does.store sound with ⟨t, change⟩ | ⟨name, amount, -, created⟩ | ⟨count, set⟩
  · exact change.nodup_live once
  · rw [created]
    rcases Store.create_cases s.store name amount with kept | ⟨-, -, added⟩
    · rw [kept]
      exact once
    · rw [added]
      exact once
  · rw [set]
    exact once

theorem Does.fitTotals {action : Action} (does : s.Does action s') (sound : s.Sound)
    (fits : action.Fits) (fit : s.store.FitTotals) : s'.store.FitTotals := by
  rcases does.store sound with ⟨t, change⟩ | ⟨name, amount, rfl, created⟩ | ⟨count, set⟩
  · exact change.fitTotals fit
  · rw [created]
    exact Store.create_fitTotals name amount fits fit
  · rw [set]
    exact fit

/-- However transactions are driven by hand and calls are made beside them, in any order, with
locks or without, no hard constraint is ever broken; and where all coupons are created with signed
64-bit amounts, no amount computed from them leaves that range. -/
theorem run_constrained (actions : List Action) (runs : run actions {} = some s) :
    s.store.Constrained ∧ ((∀ action ∈ actions, action.Fits) → s.store.Fits) := by
  have listed : s.Sound ∧ (s.store.live.map Prod.fst).Nodup := by
    refine run_keeps (fun s => s.Sound ∧ (s.store.live.map Prod.fst).Nodup) (fun _ => True) ?_
      actions (fun _ _ => trivial) runs ⟨sound_empty, List.nodup_nil⟩
    rintro s s' action - does ⟨sound, once⟩
    exact ⟨does.sound sound, does.nodup_live sound once⟩
  refine ⟨listed.1.store.constrained listed.2, fun fits => ?_⟩
  have bounded : s.Sound ∧ s.store.FitTotals := by
    refine run_keeps (fun s => s.Sound ∧ s.store.FitTotals) Action.Fits ?_ actions fits runs
      ⟨sound_empty, by simp [Store.FitTotals]⟩
    rintro s s' action fits does ⟨sound, fit⟩
    exact ⟨does.sound sound, does.fitTotals sound fits fit⟩
  exact bounded.1.store.fits bounded.2

/-- Misuse by hand beside a call: units are taken without the lock, claims are staged without it and
twice, and the second of two commits of one pair comes too late. -/
def misuse : List Action :=
  [.create "SOLO" 9223372036854775807, .begin 0, .begin 1, .decrement 0 "SOLO",
    .insert 0 "first" "SOLO", .insert 0 "first" "SOLO", .insert 1 "first" "SOLO",
    .start "second" "SOLO" .zero 1, .advance 0, .lock 1 "SOLO", .advance 0, .decrement 1 "SOLO",
    .decrement 1 "SOLO", .commit 0, .commit 1, .advance 0, .advance 0, .advance 0]

theorem run_constrained_misuse :
    ∃ s, run misuse {} = some s ∧ (∀ action ∈ misuse, action.Fits) ∧ s.store.Constrained ∧
      s.store.Fits ∧ s.store.claims = [⟨1, "first", "SOLO"⟩] ∧
      s.store.coupon? "SOLO" = some ⟨"SOLO", 9223372036854775807, 9223372036854775807⟩ ∧
      s.store.allClaims.map (·.id) = [1, 3] :=
  ⟨_, rfl, by decide, (run_constrained misuse rfl).1, (run_constrained misuse rfl).2 (by decide),
    rfl, rfl, rfl⟩

end System

end CouponDesk.Memory
