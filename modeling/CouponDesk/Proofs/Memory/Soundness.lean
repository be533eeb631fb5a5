import CouponDesk.Proofs.Memory.Frame
import Mathlib.Data.List.Nodup

/-!
# What holds of every store

Four groups of facts that no use of the transactions can break, however they are driven: about
the rows, the locks, the keys and the ids.  Each group is kept by every change of a transaction
and by the creation of a coupon.
-/

set_option autoImplicit false

namespace CouponDesk.Memory.Store

structure SoundRows (s : Store) : Prop where
  names : (s.coupons.map (·.name)).Nodup
  stock : ∀ row ∈ s.coupons, 0 < row.total ∧ 0 ≤ row.remaining ∧ row.remaining ≤ row.total

/-- Tickets belong to live transactions, and units are taken under the lock and from the stock. -/
structure SoundLocks (s : Store) : Prop where
  line : s.line.Nodup
  live : ∀ ticket ∈ s.line, s.isLive ticket.txn = true
  named : ∀ ticket ∈ s.line, (s.coupon? ticket.coupon).isSome
  taken : ∀ t, ∀ name ∈ (s.txn t).taken, s.holds t name = true
  enough : ∀ t name row, s.coupon? name = some row →
    ((s.txn t).taken.count name : Int) ≤ row.remaining

structure SoundKeys (s : Store) : Prop where
  index : s.keys = s.claims.map Claim.key
  once : s.keys.Nodup
  named : ∀ claim ∈ s.claims, (s.coupon? claim.coupon).isSome
  stagedOnce : ∀ t, ((s.txn t).staged.map Claim.key).Nodup
  stagedNamed : ∀ t, ∀ claim ∈ (s.txn t).staged, (s.coupon? claim.coupon).isSome

structure SoundIds (s : Store) : Prop where
  bound : ∀ claim ∈ s.claims, 0 < claim.id ∧ claim.id ≤ s.lastId
  stagedBound : ∀ t, ∀ claim ∈ (s.txn t).staged, 0 < claim.id ∧ claim.id ≤ s.lastId
  once : (s.claims.map (·.id)).Nodup
  stagedOnce : ∀ t, ((s.txn t).staged.map (·.id)).Nodup
  apart : ∀ t, ∀ claim ∈ (s.txn t).staged, ∀ old ∈ s.claims, claim.id ≠ old.id
  stagedApart : ∀ t u, t ≠ u → ∀ claim ∈ (s.txn t).staged, ∀ other ∈ (s.txn u).staged,
    claim.id ≠ other.id

structure Sound (s : Store) : Prop where
  rows : s.SoundRows
  locks : s.SoundLocks
  keys : s.SoundKeys
  ids : s.SoundIds

/-! ## The empty store -/

theorem txn_empty (t : TxnId) : Store.txn {} t = {} := rfl

theorem sound_empty : Sound {} where
  rows := ⟨List.nodup_nil, by simp⟩
  locks := ⟨List.nodup_nil, by simp, by simp, by simp [txn_empty],
    fun t name row found => by simp [coupon?] at found⟩
  keys := ⟨rfl, List.nodup_nil, by simp, by simp [txn_empty], by simp [txn_empty]⟩
  ids := ⟨by simp, by simp [txn_empty], List.nodup_nil, by simp [txn_empty], by simp [txn_empty],
    by simp [txn_empty]⟩

/-! ## Changes by a transaction -/

variable {s s' : Store} {t : TxnId}

theorem Sound.row (sound : s.Sound) (name : String) (row : Coupon)
    (found : s.coupon? name = some row) :
    row.name = name ∧ 0 < row.total ∧ 0 ≤ row.remaining ∧ row.remaining ≤ row.total := by
  obtain ⟨member, named⟩ := coupon?_some s name row found
  exact ⟨named, sound.rows.stock row member⟩

/-- The units that a transaction has taken fit into the stock, also at a coupon's own name. -/
theorem SoundLocks.taken_le (locks : s.SoundLocks) (t : TxnId) (rows : s.SoundRows) (row : Coupon)
    (member : row ∈ s.coupons) : ((s.txn t).taken.count row.name : Int) ≤ row.remaining := by
  obtain ⟨first, found⟩ := Option.isSome_iff_exists.mp (coupon?_isSome_of_mem s row member)
  obtain ⟨firstMember, firstName⟩ := coupon?_some s row.name first found
  have same : first = row := List.inj_on_of_nodup_map rows.names firstMember member firstName
  subst same
  exact locks.enough t first.name first found

theorem Change.sound_rows (change : s.Change t s') (sound : s.Sound) : s'.SoundRows := by
  rcases change.tables with ⟨coupons, -, -⟩ | ⟨-, -, rfl⟩
  · exact ⟨by rw [coupons]; exact sound.rows.names, by rw [coupons]; exact sound.rows.stock⟩
  · constructor
    · have names : (s.coupons.map fun row =>
          { row with remaining := row.remaining - (s.txn t).taken.count row.name }).map (·.name) =
          s.coupons.map (·.name) := by
        rw [List.map_map]
        rfl
      change (List.map _ (List.map _ s.coupons)).Nodup
      rw [names]
      exact sound.rows.names
    · intro row member
      obtain ⟨old, oldMember, rfl⟩ := List.mem_map.mp member
      have stock := sound.rows.stock old oldMember
      have fits := sound.locks.taken_le t sound.rows old oldMember
      dsimp only
      omega

theorem Change.nodup_line (change : s.Change t s') (line : s.line.Nodup) : s'.line.Nodup := by
  cases change with
  | queued name row live found absent =>
      rw [List.nodup_append]
      refine ⟨line, by simp, ?_⟩
      rintro ticket member joined new rfl
      rw [List.mem_singleton] at new
      rw [new] at member
      exact absent member
  | left name waiting => exact line.erase _
  | closed => exact line.filter _
  | lost injected => exact line.filter _
  | committed due allowed => exact line.filter _
  | _ => exact line

/-- A ticket that is in the line after a change was there before, or the transaction has just
joined; in either case its transaction is live and its coupon exists. -/
theorem Change.sound_ticket (change : s.Change t s') (locks : s.SoundLocks) (ticket : Ticket)
    (member : ticket ∈ s'.line) :
    s'.isLive ticket.txn = true ∧ (s.coupon? ticket.coupon).isSome := by
  have closing : ticket ∈ (s.close t).line →
      (s.close t).isLive ticket.txn = true ∧ (s.coupon? ticket.coupon).isSome := by
    intro member
    obtain ⟨old, other⟩ := List.mem_filter.mp member
    rw [isLive_close, locks.live ticket old]
    exact ⟨by simpa using other, locks.named ticket old⟩
  cases change with
  | kept => exact ⟨locks.live ticket member, locks.named ticket member⟩
  | opened fresh =>
      rw [isLive_begin, locks.live ticket member]
      exact ⟨by simp, locks.named ticket member⟩
  | queued name row live found absent =>
      rcases List.mem_append.mp member with old | new
      · exact ⟨locks.live ticket old, locks.named ticket old⟩
      · rw [List.mem_singleton.mp new]
        exact ⟨live, by rw [found]; rfl⟩
  | left name waiting =>
      have old := List.mem_of_mem_erase member
      exact ⟨locks.live ticket old, locks.named ticket old⟩
  | drawn user name row live found unclaimed unstaged =>
      exact ⟨(isLive_putTxn s t ticket.txn _).trans (locks.live ticket member),
        locks.named ticket member⟩
  | took name row live found holds stock =>
      exact ⟨(isLive_putTxn s t ticket.txn _).trans (locks.live ticket member),
        locks.named ticket member⟩
  | closed => exact closing member
  | lost injected => exact closing member
  | committed due allowed => exact closing member

theorem live_of_taken (s : Store) (u : TxnId) (name : String) (member : name ∈ (s.txn u).taken) :
    s.isLive u = true := by
  cases live : s.isLive u with
  | true => rfl
  | false =>
      rw [txn_of_not_live s u live] at member
      cases member

/-- A transaction gets units of a coupon only by taking them, one at a time. -/
theorem Change.count_taken (change : s.Change t s') (u : TxnId) (name : String) :
    (s'.txn u).taken.count name ≤ (s.txn u).taken.count name ∨
      ∃ row, s.coupon? name = some row ∧ s.holds t name = true ∧ u = t ∧ s' = s.take t name ∧
        (s'.txn u).taken.count name = (s.txn u).taken.count name + 1 ∧
        (s.txn u).taken.count name < row.remaining := by
  have closing : ((s.close t).txn u).taken.count name ≤ (s.txn u).taken.count name := by
    by_cases own : u = t
    · rw [own, txn_close_self]
      exact Nat.zero_le _
    · exact Nat.le_of_eq (by rw [txn_close_of_ne s t u own])
  cases change with
  | opened fresh => exact Or.inl (Nat.le_of_eq (by rw [txn_begin]))
  | drawn user drawn row live found unclaimed unstaged =>
      refine Or.inl (Nat.le_of_eq ?_)
      by_cases own : u = t
      · rw [own, txn_draw t user drawn live]
      · rw [(Change.drawn user drawn row live found unclaimed unstaged).txn_of_ne u own]
  | took taken row live found holds stock =>
      by_cases own : u = t
      · subst own
        by_cases same : taken = name
        · subst same
          refine Or.inr ⟨row, found, holds, rfl, rfl, ?_, stock⟩
          rw [txn_take u taken live, List.count_cons_self]
        · refine Or.inl (Nat.le_of_eq ?_)
          rw [txn_take u taken live, List.count_cons_of_ne same]
      · refine Or.inl (Nat.le_of_eq ?_)
        rw [(Change.took taken row live found holds stock).txn_of_ne u own]
  | closed => exact Or.inl closing
  | lost injected => exact Or.inl closing
  | committed due allowed => exact Or.inl closing
  | _ => exact Or.inl (Nat.le_refl _)

theorem Change.sound_taken (change : s.Change t s') (locks : s.SoundLocks) (u : TxnId)
    (name : String) (member : name ∈ (s'.txn u).taken) : s'.holds u name = true := by
  have live := live_of_taken s' u name member
  rcases change.count_taken u name with fewer | ⟨row, -, holds, rfl, rfl, -, -⟩
  · have old : name ∈ (s.txn u).taken := by
      rw [← List.count_pos_iff] at member ⊢
      omega
    exact change.keeps_lock u name (Or.inr live) (locks.taken u name old)
  · exact holds

/-- Two transactions never have units of the same coupon. -/
theorem SoundLocks.count_eq_zero (locks : s.SoundLocks) (u : TxnId) (apart : u ≠ t) (name : String)
    (member : name ∈ (s.txn t).taken) : (s.txn u).taken.count name = 0 := by
  rw [List.count_eq_zero]
  intro other
  exact apart (holder_unique s u t name (locks.taken u name other) (locks.taken t name member))

theorem Change.sound_enough (change : s.Change t s') (locks : s.SoundLocks) (u : TxnId)
    (name : String) (row : Coupon) (found : s'.coupon? name = some row) :
    ((s'.txn u).taken.count name : Int) ≤ row.remaining := by
  rcases change.tables with ⟨coupons, -, -⟩ | ⟨-, -, rfl⟩
  · rw [coupon?_congr coupons] at found
    rcases change.count_taken u name with fewer | ⟨old, known, -, -, -, counted, stock⟩
    · have enough := locks.enough u name row found
      omega
    · rw [found, Option.some.injEq] at known
      subst known
      omega
  · rw [coupon?_commit, Option.map_eq_some_iff] at found
    obtain ⟨old, known, rfl⟩ := found
    have own := locks.enough t name old known
    change (((s.close t).txn u).taken.count name : Int) ≤ old.remaining - _
    by_cases same : u = t
    · subst same
      rw [txn_close_self]
      simpa using own
    · rw [txn_close_of_ne s t u same]
      by_cases taken : name ∈ (s.txn t).taken
      · rw [locks.count_eq_zero u same name taken]
        simpa using own
      · rw [List.count_eq_zero.mpr taken]
        simpa using locks.enough u name old known

theorem Change.sound_locks (change : s.Change t s') (locks : s.SoundLocks) : s'.SoundLocks where
  line := change.nodup_line locks.line
  live := fun ticket member => (change.sound_ticket locks ticket member).1
  named := by
    intro ticket member
    rw [change.coupon?_isSome]
    exact (change.sound_ticket locks ticket member).2
  taken := change.sound_taken locks
  enough := change.sound_enough locks

/-! ## Keys -/

theorem unclaimed_of_allowed (writes : Txn) (allowed : s.refusal? writes = none) (claim : Claim)
    (member : claim ∈ writes.staged) : claim.key ∉ s.keys := by
  unfold refusal? at allowed
  split at allowed
  · cases allowed
  · split at allowed
    · cases allowed
    · rename_i none_found
      rw [List.find?_eq_none] at none_found
      simpa using none_found claim member

/-- The claims that a transaction has staged after a change: those it had, or none, or those it
had and a new one under the next id. -/
theorem Change.staged_cases (change : s.Change t s') (u : TxnId) :
    (s'.txn u).staged = (s.txn u).staged ∨ (s'.txn u).staged = [] ∨
      ∃ user name row, u = t ∧ s.coupon? name = some row ∧ (user, name) ∉ s.keys ∧
        (user, name) ∉ (s.txn u).staged.map Claim.key ∧ s' = s.draw t user name ∧
        (s'.txn u).staged = (s.txn u).staged ++ [⟨s.lastId + 1, user, name⟩] := by
  have closing : ((s.close t).txn u).staged = (s.txn u).staged ∨
      ((s.close t).txn u).staged = [] := by
    by_cases own : u = t
    · rw [own, txn_close_self]
      exact Or.inr rfl
    · rw [txn_close_of_ne s t u own]
      exact Or.inl rfl
  cases change with
  | opened fresh => exact Or.inl (by rw [txn_begin])
  | drawn user name row live found unclaimed unstaged =>
      by_cases own : u = t
      · subst own
        refine Or.inr (Or.inr ⟨user, name, row, rfl, found, unclaimed, unstaged, rfl, ?_⟩)
        rw [txn_draw u user name live]
      · left
        rw [(Change.drawn user name row live found unclaimed unstaged).txn_of_ne u own]
  | took name row live found holds stock =>
      left
      by_cases own : u = t
      · rw [own, txn_take t name live]
      · rw [(Change.took name row live found holds stock).txn_of_ne u own]
  | closed => exact closing.imp_right Or.inl
  | lost injected => exact closing.imp_right Or.inl
  | committed due allowed => exact closing.imp_right Or.inl
  | _ => exact Or.inl rfl

theorem Change.sound_keys (change : s.Change t s') (keys : s.SoundKeys) : s'.SoundKeys where
  index := by
    rcases change.tables with ⟨-, claims, index⟩ | ⟨-, -, rfl⟩
    · rw [claims, index, keys.index]
    · change s.keys ++ _ = (s.claims ++ _).map Claim.key
      rw [keys.index, List.map_append]
  once := by
    rcases change.tables with ⟨-, -, index⟩ | ⟨-, allowed, rfl⟩
    · rw [index]
      exact keys.once
    · change (s.keys ++ (s.txn t).staged.map Claim.key).Nodup
      rw [List.nodup_append]
      refine ⟨keys.once, keys.stagedOnce t, ?_⟩
      rintro key old _ new rfl
      obtain ⟨claim, member, rfl⟩ := List.mem_map.mp new
      exact unclaimed_of_allowed (s.txn t) allowed claim member old
  named := by
    intro claim member
    rw [change.coupon?_isSome]
    rcases change.tables with ⟨-, claims, -⟩ | ⟨-, -, rfl⟩
    · rw [claims] at member
      exact keys.named claim member
    · rcases List.mem_append.mp member with old | new
      · exact keys.named claim old
      · exact keys.stagedNamed t claim new
  stagedOnce := by
    intro u
    rcases change.staged_cases u with same | none | ⟨user, name, row, -, -, -, unstaged, -, staged⟩
    · rw [same]
      exact keys.stagedOnce u
    · rw [none]
      exact List.nodup_nil
    · rw [staged, List.map_append, List.nodup_append]
      refine ⟨keys.stagedOnce u, by simp, ?_⟩
      rintro key old _ new rfl
      rw [List.map_singleton, List.mem_singleton] at new
      rw [new] at old
      exact unstaged old
  stagedNamed := by
    intro u claim member
    rw [change.coupon?_isSome]
    rcases change.staged_cases u with same | none | ⟨user, name, row, -, found, -, -, -, staged⟩
    · rw [same] at member
      exact keys.stagedNamed u claim member
    · rw [none] at member
      cases member
    · rw [staged] at member
      rcases List.mem_append.mp member with old | new
      · exact keys.stagedNamed u claim old
      · rw [List.mem_singleton.mp new, found]
        rfl

/-! ## Ids -/

theorem Change.sound_bounds (change : s.Change t s') (ids : s.SoundIds) :
    (∀ claim ∈ s'.claims, 0 < claim.id ∧ claim.id ≤ s'.lastId) ∧
      ∀ u, ∀ claim ∈ (s'.txn u).staged, 0 < claim.id ∧ claim.id ≤ s'.lastId := by
  have grown := change.lastId_le
  constructor
  · intro claim member
    rcases change.tables with ⟨-, claims, -⟩ | ⟨-, -, rfl⟩
    · rw [claims] at member
      have bound := ids.bound claim member
      omega
    · rcases List.mem_append.mp member with old | new
      · exact ids.bound claim old
      · exact ids.stagedBound t claim new
  · intro u claim member
    rcases change.staged_cases u with same | none | ⟨user, name, row, -, -, -, -, drawn, staged⟩
    · rw [same] at member
      have bound := ids.stagedBound u claim member
      omega
    · rw [none] at member
      cases member
    · rw [staged] at member
      rcases List.mem_append.mp member with old | new
      · have bound := ids.stagedBound u claim old
        omega
      · rw [List.mem_singleton.mp new, drawn]
        change 0 < (s.lastId : Int) + 1 ∧ (s.lastId : Int) + 1 ≤ ((s.lastId + 1 : Nat) : Int)
        omega

/-- After a change, the claim that a transaction has staged was staged by it before, or carries
an id above all earlier ones. -/
theorem Change.staged_member (change : s.Change t s') (u : TxnId) (claim : Claim)
    (member : claim ∈ (s'.txn u).staged) :
    claim ∈ (s.txn u).staged ∨
      (u = t ∧ claim.id = s.lastId + 1 ∧ s'.claims = s.claims) := by
  rcases change.staged_cases u with same | none | ⟨user, name, row, own, -, -, -, drawn, staged⟩
  · rw [same] at member
    exact Or.inl member
  · rw [none] at member
    cases member
  · rw [staged] at member
    rcases List.mem_append.mp member with old | new
    · exact Or.inl old
    · refine Or.inr ⟨own, ?_, by rw [drawn]; rfl⟩
      rw [List.mem_singleton.mp new]

theorem Change.sound_ids (change : s.Change t s') (ids : s.SoundIds) : s'.SoundIds where
  bound := (change.sound_bounds ids).1
  stagedBound := (change.sound_bounds ids).2
  once := by
    rcases change.tables with ⟨-, claims, -⟩ | ⟨-, -, rfl⟩
    · rw [claims]
      exact ids.once
    · change ((s.claims ++ (s.txn t).staged).map (·.id)).Nodup
      rw [List.map_append, List.nodup_append]
      refine ⟨ids.once, ids.stagedOnce t, ?_⟩
      intro id old other new same
      obtain ⟨claim, claimMember, rfl⟩ := List.mem_map.mp old
      obtain ⟨staged, stagedMember, rfl⟩ := List.mem_map.mp new
      exact ids.apart t staged stagedMember claim claimMember same.symm
  stagedOnce := by
    intro u
    rcases change.staged_cases u with same | none | ⟨user, name, row, -, -, -, -, -, staged⟩
    · rw [same]
      exact ids.stagedOnce u
    · rw [none]
      exact List.nodup_nil
    · rw [staged, List.map_append, List.nodup_append]
      refine ⟨ids.stagedOnce u, by simp, ?_⟩
      intro id old other new same
      obtain ⟨claim, member, rfl⟩ := List.mem_map.mp old
      have bound := ids.stagedBound u claim member
      simp only [List.map_cons, List.map_nil, List.mem_singleton] at new
      omega
  apart := by
    intro u claim member old oldMember
    rcases change.staged_member u claim member with staged | ⟨-, id, claims⟩
    · rcases change.tables with ⟨-, claims, -⟩ | ⟨-, -, rfl⟩
      · rw [claims] at oldMember
        exact ids.apart u claim staged old oldMember
      · have other : u ≠ t := by
          rintro rfl
          change claim ∈ ((s.close u).txn u).staged at member
          rw [txn_close_self] at member
          cases member
        rcases List.mem_append.mp oldMember with committed | new
        · exact ids.apart u claim staged old committed
        · exact ids.stagedApart u t other claim staged old new
    · rw [claims] at oldMember
      have bound := ids.bound old oldMember
      omega
  stagedApart := by
    intro u v distinct claim member other otherMember
    rcases change.staged_member u claim member with staged | ⟨own, id, -⟩
    · rcases change.staged_member v other otherMember with otherStaged | ⟨-, otherId, -⟩
      · exact ids.stagedApart u v distinct claim staged other otherStaged
      · have bound := ids.stagedBound u claim staged
        omega
    · rcases change.staged_member v other otherMember with otherStaged | ⟨otherOwn, -, -⟩
      · have bound := ids.stagedBound v other otherStaged
        omega
      · exact absurd (own.trans otherOwn.symm) distinct

/-! ## All groups together -/

theorem Change.sound (change : s.Change t s') (sound : s.Sound) : s'.Sound where
  rows := change.sound_rows sound
  locks := change.sound_locks sound.locks
  keys := change.sound_keys sound.keys
  ids := change.sound_ids sound.ids

/-- What creating a coupon does: nothing if it is refused, and else one more row under a name
that was free. -/
theorem create_cases (s : Store) (name : String) (amount : Int) :
    (s.create name amount).2 = s ∨
      0 < amount ∧ s.coupon? name = none ∧
        (s.create name amount).2 = { s with coupons := s.coupons ++ [.fresh name amount] } := by
  unfold create
  by_cases refused : amount ≤ 0
  · rw [if_pos refused]
    exact Or.inl rfl
  · rw [if_neg refused]
    cases taken : s.coupon? name with
    | some row => exact Or.inl rfl
    | none => exact Or.inr ⟨by omega, rfl, rfl⟩

/-- The row of a coupon after a coupon was created, under the same name or another. -/
theorem coupon?_create_eq (s : Store) (given name : String) (amount : Int) :
    (s.create given amount).2.coupon? name =
      (s.coupon? name).or
        (if given = name ∧ 0 < amount then some (.fresh name amount) else none) := by
  unfold create
  by_cases refused : amount ≤ 0
  · simp [refused, Int.not_lt.mpr refused]
  · have positive : 0 < amount := by omega
    rw [if_neg refused]
    cases taken : s.coupon? given with
    | some row =>
        by_cases same : given = name
        · subst same
          simp [taken]
        · simp [same]
    | none =>
        change coupon? { s with coupons := s.coupons ++ [.fresh given amount] } name = _
        rw [coupon?_append]
        by_cases same : given = name
        · subst same
          simp [Coupon.fresh, positive]
        · simp [Coupon.fresh, same]

theorem create_frame (s : Store) (given : String) (amount : Int) :
    (s.create given amount).2.claims = s.claims ∧ (s.create given amount).2.line = s.line ∧
      (s.create given amount).2.failing = s.failing := by
  rcases s.create_cases given amount with kept | ⟨-, -, added⟩
  · rw [kept]
    exact ⟨rfl, rfl, rfl⟩
  · rw [added]
    exact ⟨rfl, rfl, rfl⟩

theorem coupon?_create (s : Store) (given : String) (amount : Int) (name : String) (row : Coupon)
    (found : s.coupon? name = some row) : (s.create given amount).2.coupon? name = some row := by
  rw [coupon?_create_eq, found, Option.some_or]

theorem isSome_coupon?_create (s : Store) (given : String) (amount : Int) (name : String)
    (known : (s.coupon? name).isSome) : ((s.create given amount).2.coupon? name).isSome := by
  obtain ⟨row, found⟩ := Option.isSome_iff_exists.mp known
  rw [coupon?_create s given amount name row found]
  rfl

theorem create_sound (s : Store) (name : String) (amount : Int) (sound : s.Sound) :
    (s.create name amount).2.Sound := by
  have known := isSome_coupon?_create s name amount
  rcases create_cases s name amount with kept | ⟨positive, free, added⟩
  · rw [kept]
    exact sound
  · rw [added] at known ⊢
    refine ⟨⟨?_, ?_⟩, ⟨sound.locks.line, sound.locks.live, ?_, sound.locks.taken, ?_⟩,
      ⟨sound.keys.index, sound.keys.once, ?_, sound.keys.stagedOnce, ?_⟩,
      ⟨sound.ids.bound, sound.ids.stagedBound, sound.ids.once, sound.ids.stagedOnce,
        sound.ids.apart, sound.ids.stagedApart⟩⟩
    · rw [List.map_append, List.nodup_append]
      refine ⟨sound.rows.names, by simp, ?_⟩
      rintro other member _ new rfl
      obtain ⟨row, rowMember, rfl⟩ := List.mem_map.mp member
      have present := coupon?_isSome_of_mem s row rowMember
      simp only [List.map_cons, List.map_nil, List.mem_singleton, Coupon.fresh] at new
      rw [new, free] at present
      cases present
    · intro row member
      rcases List.mem_append.mp member with old | new
      · exact sound.rows.stock row old
      · rw [List.mem_singleton.mp new]
        simp only [Coupon.fresh]
        omega
    · exact fun ticket member => known _ (sound.locks.named ticket member)
    · intro t other row found
      rw [coupon?_append] at found
      cases old : s.coupon? other with
      | some row' =>
          rw [old, Option.some_or, Option.some.injEq] at found
          rw [← found]
          exact sound.locks.enough t other row' old
      | none =>
          have untouched : (s.txn t).taken.count other = 0 := by
            rw [List.count_eq_zero]
            intro member
            have named := sound.locks.named _
              (ticket_of_holds s t other (sound.locks.taken t other member))
            rw [old] at named
            cases named
          rw [old, Option.none_or, Option.ite_none_right_eq_some, Option.some.injEq] at found
          change ((s.txn t).taken.count other : Int) ≤ _
          rw [untouched, ← found.2]
          simp only [Coupon.fresh]
          omega
    · exact fun claim member => known _ (sound.keys.named claim member)
    · exact fun t claim member => known _ (sound.keys.stagedNamed t claim member)

theorem failCommits_sound (s : Store) (count : Nat) (sound : s.Sound) :
    (s.failCommits count).Sound :=
  ⟨⟨sound.rows.names, sound.rows.stock⟩,
    ⟨sound.locks.line, sound.locks.live, sound.locks.named, sound.locks.taken,
      sound.locks.enough⟩,
    ⟨sound.keys.index, sound.keys.once, sound.keys.named, sound.keys.stagedOnce,
      sound.keys.stagedNamed⟩,
    ⟨sound.ids.bound, sound.ids.stagedBound, sound.ids.once, sound.ids.stagedOnce,
      sound.ids.apart, sound.ids.stagedApart⟩⟩

/-! ## Claims and users -/

theorem Sound.claimsOn_of_missing (sound : s.Sound) (name : String)
    (missing : s.coupon? name = none) : s.claimsOn name = [] := by
  unfold claimsOn
  rw [List.filter_eq_nil_iff]
  intro claim member named
  have known := sound.keys.named claim member
  rw [of_decide_eq_true named, missing] at known
  cases known

/-- A key is in the index when its user holds a claim on its coupon. -/
theorem Sound.mem_keys (sound : s.Sound) (user name : String) :
    (user, name) ∈ s.keys ↔ user ∈ (s.claimsOn name).map (·.user) := by
  rw [sound.keys.index]
  simp only [List.mem_map, claimsOn, List.mem_filter, decide_eq_true_eq, Claim.key, Prod.mk.injEq]
  constructor
  · rintro ⟨claim, member, user, coupon⟩
    exact ⟨claim, ⟨member, coupon⟩, user⟩
  · rintro ⟨claim, ⟨member, coupon⟩, user⟩
    exact ⟨claim, member, user, coupon⟩

end CouponDesk.Memory.Store
