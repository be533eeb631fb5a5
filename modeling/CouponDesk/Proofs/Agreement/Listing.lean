import CouponDesk.Proofs.Memory.Race
import CouponDesk.Proofs.Memory.Tenures
import CouponDesk.Proofs.Relational.Alone
import Mathlib.Algebra.BigOperators.Group.List.Basic
import Mathlib.Algebra.GroupWithZero.Nat

/-!
# Listings of claimants

Everybody who holds a claim on a coupon is listed, once.  Where claims are inserted under locks
only, the listing goes by ascending claim id, which is the order in which the winners obtained the
lock, and the order in which the datastore sorts the same claims.
-/

set_option autoImplicit false

namespace CouponDesk.Agreement

open Memory (Store Step System Action Won)
open Relational (ClaimRow Pool)

structure Listed (s : Store) : Prop where
  once : ∀ name, (s.claimants name).Nodup
  length : ∀ name, (s.claimants name).length = s.count name
  member : ∀ name user, user ∈ s.claimants name ↔
    ∃ claim ∈ s.claims, claim.user = user ∧ claim.coupon = name
  total : s.totalClaims = (s.coupons.map fun row => s.count row.name).sum

/-- The listing of a coupon's claimants goes by id and by lock. -/
structure ListedInOrder (history : List Step) (s : Store) (name : String) : Prop where
  ids : (s.claimsOn name).Pairwise (·.id < ·.id)
  users : s.claimants name = (s.claimsOn name).map (·.user)
  won : ∀ claim ∈ s.claimsOn name, ∃ t obtained committed,
    Won history claim t obtained committed
  /-- Whoever is listed earlier obtained the lock earlier, or both are of one transaction. -/
  locks : (s.claimsOn name).Pairwise fun claim other => ∀ t i k u j l,
    Won history claim t i k → Won history other u j l → i < j ∨ t = u ∧ i = j ∧ k = l
  /-- A datastore with the same claims, created at times that do not go back, lists the same. -/
  sorted : ∀ p : Pool, p.Idle →
    ((p.committed.claimsOn name).map ClaimRow.claim).Perm (s.claimsOn name) →
    (∀ row ∈ p.committed.claimsOn name, ∀ other ∈ p.committed.claimsOn name,
      row.id ≤ other.id → row.createdAt ≤ other.createdAt) →
    (Relational.Records.claimants (Pool.send none) name p).1 = .ok (s.claimants name)

/-! ## Counts -/

theorem sum_indicator (names : List String) (name : String) (once : names.Nodup)
    (member : name ∈ names) :
    (names.map fun other => if name = other then 1 else 0).sum = 1 := by
  induction names with
  | nil => cases member
  | cons head rest ih =>
      obtain ⟨absent, once⟩ := List.nodup_cons.mp once
      rw [List.map_cons, List.sum_cons]
      by_cases same : name = head
      · subst same
        have others : ∀ other ∈ rest, (if name = other then 1 else 0) = 0 := by
          intro other listed
          rw [if_neg]
          rintro rfl
          exact absent listed
        rw [if_pos rfl, List.map_congr_left others]
        simp
      · rw [if_neg same, ih once ((List.mem_cons.mp member).resolve_left same)]

theorem sum_counts (names : List String) (claims : List Claim) (once : names.Nodup)
    (named : ∀ claim ∈ claims, claim.coupon ∈ names) :
    (names.map fun name => (claims.filter (·.coupon = name)).length).sum = claims.length := by
  induction claims with
  | nil => simp
  | cons claim rest ih =>
      have split : ∀ name, ((claim :: rest).filter (·.coupon = name)).length =
          (if claim.coupon = name then 1 else 0) + (rest.filter (·.coupon = name)).length := by
        intro name
        by_cases same : claim.coupon = name
        · simp [same, Nat.add_comm]
        · simp [same]
      simp only [split]
      rw [List.sum_map_add, ih fun other member => named other (List.mem_cons_of_mem _ member),
        sum_indicator names claim.coupon once (named claim List.mem_cons_self), List.length_cons,
        Nat.add_comm]

theorem Listed.of_sound {s : Store} (sound : s.Sound) : Listed s where
  once := by
    intro name
    rw [sound.claimants_eq]
    exact sound.nodup_users name
  length := by
    intro name
    rw [sound.claimants_eq, List.length_map]
    rfl
  member := by
    intro name user
    rw [sound.claimants_eq]
    simp only [Store.claimsOn, List.mem_map, List.mem_filter, decide_eq_true_eq]
    constructor
    · rintro ⟨claim, ⟨member, coupon⟩, user⟩
      exact ⟨claim, member, user, coupon⟩
    · rintro ⟨claim, member, user, coupon⟩
      exact ⟨claim, ⟨member, coupon⟩, user⟩
  total := by
    have named : ∀ claim ∈ s.claims, claim.coupon ∈ s.coupons.map (·.name) := by
      intro claim member
      obtain ⟨row, found⟩ := Option.isSome_iff_exists.mp (sound.keys.named claim member)
      obtain ⟨rowMember, rowName⟩ := Memory.Store.coupon?_some s claim.coupon row found
      exact List.mem_map.mpr ⟨row, rowMember, rowName⟩
    have counted := sum_counts (s.coupons.map (·.name)) s.claims sound.rows.names named
    rw [List.map_map] at counted
    exact counted.symm

/-! ## Sorting -/

theorem listedBefore_trans (a b c : ClaimRow) (first : a.listedBefore b = true)
    (second : b.listedBefore c = true) : a.listedBefore c = true := by
  simp only [ClaimRow.listedBefore, Bool.or_eq_true, Bool.and_eq_true, decide_eq_true_eq] at *
  omega

theorem listedBefore_total (a b : ClaimRow) : (a.listedBefore b || b.listedBefore a) = true := by
  simp only [ClaimRow.listedBefore, Bool.or_eq_true, Bool.and_eq_true, decide_eq_true_eq]
  omega

/-- Where the times follow the ids, sorting by both is sorting by id. -/
theorem sorted_claims (rows : List ClaimRow) (claims : List Claim)
    (same : (rows.map ClaimRow.claim).Perm claims) (rising : claims.Pairwise (·.id < ·.id))
    (inTime : ∀ row ∈ rows, ∀ other ∈ rows, row.id ≤ other.id → row.createdAt ≤ other.createdAt) :
    (rows.mergeSort ClaimRow.listedBefore).map ClaimRow.claim = claims := by
  have perm := List.mergeSort_perm rows ClaimRow.listedBefore
  have ordered := List.pairwise_mergeSort listedBefore_trans listedBefore_total rows
  have byId : ((rows.mergeSort ClaimRow.listedBefore).map ClaimRow.claim).Pairwise
      (·.id ≤ ·.id) := by
    rw [List.pairwise_map]
    refine ordered.imp_of_mem ?_
    intro row other member otherMember before
    have back := inTime other (perm.subset otherMember) row (perm.subset member)
    simp only [ClaimRow.listedBefore, Bool.or_eq_true, Bool.and_eq_true, decide_eq_true_eq]
      at before
    change (row.id : Int) ≤ (other.id : Int)
    omega
  have all := (perm.map ClaimRow.claim).trans same
  refine all.eq_of_pairwise ?_ byId (rising.imp Int.le_of_lt)
  -- No two of the claims share an id.
  intro claim other member otherMember least most
  have once : (claims.map (·.id)).Nodup := List.pairwise_map.mpr (rising.imp Int.ne_of_lt)
  exact List.inj_on_of_nodup_map once (all.subset member) otherMember (Int.le_antisymm least most)

theorem ListedInOrder.of_run {s : System} (actions : List Action)
    (runs : System.run actions {} = some s)
    (locked : ∀ step ∈ System.trace actions {}, step.Locked) (name : String) :
    ListedInOrder (System.trace actions {}) s.store name := by
  have tenured := System.run_tenured actions runs locked
  have listing := tenured.sound.store.claimants_eq name
  refine ⟨tenured.ranked.committed name, listing, ?_,
    System.run_claims_in_order actions runs name, ?_⟩
  · intro claim member
    exact tenured.won claim (List.mem_filter.mp member).1
  · intro p idle same inTime
    have sorted := sorted_claims _ _ same (tenured.ranked.committed name) inTime
    have users : p.committed.users name = (s.store.claimsOn name).map (·.user) := by
      rw [← sorted, List.map_map]
      rfl
    rw [Relational.Records.claimants_idle idle, users]
    rfl

/-- In every state of a run the listings and counts tell the committed claims.  Attempts insert
their claims under the lock; where transactions driven by hand do so too, the listings are in the
order of the ids, of the locks, and of a datastore that sorts by time and id. -/
theorem run_lists {s : System} (actions : List Action) (runs : System.run actions {} = some s) :
    Listed s.store ∧
      (∀ step ∈ System.trace actions {}, step.action.hand? = none → step.Locked) ∧
      ((∀ step ∈ System.trace actions {}, step.Locked) →
        ∀ name, ListedInOrder (System.trace actions {}) s.store name) := by
  have sound := Memory.System.run_sound actions runs
  exact ⟨.of_sound sound.store, Memory.System.run_locked actions runs,
    fun locked name => .of_run actions runs locked name⟩

/-- A transaction driven by hand wins the lock, stages two claims and commits them, while a call and
another such transaction wait behind it. -/
def queue : List Action :=
  [.create "SOLO" 9, .create "DUO" 9, .begin 0, .begin 1, .lock 0 "SOLO",
    .start "third" "SOLO" .zero 1, .advance 0, .advance 0, .lock 1 "DUO", .insert 1 "first" "DUO",
    .lock 1 "SOLO", .insert 0 "second" "SOLO", .insert 0 "first" "SOLO", .commit 0, .advance 0,
    .advance 0, .advance 0, .advance 0, .insert 1 "fourth" "SOLO", .commit 1]

theorem run_lists_queue :
    ∃ s, System.run queue {} = some s ∧ (∀ step ∈ System.trace queue {}, step.Locked) ∧
      Listed s.store ∧ ListedInOrder (System.trace queue {}) s.store "SOLO" ∧
      s.store.claims = [⟨2, "second", "SOLO"⟩, ⟨3, "first", "SOLO"⟩, ⟨4, "third", "SOLO"⟩,
        ⟨1, "first", "DUO"⟩, ⟨5, "fourth", "SOLO"⟩] ∧
      s.store.claimants "SOLO" = ["second", "first", "third", "fourth"] :=
  ⟨_, rfl, by decide, (run_lists queue rfl).1, (run_lists queue rfl).2.2 (by decide) "SOLO",
    rfl, rfl⟩

/-- Without locks a claim with a later id may be committed first. -/
example : (System.run [.create "SOLO" 9, .begin 0, .begin 1, .insert 0 "first" "SOLO",
      .insert 1 "second" "SOLO", .commit 1, .commit 0] {}).map (·.store.claimsOn "SOLO") =
    some [⟨2, "second", "SOLO"⟩, ⟨1, "first", "SOLO"⟩] := rfl

end CouponDesk.Agreement
