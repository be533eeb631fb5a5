import CouponDesk.Proofs.Agreement.Scripts
import CouponDesk.Proofs.Memory.Staging
import CouponDesk.Proofs.Relational.Alone

/-!
# Tables that match a store

When tables hold what a store in memory holds: the same stock under every name, and the same claims
in the same order, but for their ids.  Reading then gives the same on both, and each of the writes
keeps the match.
-/

set_option autoImplicit false

namespace CouponDesk.Agreement

open Memory (Store)
open Relational (Tables ClaimRow)

/-! ## Tables with room -/

/-- Tables that can take claims at these times, one after another: the times go on from those of the
claims that are there, and there are ids left. -/
structure Ready (t : Tables) (times : List Int) : Prop where
  sound : t.Sound
  ages : (t.claims.map (·.createdAt) ++ times).Pairwise (· ≤ ·)
  room : t.lastId + times.length < Nat.pow 2 63

namespace Ready

variable {t : Tables} {now : Int} {times later : List Int}

theorem fits (ready : Ready t (now :: times)) : t.lastId + 1 < Nat.pow 2 63 := by
  have room := ready.room
  rw [List.length_cons] at room
  omega

/-- Times that are not used are no hindrance. -/
theorem skip (times : List Int) (ready : Ready t (times ++ later)) : Ready t later where
  sound := ready.sound
  ages := ready.ages.sublist
    ((List.Sublist.refl _).append (List.sublist_append_right times later))
  room := by
    have room := ready.room
    rw [List.length_append] at room
    omega

theorem enter (ready : Ready t (now :: times)) (user name : String)
    (free : (user, name) ∉ t.claims.map ClaimRow.key) (known : (t.coupon? name).isSome) :
    Ready (t.enter user name now) times where
  sound := ready.sound.enter user name now free known
  ages := by simpa [Tables.enter] using ready.ages
  room := by
    have room := ready.room
    rw [List.length_cons] at room
    change t.lastId + 1 + times.length < Nat.pow 2 63
    omega

theorem takeUnit (ready : Ready t times) (name : String) : Ready (t.takeUnit name).2 times :=
  ⟨ready.sound.takeUnit name, ready.ages, ready.room⟩

theorem addCoupon (ready : Ready t times) (name : String) (amount : Int)
    (positive : ¬ amount ≤ 0) (free : ¬ (t.coupon? name).isSome = true) :
    Ready { t with coupons := t.coupons ++ [.fresh name amount] } times where
  sound := ready.sound.addCoupon (.fresh name amount) _
    ((t.addCoupon_fresh name amount positive).trans (if_neg free))
  ages := ready.ages
  room := ready.room

theorem verdict (ready : Ready t (now :: times)) (user name : String) :
    Ready (t.verdict user name now).2 times := by
  have skipped : Ready t times := skip [now] ready
  cases found : t.coupon? name with
  | none =>
      simp only [Tables.verdict, found]
      exact skipped
  | some row =>
      rw [t.verdict_found user name now row found]
      split_ifs with empty claimed
      · exact skipped
      · exact skipped
      · exact (ready.enter user name claimed (by rw [found]; rfl)).takeUnit name

/-- The claims are listed in the order in which they were inserted. -/
theorem users (ready : Ready t times) (name : String) :
    t.users name = (t.claimsOn name).map (·.user) := by
  have older := List.pairwise_map.mp (List.pairwise_append.mp ready.ages).1
  have sorted : t.claims.Pairwise fun a b => ClaimRow.listedBefore a b = true := by
    refine (older.and (List.pairwise_map.mp ready.sound.ids)).imp ?_
    intro a b before
    simp only [ClaimRow.listedBefore, Bool.or_eq_true, Bool.and_eq_true, decide_eq_true_eq]
    omega
  unfold Tables.users Tables.claimsOn
  rw [List.mergeSort_of_pairwise (sorted.filter _)]

end Ready

/-! ## The match -/

structure Matches (s : Store) (t : Tables) : Prop where
  coupon : ∀ name, t.coupon? name = s.coupon? name
  claims : t.claims.map ClaimRow.key = s.claims.map Claim.key
  keys : s.keys = s.claims.map Claim.key

namespace Matches

variable {s : Store} {t : Tables}

theorem of_empty (schema : List Relational.SchemaObject) : Matches {} { schema } :=
  ⟨fun _ => rfl, rfl, rfl⟩

theorem mem_keys (same : Matches s t) (key : String × String) :
    key ∈ t.claims.map ClaimRow.key ↔ key ∈ s.keys := by
  rw [same.claims, same.keys]

/-! ### Reading -/

theorem get (same : Matches s t) (name : String) :
    Relational.Records.required name (.ok (t.coupon? name)) = s.get name := by
  unfold Store.get
  rw [same.coupon]
  cases s.coupon? name <;> rfl

theorem usersOn (same : Matches s t) (name : String) :
    (t.claimsOn name).map (·.user) = (s.claimsOn name).map (·.user) := by
  have rows : (t.claimsOn name).map (·.user) =
      ((t.claims.map ClaimRow.key).filter (·.2 = name)).map (·.1) := by
    simp only [Tables.claimsOn, List.filter_map, List.map_map]
    rfl
  have committed : (s.claimsOn name).map (·.user) =
      ((s.claims.map Claim.key).filter (·.2 = name)).map (·.1) := by
    simp only [Store.claimsOn, List.filter_map, List.map_map]
    rfl
  rw [rows, committed, same.claims]

theorem claimants (same : Matches s t) {times : List Int} (ready : Ready t times) (name : String) :
    firstOccurrences (t.users name) = s.claimants name := by
  rw [ready.users, same.usersOn]
  rfl

theorem count (same : Matches s t) (name : String) :
    (t.claimsOn name).length = s.count name := by
  have lengths := congrArg List.length (same.usersOn name)
  simpa [Store.count] using lengths

/-! ### Writing -/

theorem create (same : Matches s t) (row : Coupon) :
    Matches { s with coupons := s.coupons ++ [row] } { t with coupons := t.coupons ++ [row] } where
  coupon := by
    intro name
    have found := same.coupon name
    unfold Tables.coupon? Store.coupon? at found ⊢
    simp only [List.find?_append, found]
  claims := same.claims
  keys := same.keys

/-- A claim is inserted in the tables, and staged in the store. -/
theorem enter {writes : Memory.Txn} (same : Matches (s.apply writes) t) (claim : Claim)
    (now : Int) (last : Nat) :
    Matches
      (Store.apply { s with lastId := last } { writes with staged := writes.staged ++ [claim] })
      (t.enter claim.user claim.coupon now) where
  coupon := same.coupon
  claims := by
    have claims := same.claims
    simp only [Store.apply, List.map_append] at claims
    simp [Tables.enter, Store.apply, claims, ClaimRow.key, Claim.key]
  keys := by
    have keys := same.keys
    simp only [Store.apply, List.map_append] at keys
    simp [Store.apply, ← List.append_assoc, keys]

/-- A unit is taken in the tables, and staged in the store. -/
theorem take {writes : Memory.Txn} (same : Matches (s.apply writes) t) (name : String)
    (row : Coupon) (found : t.coupon? name = some row) (stock : 0 < row.remaining) :
    Matches (s.apply { writes with taken := name :: writes.taken }) (t.takeUnit name).2 where
  coupon := by
    intro other
    have before := same.coupon other
    rw [Memory.Store.coupon?_apply] at before
    rw [Memory.Store.coupon?_apply, Tables.coupon?_takeUnit]
    cases old : s.coupon? other with
    | none =>
        rw [old] at before
        rw [before]
        rfl
    | some stored =>
        rw [old] at before
        have named := (Memory.Store.coupon?_some s other stored old).2
        rw [before]
        simp only [Option.map_some]
        by_cases own : other = name
        · subst own
          rw [found, Option.map_some, Option.some.injEq] at before
          have able : Tables.canTake other row = true := by
            rw [before] at stock ⊢
            simpa [Tables.canTake, named] using stock
          rw [← before, if_pos able, List.count_cons_self]
          simp only [Option.some.injEq, Coupon.mk.injEq, true_and]
          push_cast
          omega
        · have unable : Tables.canTake name
              { stored with remaining := stored.remaining - writes.taken.count other } = false := by
            simp [Tables.canTake, named, own]
          rw [unable, List.count_cons_of_ne (Ne.symm own)]
          rfl
  claims := same.claims
  keys := same.keys

/-! ### Claiming -/

/-- A claim that nothing disturbs gets the same answer from both, but for its id. -/
theorem verdict_agrees (same : Matches s t) (due : s.failing = 0) (user name : String)
    (now : Int) :
    Agrees Answer.unnumbered (t.lastId = s.lastId) (.claim (s.verdict user name).1)
      (.claim (t.verdict user name now).1) := by
  have known := same.coupon name
  cases found : s.coupon? name with
  | none =>
      simp only [Store.verdict, Tables.verdict, known, found]
      exact .refl _
  | some row =>
      rw [found] at known
      rw [s.verdict_found user name row found, t.verdict_found user name now row known]
      simp only [same.mem_keys, if_neg (show ¬ 0 < s.failing by omega)]
      split_ifs
      · exact .refl _
      · exact .refl _
      · exact ⟨rfl, fun ids => by rw [ids]⟩

theorem verdict_keeps (same : Matches s t) (due : s.failing = 0) (user name : String) (now : Int) :
    Matches (s.verdict user name).2 (t.verdict user name now).2 ∧
      (t.lastId = s.lastId →
        (t.verdict user name now).2.lastId = (s.verdict user name).2.lastId) := by
  have known := same.coupon name
  cases found : s.coupon? name with
  | none =>
      simp only [Store.verdict, Tables.verdict, known, found]
      exact ⟨same, id⟩
  | some row =>
      rw [found] at known
      rw [s.verdict_found user name row found, t.verdict_found user name now row known]
      simp only [same.mem_keys, if_neg (show ¬ 0 < s.failing by omega)]
      split_ifs with empty claimed
      · exact ⟨same, id⟩
      · exact ⟨same, id⟩
      · have unstaged : Matches (s.apply {}) t := by rwa [Memory.Store.apply_empty]
        have entered := unstaged.enter ⟨s.lastId + 1, user, name⟩ now (s.lastId + 1)
        have seen : (t.enter user name now).coupon? name = some row := known
        exact ⟨entered.take name row seen (by omega), congrArg (· + 1)⟩

end Matches

end CouponDesk.Agreement
