import CouponDesk.Proofs.Memory.Effects

/-!
# Claims and stock balance

The units missing from a coupon's stock are the claims on it.  A transaction driven by hand may
take units without claims and insert claims without units, so this holds where calls alone act on
the store: a granted claim then comes with exactly one unit.
-/

set_option autoImplicit false

namespace CouponDesk.Memory

/-- For every coupon the claims on it and its remaining units make up its total. -/
def Store.Balanced (s : Store) : Prop :=
  ∀ name row, s.coupon? name = some row → (s.count name : Int) + row.remaining = row.total

namespace Store

variable {s store : Store}

theorem SameTables.balanced (same : s.SameTables store) (balanced : s.Balanced) :
    store.Balanced := by
  intro name row found
  rw [same.coupon?] at found
  unfold count
  rw [same.claimsOn]
  exact balanced name row found

theorem balanced_create (sound : s.Sound) (name : String) (amount : Int) (balanced : s.Balanced) :
    Store.Balanced { s with coupons := s.coupons ++ [.fresh name amount] } := by
  intro other row found
  rw [coupon?_append] at found
  change (s.count other : Int) + row.remaining = row.total
  cases old : s.coupon? other with
  | some row' =>
      rw [old, Option.some_or, Option.some.injEq] at found
      subst row'
      exact balanced other row old
  | none =>
      rw [old, Option.none_or, Option.ite_none_right_eq_some, Option.some.injEq] at found
      unfold count
      rw [sound.claimsOn_of_missing other old, ← found.2]
      simp [Coupon.fresh]

/-- A granted claim counts for the unit it takes. -/
theorem Grants.balanced {claim : Claim} (grants : s.Grants claim store) (balanced : s.Balanced) :
    store.Balanced := by
  intro name row found
  cases old : s.coupon? name with
  | none =>
      rw [(grants.coupon?_none_iff name).mpr old] at found
      cases found
  | some row' =>
      obtain ⟨_, known, total, remaining⟩ := grants.row name row' old
      rw [found, Option.some.injEq] at known
      subst known
      have before := balanced name row' old
      rw [grants.count name, total, remaining]
      split
      · omega
      · omega

end Store

namespace System

variable {s s' : System}

theorem Effect.balanced {action : Action} (effect : Effect s s' action) (sound : s.Sound)
    (balanced : s.store.Balanced) : s'.store.Balanced := by
  cases effect with
  | quiet action same silent => exact same.balanced balanced
  | created name amount positive free added silent =>
      rw [added]
      exact Store.balanced_create sound.store name amount balanced
  | granted c call claim expires known trying user coupon grants answered =>
      exact grants.balanced balanced

theorem run_balanced (actions : List Action) (byCalls : ∀ action ∈ actions, action.hand? = none)
    (runs : run actions {} = some s) : s.store.Balanced := by
  -- Balance alone is not kept by a commit: that it stages one claim and one unit is soundness.
  have both : s.Sound ∧ s.store.Balanced := by
    refine run_keeps (fun s => s.Sound ∧ s.store.Balanced) (fun action => action.hand? = none) ?_
      actions byCalls runs ⟨sound_empty, ?_⟩
    · rintro s s' action byCall does ⟨sound, balanced⟩
      exact ⟨does.sound sound, (does.effect sound byCall).balanced sound balanced⟩
    · intro name row found
      simp [Store.coupon?] at found
  exact both.2

/-- No unit is lost or handed out twice, whatever calls are made, in whatever order their steps
are taken, and wherever attempts are cut off, abandoned or made to fail. -/
theorem count_eq_total_sub_remaining (actions : List Action)
    (byCalls : ∀ action ∈ actions, action.hand? = none) (runs : run actions {} = some s)
    (name : String) (row : Coupon) (found : s.store.coupon? name = some row) :
    (s.store.count name : Int) = row.total - row.remaining ∧
      0 ≤ row.remaining ∧ row.remaining ≤ row.total := by
  have balanced := run_balanced actions byCalls runs name row found
  obtain ⟨-, -, stock⟩ := (run_sound actions runs).store.row name row found
  exact ⟨by omega, stock⟩

/-- Two users race for the last unit: the attempt of the first is cut off with its claim and its
unit staged, the first commit of the second is lost, and its second attempt succeeds. -/
def lastUnitRace : List Action :=
  [.create "SOLO" 1, .start "first" "SOLO" .zero 1, .start "second" "SOLO" .zero 2,
    .advance 0, .advance 0, .advance 1, .advance 1, .advance 0, .advance 0, .expire 0,
    .failCommits 1, .advance 1, .advance 1, .advance 1, .advance 1, .wake 1, .advance 1,
    .advance 1, .advance 1, .advance 1, .advance 1]

theorem count_eq_total_sub_remaining_last_unit :
    ∃ s row, run lastUnitRace {} = some s ∧ s.store.coupon? "SOLO" = some row ∧ row.total = 1 ∧
      row.remaining = 0 ∧ (s.store.count "SOLO" : Int) = row.total - row.remaining ∧
      0 ≤ row.remaining ∧ row.remaining ≤ row.total :=
  ⟨_, _, rfl, rfl, rfl, rfl,
    count_eq_total_sub_remaining lastUnitRace (by decide) rfl "SOLO" _ rfl⟩

end System

end CouponDesk.Memory
