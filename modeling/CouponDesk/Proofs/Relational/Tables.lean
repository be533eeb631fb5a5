import CouponDesk.Relational.Tables
import Mathlib.Data.List.Nodup

/-!
# What the constraints keep

The facts about the tables that no statement can break, because each would be refused; and the one
that a claim keeps which inserts its row and takes its unit together: the claims on a coupon are
the units that are missing from its stock.
-/

set_option autoImplicit false

namespace CouponDesk.Relational

def ClaimRow.key (row : ClaimRow) : String × String := (row.user, row.coupon)

namespace Tables

structure Sound (t : Tables) : Prop where
  names : (t.coupons.map (·.name)).Nodup
  stock : ∀ row ∈ t.coupons, 0 < row.total ∧ 0 ≤ row.remaining ∧ row.remaining ≤ row.total
  once : (t.claims.map ClaimRow.key).Nodup
  named : ∀ row ∈ t.claims, (t.coupon? row.coupon).isSome
  ids : (t.claims.map (·.id)).Pairwise (· < ·)
  idBound : ∀ row ∈ t.claims, row.id ≤ t.lastId

/-- The claims on every coupon are the units missing from its stock. -/
structure InStep (t : Tables) : Prop where
  sound : t.Sound
  balanced : ∀ row ∈ t.coupons, ((t.claimsOn row.name).length : Int) = row.total - row.remaining

theorem sound_empty : Sound {} := by
  constructor <;> simp

theorem inStep_empty : InStep {} := ⟨sound_empty, by simp⟩

/-! ## Lookups -/

variable {t : Tables} {name : String}

theorem coupon?_some (t : Tables) (name : String) (row : Coupon)
    (found : t.coupon? name = some row) : row ∈ t.coupons ∧ row.name = name := by
  refine ⟨List.mem_of_find?_eq_some found, ?_⟩
  simpa using List.find?_some found

theorem coupon?_eq_none_iff (t : Tables) (name : String) :
    t.coupon? name = none ↔ name ∉ t.coupons.map (·.name) := by
  simp [coupon?]

theorem Sound.coupon?_of_mem (sound : t.Sound) (row : Coupon) (member : row ∈ t.coupons) :
    t.coupon? row.name = some row := by
  cases found : t.coupon? row.name with
  | none =>
      rw [coupon?_eq_none_iff] at found
      exact absurd (List.mem_map_of_mem member) found
  | some other =>
      obtain ⟨otherMember, named⟩ := coupon?_some t row.name other found
      rw [List.inj_on_of_nodup_map sound.names otherMember member named]

/-- Taking a unit changes the named row, if it has one left, and no other. -/
theorem coupon?_takeUnit (t : Tables) (name other : String) :
    (t.takeUnit name).2.coupon? other = (t.coupon? other).map fun row =>
      if canTake name row then { row with remaining := row.remaining - 1 } else row := by
  have kept : ∀ row : Coupon,
      (if canTake name row then { row with remaining := row.remaining - 1 } else row).name =
        row.name := by
    intro row
    split <;> rfl
  simp only [coupon?, takeUnit, List.find?_map, Function.comp_def, kept]

/-- The guarded update changes just the row that has a unit left. -/
theorem Sound.takeUnit_affected (sound : t.Sound) (row : Coupon)
    (found : t.coupon? name = some row) (stock : 0 < row.remaining) : (t.takeUnit name).1 = 1 := by
  obtain ⟨member, named⟩ := coupon?_some t name row found
  have able : canTake name row = true := by simp [canTake, named, stock]
  have only : ∀ other ∈ t.coupons.filter (canTake name), other = row := by
    intro other listed
    obtain ⟨otherMember, otherAble⟩ := List.mem_filter.mp listed
    have otherNamed : other.name = name := by
      simp only [canTake, Bool.and_eq_true, decide_eq_true_eq] at otherAble
      exact otherAble.1
    exact List.inj_on_of_nodup_map sound.names otherMember member (otherNamed.trans named.symm)
  have listed : row ∈ t.coupons.filter (canTake name) := List.mem_filter.mpr ⟨member, able⟩
  have single : t.coupons.filter (canTake name) = [row] := by
    have once := (List.Nodup.of_map _ sound.names).filter (canTake name)
    generalize t.coupons.filter (canTake name) = rows at *
    cases rows with
    | nil => cases listed
    | cons head rest =>
        obtain rfl := only head List.mem_cons_self
        cases rest with
        | nil => rfl
        | cons next rest =>
            have same := only next (by simp)
            subst same
            simp at once
  simp [takeUnit, single]

/-- Where there is nothing to take, the guarded update changes nothing. -/
theorem Sound.takeUnit_empty (sound : t.Sound)
    (empty : ∀ row, t.coupon? name = some row → row.remaining ≤ 0) :
    t.takeUnit name = (0, t) := by
  have unable : ∀ row ∈ t.coupons, canTake name row = false := by
    intro row member
    by_cases named : row.name = name
    · subst named
      have nothing := empty row (sound.coupon?_of_mem row member)
      simpa [canTake] using nothing
    · simp [canTake, named]
  have kept : (t.coupons.map fun row =>
      if canTake name row then { row with remaining := row.remaining - 1 } else row) =
      t.coupons := by
    refine (List.map_congr_left fun row member => ?_).trans (List.map_id t.coupons)
    simp [unable row member]
  have none_changed : t.coupons.filter (canTake name) = [] := by
    rw [List.filter_eq_nil_iff]
    intro row member
    simp [unable row member]
  simp [takeUnit, kept, none_changed]

/-! ## Statements that are refused or keep the constraints -/

theorem addCoupon_ok (row : Coupon) (after : Tables) (added : t.addCoupon row = .ok after) :
    0 < row.total ∧ 0 ≤ row.remaining ∧ row.remaining ≤ row.total ∧ t.coupon? row.name = none ∧
      after = { t with coupons := t.coupons ++ [row] } := by
  unfold addCoupon at added
  split at added
  · cases added
  · rename_i checked
    split at added
    · cases added
    · rename_i free
      simp only [isSound, Bool.and_eq_true, decide_eq_true_eq, not_not] at checked
      cases added
      exact ⟨checked.1.1, checked.1.2, checked.2, by simpa using free, rfl⟩

theorem addClaim_ok (user coupon : String) (now : Int) (row : ClaimRow) (after : Tables)
    (added : t.addClaim user coupon now = .ok (row, after)) :
    (user, coupon) ∉ t.claims.map ClaimRow.key ∧ (t.coupon? coupon).isSome ∧
      row = ⟨t.lastId + 1, user, coupon, now⟩ ∧
      after = { t with claims := t.claims ++ [row], lastId := t.lastId + 1 } := by
  unfold addClaim at added
  split at added
  · cases added
  · rename_i free
    split at added
    · cases added
    · rename_i known
      cases added
      refine ⟨?_, by simpa [Option.isSome_iff_ne_none] using known, rfl, rfl⟩
      simpa [ClaimRow.key] using free

theorem Sound.addCoupon (sound : t.Sound) (row : Coupon) (after : Tables)
    (added : t.addCoupon row = .ok after) : after.Sound := by
  obtain ⟨total, least, most, free, rfl⟩ := addCoupon_ok row after added
  refine ⟨?_, ?_, sound.once, ?_, sound.ids, sound.idBound⟩
  · rw [coupon?_eq_none_iff] at free
    simp only [List.map_append, List.map_singleton, List.nodup_append]
    refine ⟨sound.names, by simp, ?_⟩
    rintro other member _ new rfl
    rw [List.mem_singleton.mp new] at member
    exact free member
  · intro other member
    rcases List.mem_append.mp member with old | new
    · exact sound.stock other old
    · rw [List.mem_singleton.mp new]
      exact ⟨total, least, most⟩
  · intro claim member
    have known := sound.named claim member
    unfold coupon? at known ⊢
    rw [List.find?_append, Option.isSome_or, known, Bool.true_or]

theorem Sound.addClaim (sound : t.Sound) (user coupon : String) (now : Int) (row : ClaimRow)
    (after : Tables) (added : t.addClaim user coupon now = .ok (row, after)) : after.Sound := by
  obtain ⟨free, known, rfl, rfl⟩ := addClaim_ok user coupon now row after added
  refine ⟨sound.names, sound.stock, ?_, ?_, ?_, ?_⟩
  · simp only [List.map_append, List.map_singleton, ClaimRow.key, List.nodup_append]
    refine ⟨sound.once, by simp, ?_⟩
    rintro key old _ new rfl
    rw [List.mem_singleton.mp new] at old
    exact free old
  · intro claim member
    rcases List.mem_append.mp member with old | new
    · exact sound.named claim old
    · rw [List.mem_singleton.mp new]
      exact known
  · simp only [List.map_append, List.map_singleton, List.pairwise_append]
    refine ⟨sound.ids, by simp, ?_⟩
    intro id old last new
    obtain ⟨claim, member, rfl⟩ := List.mem_map.mp old
    have bound := sound.idBound claim member
    rw [List.mem_singleton.mp new]
    omega
  · intro claim member
    rcases List.mem_append.mp member with old | new
    · exact Nat.le_succ_of_le (sound.idBound claim old)
    · obtain rfl := List.mem_singleton.mp new
      exact Nat.le_refl _

theorem Sound.takeUnit (sound : t.Sound) (name : String) : (t.takeUnit name).2.Sound := by
  refine ⟨?_, ?_, sound.once, ?_, sound.ids, sound.idBound⟩
  · have names : (t.takeUnit name).2.coupons.map (·.name) = t.coupons.map (·.name) := by
      simp only [Tables.takeUnit, List.map_map]
      refine List.map_congr_left fun row _ => ?_
      simp only [Function.comp_apply]
      split <;> rfl
    rw [names]
    exact sound.names
  · intro row member
    obtain ⟨old, oldMember, rfl⟩ := List.mem_map.mp member
    have stock := sound.stock old oldMember
    split
    · rename_i able
      simp only [canTake, Bool.and_eq_true, decide_eq_true_eq] at able
      dsimp only
      omega
    · exact stock
  · intro claim member
    rw [coupon?_takeUnit, Option.isSome_map]
    exact sound.named claim member

/-- What only reads leaves the tables alone. -/
theorem exec_of_not_writes (t : Tables) (q : Statement) (reads : t.writes q = false) :
    (t.exec q).2 = t := by
  cases q with
  | define object =>
      simp only [writes, decide_eq_false_iff_not, not_not] at reads
      exact if_pos reads
  | touchCoupon name => rfl
  | _ => first | rfl | cases reads

/-! ## Claims and stock -/

def Stocked (t : Tables) (name : String) : Prop :=
  ∃ row, t.coupon? name = some row ∧ 0 < row.remaining

theorem InStep.addCoupon (inStep : t.InStep) (amount : Int) (after : Tables)
    (added : t.addCoupon (.fresh name amount) = .ok after) : after.InStep := by
  refine ⟨inStep.sound.addCoupon _ after added, ?_⟩
  obtain ⟨-, -, -, free, rfl⟩ := addCoupon_ok _ after added
  intro row member
  rcases List.mem_append.mp member with old | new
  · exact inStep.balanced row old
  · -- Nobody can have a claim on a coupon that did not exist.
    have unclaimed : t.claimsOn name = [] := by
      rw [claimsOn, List.filter_eq_nil_iff]
      intro claim claimMember named
      have known := inStep.sound.named claim claimMember
      rw [of_decide_eq_true named] at known
      simp only [Coupon.fresh] at free
      rw [free] at known
      cases known
    rw [List.mem_singleton.mp new]
    change ((t.claimsOn name).length : Int) = amount - amount
    simp [unclaimed]

/-- A claim and a unit of its coupon, taken together, keep claims and stock in step. -/
theorem InStep.grant (inStep : t.InStep) (user coupon : String) (now : Int) (row : ClaimRow)
    (between : Tables) (added : t.addClaim user coupon now = .ok (row, between))
    (stocked : t.Stocked coupon) : (between.takeUnit coupon).2.InStep := by
  refine ⟨(inStep.sound.addClaim user coupon now row between added).takeUnit coupon, ?_⟩
  obtain ⟨-, -, rfl, rfl⟩ := addClaim_ok user coupon now row between added
  obtain ⟨stock, found, left⟩ := stocked
  intro after member
  obtain ⟨old, oldMember, rfl⟩ := List.mem_map.mp member
  have balanced := inStep.balanced old oldMember
  by_cases own : old.name = coupon
  · have same : old = stock := by
      have known := inStep.sound.coupon?_of_mem old oldMember
      rw [own, found] at known
      exact (Option.some.inj known).symm
    subst same
    have able : canTake coupon old = true := by simp [canTake, own, left]
    rw [if_pos able]
    simp only [claimsOn, Tables.takeUnit, List.filter_append, List.length_append, own] at balanced ⊢
    simp only [decide_true, List.filter_cons_of_pos, List.filter_nil, List.length_singleton]
    omega
  · have unable : canTake coupon old = false := by simp [canTake, own]
    have apart : ¬ coupon = old.name := fun same => own same.symm
    rw [unable]
    simpa [claimsOn, Tables.takeUnit, List.filter_append, apart] using balanced

end Tables

end CouponDesk.Relational
