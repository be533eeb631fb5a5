import CouponDesk.Proofs.Settings.Loading
import Mathlib.Tactic.ByContra

/-!
# What validation accepts and what it reports

The checks of settings stand in one order: the address, the connections, the attempts, and then the
seeds as they are listed, the name of each before its amount.  Validation passes settings that meet
all of them and otherwise reports the first that fails; what stands after it has no influence.
-/

set_option autoImplicit false

namespace CouponDesk

def Text.NonBlank (text : String) : Prop := ∃ c ∈ text.toList, isBlank c = false

theorem Text.isBlankText_iff (text : String) : isBlankText text = true ↔ ¬ NonBlank text := by
  simp [isBlankText, NonBlank]

instance (text : String) : Decidable (Text.NonBlank text) :=
  decidable_of_iff (¬ Text.isBlankText text = true)
    (not_iff_comm.mp (Text.isBlankText_iff text).symm)

/-! ## Checks in an order -/

structure Check where
  requirement : Prop
  fault : ConfigFault

namespace Check

def FirstFault (checks : List Check) (fault : ConfigFault) : Prop :=
  ∃ before check after, checks = before ++ check :: after ∧
    (∀ earlier ∈ before, earlier.requirement) ∧ ¬ check.requirement ∧ fault = check.fault

theorem not_firstFault_nil (fault : ConfigFault) : ¬ FirstFault [] fault := by
  rintro ⟨before, check, after, split, -⟩
  simp at split

theorem firstFault_cons (check : Check) (rest : List Check) (fault : ConfigFault) :
    FirstFault (check :: rest) fault ↔
      check.requirement ∧ FirstFault rest fault ∨
        ¬ check.requirement ∧ fault = check.fault := by
  constructor
  · rintro ⟨before, failed, after, split, met, fails, named⟩
    cases before with
    | nil =>
        obtain ⟨rfl, -⟩ := List.cons.inj split
        exact Or.inr ⟨fails, named⟩
    | cons first before =>
        obtain ⟨rfl, rfl⟩ := List.cons.inj split
        refine Or.inl ⟨met check List.mem_cons_self, before, failed, after, rfl, ?_, fails, named⟩
        intro earlier member
        exact met earlier (List.mem_cons_of_mem check member)
  · rintro (⟨first, before, failed, after, rfl, met, fails, named⟩ | ⟨fails, named⟩)
    · refine ⟨check :: before, failed, after, rfl, ?_, fails, named⟩
      intro earlier member
      rcases List.mem_cons.mp member with rfl | member
      · exact first
      · exact met earlier member
    · exact ⟨[], check, rest, rfl, by simp, fails, named⟩

theorem all_met_iff (checks : List Check) :
    (∀ check ∈ checks, check.requirement) ↔ ∀ fault, ¬ FirstFault checks fault := by
  induction checks with
  | nil => simp [not_firstFault_nil]
  | cons check rest ih =>
      constructor
      · intro met fault first
        rcases (firstFault_cons check rest fault).mp first with ⟨-, later⟩ | ⟨fails, -⟩
        · apply ih.mp _ fault later
          intro other member
          exact met other (List.mem_cons_of_mem check member)
        · exact fails (met check List.mem_cons_self)
      · intro none
        have here : check.requirement := by
          by_contra fails
          exact none check.fault ((firstFault_cons check rest _).mpr (Or.inr ⟨fails, rfl⟩))
        have later : ∀ other ∈ rest, other.requirement := by
          apply ih.mpr
          intro fault first
          exact none fault ((firstFault_cons check rest fault).mpr (Or.inl ⟨here, first⟩))
        intro other member
        rcases List.mem_cons.mp member with rfl | member
        · exact here
        · exact later other member

/-- What stands after a failed check has no influence. -/
theorem firstFault_append (before after after' : List Check) (check : Check)
    (fails : ¬ check.requirement) (fault : ConfigFault)
    (first : FirstFault (before ++ check :: after) fault) :
    FirstFault (before ++ check :: after') fault := by
  induction before with
  | nil =>
      rcases (firstFault_cons check after fault).mp first with ⟨met, -⟩ | failed
      · exact absurd met fails
      · exact (firstFault_cons check after' fault).mpr (Or.inr failed)
  | cons earlier before ih =>
      rcases (firstFault_cons earlier _ fault).mp first with ⟨met, later⟩ | failed
      · exact (firstFault_cons earlier _ fault).mpr (Or.inl ⟨met, ih later⟩)
      · exact (firstFault_cons earlier _ fault).mpr (Or.inr failed)

/-- A guard that reports a fault unless a requirement is met, followed by further ones. -/
theorem guard_iff (reported : ConfigFault) {refused requirement : Prop} [Decidable refused]
    {fault : ConfigFault} {rest : List Check} {later : Option ConfigFault}
    (guards : refused ↔ ¬ requirement)
    (follows : later = some fault ↔ FirstFault rest fault) :
    (if refused then some reported else later) = some fault ↔
      FirstFault (⟨requirement, reported⟩ :: rest) fault := by
  rw [firstFault_cons]
  by_cases fails : refused
  · rw [if_pos fails, Option.some.injEq]
    have unmet := guards.mp fails
    simp [unmet, eq_comm]
  · rw [if_neg fails, follows]
    have met : requirement := by
      by_contra unmet
      exact fails (guards.mpr unmet)
    simp [met]

end Check

/-! ## The checks of settings -/

/-- The name of a seed is checked before its amount, and the amount's fault shows the name as it
is. -/
def Seed.checks (seed : Seed) : List Check :=
  [⟨Text.NonBlank seed.name, .blankSeedName⟩,
    ⟨0 < seed.amount, .seedAmount seed.name seed.amount⟩]

namespace Settings

def checks (s : Settings) : List Check :=
  ⟨Text.NonBlank s.database.url, .blankUrl⟩ ::
  ⟨1 ≤ s.database.maxConnections, .noConnections⟩ ::
  ⟨1 ≤ s.claims.maxAttempts, .noAttempts⟩ ::
  s.coupons.flatMap Seed.checks

structure Runnable (s : Settings) : Prop where
  url : Text.NonBlank s.database.url
  connections : 1 ≤ s.database.maxConnections
  attempts : 1 ≤ s.claims.maxAttempts
  seeds : ∀ seed ∈ s.coupons, Text.NonBlank seed.name ∧ 0 < seed.amount

theorem runnable_iff (s : Settings) : s.Runnable ↔ ∀ check ∈ s.checks, check.requirement := by
  constructor
  · intro runnable check member
    simp only [checks, Seed.checks, List.mem_cons, List.mem_flatMap, List.not_mem_nil,
      or_false] at member
    rcases member with rfl | rfl | rfl | ⟨seed, listed, rfl | rfl⟩
    · exact runnable.url
    · exact runnable.connections
    · exact runnable.attempts
    · exact (runnable.seeds seed listed).1
    · exact (runnable.seeds seed listed).2
  · intro met
    simp only [checks, List.forall_mem_cons, List.mem_flatMap] at met
    obtain ⟨url, connections, attempts, seeds⟩ := met
    refine ⟨url, connections, attempts, ?_⟩
    intro seed listed
    have own : ∀ check ∈ seed.checks, check.requirement :=
      fun check member => seeds check ⟨seed, listed, member⟩
    simp only [Seed.checks, List.forall_mem_cons] at own
    exact ⟨own.1, own.2.1⟩

theorem findSome?_fault? (seeds : List Seed) (fault : ConfigFault) :
    seeds.findSome? Seed.fault? = some fault ↔
      Check.FirstFault (seeds.flatMap Seed.checks) fault := by
  induction seeds with
  | nil => simp [Check.not_firstFault_nil]
  | cons seed rest ih =>
      have amount := Check.guard_iff (.seedAmount seed.name seed.amount)
        (Int.not_lt (a := 0) (b := seed.amount)).symm ih
      have name := Check.guard_iff .blankSeedName
        (Text.isBlankText_iff seed.name) amount
      rw [List.flatMap_cons, Seed.checks, List.cons_append, List.cons_append, List.nil_append,
        ← name, List.findSome?_cons, Seed.fault?]
      split_ifs <;> rfl

theorem fault?_eq_some_iff (s : Settings) (fault : ConfigFault) :
    s.fault? = some fault ↔ Check.FirstFault s.checks fault := by
  unfold fault? checks
  apply Check.guard_iff _ (Text.isBlankText_iff s.database.url)
  apply Check.guard_iff _ (by omega)
  apply Check.guard_iff _ (by omega)
  exact findSome?_fault? s.coupons fault

theorem fault?_eq_none_iff (s : Settings) : s.fault? = none ↔ s.Runnable := by
  rw [runnable_iff, Check.all_met_iff, Option.eq_none_iff_forall_ne_some]
  exact forall_congr' fun fault => not_congr (s.fault?_eq_some_iff fault)

theorem validate_eq_ok_iff (s : Settings) : s.validate = .ok () ↔ s.fault? = none := by
  unfold validate
  cases s.fault? <;> simp

theorem validate_eq_error_iff (s : Settings) (e : Error) :
    s.validate = .error e ↔ ∃ fault, s.fault? = some fault ∧ e = .config fault := by
  unfold validate
  cases s.fault? <;> simp [eq_comm]

theorem validate_congr {s t : Settings}
    (same : ∀ fault, Check.FirstFault s.checks fault ↔ Check.FirstFault t.checks fault) :
    s.validate = t.validate := by
  have alike : s.fault? = t.fault? := by
    apply Option.ext
    intro fault
    rw [fault?_eq_some_iff, fault?_eq_some_iff, same]
  unfold validate
  rw [alike]

theorem parse_eq_ok {text : String} {s : Settings} (decoded : ofToml? text = some s)
    (valid : s.fault? = none) : parse text = .ok s := by
  simp only [parse, decoded, checked, (validate_eq_ok_iff s).mpr valid]
  rfl

/-- Validation passes exactly the settings that can be run with, and otherwise reports the first
failed check.  A failed check makes all behind it irrelevant, names may be repeated, and what was
parsed has passed. -/
theorem validate_firstFault (s : Settings) :
    (s.validate = .ok () ↔ s.Runnable) ∧
    (∀ e, s.validate = .error e ↔
      ∃ fault, e = .config fault ∧ Check.FirstFault s.checks fault) ∧
    (∀ (t : Settings) (before after after' : List Check) (check : Check),
      s.checks = before ++ check :: after → t.checks = before ++ check :: after' →
        ¬ check.requirement → t.validate = s.validate) ∧
    (∀ seed ∈ s.coupons, ∀ amount, 0 < amount → s.validate = .ok () →
      ({ s with coupons := s.coupons ++ [⟨seed.name, amount⟩] } : Settings).validate = .ok ()) ∧
    ∀ text, parse text = .ok s → s.validate = .ok () := by
  have accepts : ∀ t : Settings, t.validate = .ok () ↔ t.Runnable :=
    fun t => t.validate_eq_ok_iff.trans t.fault?_eq_none_iff
  refine ⟨accepts s, fun e => ?_, ?_, ?_, fun text parsed => ?_⟩
  · rw [validate_eq_error_iff]
    simp only [fault?_eq_some_iff, and_comm]
  · intro t before after after' check ours theirs fails
    apply validate_congr
    intro fault
    rw [ours, theirs]
    exact ⟨Check.firstFault_append before after' after check fails fault,
      Check.firstFault_append before after after' check fails fault⟩
  · intro seed listed amount positive passed
    have runnable := (accepts s).mp passed
    apply (accepts _).mpr
    refine ⟨runnable.url, runnable.connections, runnable.attempts, ?_⟩
    intro other member
    rcases List.mem_append.mp member with member | repeated
    · exact runnable.seeds other member
    · obtain rfl := List.mem_singleton.mp repeated
      exact ⟨(runnable.seeds seed listed).1, positive⟩
  · exact s.validate_eq_ok_iff.mpr (valid_of_ofRead defaultPath (.ok text) s parsed)

/-- Two faults, of which the later one is hidden, and a name that is listed twice. -/
theorem validate_firstFault_hidden :
    let listed : Settings := { coupons := [⟨" PROMO ", 5⟩] }
    let refused : Settings := { coupons := [⟨" PROMO ", 0⟩, ⟨"\t", 1⟩] }
    let mended : Settings := { coupons := [⟨" PROMO ", 0⟩] }
    parse "coupons = [\x7bname = ' PROMO ', amount = 5\x7d]" = .ok listed ∧
      listed.validate = .ok () ∧
      ({ listed with coupons := listed.coupons ++ [⟨" PROMO ", 2⟩] } : Settings).validate = .ok () ∧
      refused.validate = .error (.config (.seedAmount " PROMO " 0)) ∧
      mended.validate = refused.validate := by
  intro listed refused mended
  have parsed : parse "coupons = [\x7bname = ' PROMO ', amount = 5\x7d]" = .ok listed :=
    parse_eq_ok (by decide +kernel) (by decide)
  obtain ⟨-, -, -, repeated, accepted⟩ := validate_firstFault listed
  obtain ⟨-, reports, hides, -, -⟩ := validate_firstFault refused
  have passed := accepted _ parsed
  refine ⟨parsed, passed, ?_, ?_, ?_⟩
  · exact repeated ⟨" PROMO ", 5⟩ (by decide) 2 (by decide) passed
  · apply (reports _).mpr
    refine ⟨_, rfl, (refused.fault?_eq_some_iff _).mp (by decide)⟩
  · exact hides mended [⟨_, .blankUrl⟩, ⟨_, .noConnections⟩, ⟨_, .noAttempts⟩, ⟨_, .blankSeedName⟩]
      _ [] ⟨0 < (0 : Int), .seedAmount " PROMO " 0⟩ rfl rfl (by decide)

end Settings

end CouponDesk
