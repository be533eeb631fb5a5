import CouponDesk.Settings.Parse
import Mathlib.Tactic.SplitIfs

/-!
# Settings that were loaded

Whatever settings are loaded from, they have passed their validation when a run begins.
-/

set_option autoImplicit false

namespace CouponDesk.Settings

theorem positive_of_valid (s : Settings) (valid : s.fault? = none) :
    ∀ seed ∈ s.coupons, 0 < seed.amount := by
  intro seed member
  unfold Settings.fault? at valid
  split_ifs at valid
  have sound := List.findSome?_eq_none_iff.mp valid seed member
  unfold Seed.fault? at sound
  split_ifs at sound with blank refused
  omega

theorem valid_of_checked (s checked : Settings) (passed : s.checked = .ok checked) :
    checked.fault? = none := by
  unfold Settings.checked validate at passed
  cases found : s.fault? with
  | some fault =>
      rw [found] at passed
      cases passed
  | none =>
      rw [found] at passed
      cases passed
      exact found

theorem valid_of_ofRead (path : String) (found : Except FileFault String) (s : Settings)
    (read : ofRead path found = .ok s) : s.fault? = none := by
  cases found with
  | error fault => cases read
  | ok text =>
      change parse text = .ok s at read
      unfold parse at read
      split at read
      · exact valid_of_checked _ s read
      · cases read

theorem valid_default : ({} : Settings).fault? = none := by decide

theorem valid_of_resolve (file? : Option (Except FileFault String)) (url? : Option String)
    (s : Settings) (resolved : resolve file? url? = .ok s) : s.fault? = none := by
  unfold resolve at resolved
  cases file? with
  | none =>
      cases url? with
      | none =>
          cases resolved
          exact valid_default
      | some url => exact valid_of_checked _ s resolved
  | some content =>
      change (ofRead defaultPath content >>= _) = _ at resolved
      cases read : ofRead defaultPath content with
      | error e =>
          rw [read] at resolved
          cases resolved
      | ok base =>
          rw [read] at resolved
          cases url? with
          | none =>
              cases resolved
              exact valid_of_ofRead defaultPath content s read
          | some url => exact valid_of_checked _ s resolved

/-- Settings that were loaded have passed their validation, whatever address they were given. -/
theorem valid_of_loadAll (files : Files) (env : Environment) (s : Settings)
    (loaded : loadAll files env = .ok s) : s.fault? = none :=
  valid_of_resolve _ _ s loaded

end CouponDesk.Settings
