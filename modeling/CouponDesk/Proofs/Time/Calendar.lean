import CouponDesk.Time.Instant
import Mathlib.Data.Int.SuccPred
import Mathlib.Order.SuccPred.IntervalSucc
import Mathlib.Tactic.IntervalCases

/-!
# Counting days and seconds

The dates of the calendar are numbered day by day, so that a date is known by its number and the
next date has the next number.  With its date numbered, a reading of a clock becomes a number of
seconds, and a clock that is ahead of universal time shows as many seconds more.
-/

set_option autoImplicit false

namespace CouponDesk

namespace Date

/-- The number of days from the first day of the year zero to the first day of a year. -/
def daysBeforeYear (year : Int) : Int :=
  365 * year + (year + 3) / 4 - (year + 99) / 100 + (year + 399) / 400

/-- The number of days from the first day of a year to the first day of a month. -/
def daysBeforeMonth (year : Int) (month : Nat) : Nat :=
  ((List.range month).map (daysInMonth year)).sum

/-- The number of days from the first day of the year zero to a date. -/
def number (d : Date) : Int :=
  daysBeforeYear d.year + daysBeforeMonth d.year d.month + (d.day - 1)

variable {d e : Date} {year : Int} {month : Nat}

/-! ## Years and months -/

theorem daysBeforeYear_succ (year : Int) :
    daysBeforeYear (year + 1) = daysBeforeYear year + if isLeap year then 366 else 365 := by
  have leap : isLeap year = true ↔ year % 4 = 0 ∧ (year % 100 ≠ 0 ∨ year % 400 = 0) := by
    simp [isLeap]
  unfold daysBeforeYear
  split_ifs with h
  · rw [leap] at h
    omega
  · rw [leap] at h
    omega

theorem daysBeforeYear_mono {earlier later : Int} (order : earlier ≤ later) :
    daysBeforeYear earlier ≤ daysBeforeYear later := by
  unfold daysBeforeYear
  omega

theorem daysBeforeMonth_succ (year : Int) (month : Nat) :
    daysBeforeMonth year (month + 1) = daysBeforeMonth year month + daysInMonth year month := by
  simp [daysBeforeMonth, List.range_succ]

theorem daysBeforeMonth_one (year : Int) : daysBeforeMonth year 1 = 0 := rfl

theorem daysBeforeMonth_mono (year : Int) {earlier later : Nat} (order : earlier ≤ later) :
    daysBeforeMonth year earlier ≤ daysBeforeMonth year later := by
  induction later, order using Nat.le_induction with
  | base => exact Nat.le_refl _
  | succ later _ ih =>
      rw [daysBeforeMonth_succ]
      omega

/-- A year ends with its twelfth month. -/
theorem daysBeforeMonth_thirteen (year : Int) :
    daysBeforeMonth year 13 = if isLeap year then 366 else 365 := by
  cases leap : isLeap year <;> simp [daysBeforeMonth, List.range_succ, daysInMonth, leap]

theorem daysInMonth_pos (low : 1 ≤ month) (high : month ≤ 12) : 0 < daysInMonth year month := by
  have february : 0 < if isLeap year then 29 else 28 := by split_ifs <;> decide
  interval_cases month <;> first | exact february | exact Nat.succ_pos _

theorem daysInMonth_le (year : Int) (month : Nat) : daysInMonth year month ≤ 31 := by
  unfold daysInMonth
  split <;> try split_ifs
  all_goals decide

theorem month_of_daysInMonth (positive : 0 < daysInMonth year month) :
    1 ≤ month ∧ month ≤ 12 := by
  by_contra outside
  have none : daysInMonth year month = 0 := by
    unfold daysInMonth
    split <;> first | rfl | omega
  omega

theorem Exists.month_le (h : d.Exists) : 1 ≤ d.month ∧ d.month ≤ 12 :=
  month_of_daysInMonth (Nat.lt_of_lt_of_le h.1 h.2)

/-! ## Days -/

/-- A date lies in its month. -/
theorem Exists.number_bounds_month (h : d.Exists) :
    daysBeforeYear d.year + daysBeforeMonth d.year d.month ≤ d.number ∧
      d.number < daysBeforeYear d.year + daysBeforeMonth d.year (d.month + 1) := by
  obtain ⟨low, high⟩ := h
  rw [daysBeforeMonth_succ]
  unfold number
  omega

/-- A date lies in its year. -/
theorem Exists.number_bounds_year (h : d.Exists) :
    daysBeforeYear d.year ≤ d.number ∧ d.number < daysBeforeYear (d.year + 1) := by
  obtain ⟨low, high⟩ := h.number_bounds_month
  have month := daysBeforeMonth_mono d.year (Nat.add_le_add_right h.month_le.2 1)
  rw [daysBeforeMonth_thirteen] at month
  rw [daysBeforeYear_succ]
  split_ifs at month ⊢ <;> omega

/-- A day lies in no two periods that follow each other, such as years, or the months of one. -/
theorem eq_of_between {Period : Type} [LinearOrder Period] [SuccOrder Period]
    {before : Period → Int} (mono : ∀ p q, p ≤ q → before p ≤ before q) {p q : Period} {day : Int}
    (inside : before p ≤ day ∧ day < before (Order.succ p))
    (inside' : before q ≤ day ∧ day < before (Order.succ q)) : p = q := by
  have ordered : Monotone before := fun p q => mono p q
  by_contra apart
  exact Set.disjoint_left.mp (ordered.pairwise_disjoint_on_Ico_succ apart) inside inside'

theorem number_inj (hd : d.Exists) (he : e.Exists) (same : d.number = e.number) : d = e := by
  have year : d.year = e.year := by
    have inside := hd.number_bounds_year
    rw [same] at inside
    exact eq_of_between (fun _ _ => daysBeforeYear_mono) inside he.number_bounds_year
  have month : d.month = e.month := by
    have mono (earlier later : Nat) (order : earlier ≤ later) :
        daysBeforeYear e.year + daysBeforeMonth e.year earlier ≤
          daysBeforeYear e.year + daysBeforeMonth e.year later := by
      have days := daysBeforeMonth_mono e.year order
      omega
    have inside := hd.number_bounds_month
    rw [same, year] at inside
    exact eq_of_between mono inside he.number_bounds_month
  have day : d.day = e.day := by
    unfold number at same
    rw [year, month] at same
    omega
  cases d
  cases e
  simp_all

theorem Exists.next (h : d.Exists) : d.next.Exists := by
  have month := h.month_le
  unfold Date.next
  split_ifs with day last
  · exact ⟨Nat.succ_pos _, day⟩
  · exact ⟨Nat.le_refl 1, daysInMonth_pos (Nat.succ_pos _) last⟩
  · exact ⟨Nat.le_refl 1, daysInMonth_pos (Nat.le_refl 1) (Nat.le_add_left 1 11)⟩

theorem Exists.number_next (h : d.Exists) : d.next.number = d.number + 1 := by
  have month := h.month_le
  have inside := h.2
  unfold Date.next
  split_ifs with day last
  · simp only [number]
    omega
  · simp only [number, daysBeforeMonth_succ]
    omega
  · have december : d.month = 12 := by omega
    have thirteen := daysBeforeMonth_thirteen d.year
    rw [daysBeforeMonth_succ] at thirteen
    rw [december] at inside day
    simp only [number, daysBeforeMonth_one, daysBeforeYear_succ, december]
    split_ifs at thirteen ⊢ <;> omega

theorem Exists.previous (h : d.Exists) : d.previous.Exists := by
  have month := h.month_le
  unfold Date.previous
  split_ifs with day first
  · exact ⟨Nat.le_sub_one_of_lt day, Nat.le_trans (Nat.sub_le _ _) h.2⟩
  · have earlier : d.month - 1 ≤ 12 := by omega
    exact ⟨daysInMonth_pos (Nat.le_sub_one_of_lt first) earlier, Nat.le_refl _⟩
  · exact ⟨Nat.succ_pos 30, Nat.le_refl 31⟩

/-- The day before is the one that the date comes after. -/
theorem Exists.next_previous (h : d.Exists) : d.previous.next = d := by
  have month := h.month_le
  obtain ⟨low, high⟩ := h
  unfold Date.previous
  split_ifs with inside first
  · have back : d.day - 1 + 1 = d.day := by omega
    have room : d.day - 1 < daysInMonth d.year d.month := by omega
    simp only [Date.next, if_pos room, back]
  · have back : d.month - 1 + 1 = d.month := by omega
    have earlier : d.month - 1 < 12 := by omega
    have one : 1 = d.day := by omega
    simp only [Date.next, Nat.lt_irrefl, if_false, if_pos earlier, back]
    exact congrArg (Date.mk d.year d.month) one
  · have one : 1 = d.day := by omega
    have january : 1 = d.month := by omega
    simp only [Date.next, daysInMonth, Nat.lt_irrefl, if_false, Int.sub_add_cancel]
    exact congrArg₂ (Date.mk d.year) january one

theorem Exists.number_previous (h : d.Exists) : d.previous.number = d.number - 1 := by
  have following := h.previous.number_next
  rw [h.next_previous] at following
  omega

end Date

namespace Reading

variable {r s : Reading} {offset : Int}

/-- The number of seconds from the first moment of the year zero to a reading.  A leap second has
the number of the second before it. -/
def elapsed (r : Reading) : Int := r.date.number * 86400 + r.second

/-- The clock is less than a day ahead of universal time or behind it. -/
def NearBy (offset : Int) : Prop := -86400 < offset ∧ offset < 86400

theorem elapsed_inj (hr : r.date.Exists) (hs : s.date.Exists) (fitsR : r.second < 86400)
    (fitsS : s.second < 86400) (elapsed : r.elapsed = s.elapsed) (nano : r.nano = s.nano) :
    r = s := by
  unfold Reading.elapsed at elapsed
  have date : r.date = s.date := Date.number_inj hr hs (by omega)
  have second : r.second = s.second := by
    rw [date] at elapsed
    omega
  cases r
  cases s
  simp_all

theorem date_toUniversal (exist : r.date.Exists) : (r.toUniversal offset).date.Exists := by
  unfold toUniversal
  simp only
  split_ifs
  · exact exist.previous
  · exact exist.next
  · exact exist

theorem second_toUniversal (fits : r.second < 86400) (near : NearBy offset) :
    (r.toUniversal offset).second < 86400 := by
  unfold NearBy at near
  unfold toUniversal
  simp only
  split_ifs <;> simp only <;> omega

@[simp]
theorem nano_toUniversal : (r.toUniversal offset).nano = r.nano := by
  unfold toUniversal
  simp only
  split_ifs <;> rfl

/-- Universal time is what the clock shows, less what it is ahead. -/
theorem elapsed_toUniversal (exist : r.date.Exists) (fits : r.second < 86400)
    (near : NearBy offset) : (r.toUniversal offset).elapsed = r.elapsed - offset := by
  unfold NearBy at near
  unfold toUniversal elapsed
  simp only
  split_ifs
  · simp only [exist.number_previous]
    omega
  · simp only [exist.number_next]
    omega
  · simp only
    omega

end Reading

end CouponDesk
