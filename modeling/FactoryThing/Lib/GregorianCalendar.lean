import Mathlib.Algebra.Order.BigOperators.Group.Finset
import Mathlib.Order.Interval.Finset.Nat
import Mathlib.Tactic.IntervalCases

/-!
# The Gregorian calendar

Dates of the proleptic calendar, with the year 0 before the year 1, and the number of their day,
counted from 1 January 1970. The numbers are in the order of the dates. A date is also found from
its day in a year that begins with March, where the leap day comes last.
-/

namespace GregorianCalendar

/-! ## Years and months -/

def IsLeap (year : Int) : Prop := 4 ∣ year ∧ (100 ∣ year → 400 ∣ year)

instance (year : Int) : Decidable (IsLeap year) :=
  inferInstanceAs (Decidable (4 ∣ year ∧ (100 ∣ year → 400 ∣ year)))

def daysInYear (year : Int) : Nat := if IsLeap year then 366 else 365

def daysInMonth (year : Int) : Nat → Nat
  | 1 => 31
  | 2 => if IsLeap year then 29 else 28
  | 3 => 31
  | 4 => 30
  | 5 => 31
  | 6 => 30
  | 7 => 31
  | 8 => 31
  | 9 => 30
  | 10 => 31
  | 11 => 30
  | 12 => 31
  | _ => 0

/-- The days from 1 January of the year 1 until the year begins. -/
def daysBeforeYear (year : Int) : Int :=
  365 * (year - 1) + (year - 1) / 4 - (year - 1) / 100 + (year - 1) / 400

/-- The days from the beginning of the year until the month begins. -/
def daysBeforeMonth (year : Int) (month : Nat) : Nat :=
  ∑ m ∈ Finset.range month, daysInMonth year m

theorem daysBeforeYear_succ (year : Int) :
    daysBeforeYear (year + 1) = daysBeforeYear year + daysInYear year := by
  have hleap : IsLeap year ↔ year % 4 = 0 ∧ (year % 100 ≠ 0 ∨ year % 400 = 0) := by
    unfold IsLeap
    omega
  unfold daysBeforeYear daysInYear
  by_cases h : IsLeap year
  · rw [if_pos h]
    rw [hleap] at h
    omega
  · rw [if_neg h]
    rw [hleap] at h
    omega

theorem daysBeforeYear_mono {a b : Int} (h : a ≤ b) : daysBeforeYear a ≤ daysBeforeYear b := by
  obtain ⟨n, rfl⟩ := Int.le.dest h
  induction n with
  | zero => simp
  | succ n ih =>
    have hstep := daysBeforeYear_succ (a + n)
    rw [Nat.cast_succ, ← Int.add_assoc, hstep]
    omega

theorem daysBeforeMonth_succ (year : Int) (month : Nat) :
    daysBeforeMonth year (month + 1) = daysBeforeMonth year month + daysInMonth year month :=
  Finset.sum_range_succ _ _

theorem daysBeforeMonth_mono (year : Int) {a b : Nat} (h : a ≤ b) :
    daysBeforeMonth year a ≤ daysBeforeMonth year b :=
  Finset.sum_le_sum_of_subset (Finset.range_subset_range.mpr h)

theorem daysBeforeMonth_thirteen (year : Int) : daysBeforeMonth year 13 = daysInYear year := by
  unfold daysBeforeMonth daysInYear
  by_cases h : IsLeap year
  · simp [Finset.sum_range_succ, daysInMonth, h]
  · simp [Finset.sum_range_succ, daysInMonth, h]

structure ValidDate (year : Int) (month day : Nat) : Prop where
  month_pos : 1 ≤ month
  month_le : month ≤ 12
  day_pos : 1 ≤ day
  day_le : day ≤ daysInMonth year month

/-- The number of a day, counted from 1 January 1970. -/
def dayNumber (year : Int) (month day : Nat) : Int :=
  daysBeforeYear year + daysBeforeMonth year month + day - 719163

example : dayNumber 1970 1 1 = 0 := by decide

example : dayNumber 2000 3 1 = 11017 := by decide

variable {year year' : Int} {month month' day day' : Nat}

theorem ValidDate.dayNumber_bounds (h : ValidDate year month day) :
    dayNumber year 1 1 ≤ dayNumber year month day ∧
      dayNumber year month day < dayNumber (year + 1) 1 1 := by
  have hfirst : ∀ y, daysBeforeMonth y 1 = 0 := fun _ => rfl
  have hmonths := daysBeforeMonth_mono year (Nat.succ_le_succ h.month_le)
  rw [daysBeforeMonth_succ, daysBeforeMonth_thirteen] at hmonths
  have hyear := daysBeforeYear_succ year
  have hpos := h.day_pos
  have hle := h.day_le
  unfold dayNumber
  rw [hfirst, hfirst]
  omega

theorem ValidDate.dayNumber_lt (h : ValidDate year month day) (h' : ValidDate year' month' day')
    (hlt : year < year' ∨ year = year' ∧ (month < month' ∨ month = month' ∧ day < day')) :
    dayNumber year month day < dayNumber year' month' day' := by
  obtain hyear | ⟨rfl, hmonth | ⟨rfl, hday⟩⟩ := hlt
  · have hyears := daysBeforeYear_mono (show year + 1 ≤ year' from hyear)
    have hfirst : dayNumber (year + 1) 1 1 ≤ dayNumber year' 1 1 := by
      show _ + ((0 : Nat) : Int) + _ - _ ≤ _ + ((0 : Nat) : Int) + _ - _
      omega
    exact h.dayNumber_bounds.2.trans_le (hfirst.trans h'.dayNumber_bounds.1)
  · have hmonths := daysBeforeMonth_mono year (show month + 1 ≤ month' from hmonth)
    have hle := h.day_le
    have hpos := h'.day_pos
    rw [daysBeforeMonth_succ] at hmonths
    unfold dayNumber
    omega
  · unfold dayNumber
    omega

/-- The days from 1 March 2000 until 1 March of the year `2000 + n`. -/
def daysBeforeMarch (n : Int) : Int := 365 * n + n / 4 - n / 100 + n / 400

/-- The months from March on; the last one has a day more than it may need. -/
def marchMonths : List Int := [31, 30, 31, 30, 31, 31, 30, 31, 30, 31, 31, 29]

theorem daysInMonth_march (year : Int) {m : Nat} (hm : m < 10) :
    (daysInMonth year (m + 3) : Int) = marchMonths.getD m 0 := by
  interval_cases m <;> rfl

theorem daysBeforeMonth_march (year : Int) {m : Nat} (hm : m ≤ 10) :
    (daysBeforeMonth year (m + 3) : Int) = daysBeforeMonth year 3 + (marchMonths.take m).sum := by
  induction m with
  | zero => simp
  | succ m ih =>
    have hlength : m < marchMonths.length := Nat.lt_of_lt_of_le hm (by decide)
    rw [Nat.add_right_comm, daysBeforeMonth_succ, Nat.cast_add, ih (Nat.le_of_succ_le hm),
      daysInMonth_march year hm, List.sum_take_succ _ m hlength, ← List.getElem_eq_getD,
      Int.add_assoc]

theorem dayNumber_march (n : Int) {m d : Nat} (hm : m < 12) :
    dayNumber (if m < 10 then 2000 + n else 2001 + n) (if m < 10 then m + 3 else m - 9) d =
      11016 + daysBeforeMarch n + (marchMonths.take m).sum + d := by
  by_cases hyear : m < 10
  · have hleap : IsLeap (2000 + n) ↔ n % 4 = 0 ∧ (n % 100 ≠ 0 ∨ n % 400 = 0) := by
      unfold IsLeap
      omega
    have hmarch : daysBeforeMonth (2000 + n) 3 = 31 + if IsLeap (2000 + n) then 29 else 28 := by
      simp only [daysBeforeMonth, Finset.sum_range_succ, Finset.sum_range_zero, daysInMonth,
        Nat.zero_add]
    rw [if_pos hyear, if_pos hyear, dayNumber, daysBeforeMonth_march _ (Nat.le_of_lt hyear), hmarch]
    unfold daysBeforeYear daysBeforeMarch
    split
    · rename_i h
      rw [hleap] at h
      omega
    · rename_i h
      rw [hleap] at h
      omega
  · have hjanuary : m = 10 ∨ m = 11 := by omega
    have hdays : ∀ year, daysBeforeMonth year 1 = 0 ∧ daysBeforeMonth year 2 = 31 :=
      fun _ => ⟨rfl, rfl⟩
    rw [if_neg hyear, if_neg hyear]
    unfold dayNumber daysBeforeYear daysBeforeMarch
    obtain rfl | rfl := hjanuary
    · rw [(hdays _).1, show (marchMonths.take 10).sum = 306 from by decide]
      omega
    · rw [(hdays _).2, show (marchMonths.take 11).sum = 337 from by decide]
      omega

theorem daysBeforeMarch_cycles {qc c q y : Int} (hc : 0 ≤ c) (hc' : c ≤ 3) (hq : 0 ≤ q)
    (hq' : q ≤ 24) (hy : 0 ≤ y) (hy' : y ≤ 3) : daysBeforeMarch (y + 4 * q + 100 * c + 400 * qc) =
      365 * y + 1461 * q + 36524 * c + 146097 * qc := by
  have hfours : (y + 4 * q + 100 * c + 400 * qc) / 4 = q + 25 * c + 100 * qc := by omega
  have hhundreds : (y + 4 * q + 100 * c + 400 * qc) / 100 = c + 4 * qc := by omega
  have hcycles : (y + 4 * q + 100 * c + 400 * qc) / 400 = qc := by omega
  unfold daysBeforeMarch
  omega

theorem validDate_march (n : Int) {m d : Nat} (hm : m < 12) (hpos : 1 ≤ d)
    (hle : (d : Int) ≤ marchMonths.getD m 0) (hleap : m = 11 → d = 29 → IsLeap (2001 + n)) :
    ValidDate (if m < 10 then 2000 + n else 2001 + n) (if m < 10 then m + 3 else m - 9) d := by
  have hdays : d ≤ daysInMonth (if m < 10 then 2000 + n else 2001 + n)
      (if m < 10 then m + 3 else m - 9) := by
    by_cases hyear : m < 10
    · have hmonth := daysInMonth_march (2000 + n) hyear
      rw [if_pos hyear, if_pos hyear]
      omega
    · have hjanuary : m = 10 ∨ m = 11 := by omega
      obtain rfl | rfl := hjanuary
      · exact Int.ofNat_le.mp hle
      · show d ≤ if IsLeap (2001 + n) then 29 else 28
        have hle : (d : Int) ≤ 29 := hle
        split
        · omega
        · rename_i h
          have hlast : d ≠ 29 := fun heq => h (hleap rfl heq)
          omega
  refine ⟨?_, ?_, hpos, hdays⟩
  · split <;> omega
  · split <;> omega

end GregorianCalendar
