import FactoryThing.Lib.GregorianCalendar
import Mathlib.Data.Set.Function
import Mathlib.Tactic.ByContra

/-!
# Times and their calendar fields

`UA_DateTime_toStruct` (`src/ua_types.c:95-117`) with `__secs_to_tm` (`deps/libc_time.c`). A time is
a number of 100 nanoseconds since 1601; the seconds since 1970 are rounded towards 1970, so that
fractions of a second before it are counted from the second after them.
-/

namespace FactoryThing.Types

open GregorianCalendar

/-- `struct tm`. -/
structure Tm where
  sec : Int
  min : Int
  hour : Int
  mday : Int
  mon : Int
  year : Int
  wday : Int
  yday : Int
  deriving DecidableEq

def leapEpoch : Int := 946684800 + 86400 * (31 + 29)

/-- `days_in_month`. -/
def daysInMonthFromMarch : List Int := [31, 30, 31, 30, 31, 31, 30, 31, 30, 31, 31, 29]

/-- A quotient and a remainder that is not negative (`:29-34`, `:39-44`). -/
def splitDown (n divisor : Int) : Int × Int :=
  let quotient := n.tdiv divisor
  let remainder := n.tmod divisor
  if remainder < 0 then (quotient - 1, remainder + divisor) else (quotient, remainder)

/-- `c_cycles`, `q_cycles` and `remyears` (`:46-55`): the last one is not begun again. -/
def wholeCycles (remdays daysPerCycle limit : Int) : Int :=
  let cycles := remdays.tdiv daysPerCycle
  if cycles = limit then cycles - 1 else cycles

/-- The loop over the months (`:64-65`). -/
def countMonths : List Int → Nat → Int → Nat × Int
  | [], months, remdays => (months, remdays)
  | daysInMonth :: rest, months, remdays =>
      if daysInMonth ≤ remdays then countMonths rest (months + 1) (remdays - daysInMonth)
      else (months, remdays)

/-- `__secs_to_tm` (`deps/libc_time.c:15-85`). Nothing is written if the year does not fit. -/
def secsToTm (t : Int) : Option Tm :=
  if t < -2147483648 * 31622400 ∨ t > 2147483647 * 31622400 then none
  else
    let secs := t - leapEpoch
    let (days, remsecs) := splitDown secs 86400
    let wday := (3 + days).tmod 7
    let wday := if wday < 0 then wday + 7 else wday
    let (qcCycles, remdays) := splitDown days 146097
    let cCycles := wholeCycles remdays 36524 4
    let remdays := remdays - cCycles * 36524
    let qCycles := wholeCycles remdays 1461 25
    let remdays := remdays - qCycles * 1461
    let remyears := wholeCycles remdays 365 4
    let remdays := remdays - remyears * 365
    let leap : Int := if remyears = 0 ∧ (qCycles ≠ 0 ∨ cCycles = 0) then 1 else 0
    let yday := remdays + 31 + 28 + leap
    let yday := if yday ≥ 365 + leap then yday - (365 + leap) else yday
    let years := remyears + 4 * qCycles + 100 * cCycles + 400 * qcCycles
    let (months, remdays) := countMonths daysInMonthFromMarch 0 remdays
    if years + 100 > 2147483647 ∨ years + 100 < -2147483648 then none
    else
      let (mon, year) : Int × Int :=
        if (months : Int) + 2 ≥ 12 then (months + 2 - 12, years + 100 + 1)
        else (months + 2, years + 100)
      some
        { sec := remsecs.tmod 60
          min := (remsecs.tdiv 60).tmod 60
          hour := remsecs.tdiv 3600
          mday := remdays + 1
          mon := mon
          year := year
          wday := wday
          yday := yday }

/-- `UA_DateTimeStruct`. -/
structure DateTimeStruct where
  nanoSec : UInt16
  microSec : UInt16
  milliSec : UInt16
  sec : UInt16
  min : UInt16
  hour : UInt16
  day : UInt16
  month : UInt16
  year : UInt16
  deriving DecidableEq

def secToDateTime : Int64 := 10000000

/-- `UA_DATETIME_UNIX_EPOCH`. -/
def unixEpoch : Int64 := 11644473600 * secToDateTime

/-- `UA_DateTime_toStruct` (`:97-117`). -/
def toStruct (t : Int64) : DateTimeStruct :=
  let secSinceUnixEpoch := (t - unixEpoch) / secToDateTime
  let ts := (secsToTm secSinceUnixEpoch.toInt).getD ⟨0, 0, 0, 0, 0, 0, 0, 0⟩
  { nanoSec := .ofInt (t % 10 * 100).toInt
    microSec := .ofInt (t % 10000 / 10).toInt
    milliSec := .ofInt (t % 10000000 / 10000).toInt
    sec := .ofInt ts.sec
    min := .ofInt ts.min
    hour := .ofInt ts.hour
    day := .ofInt ts.mday
    month := .ofInt (ts.mon + 1)
    year := .ofInt (ts.year + 1900) }

/-- The fields are in their ranges. -/
structure DateTimeStruct.Valid (s : DateTimeStruct) : Prop where
  nanoSec : s.nanoSec.toNat < 1000
  microSec : s.microSec.toNat < 1000
  milliSec : s.milliSec.toNat < 1000
  sec : s.sec.toNat < 60
  min : s.min.toNat < 60
  hour : s.hour.toNat < 24
  date : ValidDate s.year.toNat s.month.toNat s.day.toNat

def DateTimeStruct.seconds (s : DateTimeStruct) : Int :=
  86400 * dayNumber s.year.toNat s.month.toNat s.day.toNat + 3600 * s.hour.toNat +
    60 * s.min.toNat + s.sec.toNat

/-- The time since 1970, in units of 100 nanoseconds. -/
def DateTimeStruct.time (s : DateTimeStruct) : Int :=
  s.seconds * 10000000 + s.milliSec.toNat * 10000 + s.microSec.toNat * 10 + s.nanoSec.toNat / 100

/-- From the year down to the nanoseconds. -/
def DateTimeStruct.fields (s : DateTimeStruct) : List Nat :=
  [s.year.toNat, s.month.toNat, s.day.toNat, s.hour.toNat, s.min.toNat, s.sec.toNat,
    s.milliSec.toNat, s.microSec.toNat, s.nanoSec.toNat]

def Denotes (s : DateTimeStruct) (t : Int64) : Prop :=
  s.Valid ∧ s.time = t.toInt - unixEpoch.toInt

/-- The year of the time is one of a `UA_UInt16`. -/
def YearFits (t : Int64) : Prop :=
  dayNumber 0 1 1 * 864000000000 ≤ t.toInt - unixEpoch.toInt ∧
    t.toInt - unixEpoch.toInt < dayNumber 65536 1 1 * 864000000000

/-- Nothing is lost by rounding towards 1970. -/
def NotRounded (t : Int64) : Prop :=
  unixEpoch ≤ t ∨ 10000000 ∣ t.toInt

/-- The example of the tests (`tests/check_types_builtin.c:998-1020`). -/
example : toStruct (13974671891234567 + unixEpoch) = ⟨700, 456, 123, 49, 19, 9, 14, 4, 2014⟩ := by
  decide

/-- The fields are those of a number of seconds since 1970. -/
structure CivilTime (tm : Tm) (t : Int) : Prop where
  sec : 0 ≤ tm.sec ∧ tm.sec < 60
  min : 0 ≤ tm.min ∧ tm.min < 60
  hour : 0 ≤ tm.hour ∧ tm.hour < 24
  mday : 0 ≤ tm.mday
  mon : 0 ≤ tm.mon
  date : ValidDate (tm.year + 1900) (tm.mon + 1).toNat tm.mday.toNat
  seconds : 86400 * dayNumber (tm.year + 1900) (tm.mon + 1).toNat tm.mday.toNat +
    3600 * tm.hour + 60 * tm.min + tm.sec = t

theorem splitDown_eq (n : Int) {divisor : Int} (hpos : 0 < divisor) :
    splitDown n divisor = (n / divisor, n % divisor) := by
  have hnonneg := Int.emod_nonneg n (Int.ne_of_gt hpos)
  have hlt := Int.emod_lt_of_pos n hpos
  unfold splitDown
  rw [Int.tdiv_eq_ediv, Int.tmod_eq_emod]
  by_cases hexact : 0 ≤ n ∨ divisor ∣ n
  · rw [if_pos hexact, if_pos hexact, Nat.cast_zero, Int.sub_zero, Int.add_zero, if_neg (by omega)]
  · rw [if_neg hexact, if_neg hexact, Int.sign_eq_one_of_pos hpos, if_pos (by omega)]
    refine Prod.ext ?_ ?_
    · omega
    · omega

theorem wholeCycles_eq {remdays : Int} (hnonneg : 0 ≤ remdays) (daysPerCycle limit : Int) :
    wholeCycles remdays daysPerCycle limit =
      if remdays / daysPerCycle = limit then limit - 1 else remdays / daysPerCycle := by
  unfold wholeCycles
  dsimp only
  rw [Int.tdiv_eq_ediv_of_nonneg hnonneg]
  split
  · rename_i heq
    rw [heq]
  · rfl

theorem countMonths_spec (lengths : List Int) (months : Nat) {remdays : Int} (hnonneg : 0 ≤ remdays)
    (hlt : remdays < lengths.sum) : ∃ m d, countMonths lengths months remdays = (months + m, d) ∧
      m < lengths.length ∧ (lengths.take m).sum + d = remdays ∧ 0 ≤ d ∧ d < lengths.getD m 0 := by
  induction lengths generalizing months remdays with
  | nil =>
    rw [List.sum_nil] at hlt
    omega
  | cons days rest ih =>
    unfold countMonths
    rw [List.sum_cons] at hlt
    by_cases hpassed : days ≤ remdays
    · obtain ⟨m, d, heq, hm, hsum, hd, hd'⟩ := ih (months + 1) (show 0 ≤ remdays - days by omega)
        (by omega)
      refine ⟨m + 1, d, ?_, Nat.succ_lt_succ hm, ?_, hd, hd'⟩
      · rw [if_pos hpassed, heq, Nat.add_assoc, Nat.add_comm 1]
      · rw [List.take_succ_cons, List.sum_cons]
        omega
    · exact ⟨0, remdays, if_neg hpassed, Nat.succ_pos _, Int.zero_add _, hnonneg,
        Int.not_le.mp hpassed⟩

theorem cycles_spec {r c q y : Int} (hnonneg : 0 ≤ r) (hlt : r < 146097)
    (hc : wholeCycles r 36524 4 = c) (hq : wholeCycles (r - c * 36524) 1461 25 = q)
    (hy : wholeCycles (r - c * 36524 - q * 1461) 365 4 = y) :
    (0 ≤ c ∧ c ≤ 3) ∧ (0 ≤ q ∧ q ≤ 24) ∧ (0 ≤ y ∧ y ≤ 3) ∧
      0 ≤ r - c * 36524 - q * 1461 - y * 365 ∧ r - c * 36524 - q * 1461 - y * 365 ≤ 365 ∧
      (r - c * 36524 - q * 1461 - y * 365 = 365 → y = 3 ∧ (q ≠ 24 ∨ c = 3)) := by
  have hhundred : 0 ≤ c ∧ c ≤ 3 ∧ 0 ≤ r - c * 36524 ∧ r - c * 36524 ≤ 36524 ∧
      (r - c * 36524 = 36524 → c = 3) := by
    rw [wholeCycles_eq hnonneg] at hc
    split at hc <;> omega
  obtain ⟨hc, hc', hrest, hrest', hlast⟩ := hhundred
  have hfour : 0 ≤ q ∧ q ≤ 24 ∧ 0 ≤ r - c * 36524 - q * 1461 ∧ r - c * 36524 - q * 1461 ≤ 1460 := by
    rw [wholeCycles_eq hrest] at hq
    split at hq <;> omega
  obtain ⟨hq, hq', hrest, hrest'⟩ := hfour
  rw [wholeCycles_eq hrest] at hy
  split at hy <;> omega

theorem secsToTm_eq {t : Int}
    (hfits : ¬ (t < -2147483648 * 31622400 ∨ t > 2147483647 * 31622400)) :
    ∃ (n : Int) (m : Nat) (d remsecs wday yday : Int),
      m < 12 ∧ 0 ≤ d ∧ d < daysInMonthFromMarch.getD m 0 ∧
        (m = 11 → (d + 1).toNat = 29 → IsLeap (2001 + n)) ∧ 0 ≤ remsecs ∧ remsecs < 86400 ∧
        86400 * (11017 + daysBeforeMarch n + (daysInMonthFromMarch.take m).sum + d) + remsecs = t ∧
        secsToTm t =
          if n + 100 > 2147483647 ∨ n + 100 < -2147483648 then none
          else some
            { sec := remsecs.tmod 60
              min := (remsecs.tdiv 60).tmod 60
              hour := remsecs.tdiv 3600
              mday := d + 1
              mon := if (m : Int) + 2 ≥ 12 then m + 2 - 12 else m + 2
              year := if (m : Int) + 2 ≥ 12 then n + 100 + 1 else n + 100
              wday := wday
              yday := yday } := by
  unfold secsToTm
  rw [if_neg hfits]
  dsimp only
  rw [splitDown_eq _ (by decide)]
  rw [splitDown_eq _ (by decide)]
  have hsecs : (t - leapEpoch) / 86400 * 86400 + (t - leapEpoch) % 86400 = t - 951868800 := by
    unfold leapEpoch
    omega
  have hremsecs : 0 ≤ (t - leapEpoch) % 86400 ∧ (t - leapEpoch) % 86400 < 86400 := by omega
  generalize (t - leapEpoch) / 86400 = days at hsecs ⊢
  generalize (t - leapEpoch) % 86400 = remsecs at hsecs hremsecs ⊢
  have hremdays : 0 ≤ days % 146097 ∧ days % 146097 < 146097 := by omega
  have hdays : days / 146097 * 146097 + days % 146097 = days := by omega
  generalize days % 146097 = remdays at hdays hremdays ⊢
  generalize days / 146097 = qcCycles at hdays ⊢
  generalize hc : wholeCycles remdays 36524 4 = c
  generalize hq : wholeCycles (remdays - c * 36524) 1461 25 = q
  generalize hy : wholeCycles (remdays - c * 36524 - q * 1461) 365 4 = y
  obtain ⟨⟨hc, hc'⟩, ⟨hq, hq'⟩, ⟨hy, hy'⟩, hleft, hleft', hlast⟩ :=
    cycles_spec hremdays.1 hremdays.2 hc hq hy
  have hsum : daysInMonthFromMarch.sum = 366 := by decide
  obtain ⟨m, d, hcount, hm, htake, hd, hd'⟩ := countMonths_spec daysInMonthFromMarch 0 hleft
    (by omega)
  have hyears : daysBeforeMarch (y + 4 * q + 100 * c + 400 * qcCycles) =
      365 * y + 1461 * q + 36524 * c + 146097 * qcCycles :=
    daysBeforeMarch_cycles hc hc' hq hq' hy hy'
  rw [hcount, Nat.zero_add]
  generalize (if (3 + days).tmod 7 < 0 then _ else _ : Int) = wday
  generalize (if remdays - c * 36524 - q * 1461 - y * 365 + 31 + 28 + _ ≥ _ then _ else _ : Int) =
    yday
  refine ⟨y + 4 * q + 100 * c + 400 * qcCycles, m, d, remsecs, wday, yday, hm, hd, hd', ?_,
    hremsecs.1, hremsecs.2, ?_, ?_⟩
  · -- The 29th of February is the 366th day.
    rintro rfl hlastDay
    have hpassed : (daysInMonthFromMarch.take 11).sum = 337 := by decide
    obtain ⟨rfl, hcentury⟩ := hlast (by omega)
    unfold IsLeap
    omega
  · omega
  · by_cases hwrap : (m : Int) + 2 ≥ 12
    · rw [if_pos hwrap, if_pos hwrap, if_pos hwrap]
    · rw [if_neg hwrap, if_neg hwrap, if_neg hwrap]

theorem secsToTm_spec {t : Int} (ht : -10 ^ 15 ≤ t) (ht' : t ≤ 10 ^ 15) :
    ∃ tm, secsToTm t = some tm ∧ CivilTime tm t := by
  obtain ⟨n, m, d, remsecs, wday, yday, hm, hd, hd', hleap, hrem, hrem', htime, heq⟩ :=
    secsToTm_eq (t := t) (by omega)
  have hpassed : 0 ≤ (daysInMonthFromMarch.take m).sum ∧
    (daysInMonthFromMarch.take m).sum ≤ 366 := by
    interval_cases m <;> decide
  have hlength : daysInMonthFromMarch.getD m 0 ≤ 31 := by
    interval_cases m <;> decide
  have hfits : ¬ (n + 100 > 2147483647 ∨ n + 100 < -2147483648) := by
    unfold daysBeforeMarch at htime
    omega
  rw [if_neg hfits] at heq
  refine ⟨_, heq, ?_⟩
  have hmonth : ((if (m : Int) + 2 ≥ 12 then (m : Int) + 2 - 12 else m + 2) + 1).toNat =
      if m < 10 then m + 3 else m - 9 := by
    split <;> split <;> omega
  have hyear : (if (m : Int) + 2 ≥ 12 then n + 100 + 1 else n + 100) + 1900 =
      if m < 10 then 2000 + n else 2001 + n := by
    split <;> split <;> omega
  have hday : ((d + 1).toNat : Int) = d + 1 := Int.toNat_of_nonneg (by omega)
  have hhour : remsecs.tdiv 3600 = remsecs / 3600 := Int.tdiv_eq_ediv_of_nonneg hrem
  have hmin : (remsecs.tdiv 60).tmod 60 = remsecs / 60 % 60 := by
    rw [Int.tdiv_eq_ediv_of_nonneg hrem, Int.tmod_eq_emod_of_nonneg (by omega)]
  have hsec : remsecs.tmod 60 = remsecs % 60 := Int.tmod_eq_emod_of_nonneg hrem
  constructor
  · dsimp only
    omega
  · dsimp only
    omega
  · dsimp only
    omega
  · dsimp only
    omega
  · dsimp only
    split <;> omega
  · dsimp only
    rw [hyear, hmonth]
    refine validDate_march n hm (by omega) ?_ hleap
    rw [hday]
    exact hd'
  · have hdate := dayNumber_march n (d := (d + 1).toNat) hm
    rw [show marchMonths = daysInMonthFromMarch from rfl] at hdate
    dsimp only
    rw [hyear, hmonth, hdate]
    omega

variable {t t' : Int64}

theorem toNat_ofInt (n : Int) : ((UInt16.ofInt n).toNat : Int) = n % 65536 := by
  unfold UInt16.ofInt
  rw [UInt16.toNat_ofNat']
  omega

theorem toInt_unixEpoch : unixEpoch.toInt = 116444736000000000 := by decide

theorem toInt_nanoSec (t : Int64) : (t % 10 * 100).toInt = t.toInt.tmod 10 * 100 := by
  have hbound : -10 < t.toInt.tmod 10 ∧ t.toInt.tmod 10 < 10 :=
    ⟨Int.lt_tmod_of_pos _ (by decide), Int.tmod_lt_of_pos _ (by decide)⟩
  rw [Int64.toInt_mul, Int64.toInt_mod, show (10 : Int64).toInt = 10 from rfl,
    show (100 : Int64).toInt = 100 from rfl, Int.bmod_eq_of_le (by omega) (by omega)]

theorem toInt_seconds (h : YearFits t) : ((t - unixEpoch) / secToDateTime).toInt =
    (t.toInt - unixEpoch.toInt).tdiv 10000000 := by
  have hfirst : dayNumber 0 1 1 = -719528 := by decide
  have hlow := h.1
  have hhigh := t.toInt_lt
  rw [hfirst, toInt_unixEpoch] at hlow
  rw [Int64.toInt_div_of_ne_right _ _ (by decide), Int64.toInt_sub, toInt_unixEpoch,
    Int.bmod_eq_of_le (by omega) (by omega), show secToDateTime.toInt = 10000000 from rfl]

theorem toStruct_civil (h : YearFits t) :
    (toStruct t).sec.toNat < 60 ∧ (toStruct t).min.toNat < 60 ∧ (toStruct t).hour.toNat < 24 ∧
      ValidDate (toStruct t).year.toNat (toStruct t).month.toNat (toStruct t).day.toNat ∧
      (toStruct t).seconds = (t.toInt - unixEpoch.toInt).tdiv 10000000 := by
  have hfirst : dayNumber 0 1 1 = -719528 := by decide
  have hlow := h.1
  have hhigh := t.toInt_lt
  have hseconds : -62167219200 ≤ (t.toInt - unixEpoch.toInt).tdiv 10000000 ∧
      (t.toInt - unixEpoch.toInt).tdiv 10000000 < 1000000000000 := by
    rw [hfirst, toInt_unixEpoch] at hlow
    rw [toInt_unixEpoch, Int.tdiv_eq_ediv, show Int.sign 10000000 = 1 from rfl]
    split <;> omega
  obtain ⟨tm, heq, hcivil⟩ := secsToTm_spec
    (show -10 ^ 15 ≤ (t.toInt - unixEpoch.toInt).tdiv 10000000 by omega) (by omega)
  obtain ⟨⟨hsec, hsec'⟩, ⟨hmin, hmin'⟩, ⟨hhour, hhour'⟩, hmday, hmon, hdate, htime⟩ := hcivil
  -- The year is one of a `UA_UInt16`, as the days of the years are in order.
  have hyear : 0 ≤ tm.year + 1900 ∧ tm.year + 1900 < 65536 := by
    obtain ⟨hafter, hbefore⟩ := hdate.dayNumber_bounds
    constructor
    · by_contra hneg
      have hmono := daysBeforeYear_mono (show tm.year + 1900 + 1 ≤ 0 by omega)
      have hle : dayNumber (tm.year + 1900 + 1) 1 1 ≤ dayNumber 0 1 1 :=
        Int.sub_le_sub_right (Int.add_le_add_right (Int.add_le_add_right hmono _) _) _
      omega
    · by_contra hlarge
      have hmono := daysBeforeYear_mono (show 65536 ≤ tm.year + 1900 by omega)
      have hle : dayNumber 65536 1 1 ≤ dayNumber (tm.year + 1900) 1 1 :=
        Int.sub_le_sub_right (Int.add_le_add_right (Int.add_le_add_right hmono _) _) _
      have hlast : dayNumber 65536 1 1 = 23217004 := by decide
      omega
  have hmonth := hdate.month_le
  have hday : tm.mday.toNat ≤ 31 := by
    refine hdate.day_le.trans ?_
    unfold daysInMonth
    split <;> first | decide | (split <;> decide)
  have hts : (secsToTm ((t - unixEpoch) / secToDateTime).toInt).getD ⟨0, 0, 0, 0, 0, 0, 0, 0⟩ =
      tm := by
    rw [toInt_seconds h, heq]
    rfl
  have hfields : ((toStruct t).sec.toNat : Int) = tm.sec ∧ ((toStruct t).min.toNat : Int) = tm.min ∧
      ((toStruct t).hour.toNat : Int) = tm.hour ∧ (toStruct t).day.toNat = tm.mday.toNat ∧
      (toStruct t).month.toNat = (tm.mon + 1).toNat ∧
      ((toStruct t).year.toNat : Int) = tm.year + 1900 := by
    unfold toStruct
    dsimp only
    rw [hts]
    rw [toNat_ofInt, toNat_ofInt, toNat_ofInt, toNat_ofInt]
    have hofInt := toNat_ofInt tm.mday
    have hofInt' := toNat_ofInt (tm.mon + 1)
    omega
  obtain ⟨hsecs, hmins, hhours, hdays, hmonths, hyears⟩ := hfields
  refine ⟨by omega, by omega, by omega, ?_, ?_⟩
  · rw [hyears, hmonths, hdays]
    exact hdate
  · unfold DateTimeStruct.seconds
    rw [hyears, hmonths, hdays, hsecs, hmins, hhours]
    exact htime

theorem toStruct_fraction (t : Int64) :
    ((toStruct t).nanoSec.toNat : Int) = t.toInt.tmod 10 * 100 % 65536 ∧
      ((toStruct t).microSec.toNat : Int) = (t.toInt.tmod 10000).tdiv 10 % 65536 ∧
      ((toStruct t).milliSec.toNat : Int) = (t.toInt.tmod 10000000).tdiv 10000 % 65536 := by
  unfold toStruct
  dsimp only
  rw [toNat_ofInt, toNat_ofInt, toNat_ofInt, toInt_nanoSec,
    Int64.toInt_div_of_ne_right _ _ (by decide),
    Int64.toInt_div_of_ne_right _ _ (by decide), Int64.toInt_mod, Int64.toInt_mod]
  exact ⟨rfl, rfl, rfl⟩

theorem toStruct_fraction_of (h : 0 ≤ t.toInt ∨ 10000000 ∣ t.toInt) :
    ((toStruct t).nanoSec.toNat : Int) = t.toInt % 10 * 100 ∧
      ((toStruct t).microSec.toNat : Int) = t.toInt % 10000 / 10 ∧
      ((toStruct t).milliSec.toNat : Int) = t.toInt % 10000000 / 10000 := by
  obtain ⟨hnano, hmicro, hmilli⟩ := toStruct_fraction t
  have hmod : ∀ k : Int, k ∣ 10000000 → t.toInt.tmod k = t.toInt % k := by
    intro k hk
    rw [Int.tmod_eq_emod, if_pos (h.imp_right fun hdvd => hk.trans hdvd), Nat.cast_zero,
      Int.sub_zero]
  rw [hnano, hmicro, hmilli, hmod 10 (by decide), hmod 10000 (by decide), hmod 10000000 (by decide),
    Int.tdiv_eq_ediv_of_nonneg (by omega), Int.tdiv_eq_ediv_of_nonneg (by omega)]
  omega

theorem le_emod_of_neg {n : Int} (hneg : n < 0) (hsmall : -1000 < n) : 1000 ≤ n % 65536 := by
  omega

theorem not_valid_of_neg (hneg : t.toInt < 0) (hfraction : ¬ 10000000 ∣ t.toInt) :
    ¬ (toStruct t).Valid := by
  intro hvalid
  obtain ⟨hnano, hmicro, hmilli⟩ := toStruct_fraction t
  have hnanoSec := hvalid.nanoSec
  have hmicroSec := hvalid.microSec
  have hmilliSec := hvalid.milliSec
  have hmod : ∀ k : Int, 0 ≤ k → ¬ k ∣ t.toInt → t.toInt.tmod k = t.toInt % k - k := by
    intro k hpos hk
    rw [Int.tmod_eq_emod, if_neg (not_or.mpr ⟨Int.not_le.mpr hneg, hk⟩), Int.natAbs_of_nonneg hpos]
  by_cases hten : (10 : Int) ∣ t.toInt
  · by_cases hthousand : (10000 : Int) ∣ t.toInt
    · have hrem := hmod 10000000 (by decide) hfraction
      have hdiv : (10000 : Int) ∣ t.toInt.tmod 10000000 := by omega
      have hwrap := le_emod_of_neg (n := (t.toInt.tmod 10000000).tdiv 10000)
        (by rw [Int.tdiv_eq_ediv_of_dvd hdiv]; omega) (by rw [Int.tdiv_eq_ediv_of_dvd hdiv]; omega)
      omega
    · have hrem := hmod 10000 (by decide) hthousand
      have hdiv : (10 : Int) ∣ t.toInt.tmod 10000 := by omega
      have hwrap := le_emod_of_neg (n := (t.toInt.tmod 10000).tdiv 10)
        (by rw [Int.tdiv_eq_ediv_of_dvd hdiv]; omega) (by rw [Int.tdiv_eq_ediv_of_dvd hdiv]; omega)
      omega
  · have hrem := hmod 10 (by decide) hten
    have hwrap := le_emod_of_neg (n := t.toInt.tmod 10 * 100) (by omega) (by omega)
    omega

theorem denotes_iff (h : YearFits t) : Denotes (toStruct t) t ↔ NotRounded t := by
  have hepoch : unixEpoch ≤ t ↔ 116444736000000000 ≤ t.toInt := by
    rw [Int64.le_iff_toInt_le, toInt_unixEpoch]
  unfold NotRounded
  rw [hepoch]
  by_cases hfraction : 0 ≤ t.toInt ∨ 10000000 ∣ t.toInt
  · obtain ⟨hnano, hmicro, hmilli⟩ := toStruct_fraction_of hfraction
    obtain ⟨hsec, hmin, hhour, hdate, hseconds⟩ := toStruct_civil h
    have hvalid : (toStruct t).Valid := by
      constructor <;> first | assumption | omega
    unfold Denotes DateTimeStruct.time
    rw [and_iff_right hvalid, hseconds, toInt_unixEpoch, Int.tdiv_eq_ediv,
      show Int.sign 10000000 = 1 from rfl]
    split <;> omega
  · have hneg : t.toInt < 0 := by omega
    have hwhole : ¬ 10000000 ∣ t.toInt := fun hdvd => hfraction (Or.inr hdvd)
    refine iff_of_false (fun hdenotes => not_valid_of_neg hneg hwhole hdenotes.1) ?_
    omega

theorem time_le {s s' : DateTimeStruct} (h : s.Valid) (h' : s'.Valid)
    (hle : ¬ s'.fields < s.fields) :
    s.time ≤ s'.time := by
  obtain ⟨hnano, hmicro, hmilli, hsec, hmin, hhour, hdate⟩ := h
  obtain ⟨hnano', hmicro', hmilli', hsec', hmin', hhour', hdate'⟩ := h'
  unfold DateTimeStruct.fields at hle
  simp only [List.cons_lt_cons_iff] at hle
  unfold DateTimeStruct.time DateTimeStruct.seconds
  by_cases hsame : s.year.toNat = s'.year.toNat ∧ s.month.toNat = s'.month.toNat ∧
      s.day.toNat = s'.day.toNat
  · obtain ⟨hyear, hmonth, hday⟩ := hsame
    rw [hyear, hmonth, hday]
    omega
  · have hday := hdate.dayNumber_lt hdate' (by omega)
    omega

/-- For each set of times, all of them are denoted, and different and in the order of the fields,
just if none of them is rounded. -/
theorem toStruct_spec (times : Set Int64) (hyears : ∀ t ∈ times, YearFits t) :
    (∀ t ∈ times, Denotes (toStruct t) t) ∧ Set.InjOn toStruct times ∧
        (∀ t ∈ times, ∀ t' ∈ times, t < t' → ¬ (toStruct t').fields < (toStruct t).fields) ↔
      ∀ t ∈ times, NotRounded t := by
  constructor
  · rintro ⟨hdenotes, -⟩ t ht
    exact (denotes_iff (hyears t ht)).mp (hdenotes t ht)
  · intro hround
    have hdenotes : ∀ t ∈ times, Denotes (toStruct t) t :=
      fun t ht => (denotes_iff (hyears t ht)).mpr (hround t ht)
    refine ⟨hdenotes, ?_, ?_⟩
    · intro t ht t' ht' heq
      have htime := (hdenotes t ht).2
      rw [heq, (hdenotes t' ht').2] at htime
      exact Int64.toInt_inj.mp (by omega)
    · intro t ht t' ht' hlt hfields
      have hle := time_le (hdenotes t' ht').1 (hdenotes t ht).1 (fun hlt => lt_asymm hfields hlt)
      rw [(hdenotes t ht).2, (hdenotes t' ht').2] at hle
      have hlt := Int64.lt_iff_toInt_lt.mp hlt
      omega

theorem toStruct_spec_example : Denotes (toStruct (13974671891234567 + unixEpoch))
    (13974671891234567 + unixEpoch) :=
  ((toStruct_spec {13974671891234567 + unixEpoch}
      (by rintro t rfl; unfold YearFits; decide)).mpr
    (by rintro t rfl; exact Or.inl (by decide))).1 _ rfl

def beforeEpoch : Int64 := unixEpoch - 1

/-- They are given as a second later, and behind the beginning of 1970. -/
theorem beforeEpoch_rounded : toStruct beforeEpoch = ⟨900, 999, 999, 0, 0, 0, 1, 1, 1970⟩ ∧
    ¬ Denotes (toStruct beforeEpoch) beforeEpoch ∧ beforeEpoch < unixEpoch ∧
    (toStruct unixEpoch).fields < (toStruct beforeEpoch).fields := by
  refine ⟨by decide, fun hdenotes => ?_, by decide, by decide⟩
  exact absurd hdenotes.2 (by decide)

end FactoryThing.Types
