import Mathlib.Data.Finset.Insert
import MdInfoSet.Core.Calendar
import MdInfoSet.Core.Checked

/-!
# Dates as numbers (`tradingtime.h`)

A date is a `uint32_t` `yyyymmdd`; the functions divide it into its parts, index tables of
months with them and put it together again, with the wrap of 32 bits. The holidays are a
`std::set<uint32_t>`. A table read out of its range is a `Fault`.

* `code`: the number of a date of the calendar; up to the year 429496 it fits.
* `getTomorrow_code`, `getYesterday_code`, `getDayOfYear_code`, `getWeekDay_code`: on such
  numbers the functions are those of the calendar.
* `calendar_steps`: the day after and the day before undo each other, and the weekday goes
  round with them.
* `getTomorrow_last`: after the last of them the number wraps to one that is no date.
-/
namespace MdInfoSet.TradingTime
open MdInfoSet.Checked (read read_of_some)

/-- mirrors src/qx_commom/tradingtime.h:299-304 -/
def isLeapYear (year : UInt32) : Bool := (year % 4 == 0 && year % 100 != 0) || year % 400 == 0

def month_days : List UInt32 := [0, 31, 59, 90, 120, 151, 181, 212, 243, 273, 304, 334]

def month_days_leap : List UInt32 := [0, 31, 60, 91, 121, 152, 182, 213, 244, 274, 305, 335]

/-- mirrors src/qx_commom/tradingtime.h:307-317; the sum is below 2^31 for every date -/
def getDayOfYear (date : UInt32) : Except Fault UInt32 := do
  let y := date / 10000
  let m := (date % 10000) / 100
  let d := date % 100
  if isLeapYear y then
    let before ← read month_days_leap (m - 1).toNat
    return before + d - 1
  let before ← read month_days (m - 1).toNat
  return before + d - 1

/-- mirrors src/qx_commom/tradingtime.h:405-415: 1 to 7, 1 for Monday -/
def getWeekDay (date : UInt32) : UInt32 :=
  let y := date / 10000
  let m := (date % 10000) / 100
  let d := date % 100
  -- January and February count as months 13 and 14 of the year before.
  let (m, y) := if m == 1 || m == 2 then (m + 12, y - 1) else (m, y)
  let week := (d + 2 * m + 3 * (m + 1) / 5 + y + y / 4 - y / 100 + y / 400) % 7
  week + 1

variable (g_holiday : Finset UInt32)

/-- mirrors src/qx_commom/tradingtime.h:418-424 -/
def isTradingDay (date : UInt32) : Bool :=
  let week := getWeekDay date
  if week > 5 then false
  else if date ∈ g_holiday then false
  else true

/-- The table that `getTomorrow` and `getYesterday` build. -/
def monthdays (y : UInt32) : List UInt32 :=
  let monthdays : List UInt32 := [0, 31, 28, 31, 30, 31, 30, 31, 31, 30, 31, 30, 31]
  if isLeapYear y then monthdays.set 2 29 else monthdays

/-- mirrors src/qx_commom/tradingtime.h:426-447 -/
def getTomorrow (date : UInt32) : Except Fault UInt32 := do
  let y := date / 10000
  let m := (date % 10000) / 100
  let d := date % 100 + 1
  let last ← read (monthdays y) m.toNat
  if d > last then
    if m + 1 > 12 then return (y + 1) * 10000 + 1 * 100 + 1
    return y * 10000 + (m + 1) * 100 + 1
  return y * 10000 + m * 100 + d

/-- mirrors src/qx_commom/tradingtime.h:449-468 -/
def getYesterday (date : UInt32) : Except Fault UInt32 := do
  let y := date / 10000
  let m := (date % 10000) / 100
  let d := date % 100
  if d > 1 then return y * 10000 + m * 100 + (d - 1)
  if m > 1 then
    let last ← read (monthdays y) (m - 1).toNat
    return y * 10000 + (m - 1) * 100 + last
  return (y - 1) * 10000 + 1231

/-! ## The number of a date -/

def code (d : Date) : UInt32 := UInt32.ofNat d.pack

/-- Dates up to this year have a number of 32 bits. -/
def lastYear : Nat := 429496

variable {d e : Date}

theorem pack_lt (h : d.year ≤ lastYear) : d.pack < 2 ^ 32 := by
  have := d.month_le
  have := d.day_lt
  unfold lastYear at h
  unfold Date.pack
  omega

theorem code_toNat (h : d.year ≤ lastYear) : (code d).toNat = d.pack := by
  rw [code, UInt32.toNat_ofNat']
  exact Nat.mod_eq_of_lt (pack_lt h)

theorem code_year (h : d.year ≤ lastYear) : code d / 10000 = UInt32.ofNat d.year := by
  apply UInt32.toNat_inj.mp
  have := d.month_le
  have := d.day_lt
  have hp := pack_lt h
  simp only [UInt32.toNat_div, code_toNat h, UInt32.toNat_ofNat', UInt32.reduceToNat]
  unfold Date.pack at hp ⊢
  omega

theorem code_month (h : d.year ≤ lastYear) : code d % 10000 / 100 = UInt32.ofNat d.month := by
  apply UInt32.toNat_inj.mp
  have := d.month_le
  have := d.day_lt
  simp only [UInt32.toNat_div, UInt32.toNat_mod, code_toNat h, UInt32.toNat_ofNat', UInt32.reduceToNat]
  unfold Date.pack
  omega

theorem code_day (h : d.year ≤ lastYear) : code d % 100 = UInt32.ofNat d.day := by
  apply UInt32.toNat_inj.mp
  have := d.day_lt
  simp only [UInt32.toNat_mod, code_toNat h, UInt32.toNat_ofNat', UInt32.reduceToNat]
  unfold Date.pack
  omega

theorem code_lt_code (hd : d.year ≤ lastYear) (he : e.year ≤ lastYear) :
    code d < code e ↔ d.dayNumber < e.dayNumber := by
  rw [UInt32.lt_iff_toNat_lt, code_toNat hd, code_toNat he, Date.pack_lt_pack_iff]

theorem code_injective (hd : d.year ≤ lastYear) (he : e.year ≤ lastYear) (h : code d = code e) : d = e := by
  have hn := congrArg UInt32.toNat h
  rw [code_toNat hd, code_toNat he] at hn
  exact Date.pack_injective hn

theorem code_pos (h : d.year ≤ lastYear) : 0 < code d := by
  have := d.day_pos
  rw [UInt32.lt_iff_toNat_lt, code_toNat h]
  unfold Date.pack
  simp only [UInt32.reduceToNat]
  omega

/-! ## The tables -/

theorem ofNat_lt_ofNat {a b : Nat} (ha : a < 2 ^ 32) (hb : b < 2 ^ 32) :
    UInt32.ofNat a < UInt32.ofNat b ↔ a < b := UInt32.ofNat_lt_iff_lt ha hb

theorem ofNat_le_ofNat {a b : Nat} (ha : a < 2 ^ 32) (hb : b < 2 ^ 32) :
    UInt32.ofNat a ≤ UInt32.ofNat b ↔ a ≤ b := UInt32.ofNat_le_iff_le ha hb

theorem isLeapYear_ofNat {y : Nat} (h : y < 2 ^ 32) : isLeapYear (UInt32.ofNat y) = decide (Leap y) := by
  have hmod (k : UInt32) : (UInt32.ofNat y % k == 0) = decide (y % k.toNat = 0) := by
    rw [Bool.eq_iff_iff, beq_iff_eq, decide_eq_true_iff, ← UInt32.toNat_inj, UInt32.toNat_mod,
      UInt32.toNat_ofNat', Nat.mod_eq_of_lt h]
    rfl
  rw [Bool.eq_iff_iff, decide_eq_true_iff]
  unfold isLeapYear Leap bne
  rw [hmod 4, hmod 100, hmod 400]
  simp

theorem read_monthdays {y m : Nat} (hy : y < 2 ^ 32) (hm : 1 ≤ m ∧ m ≤ 12) :
    read (monthdays (UInt32.ofNat y)) m = .ok (UInt32.ofNat (daysInMonth y m)) := by
  obtain ⟨hlo, hhi⟩ := hm
  apply read_of_some
  unfold monthdays
  rw [isLeapYear_ofNat hy]
  by_cases h : Leap y
  · interval_cases m <;> simp [daysInMonth, h]
  · interval_cases m <;> simp [daysInMonth, h]

theorem read_month_days {y m : Nat} (hy : y < 2 ^ 32) (hm : 1 ≤ m ∧ m ≤ 12) :
    read (if isLeapYear (UInt32.ofNat y) then month_days_leap else month_days) (m - 1) =
      .ok (UInt32.ofNat (daysBefore y m)) := by
  obtain ⟨hlo, hhi⟩ := hm
  apply read_of_some
  rw [isLeapYear_ofNat hy]
  by_cases h : Leap y
  · interval_cases m <;> simp [daysBefore, daysInMonth, h, month_days_leap]
  · interval_cases m <;> simp [daysBefore, daysInMonth, h, month_days]

/-! ## The functions on dates -/

theorem code_eq (d : Date) :
    code d = UInt32.ofNat d.year * 10000 + UInt32.ofNat d.month * 100 + UInt32.ofNat d.day := by
  simp [code, Date.pack]

theorem getTomorrow_code (h : d.next.year ≤ lastYear) : getTomorrow (code d) = .ok (code d.next) := by
  have hy : d.year ≤ lastYear := Nat.le_trans (Date.year_mono (by rw [d.dayNumber_next]; omega)) h
  have hm := d.month_le
  have hmpos := d.month_pos
  have hd := d.day_lt
  have hlast := (daysInMonth_bounds d.year d.month).2
  have hyear : d.year < 2 ^ 32 := by unfold lastYear at hy; omega
  have hread : read (monthdays (UInt32.ofNat d.year)) (UInt32.ofNat d.month).toNat =
      .ok (UInt32.ofNat (daysInMonth d.year d.month)) := by
    rw [UInt32.toNat_ofNat', Nat.mod_eq_of_lt (by omega)]
    exact read_monthdays hyear ⟨hmpos, hm⟩
  have hover : UInt32.ofNat d.day + 1 > UInt32.ofNat (daysInMonth d.year d.month) ↔
      ¬ d.day < daysInMonth d.year d.month := by
    rw [gt_iff_lt, show (1 : UInt32) = UInt32.ofNat 1 from rfl, ← UInt32.ofNat_add,
      ofNat_lt_ofNat (by omega) (by omega)]
    omega
  have hdec : UInt32.ofNat d.month + 1 > 12 ↔ ¬ d.month < 12 := by
    rw [gt_iff_lt, show (1 : UInt32) = UInt32.ofNat 1 from rfl, show (12 : UInt32) = UInt32.ofNat 12 from rfl,
      ← UInt32.ofNat_add, ofNat_lt_ofNat (by omega) (by omega)]
    omega
  simp only [getTomorrow, code_year hy, code_month hy, code_day hy, hread, hover, hdec, bind, Except.bind, pure,
    Except.pure]
  by_cases hin : d.day < daysInMonth d.year d.month
  · obtain ⟨ey, em, ed⟩ := Date.next_in_month hin
    simp [hin, code_eq, ey, em, ed]
  · by_cases hlt : d.month < 12
    · obtain ⟨ey, em, ed⟩ := Date.next_month_end hin hlt
      simp [hin, hlt, code_eq, ey, em, ed]
    · obtain ⟨ey, em, ed⟩ := Date.next_year_end hin hlt
      simp [hin, hlt, code_eq, ey, em, ed]

theorem getYesterday_code (h : d.next.year ≤ lastYear) : getYesterday (code d.next) = .ok (code d) := by
  have hpos := d.day_pos
  have hm := d.month_le
  have hmpos := d.month_pos
  have hle := d.day_le
  have hlast := (daysInMonth_bounds d.year d.month).2
  have hyear : d.year < 2 ^ 32 := by
    have hmono : d.year ≤ d.next.year := Date.year_mono (by rw [d.dayNumber_next]; omega)
    unfold lastYear at h
    omega
  unfold getYesterday
  rw [code_year h, code_month h, code_day h]
  by_cases hin : d.day < daysInMonth d.year d.month
  · obtain ⟨ey, em, ed⟩ := Date.next_in_month hin
    have hgt : UInt32.ofNat (d.day + 1) > 1 := by
      rw [gt_iff_lt, show (1 : UInt32) = UInt32.ofNat 1 from rfl, ofNat_lt_ofNat (by omega) (by omega)]
      omega
    rw [ey, em, ed]
    simp only [hgt, if_true]
    simp [code_eq, pure, Except.pure]
  · have hend : d.day = daysInMonth d.year d.month := by omega
    by_cases hlt : d.month < 12
    · obtain ⟨ey, em, ed⟩ := Date.next_month_end hin hlt
      have hgt : UInt32.ofNat (d.month + 1) > 1 := by
        rw [gt_iff_lt, show (1 : UInt32) = UInt32.ofNat 1 from rfl, ofNat_lt_ofNat (by omega) (by omega)]
        omega
      have hsub : UInt32.ofNat (d.month + 1) - 1 = UInt32.ofNat d.month := by simp
      have hread := read_monthdays hyear ⟨hmpos, hm⟩
      rw [ey, em, ed]
      simp only [hgt, hsub, if_true]
      rw [UInt32.toNat_ofNat', Nat.mod_eq_of_lt (by omega), hread, code_eq, hend]
      rfl
    · obtain ⟨ey, em, ed⟩ := Date.next_year_end hin hlt
      have h12 : d.month = 12 := by omega
      have h31 : d.day = 31 := by rw [hend, h12]; rfl
      rw [ey, em, ed, code_eq, h12, h31]
      simp [pure, Except.pure, UInt32.add_assoc]

theorem getDayOfYear_code (h : d.year ≤ lastYear) : getDayOfYear (code d) = .ok (UInt32.ofNat d.dayOfYear) := by
  have hpos := d.day_pos
  have hm := d.month_le
  have hmpos := d.month_pos
  have hread := read_month_days (y := d.year) (by unfold lastYear at h; omega) ⟨hmpos, hm⟩
  have hindex : (UInt32.ofNat d.month - 1).toNat = d.month - 1 := by
    rw [show (1 : UInt32) = UInt32.ofNat 1 from rfl, ← UInt32.ofNat_sub hmpos, UInt32.toNat_ofNat',
      Nat.mod_eq_of_lt (by omega)]
  have hsum : UInt32.ofNat (daysBefore d.year d.month) + UInt32.ofNat d.day - 1 = UInt32.ofNat d.dayOfYear := by
    rw [show (1 : UInt32) = UInt32.ofNat 1 from rfl, ← UInt32.ofNat_add, ← UInt32.ofNat_sub (by omega),
      Nat.add_sub_assoc hpos]
    rfl
  simp only [getDayOfYear, code_year h, code_month h, code_day h, hindex]
  by_cases hl : isLeapYear (UInt32.ofNat d.year) = true
  · rw [if_pos hl] at hread
    rw [if_pos hl, hread, ← hsum]
    rfl
  · rw [if_neg hl] at hread
    rw [if_neg hl, hread, ← hsum]
    rfl

/-- The closed formula, for a day `d` of a month `m` from 3 to 14 of the year `y`. -/
theorem week_formula {y m d : Nat} (hy : y ≤ lastYear) (hm : m ≤ 14) (hd : d < 32) :
    (UInt32.ofNat d + 2 * UInt32.ofNat m + 3 * (UInt32.ofNat m + 1) / 5 + UInt32.ofNat y + UInt32.ofNat y / 4
      - UInt32.ofNat y / 100 + UInt32.ofNat y / 400) % 7 + 1 =
    UInt32.ofNat ((d + 2 * m + 3 * (m + 1) / 5 + y + leapDays y) % 7 + 1) := by
  unfold lastYear at hy
  have h5 : 3 * (UInt32.ofNat m + 1) / 5 = UInt32.ofNat (3 * (m + 1) / 5) := by
    rw [UInt32.ofNat_div (by omega) (by omega)]
    simp
  have hdiv (k : Nat) (hk : k < 2 ^ 32) : UInt32.ofNat y / UInt32.ofNat k = UInt32.ofNat (y / k) :=
    (UInt32.ofNat_div (by omega) hk).symm
  have hsum : d + 2 * m + 3 * (m + 1) / 5 + y + (y / 4 - y / 100 + y / 400) =
      d + 2 * m + 3 * (m + 1) / 5 + y + y / 4 - y / 100 + y / 400 := by omega
  unfold leapDays
  rw [UInt32.ofNat_add, UInt32.ofNat_mod (by omega) (by omega), hsum, h5, UInt32.ofNat_add,
    UInt32.ofNat_sub (by omega), ← hdiv 100 (by omega), ← hdiv 400 (by omega)]
  simp only [UInt32.ofNat_add, UInt32.ofNat_mul, ← hdiv 4 (by omega)]
  rfl

theorem getWeekDay_code (h : d.year ≤ lastYear) (hpos : 1 ≤ d.year) :
    getWeekDay (code d) = UInt32.ofNat d.weekday := by
  have hm := d.month_le
  have hmpos := d.month_pos
  simp only [getWeekDay, code_year h, code_month h, code_day h]
  by_cases hlo : d.month ≤ 2
  · have hjan : (UInt32.ofNat d.month == 1 || UInt32.ofNat d.month == 2) = true := by
      obtain h1 | h2 : d.month = 1 ∨ d.month = 2 := by omega
      · simp [h1]
      · simp [h2]
    have hmonth : UInt32.ofNat d.month + 12 = UInt32.ofNat (d.month + 12) := by simp
    have hyear : UInt32.ofNat d.year - 1 = UInt32.ofNat (d.year - 1) := by
      rw [UInt32.ofNat_sub hpos]
      rfl
    rw [if_pos hjan, hmonth, hyear, Date.weekday_of_january hlo hpos]
    exact week_formula (y := d.year - 1) (m := d.month + 12) (by omega) (by omega) d.day_lt
  · have hmarch : ¬ (UInt32.ofNat d.month == 1 || UInt32.ofNat d.month == 2) = true := by
      generalize d.month = m at *
      interval_cases m <;> simp
    rw [if_neg hmarch, Date.weekday_of_march (by omega)]
    exact week_formula h (by omega) d.day_lt

/-! ## Trading days -/

/-- From Monday to Friday, and no holiday. -/
def Trading (d : Date) : Prop := d.weekday ≤ 5 ∧ code d ∉ g_holiday

instance (d : Date) : Decidable (Trading g_holiday d) := inferInstanceAs (Decidable (_ ∧ _))

theorem isTradingDay_code (h : d.year ≤ lastYear) (hpos : 1 ≤ d.year) :
    isTradingDay g_holiday (code d) = decide (Trading g_holiday d) := by
  have hweek := d.weekday_bounds
  have hgt : UInt32.ofNat d.weekday > 5 ↔ ¬ d.weekday ≤ 5 := by
    rw [gt_iff_lt, show (5 : UInt32) = UInt32.ofNat 5 from rfl, ofNat_lt_ofNat (by omega) (by omega)]
    omega
  simp only [isTradingDay, getWeekDay_code h hpos, hgt]
  by_cases hw : d.weekday ≤ 5 <;> by_cases hh : code d ∈ g_holiday <;> simp [Trading, hw, hh]

/-! ## From day to day -/

theorem weekday_next (d : Date) : d.next.weekday = d.weekday % 7 + 1 := by
  unfold Date.weekday
  rw [d.dayNumber_next]
  omega

/-- Every date of the year 1 and later is the day after another. -/
theorem exists_next_eq (hlo : 1 ≤ d.year) : ∃ y : Date, y.next = d := by
  have hstart : yearStart 1 ≤ d.dayNumber := Nat.le_trans (yearStart_mono hlo) d.yearStart_le
  have hpos : d.dayNumber = d.dayNumber - 1 + 1 := by
    have h1 : yearStart 1 = 366 := rfl
    omega
  have hd : Date.ofDayNumber (d.dayNumber - 1 + 1) = d := by rw [← hpos, Date.ofDayNumber_dayNumber]
  exact ⟨Date.ofDayNumber (d.dayNumber - 1), hd⟩

theorem code_next_lt_code_next (hd : d.next.year ≤ lastYear) (he : e.next.year ≤ lastYear)
    (h : d.dayNumber < e.dayNumber) : code d.next < code e.next := by
  rw [code_lt_code hd he, d.dayNumber_next, e.dayNumber_next]
  omega

theorem getWeekDay_next (h : d.next.year ≤ lastYear) (hpos : 1 ≤ d.year) :
    getWeekDay (code d.next) = getWeekDay (code d) % 7 + 1 := by
  have hmono : d.year ≤ d.next.year := Date.year_mono (by rw [d.dayNumber_next]; omega)
  have hweek := d.weekday_bounds
  rw [getWeekDay_code h (Nat.le_trans hpos hmono), getWeekDay_code (Nat.le_trans hmono h) hpos, weekday_next,
    UInt32.ofNat_add, UInt32.ofNat_mod (by omega) (by omega)]
  rfl

/-- The dates are written as numbers; the day before 1 January of the year 1 is one of the
year 0, and the day after 31 December 9999 one of the year 10000. -/
theorem calendar_steps (d e : Date) (hlo : 1 ≤ d.year) (hhi : d.year ≤ 9999) (he : e.year ≤ 9999) :
    (∃ t y : Date, getTomorrow (code d) = .ok (code t) ∧ getYesterday (code t) = .ok (code d) ∧
      getYesterday (code d) = .ok (code y) ∧ getTomorrow (code y) = .ok (code d) ∧
      code d < code t ∧ getWeekDay (code t) = getWeekDay (code d) % 7 + 1) ∧
    getWeekDay (code d) = UInt32.ofNat d.weekday ∧
    (code d < code e → ∃ t u, getTomorrow (code d) = .ok t ∧ getTomorrow (code e) = .ok u ∧ t < u) := by
  have hd : d.year ≤ lastYear := Nat.le_trans hhi (by decide)
  have hnext (x : Date) (hx : x.year ≤ 9999) : x.next.year ≤ lastYear :=
    Nat.le_trans x.year_next_le (Nat.le_trans (Nat.succ_le_succ hx) (by decide))
  obtain ⟨y, rfl⟩ := exists_next_eq hlo
  refine ⟨⟨y.next.next, y, getTomorrow_code (hnext _ hhi), getYesterday_code (hnext _ hhi), getYesterday_code hd,
    getTomorrow_code hd, ?_, getWeekDay_next (hnext _ hhi) hlo⟩, getWeekDay_code hd hlo, fun hlt => ?_⟩
  · rw [code_lt_code hd (hnext _ hhi), Date.dayNumber_next y.next]
    exact Nat.lt_succ_self _
  · rw [code_lt_code hd (Nat.le_trans he (by decide))] at hlt
    exact ⟨_, _, getTomorrow_code (hnext _ hhi), getTomorrow_code (hnext _ he),
      code_next_lt_code_next (hnext _ hhi) (hnext _ he) hlt⟩

/-- Around 29 February 2024. -/
theorem calendar_steps_leap_day :
    ∃ d e : Date, code d = 20240229 ∧ code e = 20240301 ∧ 1 ≤ d.year ∧ d.year ≤ 9999 ∧ e.year ≤ 9999 ∧
      (∃ t y : Date, getTomorrow (code d) = .ok (code t) ∧ getYesterday (code t) = .ok (code d) ∧
        getYesterday (code d) = .ok (code y) ∧ getTomorrow (code y) = .ok (code d) ∧
        code d < code t ∧ getWeekDay (code t) = getWeekDay (code d) % 7 + 1) ∧
      getWeekDay (code d) = UInt32.ofNat d.weekday ∧
      (code d < code e → ∃ t u, getTomorrow (code d) = .ok t ∧ getTomorrow (code e) = .ok u ∧ t < u) :=
  ⟨Date.monthLast 2024 2 (by decide), Date.monthFirst 2024 3 (by decide), by decide, by decide, by decide, by decide,
    by decide, calendar_steps (Date.monthLast 2024 2 (by decide)) (Date.monthFirst 2024 3 (by decide))
      (by decide) (by decide) (by decide)⟩

/-- 29 February 2024 is a Thursday. -/
example : getWeekDay 20240229 = 4 := by decide +kernel

/-! ## The end of the numbers -/

/-- After the last date whose number fits come numbers that are no dates. -/
theorem getTomorrow_last : getTomorrow (code (Date.newYearsEve lastYear)) = .ok 2805 := by
  decide +kernel

theorem getTomorrow_after_last : getTomorrow 2805 = .error .outOfRange := by
  decide +kernel

end MdInfoSet.TradingTime
