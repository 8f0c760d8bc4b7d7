import Mathlib.Data.UInt
import Mathlib.Order.Basic
import Mathlib.Tactic.IntervalCases
import Mathlib.Tactic.Simps.Basic

/-!
# The Gregorian calendar

Dates of the proleptic Gregorian calendar from the year 0 on, the day number of a date
(`dayNumber`, 0 for 1 January of the year 0), the day after it (`next`), its weekday and the
number `yyyymmdd` it is written as (`pack`).

* `dayNumber_next`, `ofDayNumber_dayNumber`: the dates are numbered without gaps.
* `pack_lt_pack_iff`: written dates are ordered as the days are.
* `weekYear_eq_iff`: the week-numbering year by day numbers alone.
-/
namespace MdInfoSet

def Leap (y : Nat) : Prop := (y % 4 = 0 ∧ y % 100 ≠ 0) ∨ y % 400 = 0

instance (y : Nat) : Decidable (Leap y) := inferInstanceAs (Decidable (_ ∨ _))

def daysInMonth (y m : Nat) : Nat :=
  if m = 2 then if Leap y then 29 else 28
  else if m = 4 ∨ m = 6 ∨ m = 9 ∨ m = 11 then 30
  else 31

def daysInYear (y : Nat) : Nat := if Leap y then 366 else 365

/-- The days of the year before its month `m`. -/
def daysBefore (y : Nat) : Nat → Nat
  | 0 | 1 => 0
  | m + 2 => daysBefore y (m + 1) + daysInMonth y (m + 1)

/-- The days before the year: a year divisible by 4 is leap, by 100 not, by 400 again. -/
def yearStart (y : Nat) : Nat := 365 * y + (y + 3) / 4 - (y + 99) / 100 + (y + 399) / 400

theorem daysInYear_eq (y : Nat) :
    daysInYear y + (if y % 100 = 0 then 1 else 0) =
      365 + (if y % 4 = 0 then 1 else 0) + (if y % 400 = 0 then 1 else 0) := by
  have h100 : y % 100 = 0 → y % 4 = 0 := by omega
  have h400 : y % 400 = 0 → y % 100 = 0 := by omega
  by_cases hc : y % 100 = 0
  · by_cases hq : y % 400 = 0 <;> simp [daysInYear, Leap, hc, hq, h100 hc]
  · by_cases hd : y % 4 = 0 <;> simp [daysInYear, Leap, hc, hd, mt h400 hc]

theorem yearStart_succ (y : Nat) : yearStart (y + 1) = yearStart y + daysInYear y := by
  have h4 : (y + 1 + 3) / 4 = (y + 3) / 4 + (if y % 4 = 0 then 1 else 0) := by split <;> omega
  have h100 : (y + 1 + 99) / 100 = (y + 99) / 100 + (if y % 100 = 0 then 1 else 0) := by split <;> omega
  have h400 : (y + 1 + 399) / 400 = (y + 399) / 400 + (if y % 400 = 0 then 1 else 0) := by split <;> omega
  have hlen := daysInYear_eq y
  have hle : (y + 99) / 100 ≤ 365 * y := by omega
  unfold yearStart
  rw [h4, h100, h400]
  omega

theorem yearStart_mono {y z : Nat} (h : y ≤ z) : yearStart y ≤ yearStart z := by
  induction h with
  | refl => exact Nat.le_refl _
  | step _ ih =>
    rw [Nat.succ_eq_add_one, yearStart_succ]
    omega

theorem daysInYear_cases (y : Nat) : daysInYear y = 365 ∧ ¬ Leap y ∨ daysInYear y = 366 ∧ Leap y := by
  by_cases h : Leap y <;> simp [daysInYear, h]

theorem daysInMonth_bounds (y m : Nat) : 28 ≤ daysInMonth y m ∧ daysInMonth y m ≤ 31 := by
  unfold daysInMonth
  repeat' split
  all_goals omega

theorem daysBefore_succ (y : Nat) {m : Nat} (hm : 1 ≤ m) :
    daysBefore y (m + 1) = daysBefore y m + daysInMonth y m := by
  cases m with
  | zero => omega
  | succ m => rfl

theorem daysBefore_mono (y : Nat) {m n : Nat} (h : m ≤ n) : daysBefore y m ≤ daysBefore y n := by
  induction h with
  | refl => exact Nat.le_refl _
  | @step n _ ih =>
    refine Nat.le_trans ih ?_
    cases n with
    | zero => exact Nat.le_refl _
    | succ n => exact Nat.le_add_right _ _

theorem daysBefore_year (y : Nat) : daysBefore y 13 = daysInYear y := by
  by_cases h : Leap y <;> simp [daysBefore, daysInMonth, daysInYear, h]

/-- The leap days of the years from 1 to `y`. -/
def leapDays (y : Nat) : Nat := y / 4 - y / 100 + y / 400

theorem yearStart_succ_eq (y : Nat) : yearStart (y + 1) = 365 * (y + 1) + 1 + leapDays y := by
  unfold yearStart leapDays
  omega

/-- From March on the months are as long in every year. -/
theorem daysBefore_of_march (y : Nat) {m : Nat} (hlo : 3 ≤ m) (hhi : m ≤ 12) :
    daysBefore y m + 306 = daysInYear y + (153 * (m - 3) + 2) / 5 := by
  by_cases hl : Leap y
  · interval_cases m <;> simp [daysBefore, daysInMonth, daysInYear, hl]
  · interval_cases m <;> simp [daysBefore, daysInMonth, daysInYear, hl]

/-- A date that exists. -/
@[ext] structure Date where
  year : Nat
  month : Nat
  day : Nat
  month_pos : 1 ≤ month
  month_le : month ≤ 12
  day_pos : 1 ≤ day
  day_le : day ≤ daysInMonth year month
  deriving DecidableEq

namespace Date

def pack (d : Date) : Nat := d.year * 10000 + d.month * 100 + d.day

/-- The days of its year before the date. -/
def dayOfYear (d : Date) : Nat := daysBefore d.year d.month + (d.day - 1)

def dayNumber (d : Date) : Nat := yearStart d.year + d.dayOfYear

def newYear (y : Nat) : Date := ⟨y, 1, 1, by omega, by omega, by omega, by simp [daysInMonth]⟩

def newYearsEve (y : Nat) : Date := ⟨y, 12, 31, by omega, by omega, by omega, by simp [daysInMonth]⟩

/-- The first day of a month. -/
@[simps] def monthFirst (y m : Nat) (hm : 1 ≤ m ∧ m ≤ 12) : Date :=
  ⟨y, m, 1, hm.1, hm.2, Nat.le_refl 1, by have := daysInMonth_bounds y m; omega⟩

@[simps] def monthLast (y m : Nat) (hm : 1 ≤ m ∧ m ≤ 12) : Date :=
  ⟨y, m, daysInMonth y m, hm.1, hm.2, by have := daysInMonth_bounds y m; omega, Nat.le_refl _⟩

/-- The day after. -/
def next (d : Date) : Date :=
  if hd : d.day < daysInMonth d.year d.month then
    { d with day := d.day + 1, day_pos := by omega, day_le := hd }
  else if hm : d.month < 12 then monthFirst d.year (d.month + 1) ⟨by omega, hm⟩
  else newYear (d.year + 1)

variable (d e : Date)

theorem day_lt : d.day < 32 := by
  have := (daysInMonth_bounds d.year d.month).2
  have := d.day_le
  omega

theorem dayOfYear_lt : d.dayOfYear < daysInYear d.year := by
  have hm := daysBefore_succ d.year d.month_pos
  have hmono := daysBefore_mono d.year (Nat.add_le_add_right d.month_le 1)
  have := d.day_le
  have := d.day_pos
  rw [hm, daysBefore_year] at hmono
  unfold dayOfYear
  omega

theorem dayNumber_lt : d.dayNumber < yearStart (d.year + 1) := by
  have := d.dayOfYear_lt
  rw [yearStart_succ]
  unfold dayNumber
  omega

theorem yearStart_le : yearStart d.year ≤ d.dayNumber := Nat.le_add_right _ _

theorem dayOfYear_newYearsEve (y : Nat) : (newYearsEve y).dayOfYear + 1 = daysInYear y := by
  rw [← daysBefore_year]
  rfl

/-! ## The day after -/

variable {d e}

theorem next_in_month (h : d.day < daysInMonth d.year d.month) :
    d.next.year = d.year ∧ d.next.month = d.month ∧ d.next.day = d.day + 1 := by
  simp [next, h]

theorem next_month_end (h : ¬ d.day < daysInMonth d.year d.month) (hm : d.month < 12) :
    d.next.year = d.year ∧ d.next.month = d.month + 1 ∧ d.next.day = 1 := by
  simp [next, h, hm, monthFirst]

theorem next_year_end (h : ¬ d.day < daysInMonth d.year d.month) (hm : ¬ d.month < 12) :
    d.next.year = d.year + 1 ∧ d.next.month = 1 ∧ d.next.day = 1 := by
  simp [next, h, hm, newYear]

variable (d) in
theorem year_next_le : d.next.year ≤ d.year + 1 := by
  by_cases h : d.day < daysInMonth d.year d.month
  · exact (next_in_month h).1 ▸ Nat.le_succ _
  · by_cases hm : d.month < 12
    · exact (next_month_end h hm).1 ▸ Nat.le_succ _
    · exact Nat.le_of_eq (next_year_end h hm).1

variable (d) in
theorem dayNumber_next : d.next.dayNumber = d.dayNumber + 1 := by
  have hpos := d.day_pos
  have hle := d.day_le
  unfold dayNumber dayOfYear
  by_cases h : d.day < daysInMonth d.year d.month
  · obtain ⟨hy, hm, hd⟩ := next_in_month h
    rw [hy, hm, hd]
    omega
  · by_cases hm : d.month < 12
    · obtain ⟨hy, hm', hd⟩ := next_month_end h hm
      rw [hy, hm', hd, daysBefore_succ _ d.month_pos]
      omega
    · obtain ⟨hy, hm', hd⟩ := next_year_end h hm
      have hlen := daysBefore_year d.year
      have h12 : d.month = 12 := Nat.le_antisymm d.month_le (by omega)
      rw [daysBefore_succ _ (by omega)] at hlen
      rw [h12] at h hle
      rw [hy, hm', hd, yearStart_succ, h12, ← hlen]
      have h1 : daysBefore (d.year + 1) 1 = 0 := rfl
      omega

/-! ## Order -/

theorem dayNumber_lt_of_pack_lt (h : d.pack < e.pack) : d.dayNumber < e.dayNumber := by
  have hd := d.day_lt
  have he := e.day_lt
  have hdm := d.month_le
  have hem := e.month_le
  unfold pack at h
  by_cases hy : d.year < e.year
  · calc d.dayNumber < yearStart (d.year + 1) := d.dayNumber_lt
      _ ≤ yearStart e.year := yearStart_mono hy
      _ ≤ e.dayNumber := e.yearStart_le
  · have hy' : d.year = e.year := by omega
    unfold dayNumber dayOfYear
    have hpos := d.day_pos
    by_cases hm : d.month < e.month
    · have hmono := daysBefore_mono d.year (Nat.succ_le_of_lt hm)
      rw [Nat.succ_eq_add_one, daysBefore_succ _ d.month_pos] at hmono
      have hle := d.day_le
      rw [← hy']
      omega
    · have hm' : d.month = e.month := by omega
      rw [← hy', ← hm']
      omega

theorem pack_injective (h : d.pack = e.pack) : d = e := by
  have hd := d.day_lt
  have he := e.day_lt
  have hdm := d.month_le
  have hem := e.month_le
  unfold pack at h
  apply Date.ext <;> omega

theorem pack_lt_pack_iff : d.pack < e.pack ↔ d.dayNumber < e.dayNumber := by
  refine ⟨dayNumber_lt_of_pack_lt, fun h => ?_⟩
  by_contra hle
  rcases Nat.lt_or_eq_of_le (Nat.not_lt.mp hle) with hlt | heq
  · have := dayNumber_lt_of_pack_lt hlt
    omega
  · rw [pack_injective heq] at h
    omega

theorem pack_le_pack_iff : d.pack ≤ e.pack ↔ d.dayNumber ≤ e.dayNumber := by
  rw [← Nat.not_lt, pack_lt_pack_iff, Nat.not_lt]

theorem dayNumber_injective (h : d.dayNumber = e.dayNumber) : d = e := by
  have hde := @pack_lt_pack_iff d e
  have hed := @pack_lt_pack_iff e d
  exact pack_injective (by omega)

/-! ## Dates by their numbers -/

/-- The date with a day number. -/
def ofDayNumber : Nat → Date
  | 0 => newYear 0
  | n + 1 => (ofDayNumber n).next

@[simp] theorem dayNumber_ofDayNumber (n : Nat) : (ofDayNumber n).dayNumber = n := by
  induction n with
  | zero => rfl
  | succ n ih => rw [ofDayNumber, dayNumber_next, ih]

@[simp] theorem ofDayNumber_dayNumber (d : Date) : ofDayNumber d.dayNumber = d :=
  dayNumber_injective (dayNumber_ofDayNumber _)

theorem year_eq_iff {y : Nat} : d.year = y ↔ yearStart y ≤ d.dayNumber ∧ d.dayNumber < yearStart (y + 1) := by
  constructor
  · rintro rfl
    exact ⟨d.yearStart_le, d.dayNumber_lt⟩
  · intro ⟨hle, hlt⟩
    by_contra hne
    have hlo := d.yearStart_le
    have hhi := d.dayNumber_lt
    rcases Nat.lt_or_gt_of_ne hne with h | h
    · have hmono : yearStart (d.year + 1) ≤ yearStart y := yearStart_mono h
      omega
    · have hmono : yearStart (y + 1) ≤ yearStart d.year := yearStart_mono h
      omega

theorem year_mono (h : d.dayNumber ≤ e.dayNumber) : d.year ≤ e.year := by
  by_contra hlt
  have hmono : yearStart (e.year + 1) ≤ yearStart d.year := yearStart_mono (Nat.not_le.mp hlt)
  have := d.yearStart_le
  have := e.dayNumber_lt
  omega

/-! ## Later dates -/

/-- The date a number of days later. -/
def plus (d : Date) (k : Nat) : Date := ofDayNumber (d.dayNumber + k)

/-- The date and the days after it, `k` of them. -/
def daysFrom (d : Date) : Nat → List Date
  | 0 => []
  | k + 1 => d :: daysFrom d.next k

@[simp] theorem dayNumber_plus (d : Date) (k : Nat) : (d.plus k).dayNumber = d.dayNumber + k :=
  dayNumber_ofDayNumber _

@[simp] theorem plus_zero (d : Date) : d.plus 0 = d := ofDayNumber_dayNumber d

theorem next_plus (d : Date) (k : Nat) : d.next.plus k = d.plus (k + 1) := by
  apply dayNumber_injective
  rw [dayNumber_plus, dayNumber_plus, dayNumber_next]
  omega

theorem plus_sub (h : d.dayNumber ≤ e.dayNumber) : d.plus (e.dayNumber - d.dayNumber) = e := by
  apply dayNumber_injective
  rw [dayNumber_plus]
  omega

@[simp] theorem length_daysFrom (d : Date) (k : Nat) : (d.daysFrom k).length = k := by
  induction k generalizing d with
  | zero => rfl
  | succ k ih => rw [daysFrom, List.length_cons, ih]

theorem getElem?_daysFrom (d : Date) {i k : Nat} (h : i < k) : (d.daysFrom k)[i]? = some (d.plus i) := by
  induction k generalizing d i with
  | zero => omega
  | succ k ih =>
    cases i with
    | zero => simp [daysFrom]
    | succ i => rw [daysFrom, List.getElem?_cons_succ, ih _ (by omega), next_plus]

theorem mem_daysFrom {k : Nat} :
    e ∈ d.daysFrom k ↔ d.dayNumber ≤ e.dayNumber ∧ e.dayNumber < d.dayNumber + k := by
  induction k generalizing d with
  | zero =>
    simp only [daysFrom, List.not_mem_nil, false_iff]
    omega
  | succ k ih =>
    rw [daysFrom, List.mem_cons, ih, dayNumber_next]
    constructor
    · rintro (rfl | h) <;> omega
    · intro h
      by_cases heq : d.dayNumber = e.dayNumber
      · exact .inl (dayNumber_injective heq).symm
      · right
        omega

/-- The days from the `i`-th on are those that are not before it. -/
theorem filter_daysFrom (p : Date → Bool) (d : Date) (i k : Nat) :
    (d.daysFrom k).filter (fun e => (d.plus i).dayNumber ≤ e.dayNumber && p e) = ((d.daysFrom k).drop i).filter p := by
  induction i generalizing d k with
  | zero =>
    refine List.filter_congr fun e he => ?_
    simp [(mem_daysFrom.mp he).1]
  | succ i ih =>
    cases k with
    | zero => rfl
    | succ k =>
      rw [daysFrom, List.drop_succ_cons, ← ih, next_plus, List.filter_cons_of_neg (by simp)]

theorem daysFrom_sorted (d : Date) (k : Nat) : (d.daysFrom k).Pairwise (fun x y => x.dayNumber < y.dayNumber) := by
  induction k generalizing d with
  | zero => exact .nil
  | succ k ih =>
    refine .cons (fun e he => ?_) (ih _)
    have := (mem_daysFrom.mp he).1
    rw [dayNumber_next] at this
    omega

/-! ## Months -/

/-- The dates of a month. -/
def monthDates (y m : Nat) (hm : 1 ≤ m ∧ m ≤ 12) : List Date := (monthFirst y m hm).daysFrom (daysInMonth y m)

theorem dayNumber_monthLast (y m : Nat) (hm : 1 ≤ m ∧ m ≤ 12) :
    (monthLast y m hm).dayNumber + 1 = (monthFirst y m hm).dayNumber + daysInMonth y m := by
  have := daysInMonth_bounds y m
  simp only [dayNumber, dayOfYear, monthLast_year, monthLast_month, monthLast_day, monthFirst_year, monthFirst_month,
    monthFirst_day]
  omega

theorem plus_month (y m : Nat) (hm : 1 ≤ m ∧ m ≤ 12) :
    (monthFirst y m hm).plus (daysInMonth y m) = (monthLast y m hm).next := by
  apply dayNumber_injective
  rw [dayNumber_plus, dayNumber_next, dayNumber_monthLast]

theorem mem_monthDates {y m : Nat} {hm : 1 ≤ m ∧ m ≤ 12} :
    e ∈ monthDates y m hm ↔ e.year = y ∧ e.month = m := by
  have hlast := dayNumber_monthLast y m hm
  have hlen := daysInMonth_bounds y m
  have heday := e.day_lt
  have hemonth := e.month_le
  rw [monthDates, mem_daysFrom]
  constructor
  · intro ⟨hlo, hhi⟩
    have hfirst := pack_le_pack_iff.mpr hlo
    have hlast' : e.pack ≤ (monthLast y m hm).pack := pack_le_pack_iff.mpr (by omega)
    simp only [pack, monthFirst_year, monthFirst_month, monthFirst_day] at hfirst
    simp only [pack, monthLast_year, monthLast_month, monthLast_day] at hlast'
    omega
  · rintro ⟨rfl, rfl⟩
    have hle := e.day_le
    have hpos := e.day_pos
    have hfirst : (monthFirst e.year e.month hm).dayNumber ≤ e.dayNumber := by
      rw [← pack_le_pack_iff]
      simp only [pack, monthFirst_year, monthFirst_month, monthFirst_day]
      omega
    have hlast' : e.dayNumber ≤ (monthLast e.year e.month hm).dayNumber := by
      rw [← pack_le_pack_iff]
      simp only [pack, monthLast_year, monthLast_month, monthLast_day]
      omega
    omega

/-- A day of a month by its place in the month. -/
theorem plus_day {y m : Nat} {hm : 1 ≤ m ∧ m ≤ 12} (h : e ∈ monthDates y m hm) :
    e.day - 1 < daysInMonth y m ∧ (monthFirst y m hm).plus (e.day - 1) = e := by
  obtain ⟨rfl, rfl⟩ := mem_monthDates.mp h
  have hle := e.day_le
  have hpos := e.day_pos
  refine ⟨by omega, dayNumber_injective ?_⟩
  rw [dayNumber_plus]
  simp [dayNumber, dayOfYear, Nat.add_assoc]

/-- The day after a month is past the days that a month can have. -/
theorem pack_after_month (y m : Nat) (hm : 1 ≤ m ∧ m ≤ 12) :
    y * 10000 + m * 100 + 31 < (monthLast y m hm).next.pack := by
  have hlast := dayNumber_monthLast y m hm
  have hnext := (monthLast y m hm).dayNumber_next
  have hnot : ¬ ((monthLast y m hm).next.year = y ∧ (monthLast y m hm).next.month = m) := by
    rw [← @mem_monthDates _ y m hm, monthDates, mem_daysFrom]
    omega
  have hlt : (monthLast y m hm).pack < (monthLast y m hm).next.pack := by
    rw [pack_lt_pack_iff]
    omega
  have hday := (monthLast y m hm).next.day_lt
  have hmonth := (monthLast y m hm).next.month_le
  simp only [pack, monthLast_year, monthLast_month, monthLast_day] at hlt ⊢
  omega

/-! ## Weeks -/

/-- 1 for Monday up to 7 for Sunday; 1 January of the year 1 was a Monday. -/
def weekday (d : Date) : Nat := (d.dayNumber + 5) % 7 + 1

theorem weekday_of_march {d : Date} (h : 3 ≤ d.month) :
    d.weekday = (d.day + 2 * d.month + 3 * (d.month + 1) / 5 + d.year + leapDays d.year) % 7 + 1 := by
  have hpos := d.day_pos
  have hm := d.month_le
  have hyear := yearStart_succ_eq d.year
  have hbefore := daysBefore_of_march d.year h hm
  rw [yearStart_succ] at hyear
  unfold weekday dayNumber dayOfYear
  generalize d.month = m at *
  interval_cases m <;> omega

/-- January and February, as months 13 and 14 of the year before. -/
theorem weekday_of_january {d : Date} (h : d.month ≤ 2) (hy : 1 ≤ d.year) :
    d.weekday = (d.day + 2 * (d.month + 12) + 3 * (d.month + 12 + 1) / 5 + (d.year - 1)
      + leapDays (d.year - 1)) % 7 + 1 := by
  have hpos := d.day_pos
  have hm := d.month_pos
  have hyear := yearStart_succ_eq (d.year - 1)
  rw [Nat.sub_add_cancel hy] at hyear
  unfold weekday dayNumber dayOfYear
  have hjan : daysBefore d.year 1 = 0 := rfl
  have hfeb : daysBefore d.year 2 = 31 := by simp [daysBefore, daysInMonth]
  generalize d.month = m at *
  interval_cases m <;> omega

/-- The Thursday of the date's week, whose days go from Monday to Sunday. The first two dates
of all, a Saturday and a Sunday, have none and get the first date. -/
def thursday (d : Date) : Date := ofDayNumber (d.dayNumber + 4 - d.weekday)

/-- The week-numbering year: a week belongs to the year that its Thursday is in. -/
def weekYear (d : Date) : Nat := d.thursday.year

def weekNumber (d : Date) : Nat := d.thursday.dayOfYear / 7 + 1

/-- Two dates in one week from Monday to Sunday. -/
def SameWeek (d e : Date) : Prop := (d.dayNumber + 5) / 7 = (e.dayNumber + 5) / 7

instance (d e : Date) : Decidable (d.SameWeek e) := inferInstanceAs (Decidable (_ = _))

variable (d) in
theorem weekday_bounds : 1 ≤ d.weekday ∧ d.weekday ≤ 7 := by
  unfold weekday
  omega

variable (d) in
theorem dayNumber_thursday : d.thursday.dayNumber = d.dayNumber + 4 - d.weekday :=
  dayNumber_ofDayNumber _

theorem weekYear_eq_iff {y : Nat} : d.weekYear = y ↔
    yearStart y ≤ d.dayNumber + 4 - d.weekday ∧ d.dayNumber + 4 - d.weekday < yearStart (y + 1) := by
  rw [weekYear, year_eq_iff, dayNumber_thursday]

theorem weekNumber_eq (d : Date) :
    d.weekNumber = (d.dayNumber + 4 - d.weekday - yearStart d.weekYear) / 7 + 1 := by
  rw [weekNumber, ← dayNumber_thursday, dayNumber, weekYear, Nat.add_sub_cancel_left]

end Date

/-- A month of a year. -/
structure YearMonth where
  year : Nat
  month : Nat
  bounds : 1 ≤ month ∧ month ≤ 12

namespace YearMonth

def dates (p : YearMonth) : List Date := Date.monthDates p.year p.month p.bounds

/-- The month before; before January of the year 0 there is none. -/
def prev (p : YearMonth) : YearMonth :=
  if h : p.month = 1 then ⟨p.year - 1, 12, by omega⟩
  else ⟨p.year, p.month - 1, by have := p.bounds; omega⟩

variable {p : YearMonth}

theorem prev_of_january (h : p.month = 1) : p.prev.year = p.year - 1 ∧ p.prev.month = 12 := by
  simp [prev, h]

theorem prev_of_later (h : p.month ≠ 1) : p.prev.year = p.year ∧ p.prev.month = p.month - 1 := by
  simp [prev, h]

variable (p) in
theorem prev_year : p.year - 1 ≤ p.prev.year ∧ p.prev.year ≤ p.year := by
  by_cases h : p.month = 1
  · have := prev_of_january h
    omega
  · have := prev_of_later h
    omega

theorem mem_dates {d : Date} : d ∈ p.dates ↔ d.year = p.year ∧ d.month = p.month := Date.mem_monthDates

variable (p) in
theorem length_dates : p.dates.length = daysInMonth p.year p.month := Date.length_daysFrom _ _

end YearMonth
end MdInfoSet
