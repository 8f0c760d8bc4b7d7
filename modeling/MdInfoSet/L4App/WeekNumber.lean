import MdInfoSet.L4App.TradingTime

/-!
# Week numbers (`tradingtime.h`)

`getWeekNumber` compares the weekdays of the first and the last day of the year with
Thursday and counts weeks from the day of the year.

* `getWeekNumber_code`: on the number of a date it gives the week number and the
  week-numbering year of the calendar, where a week belongs to the year of its Thursday.
* `week_number_iso`: with what follows for the days of one week and for consecutive weeks.
-/
namespace MdInfoSet.TradingTime

/-- mirrors src/qx_commom/tradingtime.h:530-592: the week number, and what is left in `year` -/
def getWeekNumber (date : UInt32) : Except Fault (UInt32 × UInt32) := do
  let year_cur := date / 10000
  let firstday := year_cur * 10000 + 101
  let firstday_week := getWeekDay firstday
  let firstday_week := if firstday_week == 0 then 7 else firstday_week
  let lastday := year_cur * 10000 + 1231
  let lastday_week := getWeekDay lastday
  let lastday_day_no ← getDayOfYear lastday
  let lastday_week := if lastday_week == 0 then 7 else lastday_week
  let date_day_no ← getDayOfYear date
  let (wk_no, year) :=
    if firstday_week ≤ 4 then
      ((date_day_no + (firstday_week - 1)) / 7 + 1, year_cur)
    else if date_day_no < 7 - firstday_week + 1 then
      -- The days before the first Monday belong to the last week of the year before.
      if firstday_week == 5 then (53, year_cur - 1)
      else if firstday_week == 7 then (52, year_cur - 1)
      else if firstday_week == 6 then
        if isLeapYear (year_cur - 1) then (53, year_cur - 1) else (52, year_cur - 1)
      else (0, year_cur - 1)
    else
      ((date_day_no - (7 - firstday_week + 1)) / 7 + 1, year_cur)
  if lastday_week < 4 && date_day_no ≥ lastday_day_no - lastday_week + 1 then
    return (1, year_cur + 1)
  return (wk_no, year)

variable {d e : Date}

/-! ## Weeks by the weekdays of the first and the last day of the year -/

theorem weekday_newYear (y : Nat) : (Date.newYear y).weekday = (yearStart y + 5) % 7 + 1 := rfl

theorem weekday_eq (d : Date) :
    d.weekday = ((Date.newYear d.year).weekday - 1 + d.dayOfYear) % 7 + 1 := by
  rw [weekday_newYear]
  unfold Date.weekday Date.dayNumber
  omega

/-- A week whose Thursday is in the date's own year. -/
theorem week_of_year (hlo : d.weekday ≤ d.dayOfYear + 4) (hhi : d.dayOfYear + 4 < daysInYear d.year + d.weekday) :
    d.weekYear = d.year ∧ d.weekNumber = (d.dayOfYear + 4 - d.weekday) / 7 + 1 := by
  have hyear : d.weekYear = d.year := by
    rw [Date.weekYear_eq_iff, yearStart_succ]
    unfold Date.dayNumber
    omega
  refine ⟨hyear, ?_⟩
  rw [Date.weekNumber_eq, hyear]
  unfold Date.dayNumber
  congr 2
  omega

/-- A week whose Thursday is in the year before. -/
theorem week_of_year_before {y : Nat} (hy : d.year = y + 1) (h : d.dayOfYear + 4 < d.weekday) :
    d.weekYear = y ∧ d.weekNumber = (daysInYear y + d.dayOfYear + 4 - d.weekday) / 7 + 1 := by
  have hlen := daysInYear_cases y
  have hweek := d.weekday_bounds
  have hnum : d.dayNumber = yearStart y + daysInYear y + d.dayOfYear := by
    rw [← yearStart_succ, ← hy]
    rfl
  have hyear : d.weekYear = y := by
    rw [Date.weekYear_eq_iff, yearStart_succ]
    omega
  refine ⟨hyear, ?_⟩
  rw [Date.weekNumber_eq, hyear]
  congr 2
  omega

/-- A week whose Thursday is in the year after. -/
theorem week_of_year_after (h : daysInYear d.year + d.weekday ≤ d.dayOfYear + 4) :
    d.weekYear = d.year + 1 ∧ d.weekNumber = 1 := by
  have hlt := d.dayOfYear_lt
  have hlen := daysInYear_cases (d.year + 1)
  have hweek := d.weekday_bounds
  have hsucc := yearStart_succ d.year
  have hsucc' := yearStart_succ (d.year + 1)
  have hnum : d.dayNumber = yearStart d.year + d.dayOfYear := rfl
  have hyear : d.weekYear = d.year + 1 := by
    rw [Date.weekYear_eq_iff]
    omega
  refine ⟨hyear, ?_⟩
  rw [Date.weekNumber_eq, hyear]
  omega

/-! ## The case analysis of the code -/

/-- The week and its year by the weekdays `first` and `last` of the year's first and last day. -/
def weekOfYear (y first last n : Nat) : Nat × Nat :=
  if last < 4 ∧ daysInYear y ≤ n + last then (1, y + 1)
  else if first ≤ 4 then ((n + (first - 1)) / 7 + 1, y)
  else if n + first < 8 then
    (if first = 5 ∨ first = 6 ∧ Leap (y - 1) then 53 else 52, y - 1)
  else ((n + first - 8) / 7 + 1, y)

theorem weekday_newYearsEve (y : Nat) :
    (Date.newYearsEve y).weekday = ((Date.newYear y).weekday - 1 + (daysInYear y - 1)) % 7 + 1 := by
  rw [weekday_eq (Date.newYearsEve y), ← Date.dayOfYear_newYearsEve]
  rfl

theorem weekOfYear_eq (h : 2 ≤ d.year) :
    weekOfYear d.year (Date.newYear d.year).weekday (Date.newYearsEve d.year).weekday d.dayOfYear =
      (d.weekNumber, d.weekYear) := by
  obtain ⟨y, hy⟩ : ∃ y, d.year = y + 1 := ⟨d.year - 1, by omega⟩
  have hfirst := (Date.newYear d.year).weekday_bounds
  have hweek := weekday_eq d
  have heve := weekday_newYearsEve d.year
  have hlt := d.dayOfYear_lt
  have hlen := daysInYear_cases d.year
  have hlen' := daysInYear_cases y
  unfold weekOfYear
  by_cases hafter : (Date.newYearsEve d.year).weekday < 4 ∧
      daysInYear d.year ≤ d.dayOfYear + (Date.newYearsEve d.year).weekday
  · obtain ⟨hyear, hnum⟩ := week_of_year_after (d := d) (by omega)
    rw [if_pos hafter, hyear, hnum]
  · rw [if_neg hafter]
    by_cases hbefore : d.dayOfYear + 4 < d.weekday
    · obtain ⟨hyear, hnum⟩ := week_of_year_before hy hbefore
      have hprev : d.year - 1 = y := by omega
      rw [hyear, hnum, if_neg (by omega), if_pos (by omega), hprev]
      -- The year before has 53 weeks exactly if its last day is a Thursday, or a Friday of a leap year.
      rcases hlen' with ⟨hlen', hleap⟩ | ⟨hlen', hleap⟩
      · simp only [hleap, and_false, or_false]
        split <;> congr 1 <;> omega
      · simp only [hleap, and_true]
        split <;> congr 1 <;> omega
    · obtain ⟨hyear, hnum⟩ := week_of_year (d := d) (by omega) (by omega)
      rw [hyear, hnum]
      by_cases hthu : (Date.newYear d.year).weekday ≤ 4
      · rw [if_pos hthu]
        congr 2
        omega
      · rw [if_neg hthu, if_neg (by omega)]
        congr 2
        omega

/-! ## The code computes on these small numbers without wrapping -/

theorem ofNat_beq_ofNat {a b : Nat} (ha : a < 2 ^ 32) (hb : b < 2 ^ 32) :
    (UInt32.ofNat a == UInt32.ofNat b) = decide (a = b) := by
  rw [Bool.eq_iff_iff, beq_iff_eq, decide_eq_true_iff, ← UInt32.toNat_inj, UInt32.toNat_ofNat',
    UInt32.toNat_ofNat', Nat.mod_eq_of_lt ha, Nat.mod_eq_of_lt hb]

theorem before_first_monday {f n : Nat} (hf : 1 ≤ f ∧ f ≤ 7) (hn : n < 366) :
    UInt32.ofNat n < 7 - UInt32.ofNat f + 1 ↔ n + f < 8 := by
  have h : 7 - UInt32.ofNat f + 1 = UInt32.ofNat (7 - f + 1) := by
    rw [UInt32.ofNat_add, UInt32.ofNat_sub hf.2]
    rfl
  rw [h, ofNat_lt_ofNat (by omega) (by omega)]
  omega

theorem in_last_days {l m n : Nat} (hl : 1 ≤ l ∧ l ≤ 7) (hm : 364 ≤ m ∧ m < 366) (hn : n < 366) :
    UInt32.ofNat n ≥ UInt32.ofNat m - UInt32.ofNat l + 1 ↔ m + 1 ≤ n + l := by
  have h : UInt32.ofNat m - UInt32.ofNat l + 1 = UInt32.ofNat (m - l + 1) := by
    rw [UInt32.ofNat_add, UInt32.ofNat_sub (by omega)]
    rfl
  rw [h, ge_iff_le, ofNat_le_ofNat (by omega) (by omega)]
  omega

theorem weeks_from_first {f n : Nat} (hf : 1 ≤ f ∧ f ≤ 7) (hn : n < 366) :
    (UInt32.ofNat n + (UInt32.ofNat f - 1)) / 7 + 1 = UInt32.ofNat ((n + (f - 1)) / 7 + 1) := by
  rw [UInt32.ofNat_add, UInt32.ofNat_div (by omega) (by omega), UInt32.ofNat_add, UInt32.ofNat_sub hf.1]
  rfl

theorem weeks_from_monday {f n : Nat} (hf : 1 ≤ f ∧ f ≤ 7) (hn : n < 366) (h : ¬ n + f < 8) :
    (UInt32.ofNat n - (7 - UInt32.ofNat f + 1)) / 7 + 1 = UInt32.ofNat ((n + f - 8) / 7 + 1) := by
  have hsub : n + f - 8 = n - (7 - f + 1) := by omega
  rw [hsub, UInt32.ofNat_add, UInt32.ofNat_div (by omega) (by omega), UInt32.ofNat_sub (by omega), UInt32.ofNat_add,
    UInt32.ofNat_sub hf.2]
  rfl

theorem getWeekNumber_eq (hlo : 1 ≤ d.year) (hhi : d.year < lastYear) :
    getWeekNumber (code d) =
      let week := weekOfYear d.year (Date.newYear d.year).weekday (Date.newYearsEve d.year).weekday d.dayOfYear
      .ok (UInt32.ofNat week.1, UInt32.ofNat week.2) := by
  have hfirst := (Date.newYear d.year).weekday_bounds
  have hlast := (Date.newYearsEve d.year).weekday_bounds
  have heve : (Date.newYearsEve d.year).dayOfYear + 1 = daysInYear d.year := Date.dayOfYear_newYearsEve d.year
  have hlt := d.dayOfYear_lt
  have hlen := daysInYear_cases d.year
  have hyear : d.year < 2 ^ 32 := by unfold lastYear at hhi; omega
  have hjan : UInt32.ofNat d.year * 10000 + 101 = code (Date.newYear d.year) := by
    simp [code_eq, Date.newYear, UInt32.add_assoc]
  have hdec : UInt32.ofNat d.year * 10000 + 1231 = code (Date.newYearsEve d.year) := by
    simp [code_eq, Date.newYearsEve, UInt32.add_assoc]
  simp only [getWeekNumber, code_year (Nat.le_of_lt hhi), hjan, hdec,
    getWeekDay_code (d := Date.newYear d.year) (Nat.le_of_lt hhi) hlo,
    getWeekDay_code (d := Date.newYearsEve d.year) (Nat.le_of_lt hhi) hlo,
    getDayOfYear_code (d := Date.newYearsEve d.year) (Nat.le_of_lt hhi),
    getDayOfYear_code (d := d) (Nat.le_of_lt hhi)]
  generalize (Date.newYear d.year).weekday = f at *
  generalize (Date.newYearsEve d.year).weekday = l at *
  generalize (Date.newYearsEve d.year).dayOfYear = m at *
  generalize d.dayOfYear = n at *
  have hprev : UInt32.ofNat d.year - 1 = UInt32.ofNat (d.year - 1) := by
    rw [UInt32.ofNat_sub hlo]
    rfl
  have hf (k : Nat) (hk : k < 2 ^ 32) : (UInt32.ofNat f == UInt32.ofNat k) = decide (f = k) :=
    ofNat_beq_ofNat (by omega) hk
  have hl (k : Nat) (hk : k < 2 ^ 32) : (UInt32.ofNat l == UInt32.ofNat k) = decide (l = k) :=
    ofNat_beq_ofNat (by omega) hk
  have hf4 : UInt32.ofNat f ≤ 4 ↔ f ≤ 4 := ofNat_le_ofNat (b := 4) (by omega) (by omega)
  have hl4 : UInt32.ofNat l < 4 ↔ l < 4 := ofNat_lt_ofNat (b := 4) (by omega) (by omega)
  have hf0 : (UInt32.ofNat f == 0) = false := (hf 0 (by omega)).trans (by simp; omega)
  have hl0 : (UInt32.ofNat l == 0) = false := (hl 0 (by omega)).trans (by simp; omega)
  have hf5 : (UInt32.ofNat f == 5) = decide (f = 5) := hf 5 (by omega)
  have hf6 : (UInt32.ofNat f == 6) = decide (f = 6) := hf 6 (by omega)
  have hf7 : (UInt32.ofNat f == 7) = decide (f = 7) := hf 7 (by omega)
  have hfirstdays := before_first_monday hfirst (n := n) (by omega)
  have hlastdays := in_last_days hlast (m := m) (n := n) (by omega) (by omega)
  have hleap := isLeapYear_ofNat (y := d.year - 1) (by omega)
  simp only [bind, Except.bind, pure, Except.pure, hf0, hl0, Bool.false_eq_true, if_false, hf4, hl4, hfirstdays,
    hlastdays, hprev, hleap, heve, hf5, hf6, hf7, Bool.and_eq_true, decide_eq_true_eq, weekOfYear]
  by_cases hafter : l < 4 ∧ daysInYear d.year ≤ n + l
  · simp [hafter]
  · rw [if_neg hafter, if_neg hafter]
    by_cases hthu : f ≤ 4
    · simp only [hthu, if_true, weeks_from_first hfirst (show n < 366 by omega)]
    · by_cases hbefore : n + f < 8
      · simp only [hthu, hbefore, if_true, if_false]
        obtain h | h | h : f = 5 ∨ f = 6 ∨ f = 7 := by omega
        · simp [h]
        · by_cases hl : Leap (d.year - 1) <;> simp [h, hl]
        · simp [h]
      · simp only [hthu, hbefore, if_false, weeks_from_monday hfirst (show n < 366 by omega) hbefore]

theorem getWeekNumber_code (hlo : 2 ≤ d.year) (hhi : d.year < lastYear) :
    getWeekNumber (code d) = .ok (UInt32.ofNat d.weekNumber, UInt32.ofNat d.weekYear) := by
  rw [getWeekNumber_eq (by omega) hhi, weekOfYear_eq hlo]

/-! ## Days of one week, and consecutive weeks -/

theorem thursday_eq_of_sameWeek (h : d.SameWeek e) : d.thursday = e.thursday := by
  apply Date.dayNumber_injective
  rw [Date.dayNumber_thursday, Date.dayNumber_thursday]
  unfold Date.SameWeek at h
  unfold Date.weekday
  omega

theorem weekNumber_succ (hlo : 1 ≤ d.year) (hdays : e.dayNumber = d.dayNumber + 7)
    (hyear : e.weekYear = d.weekYear) : e.weekNumber = d.weekNumber + 1 := by
  have hstart := (Date.weekYear_eq_iff (d := d)).mp rfl
  have hpos : yearStart 1 ≤ d.dayNumber := Nat.le_trans (yearStart_mono hlo) d.yearStart_le
  have hone : yearStart 1 = 366 := rfl
  rw [Date.weekNumber_eq, Date.weekNumber_eq, hyear]
  unfold Date.weekday at *
  omega

theorem weekNumber_bounds (d : Date) : 1 ≤ d.weekNumber ∧ d.weekNumber ≤ 53 := by
  have hlt := d.thursday.dayOfYear_lt
  have hlen := daysInYear_cases d.thursday.year
  unfold Date.weekNumber
  omega

theorem week_number_iso (d : Date) (hlo : 2 ≤ d.year) (hhi : d.year ≤ 9998) :
    getWeekNumber (code d) = .ok (UInt32.ofNat d.weekNumber, UInt32.ofNat d.weekYear) ∧
      1 ≤ d.weekNumber ∧ d.weekNumber ≤ 53 ∧
      (∀ e : Date, 2 ≤ e.year → e.year ≤ 9998 → d.SameWeek e → getWeekNumber (code e) = getWeekNumber (code d)) ∧
      ∀ e : Date, e.dayNumber = d.dayNumber + 7 → e.weekYear = d.weekYear → e.weekNumber = d.weekNumber + 1 := by
  have hlt {x : Date} (hx : x.year ≤ 9998) : x.year < lastYear := Nat.lt_of_le_of_lt hx (by decide)
  refine ⟨getWeekNumber_code hlo (hlt hhi), (weekNumber_bounds d).1, (weekNumber_bounds d).2, ?_,
    fun e => weekNumber_succ (by omega)⟩
  intro e helo hehi hweek
  have hthu := thursday_eq_of_sameWeek hweek
  rw [getWeekNumber_code hlo (hlt hhi), getWeekNumber_code helo (hlt hehi)]
  unfold Date.weekNumber Date.weekYear
  rw [hthu]

/-- 1 January 2021 was a Friday, in the last of the 53 weeks of 2020. -/
theorem week_number_iso_2021 :
    getWeekNumber 20210101 = .ok (53, 2020) ∧ getWeekNumber 20201228 = getWeekNumber 20210101 := by
  obtain ⟨-, -, -, hsame, -⟩ := week_number_iso (Date.newYear 2021) (by decide) (by decide)
  have hmonday := hsame ⟨2020, 12, 28, by decide, by decide, by decide, by decide⟩ (by decide) (by decide)
    (by decide +kernel)
  refine ⟨by decide +kernel, ?_⟩
  rwa [show (20210101 : UInt32) = code (Date.newYear 2021) from rfl]

end MdInfoSet.TradingTime
