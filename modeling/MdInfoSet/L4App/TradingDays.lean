import MdInfoSet.L4App.TradingTime

/-!
# Searching and listing trading days (`tradingtime.h`)

`getNextTradingDay` and `getLastTradingDate` step from day to day until they meet a trading
day; `GenTradingDay` and `GenNatureDay` step from one date up to another and collect.

* `returns_next`, `returns_last`: the searches end at the nearest trading day.
* `returns_gen`: what the collecting loop comes to.
* `gen_wraps`: with a last date from 429496-12-31 on the loop leaves the dates behind and
  reads its table of months out of range.
-/
namespace MdInfoSet.TradingTime
open MdInfoSet.WhileLoop (Round Ends Visits ends_leave ends_next)
open MdInfoSet.Checked (whileLoop Returns returns_whileLoop)

variable (g_holiday : Finset UInt32)

/-- One round of the searches: `step` to another day and look at it. -/
def searchRound (step : UInt32 → Except Fault UInt32) (date : UInt32) : Round UInt32 (Except Fault UInt32) :=
  match step date with
  | .error fault => .leave (.error fault)
  | .ok ret =>
    if ret > 0 then
      if isTradingDay g_holiday ret then .leave (.ok ret) else .next ret
    else .leave (.ok ret)

/-- mirrors src/qx_commom/tradingtime.h:470-478 -/
def getNextTradingDay (fuel : Nat) (date : UInt32) : Except Fault UInt32 :=
  whileLoop (searchRound g_holiday getTomorrow) fuel date

/-- mirrors src/qx_commom/tradingtime.h:480-488 -/
def getLastTradingDate (fuel : Nat) (date : UInt32) : Except Fault UInt32 :=
  whileLoop (searchRound g_holiday getYesterday) fuel date

/-- One round of the collecting loops: the date, and the days collected so far. -/
def genRound (keep : UInt32 → Bool) (end_date : UInt32) :
    UInt32 × List UInt32 → Round (UInt32 × List UInt32) (Except Fault (List UInt32))
  | (date, days) =>
    if date ≤ end_date then
      let days := if keep date then days ++ [date] else days
      match getTomorrow date with
      | .ok date => .next (date, days)
      | .error fault => .leave (.error fault)
    else .leave (.ok days)

/-- mirrors src/qx_commom/tradingtime.h:594-608, without the text of the dates that it builds and drops -/
def GenTradingDay (fuel : Nat) (start_date end_date : UInt32) : Except Fault (List UInt32) :=
  whileLoop (genRound (isTradingDay g_holiday) end_date) fuel (start_date, [])

/-- mirrors src/qx_commom/tradingtime.h:617-625 -/
def GenNatureDay (fuel : Nat) (start_date end_date : UInt32) : Except Fault (List UInt32) :=
  whileLoop (genRound (fun _ => true) end_date) fuel (start_date, [])

/-! ## The searches -/

/-- No trading day strictly between two days. -/
def NoneBetween (d e : Date) : Prop :=
  ∀ x : Date, d.dayNumber < x.dayNumber → x.dayNumber < e.dayNumber → ¬ Trading g_holiday x

variable {g_holiday} {d e : Date}

theorem searchRound_of_step {step : UInt32 → Except Fault UInt32} (hstep : step (code d) = .ok (code e))
    (hlo : 1 ≤ e.year) (hhi : e.year ≤ lastYear) :
    searchRound g_holiday step (code d) =
      if Trading g_holiday e then .leave (.ok (code e)) else .next (code e) := by
  have htrade := isTradingDay_code g_holiday hhi hlo
  by_cases ht : Trading g_holiday e
  · simp [searchRound, hstep, code_pos hhi, htrade, ht]
  · simp [searchRound, hstep, code_pos hhi, htrade, ht]

theorem ends_next (hlo : 1 ≤ d.year) (hhi : e.year ≤ lastYear) (ht : Trading g_holiday e)
    (hlt : d.dayNumber < e.dayNumber) (hnone : NoneBetween g_holiday d e) :
    Ends (searchRound g_holiday getTomorrow) (code d) (.ok (code e)) := by
  induction hn : e.dayNumber - d.dayNumber generalizing d with
  | zero => omega
  | succ n ih =>
    have hnext := d.dayNumber_next
    have hyear : d.next.year ≤ e.year := Date.year_mono (by omega)
    have hyear' : d.year ≤ d.next.year := Date.year_mono (by omega)
    have hround : searchRound g_holiday getTomorrow (code d) =
        if Trading g_holiday d.next then .leave (.ok (code d.next)) else .next (code d.next) :=
      searchRound_of_step (getTomorrow_code (by omega)) (by omega) (by omega)
    by_cases heq : d.next = e
    · rw [heq, if_pos ht] at hround
      exact (ends_leave hround).mpr rfl
    · have hne := mt Date.dayNumber_injective heq
      rw [if_neg (hnone _ (by omega) (by omega))] at hround
      rw [WhileLoop.ends_next hround]
      exact ih (by omega) (by omega) (fun x hx => hnone x (by omega)) (by omega)

theorem ends_last (hlo : 1 ≤ e.year) (hhi : d.year ≤ lastYear) (ht : Trading g_holiday e)
    (hlt : e.dayNumber < d.dayNumber) (hnone : NoneBetween g_holiday e d) :
    Ends (searchRound g_holiday getYesterday) (code d) (.ok (code e)) := by
  induction hn : d.dayNumber - e.dayNumber generalizing d with
  | zero => omega
  | succ n ih =>
    -- The day before is the one whose next day this is.
    obtain ⟨c, rfl⟩ : ∃ c : Date, d = c.next := by
      refine ⟨Date.ofDayNumber (d.dayNumber - 1), Date.dayNumber_injective ?_⟩
      rw [Date.dayNumber_next, Date.dayNumber_ofDayNumber]
      omega
    have hnext := c.dayNumber_next
    have hyear : c.year ≤ c.next.year := Date.year_mono (by omega)
    have hyear' : e.year ≤ c.year := Date.year_mono (by omega)
    have hround : searchRound g_holiday getYesterday (code c.next) =
        if Trading g_holiday c then .leave (.ok (code c)) else .next (code c) :=
      searchRound_of_step (getYesterday_code hhi) (by omega) (by omega)
    by_cases heq : c = e
    · rw [heq, if_pos ht] at hround
      rw [heq]
      exact (ends_leave hround).mpr rfl
    · have hne := mt Date.dayNumber_injective heq
      rw [if_neg (hnone _ (by omega) (by omega))] at hround
      rw [WhileLoop.ends_next hround]
      exact ih (by omega) (by omega) (fun x hx hlt => hnone x hx (by omega)) (by omega)

theorem returns_next (hlo : 1 ≤ d.year) (hhi : e.year ≤ lastYear) (ht : Trading g_holiday e)
    (hlt : d.dayNumber < e.dayNumber) (hnone : NoneBetween g_holiday d e) :
    Returns (fun fuel => getNextTradingDay g_holiday fuel (code d)) (.ok (code e)) :=
  returns_whileLoop (ends_next hlo hhi ht hlt hnone)

theorem returns_last (hlo : 1 ≤ e.year) (hhi : d.year ≤ lastYear) (ht : Trading g_holiday e)
    (hlt : e.dayNumber < d.dayNumber) (hnone : NoneBetween g_holiday e d) :
    Returns (fun fuel => getLastTradingDate g_holiday fuel (code d)) (.ok (code e)) :=
  returns_whileLoop (ends_last hlo hhi ht hlt hnone)

/-- If some later day is a trading day, one of them is the nearest. -/
theorem exists_next (h : ∃ e, Trading g_holiday e ∧ d.dayNumber < e.dayNumber ∧ e.year ≤ 9999) :
    ∃ e, Trading g_holiday e ∧ d.dayNumber < e.dayNumber ∧ NoneBetween g_holiday d e ∧ e.year ≤ 9999 := by
  obtain ⟨l, hl, hdl, hyear⟩ := h
  induction hn : l.dayNumber using Nat.strongRecOn generalizing l with
  | _ n ih =>
    by_cases hnone : NoneBetween g_holiday d l
    · exact ⟨l, hl, hdl, hnone, hyear⟩
    · simp only [NoneBetween, not_forall, not_not] at hnone
      obtain ⟨x, hdx, hxl, hx⟩ := hnone
      exact ih _ (hn ▸ hxl) x hx hdx (Nat.le_trans (Date.year_mono (by omega)) hyear) rfl

theorem exists_last (h : ∃ e, Trading g_holiday e ∧ e.dayNumber < d.dayNumber ∧ 1 ≤ e.year) :
    ∃ e, Trading g_holiday e ∧ e.dayNumber < d.dayNumber ∧ NoneBetween g_holiday e d ∧ 1 ≤ e.year := by
  obtain ⟨l, hl, hdl, hyear⟩ := h
  induction hn : d.dayNumber - l.dayNumber using Nat.strongRecOn generalizing l with
  | _ n ih =>
    by_cases hnone : NoneBetween g_holiday l d
    · exact ⟨l, hl, hdl, hnone, hyear⟩
    · simp only [NoneBetween, not_forall, not_not] at hnone
      obtain ⟨x, hlx, hxd, hx⟩ := hnone
      exact ih _ (by omega) x hx hxd (Nat.le_trans hyear (Date.year_mono (by omega))) rfl

/-! ## The collecting loops -/

variable {keep : UInt32 → Bool} {end_date : UInt32}

/-- The numbers of `k` days from `d` on that are kept. -/
def kept (keep : UInt32 → Bool) (d : Date) (k : Nat) : List UInt32 := ((d.daysFrom k).map code).filter keep

theorem visits_gen {k : Nat} (hend : ∀ e ∈ d.daysFrom k, code e ≤ end_date) (hyear : (d.plus k).year ≤ lastYear)
    (days : List UInt32) :
    Visits (genRound keep end_date) (code d, days) (code (d.plus k), days ++ kept keep d k) := by
  induction k generalizing d days with
  | zero =>
    rw [Date.plus_zero]
    simpa [kept, Date.daysFrom] using Visits.here _
  | succ k ih =>
    rw [Date.daysFrom, List.forall_mem_cons] at hend
    rw [← Date.next_plus] at hyear ⊢
    have hnext : d.next.year ≤ lastYear :=
      Nat.le_trans (Date.year_mono (by rw [Date.dayNumber_plus]; omega)) hyear
    have hround : genRound keep end_date (code d, days) =
        .next (code d.next, if keep (code d) then days ++ [code d] else days) := by
      simp [genRound, hend.1, getTomorrow_code hnext]
    refine .next hround ?_
    have hrest := ih hend.2 hyear (if keep (code d) then days ++ [code d] else days)
    have hkept : (if keep (code d) then days ++ [code d] else days) ++ kept keep d.next k =
        days ++ kept keep d (k + 1) := by
      by_cases hk : keep (code d) = true <;> simp [kept, Date.daysFrom, hk]
    rwa [hkept] at hrest

theorem ends_gen {k : Nat} (hin : ∀ e ∈ d.daysFrom k, code e ≤ end_date) (hyear : (d.plus k).year ≤ lastYear)
    (hout : end_date < code (d.plus k)) :
    Ends (genRound keep end_date) (code d, []) (.ok (kept keep d k)) := by
  rw [WhileLoop.ends_of_visits (visits_gen hin hyear []), List.nil_append]
  refine (ends_leave ?_).mpr rfl
  simp [genRound, UInt32.not_le.mpr hout]

theorem returns_gen {k : Nat} (hin : ∀ e ∈ d.daysFrom k, code e ≤ end_date) (hyear : (d.plus k).year ≤ lastYear)
    (hout : end_date < code (d.plus k)) :
    Returns (fun fuel => whileLoop (genRound keep end_date) fuel (code d, [])) (.ok (kept keep d k)) :=
  returns_whileLoop (ends_gen hin hyear hout)

/-- The number of the last date that has one. -/
theorem code_last : code (Date.newYearsEve lastYear) = 4294961231 := rfl

theorem le_last (h : d.year ≤ lastYear) : d.dayNumber ≤ (Date.newYearsEve lastYear).dayNumber := by
  have hlt := d.dayNumber_lt
  have hmono : yearStart (d.year + 1) ≤ yearStart (lastYear + 1) := yearStart_mono (by omega)
  have hlen := Date.dayOfYear_newYearsEve lastYear
  have hsucc := yearStart_succ lastYear
  have hnum : (Date.newYearsEve lastYear).dayNumber =
      yearStart lastYear + (Date.newYearsEve lastYear).dayOfYear := rfl
  omega

/-- Below the last number the loop stops at a first day that is too late. -/
theorem exists_end (hyear : d.year ≤ lastYear) (hend : end_date < 4294961231) :
    ∃ k, (∀ e ∈ d.daysFrom k, code e ≤ end_date) ∧ (d.plus k).year ≤ lastYear ∧ end_date < code (d.plus k) := by
  have hlast : d.plus ((Date.newYearsEve lastYear).dayNumber - d.dayNumber) = Date.newYearsEve lastYear :=
    Date.plus_sub (le_last hyear)
  have hex : ∃ k, end_date < code (d.plus k) := ⟨_, by rw [hlast, code_last]; exact hend⟩
  refine ⟨Nat.find hex, fun e he => ?_, ?_, Nat.find_spec hex⟩
  · obtain ⟨hle, hlt⟩ := Date.mem_daysFrom.mp he
    have hbefore := Nat.find_min hex (m := e.dayNumber - d.dayNumber) (by omega)
    rwa [Date.plus_sub hle, UInt32.not_lt] at hbefore
  · have hle : Nat.find hex ≤ (Date.newYearsEve lastYear).dayNumber - d.dayNumber :=
      Nat.find_min' hex (by rw [hlast, code_last]; exact hend)
    have hmono : (d.plus (Nat.find hex)).year ≤ (Date.newYearsEve lastYear).year :=
      Date.year_mono (by rw [Date.dayNumber_plus]; have := le_last hyear; omega)
    exact hmono

theorem gen_wraps (hyear : d.year ≤ lastYear) (hend : 4294961231 ≤ end_date) :
    Ends (genRound keep end_date) (code d, []) (.error .outOfRange) := by
  have hle := le_last hyear
  have hlast := Date.plus_sub hle
  have hin (e : Date) (he : e ∈ d.daysFrom ((Date.newYearsEve lastYear).dayNumber - d.dayNumber)) :
      code e ≤ end_date := by
    have hlt := (Date.mem_daysFrom.mp he).2
    have heyear : e.year ≤ (Date.newYearsEve lastYear).year := Date.year_mono (by omega)
    refine UInt32.le_trans (UInt32.le_of_lt ((code_lt_code heyear (Nat.le_refl _)).mpr ?_)) (code_last ▸ hend)
    omega
  rw [WhileLoop.ends_of_visits (visits_gen hin (by rw [hlast]; exact Nat.le_refl _) []), hlast, code_last]
  have hafter : (2805 : UInt32) ≤ end_date := UInt32.le_trans (by decide) hend
  have htomorrow := code_last ▸ getTomorrow_last
  have hwrap (days : List UInt32) : genRound keep end_date (4294961231, days) =
      .next (2805, if keep 4294961231 then days ++ [4294961231] else days) := by
    simp [genRound, hend, htomorrow]
  have hfault (days : List UInt32) : genRound keep end_date (2805, days) = .leave (.error .outOfRange) := by
    simp [genRound, hafter, getTomorrow_after_last]
  rw [WhileLoop.ends_next (hwrap _)]
  exact (ends_leave (hfault _)).mpr rfl

/-! ## Months -/

variable (keep) in
/-- The days of a month, collected from its first day up to a 31st that it need not have. -/
theorem returns_gen_month {y m : Nat} (hy : y ≤ 9999) (hm : 1 ≤ m ∧ m ≤ 12) :
    Returns (fun fuel => whileLoop (genRound keep (UInt32.ofNat y * 10000 + UInt32.ofNat m * 100 + 31)) fuel
      (UInt32.ofNat y * 10000 + UInt32.ofNat m * 100 + 1, []))
      (.ok (((Date.monthDates y m hm).map code).filter keep)) := by
  have hfirst : UInt32.ofNat y * 10000 + UInt32.ofNat m * 100 + 1 = code (Date.monthFirst y m hm) := by
    simp [code_eq]
  have hend : UInt32.ofNat y * 10000 + UInt32.ofNat m * 100 + 31 = UInt32.ofNat (y * 10000 + m * 100 + 31) := by
    simp
  have hyear : (Date.monthLast y m hm).next.year ≤ lastYear := by
    have := (Date.monthLast y m hm).year_next_le
    rw [Date.monthLast_year] at this
    unfold lastYear
    omega
  rw [hfirst, hend]
  refine returns_gen (fun e he => ?_) (by rwa [Date.plus_month]) ?_
  · obtain ⟨hey, hem⟩ := Date.mem_monthDates.mp he
    have hday := e.day_lt
    rw [code, Date.pack, hey, hem, ofNat_le_ofNat (by omega) (by omega)]
    omega
  · rw [Date.plus_month, code, ofNat_lt_ofNat (by omega) (pack_lt hyear)]
    exact Date.pack_after_month y m hm

/-! ## The listed days -/

variable (g_holiday) in
/-- The number of a date that is a trading day. -/
def IsTradingDate (x : UInt32) : Prop := ∃ e : Date, e.year ≤ lastYear ∧ x = code e ∧ Trading g_holiday e

theorem kept_sorted {k : Nat} (hyear : (d.plus k).year ≤ lastYear) : (kept keep d k).Pairwise (· < ·) := by
  refine List.Pairwise.filter _ (List.pairwise_map.mpr ?_)
  refine (Date.daysFrom_sorted d k).imp_of_mem fun {x y} hx hy hlt => ?_
  have hyear' {z : Date} (hz : z ∈ d.daysFrom k) : z.year ≤ lastYear := by
    refine Nat.le_trans (Date.year_mono ?_) hyear
    rw [Date.dayNumber_plus]
    exact Nat.le_of_lt (Date.mem_daysFrom.mp hz).2
  exact (code_lt_code (hyear' hx) (hyear' hy)).mpr hlt

theorem mem_kept_trading {k : Nat} (hlo : 1 ≤ d.year) (hin : ∀ e ∈ d.daysFrom k, code e ≤ end_date)
    (hyear : (d.plus k).year ≤ lastYear) (hout : end_date < code (d.plus k)) {x : UInt32} :
    x ∈ kept (isTradingDay g_holiday) d k ↔ code d ≤ x ∧ x ≤ end_date ∧ IsTradingDate g_holiday x := by
  have hd : d.year ≤ lastYear := Nat.le_trans (Date.year_mono (by rw [Date.dayNumber_plus]; omega)) hyear
  simp only [kept, List.mem_filter, List.mem_map]
  constructor
  · rintro ⟨⟨e, he, rfl⟩, hkeep⟩
    obtain ⟨hle, hlt⟩ := Date.mem_daysFrom.mp he
    have heyear : e.year ≤ lastYear := Nat.le_trans (Date.year_mono (by rw [Date.dayNumber_plus]; omega)) hyear
    have hepos : 1 ≤ e.year := Nat.le_trans hlo (Date.year_mono hle)
    rw [isTradingDay_code _ heyear hepos, decide_eq_true_iff] at hkeep
    refine ⟨?_, hin e he, e, heyear, rfl, hkeep⟩
    rw [← UInt32.not_lt, code_lt_code heyear hd]
    omega
  · rintro ⟨hle, hend, e, heyear, rfl, ht⟩
    have hde : d.dayNumber ≤ e.dayNumber := by
      rwa [← UInt32.not_lt, code_lt_code heyear hd, Nat.not_lt] at hle
    have hlt := (code_lt_code heyear hyear).mp (UInt32.lt_of_le_of_lt hend hout)
    rw [Date.dayNumber_plus] at hlt
    refine ⟨⟨e, Date.mem_daysFrom.mpr ⟨hde, hlt⟩, rfl⟩, ?_⟩
    rw [isTradingDay_code _ heyear (Nat.le_trans hlo (Date.year_mono hde)), decide_eq_true_iff]
    exact ht

theorem returns_GenTradingDay (hlo : 1 ≤ d.year) (hyear : d.year ≤ lastYear) (hend : end_date < 4294961231) :
    ∃ tradedays, Returns (fun fuel => GenTradingDay g_holiday fuel (code d) end_date) (.ok tradedays) ∧
      tradedays.Pairwise (· < ·) ∧
      ∀ x, x ∈ tradedays ↔ code d ≤ x ∧ x ≤ end_date ∧ IsTradingDate g_holiday x := by
  obtain ⟨k, hin, hk, hout⟩ := exists_end hyear hend
  exact ⟨_, returns_gen hin hk hout, kept_sorted hk, fun x => mem_kept_trading hlo hin hk hout⟩

/-! ## Navigation -/

variable (g_holiday) in
/-- The two searches find the nearest trading days and undo each other; the collecting loop,
for a last date below 4294961231, lists the trading days from a start on. -/
theorem trading_day_navigation :
    (∀ d : Date, 2 ≤ d.year → d.year ≤ 9998 →
      (∃ e, Trading g_holiday e ∧ d.dayNumber < e.dayNumber ∧ e.year ≤ 9999) →
      (∃ e, Trading g_holiday e ∧ e.dayNumber < d.dayNumber ∧ 1 ≤ e.year) →
      (∃ e, Trading g_holiday e ∧ d.dayNumber < e.dayNumber ∧ NoneBetween g_holiday d e ∧
        Returns (fun fuel => getNextTradingDay g_holiday fuel (code d)) (.ok (code e)) ∧
        (Trading g_holiday d → Returns (fun fuel => getLastTradingDate g_holiday fuel (code e)) (.ok (code d)))) ∧
      (∃ e, Trading g_holiday e ∧ e.dayNumber < d.dayNumber ∧ NoneBetween g_holiday e d ∧
        Returns (fun fuel => getLastTradingDate g_holiday fuel (code d)) (.ok (code e)) ∧
        (Trading g_holiday d → Returns (fun fuel => getNextTradingDay g_holiday fuel (code e)) (.ok (code d))))) ∧
    ∀ (start : Date) (end_date : UInt32), 1 ≤ start.year → start.year ≤ lastYear → end_date < 4294961231 →
      ∃ tradedays, Returns (fun fuel => GenTradingDay g_holiday fuel (code start) end_date) (.ok tradedays) ∧
        tradedays.Pairwise (· < ·) ∧
        ∀ x, x ∈ tradedays ↔ code start ≤ x ∧ x ≤ end_date ∧ IsTradingDate g_holiday x := by
  refine ⟨fun d hlo hhi hafter hbefore => ⟨?_, ?_⟩, fun _ _ => returns_GenTradingDay⟩
  · obtain ⟨e, ht, hlt, hnone, hyear⟩ := exists_next hafter
    have he : e.year ≤ lastYear := Nat.le_trans hyear (by decide)
    exact ⟨e, ht, hlt, hnone, returns_next (by omega) he ht hlt hnone,
      fun htd => returns_last (by omega) he htd hlt hnone⟩
  · obtain ⟨e, ht, hlt, hnone, hyear⟩ := exists_last hbefore
    have hd : d.year ≤ lastYear := Nat.le_trans hhi (by decide)
    exact ⟨e, ht, hlt, hnone, returns_last hyear hd ht hlt hnone,
      fun htd => returns_next hyear hd htd hlt hnone⟩

/-- New Year's Eve of 2023, a Sunday; the days after it begin with a Monday that is a holiday. -/
theorem trading_day_navigation_2024 :
    (∃ e, Trading {20240101} e ∧ (Date.newYearsEve 2023).dayNumber < e.dayNumber ∧
      NoneBetween {20240101} (Date.newYearsEve 2023) e ∧
      Returns (fun fuel => getNextTradingDay {20240101} fuel 20231231) (.ok (code e))) ∧
    ∃ tradedays, Returns (fun fuel => GenTradingDay {20240101} fuel 20231231 20240131) (.ok tradedays) ∧
      tradedays.Pairwise (· < ·) := by
  have hafter : ∃ e, Trading {20240101} e ∧ (Date.newYearsEve 2023).dayNumber < e.dayNumber ∧ e.year ≤ 9999 :=
    ⟨(Date.newYear 2024).next, by decide +kernel, by decide +kernel, by decide +kernel⟩
  have hbefore : ∃ e, Trading {20240101} e ∧ e.dayNumber < (Date.newYearsEve 2023).dayNumber ∧ 1 ≤ e.year :=
    ⟨⟨2023, 12, 29, by decide, by decide, by decide, by decide⟩, by decide +kernel, by decide +kernel, by decide⟩
  obtain ⟨hsearch, hgen⟩ := trading_day_navigation {20240101}
  obtain ⟨⟨e, ht, hlt, hnone, hret, -⟩, -⟩ := hsearch (Date.newYearsEve 2023) (by decide) (by decide) hafter hbefore
  obtain ⟨l, hl, hsorted, -⟩ := hgen (Date.newYearsEve 2023) 20240131 (by decide) (by decide) (by decide)
  exact ⟨⟨e, ht, hlt, hnone, hret⟩, l, hl, hsorted⟩

/-- A last date above every date makes the loop index `monthdays` with 28. -/
theorem GenTradingDay_wraps :
    ¬ ∃ tradedays, Returns (fun fuel => GenTradingDay ∅ fuel 20240101 4294967295) (.ok tradedays) := by
  intro ⟨tradedays, h⟩
  have hwrap : Ends (genRound (isTradingDay ∅) 4294967295) (code (Date.newYear 2024), []) (.error .outOfRange) :=
    gen_wraps (by decide) (by decide)
  cases h.unique (returns_whileLoop hwrap)

end MdInfoSet.TradingTime
