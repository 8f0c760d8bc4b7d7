import MdInfoSet.L4App.ContractCode
import MdInfoSet.L4App.TradingDays

/-!
# The last trading day of a future (`instrument_static_info.h`)

`get_future_last_tradingday` takes a contract code apart, lists the trading days of its month
and applies the rule of the product. Two of the rules search the days of the month with loops
that test one index and step another.

**Exact conditions.** For the financial futures the loop that defers the Friday never stops
within the month (`financial_expiry_out_of_range`). For `ec` the day is right exactly if one
trading day is left from the last Monday on (`ec_expiry_iff`): with several the last of them
comes out, with none the loop backwards runs past the first day.
-/
namespace MdInfoSet.FutureStaticInfo
open MdInfoSet.Checked (read read_of_some Returns returns_const)
open MdInfoSet.TradingTime

variable (g_holiday : Finset UInt32)

/-- `xs[xs.size() - k]` -/
def readBack {α : Type} (xs : List α) (k : Nat) : Except Fault α :=
  if xs.length < k then .error .outOfRange else read xs (xs.length - k)

/-! ## The rule of the Fridays -/

/-- `for (i = 0; i <= day_mon.size(); i++)`, left at the Friday of a number; without one it
reads `day_mon[day_mon.size()]`. -/
def fridayLoop (number : Nat) : List UInt32 → Nat → Nat → Except Fault Nat
  | [], _, _ => .error .outOfRange
  | day :: rest, i, count =>
    let count := if getWeekDay day = 5 then count + 1 else count
    if count = number then .ok i else fridayLoop number rest (i + 1) count

/-- `for (j = i; i < day_mon.size(); j++)` over what is left from `day_mon[j]` on. -/
def deferLoop (i size : Nat) : List UInt32 → UInt32 → Except Fault UInt32
  | [], ret_day => if i < size then .error .outOfRange else .ok ret_day
  | day :: rest, ret_day =>
    if i < size then deferLoop i size rest (if isTradingDay g_holiday day then day else ret_day) else .ok ret_day

/-- mirrors src/qx_commom/instrument_static_info.h:205-226 and, for the second Friday, 231-252 -/
def fridayRule (number : Nat) (day_mon : List UInt32) : Except Fault UInt32 := do
  let i ← fridayLoop number day_mon 0 0
  deferLoop g_holiday i day_mon.length (day_mon.drop i) 0

/-! ## The rule of the last Monday -/

/-- `for (i = day_mon.size()-1; i >= 0; i--)`, left at a Monday; the argument is `i + 1`. -/
def mondayLoop (day_mon : List UInt32) : Nat → Except Fault Int
  | 0 => .ok (-1)
  | i + 1 => do
    let day ← read day_mon i
    if getWeekDay day = 1 then return i
    mondayLoop day_mon i

/-- `for (j = i; j < day_mon.size(); j++)` over what is left from `day_mon[j]` on. -/
def lastLoop : List UInt32 → UInt32 → UInt32
  | [], ret_day => ret_day
  | day :: rest, ret_day => lastLoop rest (if isTradingDay g_holiday day then day else ret_day)

/-- `for (j = i; i >= 0; j--)`; the argument is `j + 1`, and 0 stands for `day_mon[-1]`. -/
def backLoop (i : Int) (day_mon : List UInt32) : Nat → UInt32 → Except Fault UInt32
  | 0, ret_day => if i ≥ 0 then .error .outOfRange else .ok ret_day
  | j + 1, ret_day =>
    if i ≥ 0 then do
      let day ← read day_mon j
      backLoop i day_mon j (if isTradingDay g_holiday day then day else ret_day)
    else .ok ret_day

/-- mirrors src/qx_commom/instrument_static_info.h:177-199 -/
def mondayRule (day_mon : List UInt32) : Except Fault UInt32 := do
  let i ← mondayLoop day_mon day_mon.length
  -- As a `size_t`, an index of -1 is not below the size.
  let ret_day := if i < 0 then 0 else lastLoop g_holiday (day_mon.drop i.toNat) 0
  if ret_day = 0 then backLoop g_holiday i day_mon (i + 1).toNat ret_day
  else return ret_day

/-! ## All products -/

def tenthDayProducts : List Text := ["A", "C", "BB", "CS", "M", "Y", "B", "P", "RR", "FB", "JM", "J", "I", "L", "V",
  "PP", "WH", "SR", "LR", "OI", "CF", "RI", "JR", "PM", "RS", "CJ", "RM", "CY", "PK", "AP", "TA", "UR", "PX", "PL",
  "MA", "SF", "SA", "SH", "FG", "SM", "PF", "PR", "ps", "lc", "si", "pt", "pd"].map String.toList

def fourthLastDayProducts : List Text := ["LG", "LH", "EG", "EB", "PG", "BZ", "JD"].map String.toList

def fifteenthProducts : List Text := ["cu", "bc", "al", "zn", "pb", "ni", "sn", "ao", "ad", "au", "ag", "rb", "wr",
  "hc", "ss", "bu", "br", "ru", "nr", "sp", "op", "hc", "ss", "bu"].map String.toList

def monthBeforeProducts : List Text := ["sc", "lu", "fu"].map String.toList

def thirdFridayProducts : List Text := ["IF", "IC", "IM", "IH"].map String.toList

def secondFridayProducts : List Text := ["TS", "TF", "T", "TL"].map String.toList

/-- mirrors src/qx_commom/instrument_static_info.h:138-254 -/
def futureRule (fuel : Nat) (product : Text) (year month : UInt32) (tradingday_mon : List UInt32) :
    Except Fault UInt32 :=
  if product ∈ tenthDayProducts then read tradingday_mon 9
  else if product = "ZC".toList then read tradingday_mon 4
  else if product ∈ fourthLastDayProducts then readBack tradingday_mon 4
  else if product ∈ fifteenthProducts then return (tradingday_mon.find? (fun day => day % 100 ≥ 15)).getD 0
  else if product ∈ monthBeforeProducts then do
    let tradingday_premon ←
      if month = 1 then
        GenTradingDay g_holiday fuel ((year - 1) * 10000 + 12 * 100 + 1) ((year - 1) * 10000 + 12 * 100 + 31)
      else
        GenTradingDay g_holiday fuel (year * 10000 + (month - 1) * 100 + 1) (year * 10000 + (month - 1) * 100 + 31)
    readBack tradingday_premon 1
  else if product = "ec".toList then do
    let day_mon ← GenNatureDay fuel (year * 10000 + month * 100 + 1) (year * 10000 + month * 100 + 31)
    mondayRule g_holiday day_mon
  else if product ∈ thirdFridayProducts then do
    let day_mon ← GenNatureDay fuel (year * 10000 + month * 100 + 1) (year * 10000 + month * 100 + 31)
    fridayRule g_holiday 3 day_mon
  else if product ∈ secondFridayProducts then do
    let day_mon ← GenNatureDay fuel (year * 10000 + month * 100 + 1) (year * 10000 + month * 100 + 31)
    fridayRule g_holiday 2 day_mon
  else return 0

/-- mirrors src/qx_commom/instrument_static_info.h:123-255 -/
def get_future_last_tradingday (fuel : Nat) (inst : Text) : Except Fault UInt32 := do
  let product ← get_product inst
  let year ← get_year inst
  let month ← get_month inst
  let tradingday_mon ←
    GenTradingDay g_holiday fuel (year * 10000 + month * 100 + 1) (year * 10000 + month * 100 + 31)
  if tradingday_mon.length < 10 then return 0
  futureRule g_holiday fuel product year month tradingday_mon

/-! ## The month of a contract -/

variable {g_holiday}

theorem filter_isTradingDay {l : List Date} (h : ∀ e ∈ l, 1 ≤ e.year ∧ e.year ≤ lastYear) :
    (l.map code).filter (isTradingDay g_holiday) = (l.filter (Trading g_holiday)).map code := by
  rw [List.filter_map]
  congr 1
  refine List.filter_congr fun e he => ?_
  exact isTradingDay_code g_holiday (h e he).2 (h e he).1

/-- The year and month numbers that `get_year` and `get_month` give. -/
def yearCode (c : ContractCode) : UInt32 := UInt32.ofNat c.year

def monthCode (c : ContractCode) : UInt32 := UInt32.ofNat c.monthNumber

/-- The days of the contract's month. -/
def contractDates (c : ContractCode) : List Date := Date.monthDates c.year c.monthNumber c.monthNumber_bounds

variable (g_holiday) in
def contractTradingDates (c : ContractCode) : List Date := (contractDates c).filter (Trading g_holiday)

variable {c : ContractCode} {e : Date}

theorem mem_contractDates : e ∈ contractDates c ↔ e.year = c.year ∧ e.month = c.monthNumber :=
  Date.mem_monthDates

theorem year_of_mem (he : e ∈ contractDates c) : 1 ≤ e.year ∧ e.year ≤ lastYear := by
  have hyear := (mem_contractDates.mp he).1
  have hbounds := c.year_bounds
  unfold lastYear
  omega

theorem returns_GenNatureDay (c : ContractCode) :
    Returns (fun fuel => GenNatureDay fuel (yearCode c * 10000 + monthCode c * 100 + 1)
      (yearCode c * 10000 + monthCode c * 100 + 31)) (.ok ((contractDates c).map code)) := by
  have hyear := c.year_bounds
  have h := returns_gen_month (fun _ => true) (show c.year ≤ 9999 by omega) c.monthNumber_bounds
  simpa [GenNatureDay, yearCode, monthCode, contractDates] using h

theorem returns_GenTradingDay_month (c : ContractCode) :
    Returns (fun fuel => GenTradingDay g_holiday fuel (yearCode c * 10000 + monthCode c * 100 + 1)
      (yearCode c * 10000 + monthCode c * 100 + 31)) (.ok ((contractTradingDates g_holiday c).map code)) := by
  have hyear := c.year_bounds
  have h := returns_gen_month (isTradingDay g_holiday) (show c.year ≤ 9999 by omega) c.monthNumber_bounds
  have hyears (e : Date) (he : e ∈ contractDates c) : 1 ≤ e.year ∧ e.year ≤ lastYear := year_of_mem he
  rw [contractTradingDates, ← filter_isTradingDay hyears]
  exact h

/-- With ten trading days in the month, what comes out is the product's rule. -/
theorem returns_rule {r : Except Fault UInt32} (hten : 10 ≤ (contractTradingDates g_holiday c).length)
    (hrule : Returns (fun fuel => futureRule g_holiday fuel c.product (yearCode c) (monthCode c)
      ((contractTradingDates g_holiday c).map code)) r) :
    Returns (fun fuel => get_future_last_tradingday g_holiday fuel c.text) r := by
  have hlen : ¬ ((contractTradingDates g_holiday c).map code).length < 10 := by
    rw [List.length_map]
    omega
  have hbody : Returns (fun fuel => do
      let tradingday_mon ← GenTradingDay g_holiday fuel (yearCode c * 10000 + monthCode c * 100 + 1)
        (yearCode c * 10000 + monthCode c * 100 + 31)
      if tradingday_mon.length < 10 then return 0
      futureRule g_holiday fuel c.product (yearCode c) (monthCode c) tradingday_mon) r := by
    refine (returns_GenTradingDay_month c).bind ?_
    simpa only [if_neg hlen] using hrule
  have hcode (fuel : Nat) : get_future_last_tradingday g_holiday fuel c.text = (do
      let tradingday_mon ← GenTradingDay g_holiday fuel (yearCode c * 10000 + monthCode c * 100 + 1)
        (yearCode c * 10000 + monthCode c * 100 + 31)
      if tradingday_mon.length < 10 then return 0
      futureRule g_holiday fuel c.product (yearCode c) (monthCode c) tradingday_mon) := by
    rw [get_future_last_tradingday, get_product_text, get_year_text, get_month_text]
    rfl
  simpa only [hcode] using hbody

/-! ## The Fridays -/

theorem fridayLoop_cases {number : Nat} {day_mon : List UInt32} {i count : Nat} :
    fridayLoop number day_mon i count = .error .outOfRange ∨
      ∃ k, fridayLoop number day_mon i count = .ok k ∧ k < i + day_mon.length := by
  induction day_mon generalizing i count with
  | nil => exact .inl rfl
  | cons day rest ih =>
    simp only [fridayLoop, List.length_cons]
    generalize (if getWeekDay day = 5 then count + 1 else count) = found
    by_cases h : found = number
    · exact .inr ⟨i, if_pos h, by omega⟩
    · rw [if_neg h]
      exact ih.imp_right fun ⟨k, hk, hlt⟩ => ⟨k, hk, by omega⟩

/-- Once the Friday is found the test is true for good, and the scan leaves the month. -/
theorem deferLoop_fault {i size : Nat} (h : i < size) (days : List UInt32) (ret_day : UInt32) :
    deferLoop g_holiday i size days ret_day = .error .outOfRange := by
  induction days generalizing ret_day with
  | nil => simp [deferLoop, h]
  | cons day rest ih => rw [deferLoop, if_pos h, ih]

theorem fridayRule_fault (number : Nat) (day_mon : List UInt32) :
    fridayRule g_holiday number day_mon = .error .outOfRange := by
  rcases @fridayLoop_cases number day_mon 0 0 with h | ⟨k, h, hlt⟩
  · rw [fridayRule, h]
    rfl
  · rw [Nat.zero_add] at hlt
    rw [fridayRule, h]
    exact deferLoop_fault hlt _ _

/-- The number of the Friday that a product's rule asks for. -/
def FridayNumber (product : Text) (number : Nat) : Prop :=
  product ∈ thirdFridayProducts ∧ number = 3 ∨ product ∈ secondFridayProducts ∧ number = 2

theorem futureRule_friday {product : Text} {number : Nat} (h : FridayNumber product number) (fuel : Nat)
    (year month : UInt32) (tradingday_mon : List UInt32) :
    futureRule g_holiday fuel product year month tradingday_mon = (do
      let day_mon ← GenNatureDay fuel (year * 10000 + month * 100 + 1) (year * 10000 + month * 100 + 31)
      fridayRule g_holiday number day_mon) := by
  rcases h with ⟨hp, rfl⟩ | ⟨hp, rfl⟩
  · simp only [thirdFridayProducts, List.map_cons, List.map_nil, List.mem_cons, List.not_mem_nil, or_false] at hp
    rcases hp with rfl | rfl | rfl | rfl <;> rfl
  · simp only [secondFridayProducts, List.map_cons, List.map_nil, List.mem_cons, List.not_mem_nil, or_false] at hp
    rcases hp with rfl | rfl | rfl | rfl <;> rfl

theorem returns_friday_fault {number : Nat} (h : FridayNumber c.product number)
    (hten : 10 ≤ (contractTradingDates g_holiday c).length) :
    Returns (fun fuel => get_future_last_tradingday g_holiday fuel c.text) (.error .outOfRange) := by
  refine returns_rule hten ?_
  simp only [futureRule_friday h]
  refine (returns_GenNatureDay c).bind ?_
  rw [fridayRule_fault]
  exact returns_const _

variable (g_holiday) in
/-- The first trading day of the contract's month on or after its Friday of a number. -/
def IsFridayExpiry (c : ContractCode) (number : Nat) (e : Date) : Prop :=
  e ∈ contractTradingDates g_holiday c ∧
    ∃ friday ∈ contractDates c, friday.weekday = 5 ∧ 7 * (number - 1) < friday.day ∧ friday.day ≤ 7 * number ∧
      friday.dayNumber ≤ e.dayNumber ∧
      ∀ x : Date, friday.dayNumber ≤ x.dayNumber → x.dayNumber < e.dayNumber → ¬ Trading g_holiday x

/-- Whatever the day the rule asks for, the code does not come to it: it reads past the month. -/
theorem financial_expiry_out_of_range {number : Nat} (hproduct : FridayNumber c.product number)
    (hten : 10 ≤ (contractTradingDates g_holiday c).length) :
    Returns (fun fuel => get_future_last_tradingday g_holiday fuel c.text) (.error .outOfRange) ∧
      ¬ ∃ e, IsFridayExpiry g_holiday c number e ∧
        Returns (fun fuel => get_future_last_tradingday g_holiday fuel c.text) (.ok (code e)) := by
  have hfault := returns_friday_fault hproduct hten
  refine ⟨hfault, fun ⟨e, _, hret⟩ => ?_⟩
  cases hfault.unique hret

/-- `IF2403` -/
def if2403 : ContractCode := ⟨['I', 'F'], .two 2 4, 2, by decide, by decide⟩

def march15 : Date := ⟨2024, 3, 15, by decide, by decide, by decide, by decide⟩

example : march15.weekday = 5 := by decide +kernel

theorem march15_expiry : IsFridayExpiry ∅ if2403 3 march15 := by
  have hmem : march15 ∈ contractDates if2403 := mem_contractDates.mpr ⟨rfl, rfl⟩
  have htrading : Trading ∅ march15 := by decide +kernel
  refine ⟨List.mem_filter.mpr ⟨hmem, decide_eq_true htrading⟩, march15, hmem, by decide +kernel, by decide, by decide,
    Nat.le_refl _, ?_⟩
  intro x hle hlt
  omega

theorem if2403_trading_dates : 10 ≤ (contractTradingDates ∅ if2403).length := by decide +kernel

/-- The third Friday of March 2024 is a trading day. -/
theorem financial_expiry_if2403 :
    Returns (fun fuel => get_future_last_tradingday ∅ fuel if2403.text) (.error .outOfRange) :=
  (financial_expiry_out_of_range (.inl ⟨by decide, rfl⟩) if2403_trading_dates).1

/-- The rule gives 15 March 2024, the code no day. -/
theorem if2403_no_day : IsFridayExpiry ∅ if2403 3 march15 ∧ if2403.text = ['I', 'F', '2', '4', '0', '3'] ∧
    ¬ Returns (fun fuel => get_future_last_tradingday ∅ fuel if2403.text) (.ok (code march15)) := by
  refine ⟨march15_expiry, by decide, fun hret => ?_⟩
  cases (returns_friday_fault (.inl ⟨by decide, rfl⟩) if2403_trading_dates).unique hret

/-! ## The last Monday -/

theorem mondayLoop_eq {days : List UInt32} {i n : Nat} (hi : i < n) (hn : n ≤ days.length)
    (hmonday : ∃ day, days[i]? = some day ∧ getWeekDay day = 1)
    (hafter : ∀ j day, i < j → j < n → days[j]? = some day → getWeekDay day ≠ 1) :
    mondayLoop days n = .ok i := by
  induction n with
  | zero => omega
  | succ n ih =>
    obtain ⟨day, hday⟩ : ∃ day, days[n]? = some day := ⟨days[n], List.getElem?_eq_getElem hn⟩
    rw [mondayLoop, read_of_some hday]
    by_cases hin : i = n
    · subst hin
      obtain ⟨day', hday', hw⟩ := hmonday
      rw [hday] at hday'
      cases hday'
      simp [bind, Except.bind, hw, pure, Except.pure]
    · have hw := hafter n day (by omega) (by omega) hday
      simp only [bind, Except.bind, hw, if_false]
      exact ih (by omega) (by omega) fun j day hj hjn => hafter j day hj (by omega)

theorem lastLoop_eq (days : List UInt32) (ret_day : UInt32) :
    lastLoop g_holiday days ret_day = (days.filter (isTradingDay g_holiday)).getLastD ret_day := by
  induction days generalizing ret_day with
  | nil => rfl
  | cons day rest ih =>
    rw [lastLoop, ih]
    by_cases h : isTradingDay g_holiday day = true
    · rw [if_pos h, List.filter_cons_of_pos h, List.getLastD_cons]
    · rw [if_neg h, List.filter_cons_of_neg h]

theorem backLoop_fault {i : Int} (hi : 0 ≤ i) {days : List UInt32} {n : Nat} (hn : n ≤ days.length) (ret_day : UInt32) :
    backLoop g_holiday i days n ret_day = .error .outOfRange := by
  induction n generalizing ret_day with
  | zero => simp [backLoop, hi]
  | succ n ih =>
    have hday : days[n]? = some days[n] := List.getElem?_eq_getElem hn
    rw [backLoop, if_pos hi, read_of_some hday]
    exact ih (by omega) _

variable (g_holiday) in
/-- The trading days of the contract's month from a day on. -/
def tradingFrom (c : ContractCode) (monday : Date) : List Date :=
  (contractDates c).filter (fun e => monday.dayNumber ≤ e.dayNumber && Trading g_holiday e)

/-- The last Monday of the contract's month. -/
def IsLastMonday (c : ContractCode) (monday : Date) : Prop :=
  monday ∈ contractDates c ∧ monday.weekday = 1 ∧
    ∀ x ∈ contractDates c, x.weekday = 1 → x.dayNumber ≤ monday.dayNumber

variable {monday : Date}

theorem getElem?_contractDates {i : Nat} (h : i < (contractDates c).length) :
    (contractDates c)[i]? = some ((Date.monthFirst c.year c.monthNumber c.monthNumber_bounds).plus i) := by
  rw [contractDates, Date.monthDates, Date.length_daysFrom] at h
  exact Date.getElem?_daysFrom _ h

theorem day_of_mem (h : e ∈ contractDates c) :
    e.day - 1 < (contractDates c).length ∧
      (Date.monthFirst c.year c.monthNumber c.monthNumber_bounds).plus (e.day - 1) = e := by
  rw [contractDates, Date.monthDates, Date.length_daysFrom]
  exact Date.plus_day h

theorem mondayLoop_contract (hm : IsLastMonday c monday) :
    mondayLoop ((contractDates c).map code) ((contractDates c).map code).length = .ok ((monday.day - 1 : Nat) : Int) := by
  obtain ⟨hmem, hweek, hlast⟩ := hm
  obtain ⟨hlt, hplus⟩ := day_of_mem hmem
  have hread (j : Nat) (hj : j < (contractDates c).length) : ((contractDates c).map code)[j]? =
      some (code ((Date.monthFirst c.year c.monthNumber c.monthNumber_bounds).plus j)) := by
    rw [List.getElem?_map, getElem?_contractDates hj]
    rfl
  rw [List.length_map]
  refine mondayLoop_eq hlt (by rw [List.length_map]) ⟨code monday, by rw [hread _ hlt, hplus], ?_⟩ ?_
  · obtain ⟨hlo, hhi⟩ := year_of_mem hmem
    rw [getWeekDay_code hhi hlo, hweek]
    rfl
  · intro j day hj hjlen hday hone
    rw [hread j hjlen, Option.some.injEq] at hday
    subst hday
    have hmemj : (Date.monthFirst c.year c.monthNumber c.monthNumber_bounds).plus j ∈ contractDates c :=
      List.mem_of_getElem? (getElem?_contractDates hjlen)
    obtain ⟨hlo, hhi⟩ := year_of_mem hmemj
    have hbounds := ((Date.monthFirst c.year c.monthNumber c.monthNumber_bounds).plus j).weekday_bounds
    have hweekj : ((Date.monthFirst c.year c.monthNumber c.monthNumber_bounds).plus j).weekday = 1 := by
      rw [getWeekDay_code hhi hlo] at hone
      have hnat := congrArg UInt32.toNat hone
      rw [UInt32.toNat_ofNat', Nat.mod_eq_of_lt (by omega)] at hnat
      exact hnat
    have hle := hlast _ hmemj hweekj
    rw [← hplus, Date.dayNumber_plus, Date.dayNumber_plus] at hle
    omega

theorem mondayRule_eq (hm : IsLastMonday c monday) : mondayRule g_holiday ((contractDates c).map code) =
    match (tradingFrom g_holiday c monday).getLast? with
    | some e => .ok (code e)
    | none => .error .outOfRange := by
  obtain ⟨hlt, hplus⟩ := day_of_mem hm.1
  have hdrop : (((contractDates c).map code).drop (monday.day - 1)).filter (isTradingDay g_holiday) =
      (tradingFrom g_holiday c monday).map code := by
    rw [← List.map_drop, filter_isTradingDay fun e he => year_of_mem (List.mem_of_mem_drop he)]
    congr 1
    have hfilter := Date.filter_daysFrom (fun e => Trading g_holiday e)
      (Date.monthFirst c.year c.monthNumber c.monthNumber_bounds) (monday.day - 1) (daysInMonth c.year c.monthNumber)
    rw [hplus] at hfilter
    exact hfilter.symm
  have hneg : ¬ ((monday.day - 1 : Nat) : Int) < 0 := by omega
  rw [mondayRule, mondayLoop_contract hm]
  simp only [bind, Except.bind, hneg, if_false, lastLoop_eq, Int.toNat_natCast, hdrop]
  rw [List.getLastD_eq_getLast?, List.getLast?_map]
  cases hl : (tradingFrom g_holiday c monday).getLast? with
  | none =>
    simp only [Option.map_none, Option.getD_none, if_true]
    exact backLoop_fault (by omega) (by rw [List.length_map]; omega) 0
  | some e =>
    have hmem : e ∈ contractDates c := (List.mem_filter.mp (List.mem_of_getLast? hl)).1
    have hpos := code_pos (year_of_mem hmem).2
    have hne : code e ≠ 0 := fun h => by rw [h] at hpos; exact absurd hpos (by decide)
    simp [hne, pure, Except.pure]

variable (g_holiday) in
/-- The day the rule asks for: the first trading day of the month from its last Monday on, or,
without one, the last trading day before it. -/
def IsMondayExpiry (c : ContractCode) (monday e : Date) : Prop :=
  e ∈ contractTradingDates g_holiday c ∧
    ((monday.dayNumber ≤ e.dayNumber ∧
        ∀ x ∈ contractTradingDates g_holiday c, monday.dayNumber ≤ x.dayNumber → e.dayNumber ≤ x.dayNumber) ∨
      ((∀ x ∈ contractTradingDates g_holiday c, x.dayNumber < monday.dayNumber) ∧
        ∀ x ∈ contractTradingDates g_holiday c, x.dayNumber ≤ e.dayNumber))

theorem mem_tradingFrom :
    e ∈ tradingFrom g_holiday c monday ↔ e ∈ contractTradingDates g_holiday c ∧ monday.dayNumber ≤ e.dayNumber := by
  simp only [tradingFrom, contractTradingDates, List.mem_filter, Bool.and_eq_true, decide_eq_true_eq]
  exact ⟨fun ⟨h, hle, ht⟩ => ⟨⟨h, ht⟩, hle⟩, fun ⟨⟨h, ht⟩, hle⟩ => ⟨h, hle, ht⟩⟩

/-- What comes out is the last trading day from the Monday on. -/
theorem returns_monday (hproduct : c.product = ['e', 'c']) (hten : 10 ≤ (contractTradingDates g_holiday c).length)
    (hm : IsLastMonday c monday) :
    Returns (fun fuel => get_future_last_tradingday g_holiday fuel c.text)
      (match (tradingFrom g_holiday c monday).getLast? with
      | some e => .ok (code e)
      | none => .error .outOfRange) := by
  have hrule (fuel : Nat) (tradingday_mon : List UInt32) :
      futureRule g_holiday fuel c.product (yearCode c) (monthCode c) tradingday_mon = (do
        let day_mon ← GenNatureDay fuel (yearCode c * 10000 + monthCode c * 100 + 1)
          (yearCode c * 10000 + monthCode c * 100 + 31)
        mondayRule g_holiday day_mon) := by
    rw [hproduct]
    rfl
  refine returns_rule hten ?_
  simp only [hrule]
  refine (returns_GenNatureDay c).bind ?_
  rw [mondayRule_eq hm]
  exact returns_const _

/-- The rule's day comes out exactly if one trading day of the month is left from the last
Monday on. -/
theorem ec_expiry_iff (hproduct : c.product = ['e', 'c']) (hten : 10 ≤ (contractTradingDates g_holiday c).length)
    (hm : IsLastMonday c monday) :
    (∃ e, IsMondayExpiry g_holiday c monday e ∧
      Returns (fun fuel => get_future_last_tradingday g_holiday fuel c.text) (.ok (code e))) ↔
    (tradingFrom g_holiday c monday).length = 1 := by
  have hreturns := returns_monday hproduct hten hm
  have hsorted : (tradingFrom g_holiday c monday).Pairwise (fun x y => x.dayNumber < y.dayNumber) :=
    (Date.daysFrom_sorted _ _).filter _
  constructor
  · intro ⟨e, ⟨he, hday⟩, hret⟩
    have heq := hreturns.unique hret
    cases hl : (tradingFrom g_holiday c monday).getLast? with
    | none => simp [hl] at heq
    | some l =>
      obtain ⟨front, hfront⟩ := List.getLast?_eq_some_iff.mp hl
      have hlmem : l ∈ tradingFrom g_holiday c monday := List.mem_of_getLast? hl
      obtain ⟨hltrading, hle⟩ := mem_tradingFrom.mp hlmem
      have hyears {x : Date} (hx : x ∈ contractTradingDates g_holiday c) : x.year ≤ lastYear :=
        (year_of_mem (List.mem_filter.mp hx).1).2
      obtain rfl : l = e := code_injective (hyears hltrading) (hyears he) (by simpa [hl] using heq)
      -- Nothing stands before the last of them, which is also the first.
      rcases hday with ⟨-, hfirst⟩ | ⟨hbefore, -⟩
      · cases front with
        | nil => simp [hfront]
        | cons x rest =>
          have hx : x ∈ tradingFrom g_holiday c monday := by simp [hfront]
          rw [hfront] at hsorted
          have hlt := (List.pairwise_append.mp hsorted).2.2 x List.mem_cons_self l List.mem_cons_self
          have hge := hfirst x (mem_tradingFrom.mp hx).1 (mem_tradingFrom.mp hx).2
          omega
      · have := hbefore l hltrading
        omega
  · intro hone
    obtain ⟨e, he⟩ := List.length_eq_one_iff.mp hone
    have hmem : e ∈ tradingFrom g_holiday c monday := by simp [he]
    obtain ⟨htrading, hle⟩ := mem_tradingFrom.mp hmem
    refine ⟨e, ⟨htrading, .inl ⟨hle, fun x hx hmx => ?_⟩⟩, by simpa [he] using hreturns⟩
    have hx' := mem_tradingFrom.mpr ⟨hx, hmx⟩
    rw [he, List.mem_singleton] at hx'
    rw [hx']

/-- `ec2404` -/
def ec2404 : ContractCode := ⟨['e', 'c'], .two 2 4, 3, by decide, by decide⟩

def april29 : Date := ⟨2024, 4, 29, by decide, by decide, by decide, by decide⟩

def april30 : Date := ⟨2024, 4, 30, by decide, by decide, by decide, by decide⟩

example : april29.weekday = 1 ∧ april30.weekday = 2 := by decide +kernel

theorem april29_lastMonday : IsLastMonday ec2404 april29 := by
  refine ⟨mem_contractDates.mpr ⟨rfl, rfl⟩, by decide +kernel, ?_⟩
  decide +kernel

theorem ec2404_trading_dates : 10 ≤ (contractTradingDates ∅ ec2404).length := by decide +kernel

/-- Monday 29 and Tuesday 30 April 2024 are trading days. -/
theorem ec_expiry_iff_ec2404 : ¬ ∃ e, IsMondayExpiry ∅ ec2404 april29 e ∧
    Returns (fun fuel => get_future_last_tradingday ∅ fuel ec2404.text) (.ok (code e)) :=
  mt (ec_expiry_iff rfl ec2404_trading_dates april29_lastMonday).mp (by decide +kernel)

/-- The rule gives the Monday, the code the Tuesday. -/
theorem ec2404_tuesday : IsMondayExpiry ∅ ec2404 april29 april29 ∧
    Returns (fun fuel => get_future_last_tradingday ∅ fuel ec2404.text) (.ok (code april30)) ∧
    ¬ Returns (fun fuel => get_future_last_tradingday ∅ fuel ec2404.text) (.ok (code april29)) := by
  have hret : Returns (fun fuel => get_future_last_tradingday ∅ fuel ec2404.text) (.ok (code april30)) := by
    have hlast : (tradingFrom ∅ ec2404 april29).getLast? = some april30 := by decide +kernel
    simpa only [hlast] using returns_monday rfl ec2404_trading_dates april29_lastMonday
  have hmem : april29 ∈ contractTradingDates ∅ ec2404 :=
    List.mem_filter.mpr ⟨mem_contractDates.mpr ⟨rfl, rfl⟩, by decide +kernel⟩
  refine ⟨⟨hmem, .inl ⟨Nat.le_refl _, fun x _ hx => hx⟩⟩, hret, fun hmonday => ?_⟩
  have heq : code april30 = code april29 := Except.ok.inj (hret.unique hmonday)
  exact absurd heq (by decide +kernel)

end MdInfoSet.FutureStaticInfo
