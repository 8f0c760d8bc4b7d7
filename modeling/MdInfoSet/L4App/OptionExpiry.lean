import MdInfoSet.L4App.FutureExpiry

/-!
# The last trading day of an option (`instrument_static_info.h`)

`get_option_last_tradingday` takes an option code apart (`splitinst`), makes lists of the days
and the trading days of two earlier months and applies the rule of the product. The Zhengzhou
rules count trading days backwards from the 15th or from the end of a month.

**Exact condition.** No Zhengzhou rule ever gives its day (`zhengzhou_expiry_never`): the counter
starts again with each day, so it never gets to 3, and the list of the month before the last is
never filled.
-/
namespace MdInfoSet.FutureStaticInfo
open MdInfoSet.Checked (read read_of_some Returns returns_const)
open MdInfoSet.TradingTime

def islower (c : Char) : Bool := 'a' ≤ c && c ≤ 'z'

def isalpha (c : Char) : Bool := islower c || ('A' ≤ c && c ≤ 'Z')

def toupper (c : Char) : Char := if islower c then Char.ofNat (c.toNat - 32) else c

/-- mirrors src/qx_commom/instrument_static_info.h:70-118, with `true` for the missing return -/
def splitinst (inst : Text) : Option (Text × UInt32 × UInt32) :=
  let inst_upper := inst.map toupper
  let i := (inst_upper.takeWhile isalpha).length
  if i = 0 then none
  else
    let date_digits := (inst_upper.drop i).takeWhile isDigit
    if date_digits.length < 3 ∨ date_digits.length > 4 then none
    else
      let year :=
        if date_digits.length = 4 then number (date_digits.take 2) + 2000 else 2020 + number (date_digits.take 1)
      let month :=
        if date_digits.length = 4 then number (date_digits.drop 2) else number (date_digits.drop 1)
      if month < 1 ∨ month > 12 then none
      else some (inst.take i, UInt32.ofNat year, UInt32.ofNat month)

variable (g_holiday : Finset UInt32)

/-- The backward loops of the Zhengzhou rules, from `days[i]` down; the argument is `i + 1`.
`none` where the loop ends without returning. -/
def countLoop (days : List UInt32) : Nat → Except Fault (Option UInt32)
  | 0 => .ok none
  | i + 1 => do
    let day ← read days i
    -- `int j = 0;` stands inside the loop.
    let j := if isTradingDay g_holiday day then 1 else 0
    if j = 3 then return some day
    countLoop days i

def fifteenthDayProducts : List Text := ["OI", "RM", "PK", "CF", "TA", "ZC", "UR", "PL", "MA", "SF", "SA", "SH", "FG",
  "SM", "PF", "PR"].map String.toList

def monthEndProducts : List Text := ["CJ", "AP", "PX"].map String.toList

def twelfthDayProducts : List Text := ["A", "C", "CS", "B", "M", "Y", "P", "JD", "LG", "LH", "JM", "I", "L", "V", "PP",
  "EG", "EB", "PG", "BZ"].map String.toList

def fifthLastProducts : List Text := ["cu", "al", "zn", "pb", "ni", "sn", "ao", "ad", "au", "ag", "rb"].map String.toList

def fifthLastEnergyProducts : List Text := ["bu", "br", "ru", "sp", "op"].map String.toList

def indexOptionProducts : List Text := ["IO", "MO", "HO"].map String.toList

/-- mirrors src/qx_commom/instrument_static_info.h:307-408 -/
def optionRule (fuel : Nat) (inst product : Text) (year month : UInt32)
    (tradingday_premon day_premon day_prepremon : List UInt32) : Except Fault UInt32 :=
  if product ∈ twelfthDayProducts then read tradingday_premon 11
  else if product = "SR".toList then
    if ¬ "MS".toList <:+: inst then do
      return (← countLoop g_holiday day_premon 15).getD 0
    else do
      return (← countLoop g_holiday day_prepremon 15).getD 0
  else if product ∈ monthEndProducts then do
    return (← countLoop g_holiday day_prepremon day_prepremon.length).getD 0
  else if product ∈ fifteenthDayProducts then do
    return (← countLoop g_holiday day_premon 15).getD 0
  else if product ∈ fifthLastProducts then readBack tradingday_premon 5
  else if product = "sc".toList then readBack tradingday_premon 13
  else if product = "lu".toList ∨ product = "fu".toList then readBack tradingday_premon 10
  else if product ∈ fifthLastEnergyProducts then readBack tradingday_premon 5
  else if product ∈ indexOptionProducts then do
    let day_mon ← GenNatureDay fuel (year * 10000 + month * 100 + 1) (year * 10000 + month * 100 + 31)
    fridayRule g_holiday 3 day_mon
  else return 0

/-- The year and month of the first two lists: the month before. -/
def premonth (year month : UInt32) : UInt32 × UInt32 := if month = 1 then (year - 1, 12) else (year, month - 1)

/-- The year and month of the second two lists: two months before, except that from March on it
is the month before once more. -/
def prepremonth (year month : UInt32) : UInt32 × UInt32 :=
  if month = 1 then (year - 1, 11)
  else if month = 2 then (year - 1, 12)
  else (year, month - 1)

/-- mirrors src/qx_commom/instrument_static_info.h:261-409, with `return 0` for the bare return -/
def get_option_last_tradingday (fuel : Nat) (inst : Text) : Except Fault UInt32 :=
  match splitinst inst with
  | none => .ok 0
  | some (product, year, month) => do
    let (y, m) := premonth year month
    let tradingday_premon ← GenTradingDay g_holiday fuel (y * 10000 + m * 100 + 1) (y * 10000 + m * 100 + 31)
    let _day_premon ← GenNatureDay fuel (y * 10000 + m * 100 + 1) (y * 10000 + m * 100 + 31)
    let (y, m) := prepremonth year month
    let _tradingday_prepremon ← GenTradingDay g_holiday fuel (y * 10000 + m * 100 + 1) (y * 10000 + m * 100 + 31)
    -- The list of nature days goes to `day_premon` once more; `day_prepremon` stays empty.
    let day_premon ← GenNatureDay fuel (y * 10000 + m * 100 + 1) (y * 10000 + m * 100 + 31)
    if tradingday_premon.length < 12 then return 0
    optionRule g_holiday fuel inst product year month tradingday_premon day_premon []

/-! ## Option codes -/

theorem toupper_lower {c : Char} (h : islower c = true) : isalpha (toupper c) = true ∧ isDigit (toupper c) = false := by
  have hbounds : 97 ≤ c.toNat ∧ c.toNat ≤ 122 := by
    simpa [islower, Char.le_def, UInt32.le_iff_toNat_le] using h
  rw [toupper, if_pos h]
  obtain ⟨hlo, hhi⟩ := hbounds
  generalize c.toNat = n at *
  interval_cases n <;> decide

theorem isalpha_toupper {c : Char} (h : isalpha c = true) : isalpha (toupper c) = true := by
  by_cases hl : islower c = true
  · exact (toupper_lower hl).1
  · rwa [toupper, if_neg hl]

theorem isDigit_toupper {c : Char} (h : isDigit c = false) : isDigit (toupper c) = false := by
  by_cases hl : islower c = true
  · exact (toupper_lower hl).2
  · rwa [toupper, if_neg hl]

/-- The code of the underlying future, and what follows it, as in `SR605` and `C5800`. -/
structure OptionCode extends ContractCode where
  rest : Text
  product_alpha : ∀ c ∈ product, isalpha c = true
  rest_head : ∀ c, rest.head? = some c → isDigit c = false

namespace OptionCode

/-- The digits of year and month. -/
def dateDigits (o : OptionCode) : Text := o.yearText.text ++ o.monthText

def code (o : OptionCode) : Text := o.product ++ (o.dateDigits ++ o.rest)

end OptionCode

theorem digitChar_facts : ∀ d : Fin 10, toupper (Nat.digitChar d) = Nat.digitChar d ∧
    isDigit (Nat.digitChar d) = true ∧ isalpha (Nat.digitChar d) = false := by decide

theorem number_month : ∀ m : Fin 12,
    number [Nat.digitChar ((m + 1 : Nat) / 10), Nat.digitChar ((m + 1 : Nat) % 10)] = m + 1 := by
  decide +kernel

theorem number_year : ∀ tens units : Fin 10, number [Nat.digitChar tens, Nat.digitChar units] = tens * 10 + units := by
  decide +kernel

theorem number_year_digit : ∀ d : Fin 10, number [Nat.digitChar d] = d := by decide

variable (o : OptionCode)

theorem mem_dateDigits {c : Char} (h : c ∈ o.dateDigits) : ∃ d : Fin 10, c = Nat.digitChar d := by
  have hmonth := o.monthNumber_bounds
  have hc : c ∈ o.yearText.text ∨ c = Nat.digitChar (o.monthNumber / 10) ∨ c = Nat.digitChar (o.monthNumber % 10) := by
    simpa [OptionCode.dateDigits, ContractCode.monthText] using h
  rcases hc with hc | rfl | rfl
  · cases hy : o.yearText with
    | one d => exact ⟨d, by simpa [hy, YearText.text] using hc⟩
    | two tens units =>
      have hc' : c = Nat.digitChar tens ∨ c = Nat.digitChar units := by simpa [hy, YearText.text] using hc
      exact hc'.elim (fun h => ⟨tens, h⟩) fun h => ⟨units, h⟩
  · exact ⟨⟨o.monthNumber / 10, by omega⟩, rfl⟩
  · exact ⟨⟨o.monthNumber % 10, by omega⟩, rfl⟩

/-- Of a text that goes on with another kind of character, the leading ones of a kind. -/
theorem takeWhile_append {p : Char → Bool} {xs ys : Text} (hxs : ∀ c ∈ xs, p c = true)
    (hys : ∀ c, ys.head? = some c → p c = false) : (xs ++ ys).takeWhile p = xs := by
  rw [List.takeWhile_append_of_pos hxs]
  cases ys with
  | nil => simp
  | cons c ys => simp [hys c rfl]

theorem map_toupper_code :
    o.code.map toupper = o.product.map toupper ++ (o.dateDigits ++ o.rest.map toupper) := by
  have hdigits : o.dateDigits.map toupper = o.dateDigits := by
    refine List.map_congr_left (fun c hc => ?_) |>.trans (List.map_id _)
    obtain ⟨d, rfl⟩ := mem_dateDigits o hc
    exact (digitChar_facts d).1
  rw [OptionCode.code, List.map_append, List.map_append, hdigits]

theorem leading_letters : (o.code.map toupper).takeWhile isalpha = o.product.map toupper := by
  rw [map_toupper_code]
  refine takeWhile_append (fun c hc => ?_) fun c hc => ?_
  · obtain ⟨c, hmem, rfl⟩ := List.mem_map.mp hc
    exact isalpha_toupper (o.product_alpha c hmem)
  · have hmem : c ∈ o.dateDigits := by
      cases hy : o.yearText <;> simp [OptionCode.dateDigits, hy, YearText.text] at hc ⊢ <;> simp [hc]
    obtain ⟨d, rfl⟩ := mem_dateDigits o hmem
    exact (digitChar_facts d).2.2

theorem leading_digits : ((o.code.map toupper).drop o.product.length).takeWhile isDigit = o.dateDigits := by
  rw [map_toupper_code, List.drop_left' (List.length_map _)]
  refine takeWhile_append (fun c hc => ?_) fun c hc => ?_
  · obtain ⟨d, rfl⟩ := mem_dateDigits o hc
    exact (digitChar_facts d).2.1
  · rw [List.head?_map] at hc
    cases hr : o.rest.head? with
    | none => simp [hr] at hc
    | some c' =>
      have hc' : toupper c' = c := by simpa [hr] using hc
      rw [← hc']
      exact isDigit_toupper (o.rest_head c' hr)

theorem dateDigits_parts :
    (o.dateDigits.length = 3 ∨ o.dateDigits.length = 4) ∧
    (if o.dateDigits.length = 4 then number (o.dateDigits.take 2) + 2000
      else 2020 + number (o.dateDigits.take 1)) = o.year ∧
    (if o.dateDigits.length = 4 then number (o.dateDigits.drop 2) else number (o.dateDigits.drop 1)) =
      o.monthNumber := by
  have hmonth : number o.monthText = o.monthNumber := number_month o.month
  cases hy : o.yearText with
  | one d =>
    have hdigits : o.dateDigits = Nat.digitChar d :: o.monthText := by simp [OptionCode.dateDigits, hy, YearText.text]
    have hlen : o.monthText.length = 2 := rfl
    have hyear : o.year = 2020 + d := by rw [ContractCode.year, hy, YearText.year]
    simp [hdigits, hlen, hmonth, hyear, number_year_digit]
  | two tens units =>
    have hdigits : o.dateDigits = Nat.digitChar tens :: Nat.digitChar units :: o.monthText := by
      simp [OptionCode.dateDigits, hy, YearText.text]
    have hlen : o.monthText.length = 2 := rfl
    have hyear : o.year = 2000 + tens * 10 + units := by rw [ContractCode.year, hy, YearText.year]
    have hnumber := number_year tens units
    simp only [hdigits, List.length_cons, hlen, List.take_succ_cons, List.take_zero, List.drop_succ_cons, List.drop_zero,
      hmonth, hyear, hnumber, if_true]
    exact ⟨.inr trivial, by omega, trivial⟩

theorem splitinst_code :
    splitinst o.code = some (o.product, UInt32.ofNat o.year, UInt32.ofNat o.monthNumber) := by
  obtain ⟨hlen, hyear, hmonth⟩ := dateDigits_parts o
  have hproduct := o.product_length
  have hbounds := o.monthNumber_bounds
  have htake : o.code.take o.product.length = o.product := by rw [OptionCode.code, List.take_left]
  simp only [splitinst, leading_letters, List.length_map, leading_digits, htake, hyear, hmonth]
  rw [if_neg (by omega), if_neg (by omega), if_neg (by omega)]

/-! ## The earlier months -/

/-- The month of the underlying future. -/
def OptionCode.yearMonth (o : OptionCode) : YearMonth := ⟨o.year, o.monthNumber, o.monthNumber_bounds⟩

variable {g_holiday} {o}

theorem premonth_eq : premonth (UInt32.ofNat o.year) (UInt32.ofNat o.monthNumber) =
    (UInt32.ofNat o.yearMonth.prev.year, UInt32.ofNat o.yearMonth.prev.month) := by
  have hmonth := o.monthNumber_bounds
  have hyear := o.year_bounds
  have hone : UInt32.ofNat o.monthNumber = 1 ↔ o.monthNumber = 1 := by
    rw [← UInt32.toNat_inj, UInt32.toNat_ofNat', Nat.mod_eq_of_lt (by omega)]
    rfl
  unfold premonth
  by_cases h : o.monthNumber = 1
  · obtain ⟨hy, hm⟩ := YearMonth.prev_of_january (p := o.yearMonth) h
    rw [if_pos (hone.mpr h), hy, hm, UInt32.ofNat_sub (by unfold OptionCode.yearMonth; simp only; omega)]
    rfl
  · obtain ⟨hy, hm⟩ := YearMonth.prev_of_later (p := o.yearMonth) h
    rw [if_neg (mt hone.mp h), hy, hm, UInt32.ofNat_sub (by unfold OptionCode.yearMonth; simp only; omega)]
    rfl

variable (g_holiday) in
/-- The lists that the loops make of a month. -/
theorem returns_month_lists (p : YearMonth) (hlo : 1 ≤ p.year) (hhi : p.year ≤ 9999) :
    Returns (fun fuel => GenTradingDay g_holiday fuel (UInt32.ofNat p.year * 10000 + UInt32.ofNat p.month * 100 + 1)
      (UInt32.ofNat p.year * 10000 + UInt32.ofNat p.month * 100 + 31))
      (.ok ((p.dates.filter (Trading g_holiday)).map code)) ∧
    Returns (fun fuel => GenNatureDay fuel (UInt32.ofNat p.year * 10000 + UInt32.ofNat p.month * 100 + 1)
      (UInt32.ofNat p.year * 10000 + UInt32.ofNat p.month * 100 + 31)) (.ok (p.dates.map code)) := by
  have hyears (e : Date) (he : e ∈ p.dates) : 1 ≤ e.year ∧ e.year ≤ lastYear := by
    have := (YearMonth.mem_dates.mp he).1
    unfold lastYear
    omega
  have htrading := returns_gen_month (isTradingDay g_holiday) hhi p.bounds
  have hnature := returns_gen_month (fun _ => true) hhi p.bounds
  refine ⟨?_, ?_⟩
  · rw [← filter_isTradingDay hyears]
    exact htrading
  · simpa [GenNatureDay, YearMonth.dates] using hnature

/-- The month that the second pair of lists is made of. -/
def OptionCode.secondMonth (o : OptionCode) : YearMonth :=
  if o.monthNumber ≤ 2 then o.yearMonth.prev.prev else o.yearMonth.prev

theorem prepremonth_eq : prepremonth (UInt32.ofNat o.year) (UInt32.ofNat o.monthNumber) =
    (UInt32.ofNat o.secondMonth.year, UInt32.ofNat o.secondMonth.month) := by
  have hmonth := o.monthNumber_bounds
  have hyear := o.year_bounds
  have hsub : UInt32.ofNat o.year - 1 = UInt32.ofNat (o.year - 1) := by
    rw [UInt32.ofNat_sub (by omega)]
    rfl
  have heq (k : Nat) (hk : k < 2 ^ 32) : UInt32.ofNat o.monthNumber = UInt32.ofNat k ↔ o.monthNumber = k := by
    rw [← UInt32.toNat_inj, UInt32.toNat_ofNat', UInt32.toNat_ofNat', Nat.mod_eq_of_lt (by omega), Nat.mod_eq_of_lt hk]
  have hone : UInt32.ofNat o.monthNumber = 1 ↔ o.monthNumber = 1 := heq 1 (by omega)
  have htwo : UInt32.ofNat o.monthNumber = 2 ↔ o.monthNumber = 2 := heq 2 (by omega)
  unfold prepremonth OptionCode.secondMonth
  by_cases h1 : o.monthNumber = 1
  · obtain ⟨hy, hm⟩ := YearMonth.prev_of_january (p := o.yearMonth) h1
    obtain ⟨hy', hm'⟩ := YearMonth.prev_of_later (p := o.yearMonth.prev) (by omega)
    rw [if_pos (hone.mpr h1), if_pos (by omega), hy', hm', hy, hm, hsub]
    rfl
  · obtain ⟨hy, hm⟩ := YearMonth.prev_of_later (p := o.yearMonth) h1
    rw [if_neg (mt hone.mp h1)]
    by_cases h2 : o.monthNumber = 2
    · obtain ⟨hy', hm'⟩ := YearMonth.prev_of_january (p := o.yearMonth.prev) (by rw [hm]; exact congrArg (· - 1) h2)
      rw [if_pos (htwo.mpr h2), if_pos (by omega), hy', hm', hy, hsub]
      rfl
    · rw [if_neg (mt htwo.mp h2), if_neg (by omega), hy, hm, UInt32.ofNat_sub (by unfold OptionCode.yearMonth; simp only; omega)]
      rfl

/-! ## What the function comes to -/

variable (g_holiday) in
/-- The trading days of the month before. -/
def premonTradingDates (o : OptionCode) : List Date := o.yearMonth.prev.dates.filter (Trading g_holiday)

theorem year_bounds_prev : 1 ≤ o.yearMonth.prev.year ∧ o.yearMonth.prev.year ≤ 9999 := by
  have hyear := o.year_bounds
  have hprev := o.yearMonth.prev_year
  unfold OptionCode.yearMonth at hprev ⊢
  simp only at hprev
  omega

theorem year_bounds_second : 1 ≤ o.secondMonth.year ∧ o.secondMonth.year ≤ 9999 := by
  have hyear := o.year_bounds
  have hfirst : o.yearMonth.year = o.year := rfl
  have hprev := o.yearMonth.prev_year
  have hprev' := o.yearMonth.prev.prev_year
  unfold OptionCode.secondMonth
  split <;> omega

theorem returns_option {r : Except Fault UInt32}
    (hrule : 12 ≤ (premonTradingDates g_holiday o).length →
      Returns (fun fuel => optionRule g_holiday fuel o.code o.product (UInt32.ofNat o.year) (UInt32.ofNat o.monthNumber)
        ((premonTradingDates g_holiday o).map code) (o.secondMonth.dates.map code) []) r)
    (hfew : (premonTradingDates g_holiday o).length < 12 → r = .ok 0) :
    Returns (fun fuel => get_option_last_tradingday g_holiday fuel o.code) r := by
  obtain ⟨hlo, hhi⟩ := year_bounds_prev (o := o)
  obtain ⟨hlo', hhi'⟩ := year_bounds_second (o := o)
  obtain ⟨htrading, hnature⟩ := returns_month_lists g_holiday o.yearMonth.prev hlo hhi
  obtain ⟨htrading', hnature'⟩ := returns_month_lists g_holiday o.secondMonth hlo' hhi'
  simp only [get_option_last_tradingday, splitinst_code, premonth_eq, prepremonth_eq]
  refine htrading.bind (hnature.bind (htrading'.bind (hnature'.bind ?_)))
  rw [List.length_map]
  by_cases h : (premonTradingDates g_holiday o).length < 12
  · rw [hfew h]
    unfold premonTradingDates at h
    simp only [if_pos h]
    exact returns_const _
  · have hrule' := hrule (Nat.not_lt.mp h)
    unfold premonTradingDates at h hrule'
    simp only [if_neg h]
    exact hrule'

/-! ## The Zhengzhou rules -/

/-- The counter never gets to 3: the loop ends without a day. -/
theorem countLoop_none {days : List UInt32} {n : Nat} (hn : n ≤ days.length) :
    countLoop g_holiday days n = .ok none := by
  induction n with
  | zero => rfl
  | succ n ih =>
    have hday : days[n]? = some days[n] := List.getElem?_eq_getElem hn
    have hj : (if isTradingDay g_holiday days[n] = true then 1 else 0) ≠ 3 := by split <;> omega
    rw [countLoop, read_of_some hday]
    simp only [bind, Except.bind, hj, if_false]
    exact ih (by omega)

/-- The rules: the third last trading day on or before the 15th of the month before, the same of
two months before, and the third last trading day of two months before. -/
inductive ZhengzhouRule where
  | regular
  | series
  | monthEnd

def ZhengzhouRule.Applies (rule : ZhengzhouRule) (o : OptionCode) : Prop :=
  match rule with
  | regular => o.product = "SR".toList ∧ ¬ "MS".toList <:+: o.code ∨ o.product ∈ fifteenthDayProducts
  | series => o.product = "SR".toList ∧ "MS".toList <:+: o.code
  | monthEnd => o.product ∈ monthEndProducts

/-- The days that a rule counts back from the end of. -/
def ZhengzhouRule.window (rule : ZhengzhouRule) (o : OptionCode) : List Date :=
  match rule with
  | regular => o.yearMonth.prev.dates.filter (·.day ≤ 15)
  | series => o.yearMonth.prev.prev.dates.filter (·.day ≤ 15)
  | monthEnd => o.yearMonth.prev.prev.dates

variable (g_holiday) in
/-- The third last trading day of the rule's window. -/
def IsOptionExpiry (rule : ZhengzhouRule) (o : OptionCode) (e : Date) : Prop :=
  ((rule.window o).filter (Trading g_holiday)).reverse[2]? = some e

/-- What the rules come to: no day, or for a series option a read past the empty list. -/
def ZhengzhouRule.outcome : ZhengzhouRule → Except Fault UInt32
  | series => .error .outOfRange
  | _ => .ok 0

theorem optionRule_fifteenth {product : Text} (h : product ∈ fifteenthDayProducts) (fuel : Nat) (inst : Text)
    (year month : UInt32) (tradingdays days days' : List UInt32) :
    optionRule g_holiday fuel inst product year month tradingdays days days' = (do
      return (← countLoop g_holiday days 15).getD 0) := by
  simp only [fifteenthDayProducts, List.map_cons, List.map_nil, List.mem_cons, List.not_mem_nil, or_false] at h
  rcases h with rfl | rfl | rfl | rfl | rfl | rfl | rfl | rfl | rfl | rfl | rfl | rfl | rfl | rfl | rfl | rfl <;> rfl

theorem optionRule_monthEnd {product : Text} (h : product ∈ monthEndProducts) (fuel : Nat) (inst : Text)
    (year month : UInt32) (tradingdays days days' : List UInt32) :
    optionRule g_holiday fuel inst product year month tradingdays days days' = (do
      return (← countLoop g_holiday days' days'.length).getD 0) := by
  simp only [monthEndProducts, List.map_cons, List.map_nil, List.mem_cons, List.not_mem_nil, or_false] at h
  rcases h with rfl | rfl | rfl <;> rfl

theorem optionRule_sugar (fuel : Nat) (inst : Text) (year month : UInt32) (tradingdays days days' : List UInt32) :
    optionRule g_holiday fuel inst "SR".toList year month tradingdays days days' =
      if ¬ "MS".toList <:+: inst then do
        return (← countLoop g_holiday days 15).getD 0
      else do
        return (← countLoop g_holiday days' 15).getD 0 := rfl

theorem optionRule_zhengzhou {rule : ZhengzhouRule} (h : rule.Applies o) (fuel : Nat) (year month : UInt32)
    (tradingdays : List UInt32) {days : List UInt32} (hdays : 15 ≤ days.length) :
    optionRule g_holiday fuel o.code o.product year month tradingdays days [] = rule.outcome := by
  have hnone : countLoop g_holiday days 15 = .ok none := countLoop_none hdays
  cases rule with
  | regular =>
    rcases h with ⟨hp, hms⟩ | hp
    · rw [hp, optionRule_sugar, if_pos hms, hnone]
      rfl
    · rw [optionRule_fifteenth hp, hnone]
      rfl
  | series =>
    rw [h.1, optionRule_sugar, if_neg (not_not.mpr h.2)]
    rfl
  | monthEnd =>
    rw [optionRule_monthEnd h]
    rfl

variable (g_holiday) in
theorem returns_zhengzhou {rule : ZhengzhouRule} (h : rule.Applies o) :
    Returns (fun fuel => get_option_last_tradingday g_holiday fuel o.code)
      (if (premonTradingDates g_holiday o).length < 12 then .ok 0 else rule.outcome) := by
  have hdays : 15 ≤ (o.secondMonth.dates.map code).length := by
    have hlen := daysInMonth_bounds o.secondMonth.year o.secondMonth.month
    rw [List.length_map, YearMonth.length_dates]
    omega
  refine returns_option (fun hmany => ?_) fun hfew => if_pos hfew
  rw [if_neg (Nat.not_lt.mpr hmany)]
  simp only [optionRule_zhengzhou h _ _ _ _ hdays]
  exact returns_const _

theorem code_ne_zero_of_window {rule : ZhengzhouRule} {e : Date} (he : e ∈ rule.window o) : code e ≠ 0 := by
  have hyear := o.year_bounds
  have hfirst : o.yearMonth.year = o.year := rfl
  have hprev := o.yearMonth.prev_year
  have hprev' := o.yearMonth.prev.prev_year
  have hle : e.year ≤ lastYear := by
    have hcases : e ∈ o.yearMonth.prev.dates ∨ e ∈ o.yearMonth.prev.prev.dates := by
      cases rule with
      | regular => exact .inl (List.mem_filter.mp he).1
      | series => exact .inr (List.mem_filter.mp he).1
      | monthEnd => exact .inr he
    rcases hcases with h | h
    · have := (YearMonth.mem_dates.mp h).1
      unfold lastYear
      omega
    · have := (YearMonth.mem_dates.mp h).1
      unfold lastYear
      omega
  intro hzero
  have hpos := code_pos hle
  rw [hzero] at hpos
  exact absurd hpos (by decide)

/-- Whatever day a rule asks for, the code does not return it. -/
theorem zhengzhou_expiry_never {rule : ZhengzhouRule} (h : rule.Applies o) :
    Returns (fun fuel => get_option_last_tradingday g_holiday fuel o.code)
      (if (premonTradingDates g_holiday o).length < 12 then .ok 0 else rule.outcome) ∧
      ¬ ∃ e, IsOptionExpiry g_holiday rule o e ∧
        Returns (fun fuel => get_option_last_tradingday g_holiday fuel o.code) (.ok (code e)) := by
  have hreturns := returns_zhengzhou g_holiday h
  refine ⟨hreturns, fun ⟨e, he, hret⟩ => ?_⟩
  have hmem := List.mem_reverse.mp (List.mem_of_getElem? he)
  have hne := code_ne_zero_of_window (List.mem_filter.mp hmem).1
  have heq := hreturns.unique hret
  split at heq
  · exact hne (Except.ok.inj heq).symm
  · cases rule with
    | series => cases heq
    | regular => exact hne (Except.ok.inj heq).symm
    | monthEnd => exact hne (Except.ok.inj heq).symm

/-- `SR605C5800` -/
def sr605c5800 : OptionCode :=
  ⟨⟨['S', 'R'], .one 6, 4, by decide, by decide⟩, ['C', '5', '8', '0', '0'], List.all_eq_true.mp (by decide), by
    intro c hc
    cases hc
    decide⟩

def april13 : Date := ⟨2026, 4, 13, april29.month_pos, april29.month_le, by decide, by decide⟩

example : april13.weekday = 1 := by decide +kernel

/-- The 13th, 14th and 15th of April 2026 are the last three trading days up to the 15th. -/
theorem april13_expiry : IsOptionExpiry ∅ .regular sr605c5800 april13 := by
  unfold IsOptionExpiry
  decide +kernel

theorem sr605c5800_regular : ZhengzhouRule.regular.Applies sr605c5800 := .inl ⟨rfl, by decide +kernel⟩

theorem zhengzhou_expiry_sr605 : ¬ ∃ e, IsOptionExpiry ∅ .regular sr605c5800 e ∧
    Returns (fun fuel => get_option_last_tradingday ∅ fuel sr605c5800.code) (.ok (code e)) :=
  (zhengzhou_expiry_never sr605c5800_regular).2

/-- The rule gives 13 April 2026, the code 0. -/
theorem sr605_zero : IsOptionExpiry ∅ .regular sr605c5800 april13 ∧
    Returns (fun fuel => get_option_last_tradingday ∅ fuel sr605c5800.code) (.ok 0) ∧
    ¬ Returns (fun fuel => get_option_last_tradingday ∅ fuel sr605c5800.code) (.ok (code april13)) := by
  have hret : Returns (fun fuel => get_option_last_tradingday ∅ fuel sr605c5800.code) (.ok 0) := by
    have hmany : ¬ (premonTradingDates ∅ sr605c5800).length < 12 := by decide +kernel
    have h := returns_zhengzhou ∅ sr605c5800_regular
    rwa [if_neg hmany] at h
  refine ⟨april13_expiry, hret, fun hday => ?_⟩
  have heq : 0 = code april13 := Except.ok.inj (hret.unique hday)
  exact absurd heq (by decide +kernel)

end MdInfoSet.FutureStaticInfo
