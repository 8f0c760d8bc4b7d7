import Mathlib.Logic.Function.Basic
import MdInfoSet.Core.DayTime
import MdInfoSet.L1Encoding.DceL2
import MdInfoSet.L4App.DceClock

/-!
# Reading a time of day from text

`time_str_to_utc_s` (`common.h`) and `dce_time_str_to_utc_s` (`gz_dce_md.cpp`) go through a
string with `numIdx`, which every `:` and every `.` moves on, and add each digit to
`nums[numIdx]`. The array has four numbers and `numIdx` is not compared with that.

**Exact condition.** `nums` is indexed inside of the array exactly if no digit stands behind
four separators or more, and then a formatted time gives its milliseconds (`time_str_iff`).
Every formatted time is of that kind.

**Counterexample.** `09:30:00.500.1` (`time_str_fifth_number`).
-/
namespace MdInfoSet.L4.TimeStrings

open MdInfoSet.L1.Lv2Quote MdInfoSet.L1.DceL2
open MdInfoSet.L4.DceClock (digitChar)

def isDigit (c : UInt8) : Bool := 0x30 ≤ c ∧ c ≤ 0x39

def isSeparator (c : UInt8) : Bool := c = 0x3a ∨ c = 0x2e

/-- No digit stands behind four separators or more. -/
def FourNumbers (s : Bytes) : Prop :=
  ∀ before c behind, s = before ++ c :: behind → isDigit c = true → before.countP isSeparator < 4

/-- The loop over the C string at `timeStr` goes through with all its indices. -/
def InBounds (timeStr : Bytes) : Prop :=
  ∃ s nums, cstr timeStr = some s ∧ timeNums s (fun _ => 0) 0 = some nums

/-! ## Indices -/

/-- One character, by what it does to `nums` and `numIdx`. -/
theorem timeNums_cons (c : UInt8) (s : Bytes) (nums : Fin 4 → Int) (numIdx : Nat) :
    timeNums (c :: s) nums numIdx =
      if isDigit c then
        if h : numIdx < 4 then
          timeNums s (Function.update nums ⟨numIdx, h⟩ (nums ⟨numIdx, h⟩ * 10 + (c.toNat - 0x30 : Nat))) numIdx
        else none
      else timeNums s nums (if isSeparator c then numIdx + 1 else numIdx) := by
  have hupdate (h : numIdx < 4) :
      (fun i => if i = ⟨numIdx, h⟩ then nums i * 10 + ((c.toNat - 0x30 : Nat) : Int) else nums i) =
        Function.update nums ⟨numIdx, h⟩ (nums ⟨numIdx, h⟩ * 10 + (c.toNat - 0x30 : Nat)) := by
    funext i
    by_cases hi : i = ⟨numIdx, h⟩ <;> simp [Function.update, hi]
  by_cases hd : 0x30 ≤ c ∧ c ≤ 0x39
  · have hdigit : isDigit c = true := by simpa [isDigit] using hd
    simp only [timeNums, if_pos hd, hdigit, if_true, hupdate]
  · have hdigit : isDigit c = false := by simpa [isDigit] using hd
    by_cases hs : c = 0x3a ∨ c = 0x2e <;> simp [timeNums, hd, hdigit, hs, isSeparator]

theorem timeNums_isSome_iff (s : Bytes) (nums : Fin 4 → Int) (numIdx : Nat) :
    (timeNums s nums numIdx).isSome ↔
      ∀ before c behind, s = before ++ c :: behind → isDigit c = true → numIdx + before.countP isSeparator < 4 := by
  induction s generalizing nums numIdx with
  | nil => simp [timeNums]
  | cons c s ih =>
    rw [timeNums_cons]
    have hsplit (P : Bytes → UInt8 → Prop) : (∀ before x behind, c :: s = before ++ x :: behind → P before x) ↔
        P [] c ∧ ∀ before x behind, s = before ++ x :: behind → P (c :: before) x := by
      constructor
      · exact fun h => ⟨h [] c s rfl, fun before x behind heq => h (c :: before) x behind (by rw [heq]; rfl)⟩
      · rintro ⟨hnil, hcons⟩ (_ | ⟨y, before⟩) x behind heq
        · obtain ⟨rfl, rfl⟩ := List.cons.inj heq
          exact hnil
        · obtain ⟨rfl, rfl⟩ := List.cons.inj heq
          exact hcons before x behind rfl
    rw [hsplit (fun before x => isDigit x = true → numIdx + before.countP isSeparator < 4)]
    by_cases hd : isDigit c = true
    · have hsep : isSeparator c = false := by
        simp only [isDigit, decide_eq_true_eq] at hd
        rw [isSeparator, decide_eq_false_iff_not]
        rintro (rfl | rfl) <;> revert hd <;> decide
      by_cases hlt : numIdx < 4
      · simp [hd, hlt, ih, hsep]
      · simp [hd, hlt]
    · by_cases hs : isSeparator c = true
      · simp [hd, hs, ih, Nat.add_assoc, Nat.add_comm 1]
      · simp [hd, hs, ih]

theorem cstr_of_ends {s : Bytes} (hs : ∀ c ∈ s, c ≠ 0) (behind : Bytes) : cstr (s ++ 0 :: behind) = some s := by
  induction s with
  | nil => simp [cstr]
  | cons c s ih =>
    obtain ⟨hc, hs⟩ := List.forall_mem_cons.mp hs
    rw [List.cons_append, cstr_cons hc, ih hs, Option.map_some]

theorem inBounds_iff {s : Bytes} (hs : ∀ c ∈ s, c ≠ 0) (behind : Bytes) :
    InBounds (s ++ 0 :: behind) ↔ FourNumbers s := by
  have hsome : InBounds (s ++ 0 :: behind) ↔ (timeNums s (fun _ => 0) 0).isSome := by
    simp [InBounds, cstr_of_ends hs, Option.isSome_iff_exists]
  rw [hsome, timeNums_isSome_iff, FourNumbers]
  simp only [Nat.zero_add]

/-! ## Formatted times -/

/-- `HH:MM:SS.mmm` -/
def text (t : DayTime) : Bytes :=
  [t.hour / 10, t.hour].map digitChar ++ 0x3a :: ([t.minute / 10, t.minute].map digitChar ++
    0x3a :: ([t.second / 10, t.second].map digitChar ++
      0x2e :: ([t.milli / 100, t.milli / 10, t.milli].map digitChar)))

theorem digitChar_toNat (n : Nat) : (digitChar n).toNat = 48 + n % 10 := by
  rw [digitChar, UInt8.toNat_ofNat']
  omega

theorem isDigit_digitChar (n : Nat) : isDigit (digitChar n) = true := by
  have hn := digitChar_toNat n
  rw [isDigit, decide_eq_true_eq, UInt8.le_iff_toNat_le, UInt8.le_iff_toNat_le, hn]
  simp only [UInt8.reduceToNat]
  omega

/-- A number is read digit by digit into the place of the index. -/
theorem timeNums_digits (ns : List Nat) (rest : Bytes) (nums : Fin 4 → Int) {i : Nat} (hi : i < 4) :
    timeNums (ns.map digitChar ++ rest) nums i =
      timeNums rest (Function.update nums ⟨i, hi⟩ (ns.foldl (fun v n => v * 10 + (n % 10 : Nat)) (nums ⟨i, hi⟩))) i := by
  induction ns generalizing nums with
  | nil => simp
  | cons n ns ih =>
    have hval : (digitChar n).toNat - 0x30 = n % 10 := by rw [digitChar_toNat]; omega
    rw [List.map_cons, List.cons_append, timeNums_cons, if_pos (isDigit_digitChar n), dif_pos hi, ih, hval]
    simp

theorem timeNums_separator {c : UInt8} (hc : c = 0x3a ∨ c = 0x2e) (rest : Bytes) (nums : Fin 4 → Int) (numIdx : Nat) :
    timeNums (c :: rest) nums numIdx = timeNums rest nums (numIdx + 1) := by
  rcases hc with rfl | rfl <;> rfl

/-- The four numbers of a time. -/
def numbers (t : DayTime) : Fin 4 → Int := ![(t.hour : Int), t.minute, t.second, t.milli]

theorem timeNums_text (t : DayTime) : timeNums (text t) (fun _ => 0) 0 =
    some (numbers t) := by
  have := t.hour_lt
  have := t.minute_lt
  have := t.second_lt
  have := t.milli_lt
  have htext : text t = [t.hour / 10, t.hour].map digitChar ++ 0x3a :: ([t.minute / 10, t.minute].map digitChar ++
    0x3a :: ([t.second / 10, t.second].map digitChar ++
      0x2e :: ([t.milli / 100, t.milli / 10, t.milli].map digitChar ++ []))) := by simp [text]
  rw [htext, timeNums_digits _ _ _ (show 0 < 4 by decide), timeNums_separator (.inl rfl),
    timeNums_digits _ _ _ (show 0 + 1 < 4 by decide), timeNums_separator (.inl rfl),
    timeNums_digits _ _ _ (show 0 + 1 + 1 < 4 by decide), timeNums_separator (.inr rfl),
    timeNums_digits _ _ _ (show 0 + 1 + 1 + 1 < 4 by decide), timeNums, Option.some_inj]
  funext i
  match i with
  | 0 | 1 | 2 | 3 => simp [Function.update, numbers]; omega

theorem text_ends (t : DayTime) : ∀ c ∈ text t, c ≠ 0 := by
  have hdigit (n : Nat) : digitChar n ≠ 0 := by
    rw [← UInt8.toNat_inj.ne, digitChar_toNat]
    simp
  simp [text, hdigit]

theorem ofInt_millis (t : DayTime) : UInt64.ofInt (t.millis : Nat) = UInt64.ofNat t.millis := by
  have := t.millis_lt
  rw [UInt64.ofInt, Int.emod_eq_of_lt (by omega) (by omega), Int.toNat_natCast]

theorem numbers_sum (t : DayTime) :
    numbers t 0 * 3600000 + numbers t 1 * 60000 + numbers t 2 * 1000 + numbers t 3 = (t.millis : Nat) := by
  have h0 : numbers t 0 = t.hour := rfl
  have h1 : numbers t 1 = t.minute := rfl
  have h2 : numbers t 2 = t.second := rfl
  have h3 : numbers t 3 = t.milli := rfl
  rw [h0, h1, h2, h3, DayTime.millis, DayTime.seconds]
  omega

theorem numbers_lt (t : DayTime) (i : Fin 4) : numbers t i < 1000 := by
  have := t.hour_lt
  have := t.minute_lt
  have := t.second_lt
  have := t.milli_lt
  match i with
  | 0 | 1 | 2 | 3 => simp only [numbers, Matrix.cons_val]; omega

theorem timeStrToUtcS_eq {timeStr s : Bytes} {nums : Fin 4 → Int} (hs : cstr timeStr = some s)
    (hnums : timeNums s (fun _ => 0) 0 = some nums) (hlt : ∀ i, nums i < 2 ^ 31) :
    timeStrToUtcS timeStr =
      some (UInt64.ofInt (nums 0 * 3600000 + nums 1 * 60000 + nums 2 * 1000 + nums 3)) := by
  simp only [timeStrToUtcS, hs, hnums, Option.bind_eq_bind, Option.bind_some, if_pos hlt]

theorem timeStrToUtcS_text (t : DayTime) (behind : Bytes) :
    timeStrToUtcS (text t ++ 0 :: behind) = some (UInt64.ofNat t.millis) := by
  rw [timeStrToUtcS_eq (cstr_of_ends (text_ends t) behind) (timeNums_text t), numbers_sum, ofInt_millis]
  intro i
  have := numbers_lt t i
  omega

theorem fourNumbers_text (t : DayTime) : FourNumbers (text t) := by
  have hsome := (timeNums_isSome_iff (text t) (fun _ => 0) 0).mp (by rw [timeNums_text]; rfl)
  simpa only [FourNumbers, Nat.zero_add] using hsome

/-- The two functions are in bounds, and right about a formatted time, on the string `s`,
whatever stands behind its zero. -/
theorem time_str_iff (s : Bytes) (hs : ∀ c ∈ s, c ≠ 0) (behind : Bytes) :
    ((InBounds (s ++ 0 :: behind) ∧
        ∀ t, s = text t → timeStrToUtcS (s ++ 0 :: behind) = some (UInt64.ofNat t.millis)) ↔ FourNumbers s) ∧
    ((InBounds (s ++ [0]) ∧ ∀ t, s = text t → dceTimeStrToUtcS s = some (UInt64.ofNat t.millis)) ↔ FourNumbers s) ∧
    ∀ t, FourNumbers (text t) := by
  refine ⟨⟨fun h => (inBounds_iff hs behind).mp h.1, fun h => ⟨(inBounds_iff hs behind).mpr h, ?_⟩⟩,
    ⟨fun h => (inBounds_iff hs []).mp h.1, fun h => ⟨(inBounds_iff hs []).mpr h, ?_⟩⟩, fourNumbers_text⟩
  · rintro t rfl
    exact timeStrToUtcS_text t behind
  · rintro t rfl
    exact timeStrToUtcS_text t []

/-- `09:30:00.500` -/
def halfPastNine : Bytes := [0x30, 0x39, 0x3a, 0x33, 0x30, 0x3a, 0x30, 0x30, 0x2e, 0x35, 0x30, 0x30]

theorem halfPastNine_ends : ∀ c ∈ halfPastNine, c ≠ 0 := by simp [halfPastNine]

theorem time_str_half_past_nine : (∀ c ∈ halfPastNine, c ≠ 0) ∧
    ((InBounds (halfPastNine ++ [0]) ∧ ∀ t, halfPastNine = text t →
      timeStrToUtcS (halfPastNine ++ [0]) = some (UInt64.ofNat t.millis)) ↔ FourNumbers halfPastNine) :=
  ⟨halfPastNine_ends, (time_str_iff halfPastNine halfPastNine_ends []).1⟩

theorem time_str_fifth_number :
    (∀ c ∈ halfPastNine ++ [0x2e, 0x31], c ≠ 0) ∧
    ¬ InBounds (halfPastNine ++ [0x2e, 0x31] ++ [0]) := by
  have hs : ∀ c ∈ halfPastNine ++ [0x2e, 0x31], c ≠ 0 := by simp [halfPastNine]
  refine ⟨hs, fun h => ?_⟩
  have hfour := (inBounds_iff hs []).mp h (halfPastNine ++ [0x2e]) 0x31 [] (by simp) (by decide)
  exact absurd hfour (by decide)

end MdInfoSet.L4.TimeStrings
