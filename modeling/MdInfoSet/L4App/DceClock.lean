import Mathlib.Data.Fin.VecNotation
import MdInfoSet.L4App.DceFilter

/-!
# The two clocks of the DCE receiver

A Level-1 message carries the instant it was sent at, in UTC nanoseconds; a
Level-2 message carries the Beijing time (UTC+8) as text. `OnNanoDceL1Md` adds the
eight hours to the UTC second of the day and does not reduce the sum
(src/nano_febao_dce/src/dce_nano.cpp:610-612):

    uint64_t sec2 = (sec - (sec/86400)*86400 ) + 8*3600;

From 16:00 UTC on, which is midnight in Beijing, its clock runs on past 24:00
while the text starts again at 00:00.

**Exact condition.** The two agree, and stay within the day, for the instants
before 16:00 UTC of a day and for no other (`one_clock_iff`).
-/
namespace MdInfoSet.L4.DceClock

open MdInfoSet.L4.DceFilter

def dayMs : Nat := 86400000

/-! ## Beijing time as text -/

/-- Milliseconds since midnight in Beijing at an instant in UTC nanoseconds. -/
def beijingMs (ns : Nat) : Nat := (ns / 1000000 + 8 * 3600000) % dayMs

/-- The last decimal digit of `n`, as a character. -/
def digitChar (n : Nat) : UInt8 := UInt8.ofNat (48 + n % 10)

/-- `HH:MM:SS.mmm` and the terminating zero. -/
def timeStr (ms : Nat) : Fin 13 → UInt8 :=
  let h := ms / 3600000
  let m := ms / 60000 % 60
  let s := ms / 1000 % 60
  let f := ms % 1000
  ![digitChar (h / 10), digitChar h, 0x3a, digitChar (m / 10), digitChar m, 0x3a, digitChar (s / 10), digitChar s,
    0x2e, digitChar (f / 100), digitChar (f / 10), digitChar f, 0]

theorem digit_digitChar (n : Nat) : digit (digitChar n) = (n % 10 : Nat) := by
  have hd : ∀ d : Fin 10, digit (UInt8.ofNat (48 + d)) = (d : Nat) := by decide
  exact hd ⟨n % 10, Nat.mod_lt n (by omega)⟩

/-- Reading the text back gives the time it was written for. -/
theorem timeStrToUtcS_timeStr {ms : Nat} (h : ms < dayMs) : timeStrToUtcS (timeStr ms) = UInt64.ofNat ms := by
  unfold dayMs at h
  have hval : (digit (timeStr ms 0) * 10 + digit (timeStr ms 1)) * 3600000 +
      (digit (timeStr ms 3) * 10 + digit (timeStr ms 4)) * 60000 +
      (digit (timeStr ms 6) * 10 + digit (timeStr ms 7)) * 1000 +
      (digit (timeStr ms 9) * 100 + digit (timeStr ms 10) * 10 + digit (timeStr ms 11)) = (ms : Int) := by
    have hc : timeStr ms 0 = digitChar (ms / 3600000 / 10) ∧ timeStr ms 1 = digitChar (ms / 3600000) ∧
        timeStr ms 3 = digitChar (ms / 60000 % 60 / 10) ∧ timeStr ms 4 = digitChar (ms / 60000 % 60) ∧
        timeStr ms 6 = digitChar (ms / 1000 % 60 / 10) ∧ timeStr ms 7 = digitChar (ms / 1000 % 60) ∧
        timeStr ms 9 = digitChar (ms % 1000 / 100) ∧ timeStr ms 10 = digitChar (ms % 1000 / 10) ∧
        timeStr ms 11 = digitChar (ms % 1000) := ⟨rfl, rfl, rfl, rfl, rfl, rfl, rfl, rfl, rfl⟩
    obtain ⟨h0, h1, h3, h4, h6, h7, h9, h10, h11⟩ := hc
    rw [h0, h1, h3, h4, h6, h7, h9, h10, h11]
    simp only [digit_digitChar]
    omega
  have hnum : timeStrToUtcS (timeStr ms) = UInt64.ofInt (ms : Int) := congrArg UInt64.ofInt hval
  rw [hnum, UInt64.ofInt, Int.emod_eq_of_lt (by omega) (by omega), Int.toNat_natCast]

theorem timeStrToUtcS_toNat {ms : Nat} (h : ms < dayMs) : (timeStrToUtcS (timeStr ms)).toNat = ms := by
  rw [timeStrToUtcS_timeStr h, UInt64.toNat_ofNat_of_lt']
  unfold dayMs at h
  exact Nat.lt_trans h (by decide)

/-! ## The clock of Level 1 -/

/-- The sum is the second of the UTC day with eight hours on top, and the
milliseconds of the instant. -/
theorem extime_toNat (m : NanoDceL1Md) : m.extime.toNat =
    (m.sendTime.toNat / 1000000000 % 86400 + 8 * 3600) * 1000 + m.sendTime.toNat % 1000000000 / 1000000 := by
  have hlt := m.sendTime.toNat_lt
  have hsub : m.sendTime / 1000000000 / 86400 * 86400 ≤ m.sendTime / 1000000000 := by
    rw [UInt64.le_iff_toNat_le]
    simp only [UInt64.toNat_mul, UInt64.toNat_div, UInt64.reduceToNat]
    omega
  unfold NanoDceL1Md.extime
  simp only [UInt64.toNat_add, UInt64.toNat_mul, UInt64.toNat_div, UInt64.toNat_mod, UInt64.reduceToNat,
    UInt64.toNat_sub_of_le _ _ hsub]
  omega

/-- Before 16:00 UTC the sum is the Beijing time, from then on a day more. -/
theorem extime_beijing (m : NanoDceL1Md) : m.extime.toNat =
    beijingMs m.sendTime.toNat + if m.sendTime.toNat / 1000000000 % 86400 < 57600 then 0 else dayMs := by
  rw [extime_toNat]
  unfold beijingMs dayMs
  split <;> omega

/-! ## One clock -/

/-- The two timestamps of an instant agree and lie within the day. -/
structure OneClock (m : NanoDceL1Md) : Prop where
  agree : m.extime = timeStrToUtcS (timeStr (beijingMs m.sendTime.toNat))
  inDayL1 : m.extime < 86400000
  inDayL2 : timeStrToUtcS (timeStr (beijingMs m.sendTime.toNat)) < 86400000

theorem beijingMs_lt (ns : Nat) : beijingMs ns < dayMs := Nat.mod_lt _ (by decide)

/-- **Exact condition.** -/
theorem one_clock_iff (m : NanoDceL1Md) : OneClock m ↔ m.sendTime / 1000000000 % 86400 < 57600 := by
  have hl2 := timeStrToUtcS_toNat (beijingMs_lt m.sendTime.toNat)
  have hl1 := extime_beijing m
  have hd := beijingMs_lt m.sendTime.toNat
  have hc : m.sendTime / 1000000000 % 86400 < 57600 ↔ m.sendTime.toNat / 1000000000 % 86400 < 57600 := Iff.rfl
  rw [hc]
  unfold dayMs at hl1 hd
  constructor
  · intro h
    have hin : m.extime.toNat < 86400000 := h.inDayL1
    by_contra hlate
    rw [if_neg hlate] at hl1
    omega
  · intro h
    rw [if_pos h] at hl1
    refine ⟨UInt64.toNat_inj.mp (by rw [hl2, hl1, Nat.add_zero]), ?_, ?_⟩
    · show m.extime.toNat < 86400000
      omega
    · show (timeStrToUtcS (timeStr (beijingMs m.sendTime.toNat))).toNat < 86400000
      omega

/-- 16:00:00 UTC of the first day: 24:00 on one clock, 00:00 on the other. -/
theorem two_clocks_at_midnight : ¬ ∀ m : NanoDceL1Md, OneClock m := fun h =>
  absurd (h ⟨57600000000000, 0, 0, 0, 0, 0, 0⟩).inDayL1 (by decide)

end MdInfoSet.L4.DceClock
