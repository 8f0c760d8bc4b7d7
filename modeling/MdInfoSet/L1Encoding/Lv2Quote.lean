import Mathlib.Data.Fintype.Basic
import MdInfoSet.Core.Mem

/-!
# The 676-byte Level-2 order book (`Lv2_OB_Quote`)

`src/dz_gfex_md/src/dz_gfex_md.h:55-105`, a packed record the receiver casts the
message buffer to. `Lv2ObQuote` holds the fields `OnData_lv2` reads, with their
offsets; `symbol` and `time` are the bytes a C string function sees from the
field on, up to the end of the message.
-/
namespace MdInfoSet.L1.Lv2Quote

/-- One book level (`Lv2_OB_Quote::Line`, 32 bytes). -/
structure Line where
  price : Float
  volume : Int32
  volumeImpl : Int32

structure Lv2ObQuote where
  symbol : Bytes
  lastPrice : Float
  highPrice : Float
  lowPrice : Float
  volume : Int32
  turnover : Float
  openInterest : Int32
  clearPrice : Float
  priceCeil : Float
  priceFloor : Float
  time : Bytes
  openPrice : Float
  closePrice : Float
  bid : Fin 5 → Line
  ask : Fin 5 → Line

/-- `sizeof(Lv2_OB_Quote)` -/
def lv2ObQuoteSize : Nat := 676

/-- A `double` field. -/
def f64 (d : Mem) (off : Nat) : Float := Float.ofBits (UInt64.ofNat (d.u64 off))

/-- An `int32_t` field. -/
def int32 (d : Mem) (off : Nat) : Int32 := Int32.ofNat (d.u32 off)

def Line.ofMem (d : Mem) (off : Nat) : Line where
  price := f64 d off
  volume := int32 d (off + 8)
  volumeImpl := int32 d (off + 12)

/-- `(Lv2_OB_Quote *)(databuffer)` -/
def Lv2ObQuote.ofMem (d : Mem) : Lv2ObQuote where
  symbol := d.slice 17 (lv2ObQuoteSize - 17)
  lastPrice := f64 d 88
  highPrice := f64 d 96
  lowPrice := f64 d 104
  volume := int32 d 116
  turnover := f64 d 120
  openInterest := int32 d 132
  clearPrice := f64 d 140
  priceCeil := f64 d 164
  priceFloor := f64 d 172
  time := d.slice 236 (lv2ObQuoteSize - 236)
  openPrice := f64 d 252
  closePrice := f64 d 260
  bid := fun i => Line.ofMem d (272 + 32 * i)
  ask := fun i => Line.ofMem d (432 + 32 * i)

/-! ## C strings -/

/-- The bytes before the terminating zero, `none` when there is none. -/
def cstr : Bytes → Option Bytes
  | [] => none
  | 0 :: _ => some []
  | c :: cs => (cstr cs).map (c :: ·)

theorem cstr_cons {c : UInt8} (h : c ≠ 0) (cs : Bytes) : cstr (c :: cs) = (cstr cs).map (c :: ·) := by
  simp [cstr]

/-- A zero ends the string, whatever stands behind it. -/
theorem cstr_append {s : Bytes} (hs : (cstr s).isSome) (rest : Bytes) : cstr (s ++ rest) = cstr s := by
  induction s with
  | nil => cases hs
  | cons c cs ih =>
    by_cases hc : c = 0
    · subst hc
      rfl
    · rw [cstr_cons hc, Option.isSome_map] at hs
      rw [List.cons_append, cstr_cons hc, cstr_cons hc, ih hs]

/-- What a string is cut from. -/
theorem eq_of_cstr {bs s : Bytes} (h : cstr bs = some s) : ∃ rest, bs = s ++ 0 :: rest ∧ ∀ c ∈ s, c ≠ 0 := by
  induction bs generalizing s with
  | nil => cases h
  | cons c bs ih =>
    by_cases hc : c = 0
    · subst hc
      obtain rfl := Option.some.inj h
      exact ⟨bs, rfl, nofun⟩
    · rw [cstr_cons hc] at h
      obtain ⟨s', hs', rfl⟩ := Option.map_eq_some_iff.mp h
      obtain ⟨rest, rfl, hs⟩ := ih hs'
      exact ⟨rest, rfl, List.forall_mem_cons.mpr ⟨hc, hs⟩⟩

/-- A C string ends within the first `n` bytes exactly if one of them is zero. -/
theorem cstr_ends_iff (bs : Bytes) (n : Nat) :
    (∃ str, cstr bs = some str ∧ str.length < n) ↔ 0 ∈ bs.take n := by
  induction bs generalizing n with
  | nil => simp [cstr]
  | cons c bs ih =>
    cases n with
    | zero => simp
    | succ n =>
      rw [List.take_succ_cons, List.mem_cons]
      by_cases hc : c = 0
      · subst hc
        simp [cstr]
      · have hne : (0 : UInt8) ≠ c := fun h => hc h.symm
        rw [cstr_cons hc, or_iff_right hne, ← ih n]
        simp

theorem cstr_isSome {bs : Bytes} (h : 0 ∈ bs) : (cstr bs).isSome := by
  rw [← List.take_length (l := bs), ← cstr_ends_iff] at h
  obtain ⟨str, hstr, -⟩ := h
  rw [hstr]
  rfl

/-- mirrors src/dz_gfex_md/src/dz_gfex_md.cpp:50-61
`len` of the string itself is its length; past 9 bytes only digits count. -/
def gfexInstLen (s : Bytes) : Nat :=
  if s.length ≤ 9 then s.length
  else 9 + ((s.drop 9).filter fun c => 0x30 ≤ c ∧ c ≤ 0x39).length

instance neZero_four : NeZero 4 := ⟨by decide⟩

/-- The loop of `time_str_to_utc_s`: `nums` and `numIdx`. Writing behind the four
numbers is undefined: `none`. -/
def timeNums : Bytes → (Fin 4 → Int) → Nat → Option (Fin 4 → Int)
  | [], nums, _ => some nums
  | c :: cs, nums, numIdx =>
    if 0x30 ≤ c ∧ c ≤ 0x39 then
      if h : numIdx < 4 then
        timeNums cs (fun i => if i = ⟨numIdx, h⟩ then nums i * 10 + (c.toNat - 0x30 : Nat) else nums i) numIdx
      else none
    else if c = 0x3a ∨ c = 0x2e then timeNums cs nums (numIdx + 1)
    else timeNums cs nums numIdx

/-- mirrors src/qx_commom/common.h:852-875
Milliseconds of a `HH:MM:SS.mmm` string; `none` when the string does not end
within the message, has digits behind a fifth number, or a number leaves `int`. -/
def timeStrToUtcS (timeStr : Bytes) : Option UInt64 := do
  let s ← cstr timeStr
  let nums ← timeNums s (fun _ => 0) 0
  if ∀ i, nums i < 2 ^ 31 then
    some (UInt64.ofInt (nums 0 * 3600000 + nums 1 * 60000 + nums 2 * 1000 + nums 3))
  else none

example : timeStrToUtcS [0x30, 0x39, 0x3a, 0x30, 0x39, 0x3a, 0x33, 0x34, 0x2e, 0x31, 0x36, 0x34, 0] =
    some 32974164 := by decide

end MdInfoSet.L1.Lv2Quote
