import MdInfoSet.L1Encoding.Lv2Quote
import MdInfoSet.L2Machine.RingBuffer
import MdInfoSet.L4App.GfexFilter
import MdInfoSet.L4App.VolumeDecoder

/-!
# `OnData_lv2` and `HandleLv1Quota`

The two message handlers of the GFEX receiver
(src/dz_gfex_md/src/dz_gfex_md.cpp:454-706, 1379-1525), on what they keep for
one instrument: the `QuotaInfo` entry both consult, the Level-1 record
`HandleLv1Quota` accumulates into, the records pushed to the ring buffer and the
drop counters. Messages of instruments that are not subscribed are left out
(both handlers return at once).

A handler returns `none` where the C++ is undefined or does not return: a time
string that does not end within the message or overruns its numbers, and a
Level-1 field whose `d_type` is neither of the two known ones, on which the loop
of `HandleLv1Quota` does not advance.

* `decoded`, `lv2Quota`: what `OnData_lv2` makes of a message, as functions of it.
* `lv2Filter_spec`, `handleLv1Quota_spec`: what a call can do to the filter's entry
  and to the records pushed.
-/
namespace MdInfoSet.L4.GfexHandlers

open MdInfoSet.L1.Lv2Quote MdInfoSet.L2.RingBuffer MdInfoSet.L4.Filter MdInfoSet.L4.GfexFilter
open MdInfoSet.L4.VolumeDecoder

/-- The drop counters of src/dz_gfex_md/src/dz_gfex_md.h:617-625. -/
structure Sums where
  l1TimeErr : UInt64
  l1VolErr : UInt64
  l1UselessLv1 : UInt64
  l2TimeErr : UInt64
  l2VolErr : UInt64
  l2ApbpErr : UInt64

structure Entry where
  cache : QuotaInfo
  lv1Quota : Quota
  pushed : List Slot
  sums : Sums

def Entry.start : Entry := ⟨QuotaInfo.zero, Quota.init, [], ⟨0, 0, 0, 0, 0, 0⟩⟩

/-! ## `OnData_lv2` -/

/-- A price outside the limits; false for a NaN. -/
def illegal (lower upper price : Float) : Prop := price < lower ∨ price > upper

instance (lower upper price : Float) : Decidable (illegal lower upper price) := by
  unfold illegal; infer_instance

/-- mirrors src/dz_gfex_md/src/dz_gfex_md.cpp:314-319 -/
def illegalPrice (lower upper price : Float) : Float :=
  if price ≥ lower ∧ price ≤ upper then price else float64Nan

/-- All five prices of a side are outside the limits. -/
def allIllegal (lower upper : Float) (side : Fin 5 → Line) : Prop :=
  ∀ i, illegal lower upper (side i).price

instance (lower upper : Float) (side : Fin 5 → Line) : Decidable (allIllegal lower upper side) := by
  unfold allIllegal; infer_instance

/-- The true volumes of a message. -/
def decoded (msgdata : Lv2ObQuote) : Volumes := decodeVolumes msgdata.bid msgdata.ask

/-- Both best volumes of a message decode to 0. -/
def NoVolume (msgdata : Lv2ObQuote) : Prop := (decoded msgdata).av 0 = 0 ∧ (decoded msgdata).bv 0 = 0

instance (msgdata : Lv2ObQuote) : Decidable (NoVolume msgdata) := by unfold NoVolume; infer_instance

/-- An `int32_t` passed as `uint64_t`. -/
def int32ToU64 (v : Int32) : UInt64 := v.toInt64.toUInt64

/-- The call of the filter in `OnData_lv2`. -/
def validLv2 (cache : QuotaInfo) (msgdata : Lv2ObQuote) (extime : UInt64) : ComResult × QuotaInfo :=
  isValidQuota cache extime (int32ToU64 msgdata.volume) 5 (msgdata.ask 0).price (msgdata.bid 0).price
    ((decoded msgdata).av 0) ((decoded msgdata).bv 0)

/-- The bytes of the symbol, cut as `gfex_inst_len` says. -/
def symbolOf (msgdata : Lv2ObQuote) : Bytes :=
  let s := (cstr msgdata.symbol).getD []
  s.take (gfexInstLen s)

/-- The record `OnData_lv2` builds (cpp:610-685). When one side has no price
within the limits the exchange has put its data on the other side. -/
def lv2Quota (msgdata : Lv2ObQuote) (extime : UInt64) : Quota :=
  let upper := msgdata.priceCeil
  let lower := msgdata.priceFloor
  let bv := (decoded msgdata).bv
  let av := (decoded msgdata).av
  let quota := { Quota.init with
    extime := extime
    code := symbolOf msgdata
    open' := msgdata.openPrice
    high := msgdata.highPrice
    low := msgdata.lowPrice
    lastPrice := msgdata.lastPrice
    openinterest := msgdata.openInterest
    settle := msgdata.clearPrice
    close := msgdata.closePrice
    volume := msgdata.volume.toUInt32
    turnOver := msgdata.turnover }
  if allIllegal lower upper msgdata.ask then
    { quota with ap := fun i => illegalPrice lower upper (msgdata.bid i).price, av := bv }
  else if allIllegal lower upper msgdata.bid then
    { quota with bp := fun i => illegalPrice lower upper (msgdata.ask i).price, bv := av }
  else
    { quota with
      bp := fun i => illegalPrice lower upper (msgdata.bid i).price
      ap := fun i => illegalPrice lower upper (msgdata.ask i).price
      bv := bv
      av := av }

/-- How the first checks of `OnData_lv2` end (cpp:457-487). -/
inductive Front where
  /-- Not an order book, or after 15:00. -/
  | ignored
  /-- Neither side has a best price within the limits. -/
  | noPrice
  | quote (msgdata : Lv2ObQuote) (extime : UInt64)

def lv2Front (databuffer : Mem) (size : Nat) : Option Front :=
  if size = lv2ObQuoteSize then
    let msgdata := Lv2ObQuote.ofMem databuffer
    let upper := msgdata.priceCeil
    let lower := msgdata.priceFloor
    (timeStrToUtcS msgdata.time).map fun extime =>
      if extime > 3600 * 15 * 1000 then .ignored
      else if illegal lower upper (msgdata.ask 0).price ∧ illegal lower upper (msgdata.bid 0).price then .noPrice
      else .quote msgdata extime
  else some .ignored

/-- The rest of `OnData_lv2` (cpp:490-705): the filter, and the push of the record
unless neither best volume was decoded. -/
def lv2Filter (e : Entry) (msgdata : Lv2ObQuote) (extime t0 t1 : UInt64) : Entry :=
  let (valid, cache) := validLv2 e.cache msgdata extime
  let e := { e with cache := cache }
  if valid = .timeError then { e with sums.l2TimeErr := e.sums.l2TimeErr + 1 }
  else if valid = .volError then { e with sums.l2VolErr := e.sums.l2VolErr + 1 }
  else if NoVolume msgdata then
    { e with sums.l2ApbpErr := e.sums.l2ApbpErr + 1 }
  else { e with pushed := e.pushed ++ [slotL2 (lv2Quota msgdata extime) t0 t1] }

/-- mirrors src/dz_gfex_md/src/dz_gfex_md.cpp:454-706
`t0` and `t1` are the two readings of the clock. -/
def onDataLv2 (e : Entry) (databuffer : Mem) (size : Nat) (t0 t1 : UInt64) : Option Entry :=
  (lv2Front databuffer size).map fun
    | .ignored => e
    | .noPrice => { e with sums.l2ApbpErr := e.sums.l2ApbpErr + 1 }
    | .quote msgdata extime => lv2Filter e msgdata extime t0 t1

/-! ## `HandleLv1Quota` -/

/-- `sizeof(QuotaBase)` and `sizeof(quota_head)` -/
def quotaBaseSize : Nat := 22
def quotaHeadSize : Nat := 6

/-- `reverseU32(*(uint32_t *)p)`: the four bytes in big-endian order. -/
def reverseU32 (d : Mem) (off : Nat) : UInt32 :=
  UInt32.ofNat ((d off).toNat * 2 ^ 24 + (d (off + 1)).toNat * 2 ^ 16 + (d (off + 2)).toNat * 2 ^ 8 +
    (d (off + 3)).toNat)

/-- `reverseDouble(*(double *)p)` -/
def reverseDouble (d : Mem) (off : Nat) : Float :=
  Float.ofBits ((reverseU32 d off).toUInt64 * 2 ^ 32 + (reverseU32 d (off + 4)).toUInt64)

/-- The field a `quota_head` of the given type announces; its value is at `off`. -/
def setField (quota : Quota) (type : Nat) (d : Mem) (off : Nat) : Quota :=
  if type = 0x7b000000 then { quota with lastPrice := reverseDouble d off }
  else if type = 0x7f000000 then { quota with volume := reverseU32 d off }
  else if type = 0x80000000 then { quota with turnOver := reverseDouble d off }
  else if type = 0x81000000 then { quota with openinterest := (reverseU32 d off).toInt32 }
  else if type = 0x86000000 then { quota with bp := Function.update quota.bp 0 (reverseDouble d off) }
  else if type = 0x87000000 then { quota with bv := Function.update quota.bv 0 (reverseU32 d off) }
  else if type = 0x89000000 then { quota with ap := Function.update quota.ap 0 (reverseDouble d off) }
  else if type = 0x9a000000 then { quota with av := Function.update quota.av 0 (reverseU32 d off) }
  else if type = 0x7c000000 then { quota with high := reverseDouble d off }
  else if type = 0x7d000000 then { quota with low := reverseDouble d off }
  else if type = 0x9d000000 then { quota with open' := reverseDouble d off }
  else if type = 0x9e000000 then { quota with close := reverseDouble d off }
  else if type = 0x83000000 then { quota with settle := reverseDouble d off }
  else quota

/-- The loop over the fields: `ptr` is an offset into `data`, `remain` an `int32_t`. -/
def fieldLoop (data : Mem) (quota : Quota) (ptr : Nat) (remain : Int) : Option Quota :=
  if 0 < remain then
    let quota := setField quota (data.u32 ptr) data (ptr + quotaHeadSize)
    if data.u16 (ptr + 4) = 0x0800 then
      fieldLoop data quota (ptr + (quotaHeadSize + 8)) (remain - (quotaHeadSize + 8 : Nat))
    else if data.u16 (ptr + 4) = 0x0400 then
      fieldLoop data quota (ptr + (quotaHeadSize + 4)) (remain - (quotaHeadSize + 4 : Nat))
    else none
  else some quota
termination_by remain.toNat
decreasing_by all_goals simp only [quotaHeadSize]; omega

/-- One round: `w` bytes are read, as the `d_type` says. -/
theorem fieldLoop_cons {data : Mem} {quota : Quota} {ptr w : Nat} {remain : Int} (h : 0 < remain)
    (hd : data.u16 (ptr + 4) = 0x0800 ∧ w = quotaHeadSize + 8 ∨
      data.u16 (ptr + 4) = 0x0400 ∧ w = quotaHeadSize + 4) :
    fieldLoop data quota ptr remain =
      fieldLoop data (setField quota (data.u32 ptr) data (ptr + quotaHeadSize)) (ptr + w) (remain - w) := by
  rw [fieldLoop, if_pos h]
  rcases hd with ⟨hd, rfl⟩ | ⟨hd, rfl⟩
  · rw [if_pos hd]
  · rw [if_neg (by omega), if_pos hd]

theorem fieldLoop_end {data : Mem} {quota : Quota} {ptr : Nat} {remain : Int} (h : remain ≤ 0) :
    fieldLoop data quota ptr remain = some quota := by
  rw [fieldLoop, if_neg (by omega)]

/-- `strncpy(dst, src, src.size())`: no zero is written behind `src`. -/
def strncpy (dst src : Bytes) : Bytes := src ++ dst.drop src.length

/-- The Level-1 record after a message, before the filter (cpp:1403-1467). -/
def lv1Quota (quota : Quota) (code : Bytes) (data : Mem) (dataLen : Nat) : Option Quota :=
  (timeStrToUtcS (data.slice 10 (dataLen - 10))).bind fun extime =>
    fieldLoop data { quota with code := strncpy quota.code code, extime := extime } quotaBaseSize
      (Int.bmod (dataLen - quotaBaseSize) (2 ^ 32))

/-- The call of the filter in `HandleLv1Quota`. -/
def validLv1 (cache : QuotaInfo) (quota : Quota) : ComResult × QuotaInfo :=
  isValidQuota cache quota.extime quota.volume.toUInt64 1 (quota.ap 0) (quota.bp 0) (quota.av 0) (quota.bv 0)

/-- mirrors src/dz_gfex_md/src/dz_gfex_md.cpp:1379-1525
`code` is what `m_lv1_code_map` holds for the index of the message. -/
def handleLv1Quota (e : Entry) (code : Bytes) (t0 : UInt64) (data : Mem) (dataLen : Nat) (t1 : UInt64) :
    Option Entry :=
  (lv1Quota e.lv1Quota code data dataLen).map fun quota =>
    let (valid, cache) := validLv1 e.cache quota
    let e := { e with lv1Quota := quota, cache := cache }
    match valid with
    | .timeError => { e with sums.l1TimeErr := e.sums.l1TimeErr + 1 }
    | .volError => { e with sums.l1VolErr := e.sums.l1VolErr + 1 }
    | .repeatL1 => { e with sums.l1UselessLv1 := e.sums.l1UselessLv1 + 1 }
    | .ok | .repeatL2 => { e with pushed := e.pushed ++ [slotL1 quota t0 t1] }

/-! ## What a call can do -/

/-- The entry of the filter after a Level-2 message was accepted. -/
def lv2Cache (msgdata : Lv2ObQuote) (extime : UInt64) : QuotaInfo :=
  ⟨extime, int32ToU64 msgdata.volume, (msgdata.ask 0).price, (msgdata.bid 0).price,
    (decoded msgdata).av 0, (decoded msgdata).bv 0, 5⟩

theorem validLv2_ne_repeat (cache : QuotaInfo) (msgdata : Lv2ObQuote) (extime : UInt64) :
    (validLv2 cache msgdata extime).1 ≠ .repeatL1 := fun h =>
  absurd (isValidQuota_repeat h).2.1 (by decide)

theorem lv2Filter_lv1Quota (e : Entry) (msgdata : Lv2ObQuote) (extime t0 t1 : UInt64) :
    (lv2Filter e msgdata extime t0 t1).lv1Quota = e.lv1Quota := by
  unfold lv2Filter
  dsimp only
  repeat' split
  all_goals rfl

/-- An accepted message fills the entry and is pushed unless it has no volume; a
rejected one changes neither. -/
theorem lv2Filter_spec (e : Entry) (msgdata : Lv2ObQuote) (extime t0 t1 : UInt64) :
    if (validLv2 e.cache msgdata extime).1 = .ok then
      (lv2Filter e msgdata extime t0 t1).cache = lv2Cache msgdata extime ∧
      (lv2Filter e msgdata extime t0 t1).pushed =
        e.pushed ++ if NoVolume msgdata then [] else [slotL2 (lv2Quota msgdata extime) t0 t1]
    else (lv2Filter e msgdata extime t0 t1).cache = e.cache ∧
      (lv2Filter e msgdata extime t0 t1).pushed = e.pushed := by
  have hrej := fun h => isValidQuota_rejected (h : (validLv2 e.cache msgdata extime).1 ≠ .ok)
  cases hv : (validLv2 e.cache msgdata extime).1 with
  | ok =>
    obtain ⟨hc, -⟩ := isValidQuota_ok hv
    simp only [lv2Filter, hv, reduceCtorEq, if_false, if_true]
    split
    · exact ⟨hc, (List.append_nil _).symm⟩
    · exact ⟨hc, rfl⟩
  | timeError | volError =>
    simp only [lv2Filter, hv, reduceCtorEq, if_false, if_true]
    exact ⟨hrej (by rw [hv]; decide), trivial⟩
  | repeatL1 => exact absurd hv (validLv2_ne_repeat _ _ _)
  | repeatL2 => exact absurd hv isValidQuota_ne_repeatL2

/-- An accepted Level-1 message is pushed; a rejected one changes neither the
filter's entry nor the records. -/
theorem handleLv1Quota_spec {e e' : Entry} {code : Bytes} {t0 t1 : UInt64} {data : Mem} {dataLen : Nat}
    (h : handleLv1Quota e code t0 data dataLen t1 = some e') :
    ∃ quota, lv1Quota e.lv1Quota code data dataLen = some quota ∧ e'.lv1Quota = quota ∧
      if (validLv1 e.cache quota).1 = .ok then
        e'.cache.level = 1 ∧ e'.pushed = e.pushed ++ [slotL1 quota t0 t1]
      else e'.cache = e.cache ∧ e'.pushed = e.pushed := by
  obtain ⟨quota, hq, rfl⟩ := Option.map_eq_some_iff.mp h
  have hrej := fun h => isValidQuota_rejected (h : (validLv1 e.cache quota).1 ≠ .ok)
  refine ⟨quota, hq, ?_⟩
  cases hv : (validLv1 e.cache quota).1 with
  | ok =>
    obtain ⟨hc, -⟩ := isValidQuota_ok hv
    simp only [hv, if_true]
    exact ⟨trivial, congrArg QuotaInfo.level hc, trivial⟩
  | timeError | volError | repeatL1 =>
    simp only [hv, reduceCtorEq, if_false]
    exact ⟨trivial, hrej (by rw [hv]; decide), trivial⟩
  | repeatL2 => exact absurd hv isValidQuota_ne_repeatL2

end MdInfoSet.L4.GfexHandlers
