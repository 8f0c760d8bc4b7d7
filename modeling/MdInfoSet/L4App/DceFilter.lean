import MdInfoSet.L4App.Filter

/-!
# The DCE quote filter

`CNanoMdReceiver::IsValidQuota` and the two handlers that call it
(src/nano_febao_dce/src/dce_nano.cpp:287-319, 597-646, 648-703), on the
`QuotaInfo` entry of one instrument. The repeat branch tests the entry's level
with `=` where a comparison is meant:

    if (cache->level = 1 && (level == 5))

assigns 1 for a Level-2 call and 0 for a Level-1 call. A level of 0 marks an
entry nothing was accepted for, so the next call is accepted whatever its time
and volume (`repeat_then_older`).

**Exact condition.** A run is monotone, and its rejected calls leave the level
alone, if and only if no call repeats the quote in the entry, other than a
Level-2 call whose entry was filled by Level 1 (`monotone_iff_no_clobber`).
-/
namespace MdInfoSet.L4.DceFilter

open MdInfoSet.L4.Filter

/-- The fields of src/nano_febao_dce/src/dce_nano.h:76-97 the filter and its
callers touch. -/
structure QuotaInfo where
  time : UInt64
  volume : UInt64
  ap1 : Float
  bp1 : Float
  turnOver : Float
  open' : Float
  high : Float
  low : Float
  lastPrice : Float
  level : UInt32
  av1 : UInt32
  bv1 : UInt32
  openInterest : UInt32

def QuotaInfo.zero : QuotaInfo := ⟨0, 0, 0, 0, 0, 0, 0, 0, 0, 0, 0, 0, 0⟩

/-- The call carries the volume and the best prices the entry holds. -/
def SameBest (cache : QuotaInfo) (vol : UInt64) (ap1 bp1 : Float) (av1 bv1 : UInt32) : Prop :=
  vol = cache.volume ∧ cache.av1 = av1 ∧ cache.bv1 = bv1 ∧ priceCom cache.ap1 ap1 ∧ priceCom cache.bp1 bp1

instance (cache : QuotaInfo) (vol : UInt64) (ap1 bp1 : Float) (av1 bv1 : UInt32) :
    Decidable (SameBest cache vol ap1 bp1 av1 bv1) := by
  unfold SameBest; infer_instance

/-- mirrors src/nano_febao_dce/src/dce_nano.cpp:287-319 -/
def isValidQuota (cache : QuotaInfo) (extime vol : UInt64) (level : UInt32) (ap1 bp1 : Float)
    (av1 bv1 : UInt32) : ComResult × QuotaInfo :=
  let accepted := (ComResult.ok,
    { cache with time := extime, volume := vol, level := level, ap1 := ap1, bp1 := bp1, av1 := av1, bv1 := bv1 })
  if cache.level ≠ 0 then
    if extime < cache.time then (.timeError, cache)
    else if vol < cache.volume then (.volError, cache)
    else if SameBest cache vol ap1 bp1 av1 bv1 then
      -- `cache->level = 1 && (level == 5)` is an assignment
      if level = 5 then (.repeatL2, { cache with level := 1 })
      else (.repeatL1, { cache with level := 0 })
    else accepted
  else accepted

/-! ## Messages -/

/-- The fields of `NanoDceL1MdType` the handler reads
(src/nano_febao_dce/dependency/NanoDceMdStruct.h:8-27); prices times 10000. -/
structure NanoDceL1Md where
  sendTime : UInt64
  lastPrice : Int64
  totalQty : UInt32
  bidPrice : Int64
  bidQty : Int32
  askPrice : Int64
  askQty : Int32

/-- Those of `NanoDceL2ContractBestPriceMdType` (NanoDceMdStruct.h:31-54). -/
structure NanoDceL2ContractBestPriceMd where
  genTime : Fin 13 → UInt8
  lastPrice : Float
  highPrice : Float
  lowPrice : Float
  matchTotQty : UInt32
  turnover : Float
  openInterest : UInt32
  bidPrice : Float
  bidQty : UInt32
  askPrice : Float
  askQty : UInt32

def dblMax : Float := Float.ofBits 0x7fefffffffffffff

/-- `c - '0'` on a `char`. -/
def digit (c : UInt8) : Int := c.toInt8.toInt - 48

/-- mirrors src/nano_febao_dce/src/dce_nano.cpp:322-338 -/
def timeStrToUtcS (time : Fin 13 → UInt8) : UInt64 :=
  let hours := digit (time 0) * 10 + digit (time 1)
  let minutes := digit (time 3) * 10 + digit (time 4)
  let seconds := digit (time 6) * 10 + digit (time 7)
  let milliseconds := digit (time 9) * 100 + digit (time 10) * 10 + digit (time 11)
  UInt64.ofInt (hours * 3600000 + minutes * 60000 + seconds * 1000 + milliseconds)

/-- `msgdata.last_price / 10000.0` and the other prices of a Level-1 message. -/
def price (p : Int64) : Float := Float.ofInt p.toInt / 10000.0

/-- mirrors src/nano_febao_dce/src/dce_nano.cpp:610-612 -/
def NanoDceL1Md.extime (msgdata : NanoDceL1Md) : UInt64 :=
  let sec := msgdata.sendTime / 1000000000
  let sec2 := (sec - (sec / 86400) * 86400) + 8 * 3600
  sec2 * 1000 + (msgdata.sendTime % 1000000000) / 1000000

/-! ## Handlers -/

/-- The entry of the instrument, the counters of the receiver and the Level-1
records pushed to `m_ringbuffer_lv1`. -/
structure Receiver where
  cache : QuotaInfo
  l1Repeat : UInt64
  l1TimeErrSum : UInt64
  l1VolErrSum : UInt64
  l2Repeat : UInt64
  pushedL1 : List (NanoDceL1Md × UInt64)

def Receiver.start : Receiver := ⟨QuotaInfo.zero, 0, 0, 0, 0, []⟩

/-- What `OnNanoDceL1Md` does to the entry before it calls the filter. -/
def fillOpenL1 (cache : QuotaInfo) (msgdata : NanoDceL1Md) : QuotaInfo :=
  if ¬ (cache.open' > 0) ∧ (Float.ofInt msgdata.lastPrice.toInt != dblMax) = true ∧ msgdata.lastPrice > 0 then
    { cache with open' := price msgdata.lastPrice }
  else cache

/-- The call of the filter in `OnNanoDceL1Md`. -/
def validL1 (cache : QuotaInfo) (msgdata : NanoDceL1Md) : ComResult × QuotaInfo :=
  isValidQuota (fillOpenL1 cache msgdata) msgdata.extime msgdata.totalQty.toUInt64 1
    (price msgdata.askPrice) (price msgdata.bidPrice) msgdata.askQty.toUInt32 msgdata.bidQty.toUInt32

/-- mirrors src/nano_febao_dce/src/dce_nano.cpp:597-646 -/
def onNanoDceL1Md (r : Receiver) (msgdata : NanoDceL1Md) : Receiver :=
  let (valid, cache) := validL1 r.cache msgdata
  let r := { r with cache := cache }
  match valid with
  | .repeatL1 => { r with l1Repeat := r.l1Repeat + 1 }
  | .timeError => { r with l1TimeErrSum := r.l1TimeErrSum + 1 }
  | .volError => { r with l1VolErrSum := r.l1VolErrSum + 1 }
  | .ok | .repeatL2 => { r with pushedL1 := r.pushedL1 ++ [(msgdata, msgdata.extime)] }

/-- The call of the filter in `OnNanoDceL2ContractBestPriceMd`. -/
def validL2 (cache : QuotaInfo) (msgdata : NanoDceL2ContractBestPriceMd) : ComResult × QuotaInfo :=
  isValidQuota cache (timeStrToUtcS msgdata.genTime) msgdata.matchTotQty.toUInt64 5
    msgdata.askPrice msgdata.bidPrice msgdata.askQty msgdata.bidQty

def fillOpenL2 (cache : QuotaInfo) (msgdata : NanoDceL2ContractBestPriceMd) : QuotaInfo :=
  if ¬ (cache.open' > 0) ∧ (msgdata.lastPrice != dblMax) = true ∧ msgdata.lastPrice > 0 then
    { cache with open' := msgdata.lastPrice }
  else cache

/-- What a quote that does not go back leaves in the entry, also a repeated one. -/
def fillL2 (cache : QuotaInfo) (msgdata : NanoDceL2ContractBestPriceMd) : QuotaInfo :=
  { cache with
    high := msgdata.highPrice, low := msgdata.lowPrice, volume := msgdata.matchTotQty.toUInt64
    turnOver := msgdata.turnover, lastPrice := msgdata.lastPrice, openInterest := msgdata.openInterest }

/-- mirrors src/nano_febao_dce/src/dce_nano.cpp:648-703 -/
def onNanoDceL2ContractBestPriceMd (r : Receiver) (msgdata : NanoDceL2ContractBestPriceMd) : Receiver :=
  let (valid, cache) := validL2 r.cache msgdata
  let r := { r with cache := fillOpenL2 cache msgdata }
  match valid with
  | .timeError => { r with l1TimeErrSum := r.l1TimeErrSum + 1 }
  | .volError => { r with l1VolErrSum := r.l1VolErrSum + 1 }
  | .repeatL2 => { r with cache := fillL2 r.cache msgdata, l2Repeat := r.l2Repeat + 1 }
  | .ok | .repeatL1 => { r with cache := fillL2 r.cache msgdata }

/-! ## The filter, verdict by verdict -/

section Verdicts

variable {cache : QuotaInfo} {extime vol : UInt64} {level : UInt32} {ap1 bp1 : Float} {av1 bv1 : UInt32}

/-- What the filter reads and a rejection must not touch. -/
structure SameKey (c c' : QuotaInfo) : Prop where
  time : c'.time = c.time
  volume : c'.volume = c.volume
  level : c'.level = c.level

/-- The call repeats the quote in the entry, and it is not a Level-2 call on an
entry that Level 1 filled. -/
def Clobbers (cache : QuotaInfo) (extime vol : UInt64) (level : UInt32) (ap1 bp1 : Float)
    (av1 bv1 : UInt32) : Prop :=
  cache.level ≠ 0 ∧ ¬ extime < cache.time ∧ ¬ vol < cache.volume ∧
    SameBest cache vol ap1 bp1 av1 bv1 ∧ ¬ (level = 5 ∧ cache.level = 1)

instance : Decidable (Clobbers cache extime vol level ap1 bp1 av1 bv1) := by
  unfold Clobbers; infer_instance

/-- An accepted call becomes the entry, and does not go back behind it. -/
theorem isValidQuota_ok (h : (isValidQuota cache extime vol level ap1 bp1 av1 bv1).1 = .ok) :
    (cache.level ≠ 0 → cache.time ≤ extime ∧ cache.volume ≤ vol) ∧
      (isValidQuota cache extime vol level ap1 bp1 av1 bv1).2 =
        { cache with time := extime, volume := vol, level := level, ap1 := ap1, bp1 := bp1,
                     av1 := av1, bv1 := bv1 } := by
  unfold isValidQuota at h ⊢
  dsimp only at h ⊢
  split at h
  · rename_i hl
    split at h
    · cases h
    · rename_i ht
      split at h
      · cases h
      · rename_i hv
        split at h
        · split at h <;> cases h
        · rename_i hr
          rw [if_pos hl, if_neg ht, if_neg hv, if_neg hr]
          exact ⟨fun _ => ⟨UInt64.not_lt.mp ht, UInt64.not_lt.mp hv⟩, rfl⟩
  · rename_i hl
    rw [if_neg hl]
    exact ⟨fun hne => absurd hne hl, rfl⟩

/-- A rejected call leaves the level alone unless it clobbers it. -/
theorem isValidQuota_rejected (h : (isValidQuota cache extime vol level ap1 bp1 av1 bv1).1 ≠ .ok) :
    ((isValidQuota cache extime vol level ap1 bp1 av1 bv1).2.level = cache.level ↔
      ¬ Clobbers cache extime vol level ap1 bp1 av1 bv1) ∧
    (isValidQuota cache extime vol level ap1 bp1 av1 bv1).2.time = cache.time ∧
    (isValidQuota cache extime vol level ap1 bp1 av1 bv1).2.volume = cache.volume := by
  unfold isValidQuota Clobbers at *
  dsimp only at h ⊢
  split
  · rename_i hl
    rw [if_pos hl] at h
    split
    · rename_i ht
      exact ⟨⟨fun _ hc => hc.2.1 ht, fun _ => rfl⟩, rfl, rfl⟩
    · rename_i ht
      rw [if_neg ht] at h
      split
      · rename_i hv
        exact ⟨⟨fun _ hc => hc.2.2.1 hv, fun _ => rfl⟩, rfl, rfl⟩
      · rename_i hv
        rw [if_neg hv] at h
        split
        · rename_i hr
          split
          · rename_i h5
            refine ⟨⟨fun he hc => hc.2.2.2.2 ⟨h5, he.symm⟩, fun hc => ?_⟩, rfl, rfl⟩
            by_contra he
            exact hc ⟨hl, ht, hv, hr, fun h1 => he h1.2.symm⟩
          · rename_i h5
            exact ⟨⟨fun he => absurd he.symm hl, fun hc => absurd ⟨hl, ht, hv, hr, fun h1 => h5 h1.1⟩ hc⟩,
              rfl, rfl⟩
        · rename_i hr
          rw [if_neg hr] at h
          exact absurd rfl h
  · rename_i hl
    rw [if_neg hl] at h
    exact absurd rfl h

/-- A repeated quote has the volume of the entry. -/
theorem isValidQuota_repeatL2
    (h : (isValidQuota cache extime vol level ap1 bp1 av1 bv1).1 = .repeatL2) : vol = cache.volume := by
  unfold isValidQuota at h
  dsimp only at h
  split at h
  · split at h
    · cases h
    · split at h
      · cases h
      · split at h
        · rename_i hr
          exact hr.1
        · cases h
  · cases h

/-- A Level-2 call is never reported as a Level-1 repetition. -/
theorem isValidQuota_level5 : (isValidQuota cache extime vol 5 ap1 bp1 av1 bv1).1 ≠ .repeatL1 := by
  unfold isValidQuota
  dsimp only
  repeat' split
  all_goals first | contradiction | nofun

end Verdicts

/-! ## Runs of the two handlers -/

inductive Msg where
  | l1 (msgdata : NanoDceL1Md)
  | l2 (msgdata : NanoDceL2ContractBestPriceMd)

def Msg.verdict (cache : QuotaInfo) : Msg → ComResult
  | .l1 m => (validL1 cache m).1
  | .l2 m => (validL2 cache m).1

/-- The time and volume the message is judged by. -/
def Msg.stamp : Msg → UInt64 × UInt64
  | .l1 m => (m.extime, m.totalQty.toUInt64)
  | .l2 m => (timeStrToUtcS m.genTime, m.matchTotQty.toUInt64)

/-- The call of the filter for this message clobbers the level of the entry. -/
def Msg.Clobbers (cache : QuotaInfo) : Msg → Prop
  | .l1 m => DceFilter.Clobbers cache m.extime m.totalQty.toUInt64 1 (price m.askPrice) (price m.bidPrice)
      m.askQty.toUInt32 m.bidQty.toUInt32
  | .l2 m => DceFilter.Clobbers cache (timeStrToUtcS m.genTime) m.matchTotQty.toUInt64 5 m.askPrice
      m.bidPrice m.askQty m.bidQty

/-- The receiver, and the time and volume of each accepted message. -/
structure Run where
  recv : Receiver
  accepted : List (UInt64 × UInt64)

def Run.start : Run := ⟨Receiver.start, []⟩

def handle (r : Receiver) : Msg → Receiver
  | .l1 m => onNanoDceL1Md r m
  | .l2 m => onNanoDceL2ContractBestPriceMd r m

def Run.step (s : Run) (m : Msg) : Run where
  recv := handle s.recv m
  accepted := if m.verdict s.recv.cache = .ok then s.accepted ++ [m.stamp] else s.accepted

def machine : Machine Run Msg where
  init s := s = Run.start
  step s m := some (s.step m)

/-- A rejected message leaves the level of the entry as it is. -/
def KeepsLevel (s : Run) (m : Msg) : Prop :=
  m.verdict s.recv.cache ≠ .ok → (s.step m).recv.cache.level = s.recv.cache.level

/-- The receiver's own condition on a message. -/
def NoClobber (s : Run) (m : Msg) : Prop := ¬ m.Clobbers s.recv.cache

/-! ## What a message does to the entry -/

theorem fillOpenL1_key (cache : QuotaInfo) (m : NanoDceL1Md) : SameKey cache (fillOpenL1 cache m) := by
  unfold fillOpenL1
  split <;> exact ⟨rfl, rfl, rfl⟩

theorem fillOpenL1_clobbers (cache : QuotaInfo) (m : NanoDceL1Md) {extime vol : UInt64} {level : UInt32}
    {ap1 bp1 : Float} {av1 bv1 : UInt32} :
    Clobbers (fillOpenL1 cache m) extime vol level ap1 bp1 av1 bv1 ↔
      Clobbers cache extime vol level ap1 bp1 av1 bv1 := by
  unfold fillOpenL1
  split <;> exact Iff.rfl

theorem fillOpenL2_key (cache : QuotaInfo) (m : NanoDceL2ContractBestPriceMd) :
    SameKey cache (fillOpenL2 cache m) := by
  unfold fillOpenL2
  split <;> exact ⟨rfl, rfl, rfl⟩

/-- The level a message leaves in the entry when it is accepted. -/
def Msg.level : Msg → UInt32
  | .l1 _ => 1
  | .l2 _ => 5

/-- The entry after an accepted message. -/
structure Accepted (cache cache' : QuotaInfo) (m : Msg) : Prop where
  time : cache'.time = m.stamp.1
  volume : cache'.volume = m.stamp.2
  level : cache'.level = m.level
  forward : cache.level ≠ 0 → cache.time ≤ m.stamp.1 ∧ cache.volume ≤ m.stamp.2

/-- The entry after a rejected one. -/
structure Rejected (cache cache' : QuotaInfo) (m : Msg) : Prop where
  time : cache'.time = cache.time
  volume : cache'.volume = cache.volume
  level : cache'.level = cache.level ↔ ¬ m.Clobbers cache

theorem onNanoDceL1Md_cache (r : Receiver) (m : NanoDceL1Md) :
    (onNanoDceL1Md r m).cache = (validL1 r.cache m).2 := by
  unfold onNanoDceL1Md
  dsimp only
  split <;> rfl

theorem onNanoDceL2ContractBestPriceMd_cache (r : Receiver) (m : NanoDceL2ContractBestPriceMd) :
    (onNanoDceL2ContractBestPriceMd r m).cache =
      match (validL2 r.cache m).1 with
      | .timeError | .volError => fillOpenL2 (validL2 r.cache m).2 m
      | _ => fillL2 (fillOpenL2 (validL2 r.cache m).2 m) m := by
  unfold onNanoDceL2ContractBestPriceMd
  dsimp only
  split <;> rename_i h <;> rw [h]

theorem handle_ok {r : Receiver} {m : Msg} (h : m.verdict r.cache = .ok) :
    Accepted r.cache (handle r m).cache m := by
  cases m with
  | l1 m =>
    obtain ⟨hle, hc⟩ := isValidQuota_ok h
    obtain ⟨ht, hv, hl⟩ := fillOpenL1_key r.cache m
    have hcache : (handle r (.l1 m)).cache = _ := (onNanoDceL1Md_cache r m).trans hc
    rw [hl, ht, hv] at hle
    exact ⟨by rw [hcache]; rfl, by rw [hcache]; rfl, by rw [hcache]; rfl, hle⟩
  | l2 m =>
    obtain ⟨hle, hc⟩ := isValidQuota_ok h
    have hcache : (handle r (.l2 m)).cache = fillL2 (fillOpenL2 (validL2 r.cache m).2 m) m := by
      rw [handle, onNanoDceL2ContractBestPriceMd_cache, show (validL2 r.cache m).1 = .ok from h]
    obtain ⟨ht, hv, hl⟩ := fillOpenL2_key (validL2 r.cache m).2 m
    rw [show (validL2 r.cache m).2 = _ from hc] at ht hv hl hcache
    exact ⟨by rw [hcache]; exact ht, by rw [hcache]; rfl, by rw [hcache]; exact hl, hle⟩

theorem handle_rejected {r : Receiver} {m : Msg} (h : m.verdict r.cache ≠ .ok) :
    Rejected r.cache (handle r m).cache m := by
  cases m with
  | l1 m =>
    obtain ⟨hlevel, htime, hvol⟩ := isValidQuota_rejected h
    obtain ⟨ht, hv, hl⟩ := fillOpenL1_key r.cache m
    have hcache : (handle r (.l1 m)).cache = (validL1 r.cache m).2 := onNanoDceL1Md_cache r m
    rw [hl, fillOpenL1_clobbers] at hlevel
    rw [ht] at htime
    rw [hv] at hvol
    exact ⟨by rw [hcache]; exact htime, by rw [hcache]; exact hvol, by rw [hcache]; exact hlevel⟩
  | l2 m =>
    obtain ⟨hlevel, htime, hvol⟩ := isValidQuota_rejected h
    obtain ⟨ht, hv, hl⟩ := fillOpenL2_key (validL2 r.cache m).2 m
    cases hverdict : (validL2 r.cache m).1 with
    | ok => exact absurd hverdict h
    | repeatL1 => exact absurd hverdict isValidQuota_level5
    | timeError | volError =>
      have hcache : (handle r (.l2 m)).cache = fillOpenL2 (validL2 r.cache m).2 m := by
        rw [handle, onNanoDceL2ContractBestPriceMd_cache, hverdict]
      exact ⟨by rw [hcache, ht]; exact htime, by rw [hcache, hv]; exact hvol,
        by rw [hcache, hl]; exact hlevel⟩
    | repeatL2 =>
      have hcache : (handle r (.l2 m)).cache = fillL2 (fillOpenL2 (validL2 r.cache m).2 m) m := by
        rw [handle, onNanoDceL2ContractBestPriceMd_cache, hverdict]
      refine ⟨by rw [hcache]; exact ht.trans htime, ?_, by rw [hcache]; exact hl ▸ hlevel⟩
      rw [hcache]
      exact isValidQuota_repeatL2 hverdict

/-! ## Runs -/

theorem keepsLevel_iff (s : Run) (m : Msg) : KeepsLevel s m ↔ NoClobber s m := by
  unfold KeepsLevel NoClobber
  by_cases h : m.verdict s.recv.cache = .ok
  · refine ⟨fun _ hc => ?_, fun _ hne => absurd h hne⟩
    -- an accepted message did not take the repeat branch
    have hok : ∀ cache, m.verdict cache = .ok → m.Clobbers cache → False := by
      intro cache hv hcl
      cases m with
      | l1 m =>
        rw [Msg.Clobbers, ← fillOpenL1_clobbers cache m] at hcl
        simp [Msg.verdict, validL1, isValidQuota, hcl.1, hcl.2.1, hcl.2.2.1, hcl.2.2.2.1] at hv
      | l2 m =>
        simp [Msg.verdict, validL2, isValidQuota, hcl.1, hcl.2.1, hcl.2.2.1, hcl.2.2.2.1] at hv
    exact hok _ h hc
  · exact ⟨fun hk => (handle_rejected h).level.mp (hk h), fun hn _ => (handle_rejected h).level.mpr hn⟩

/-- The entry is ahead of every accepted message. -/
structure Inv (s : Run) : Prop where
  level : s.accepted ≠ [] → s.recv.cache.level ≠ 0
  behind : ∀ a ∈ s.accepted, a.1 ≤ s.recv.cache.time ∧ a.2 ≤ s.recv.cache.volume
  sorted : s.accepted.Pairwise fun a b => a.1 ≤ b.1 ∧ a.2 ≤ b.2

theorem start_inv : Inv Run.start :=
  ⟨fun h => absurd rfl h, fun _ h => absurd h (by simp [Run.start]), List.Pairwise.nil⟩

theorem step_inv {s : Run} {m : Msg} (h : Inv s) (hn : NoClobber s m) : Inv (s.step m) := by
  by_cases hok : m.verdict s.recv.cache = .ok
  · obtain ⟨ht, hv, hl, hle⟩ := handle_ok hok
    have hacc : (s.step m).accepted = s.accepted ++ [m.stamp] := if_pos hok
    have hall : ∀ a ∈ s.accepted, a.1 ≤ m.stamp.1 ∧ a.2 ≤ m.stamp.2 := fun a ha => by
      obtain ⟨h1, h2⟩ := hle (h.level (List.ne_nil_of_mem ha))
      obtain ⟨h3, h4⟩ := h.behind a ha
      exact ⟨UInt64.le_trans h3 h1, UInt64.le_trans h4 h2⟩
    refine ⟨fun _ => ?_, fun a ha => ?_, ?_⟩
    · rw [show (s.step m).recv.cache.level = m.level from hl]
      cases m <;> simp [Msg.level]
    · rw [show (s.step m).recv.cache.time = m.stamp.1 from ht,
        show (s.step m).recv.cache.volume = m.stamp.2 from hv]
      rw [hacc, List.mem_append, List.mem_singleton] at ha
      rcases ha with ha | rfl
      · exact hall a ha
      · exact ⟨UInt64.le_refl _, UInt64.le_refl _⟩
    · rw [hacc, List.pairwise_append]
      refine ⟨h.sorted, List.pairwise_singleton _ _, fun a ha b hb => ?_⟩
      rw [List.mem_singleton] at hb
      exact hb ▸ hall a ha
  · obtain ⟨ht, hv, hl⟩ := handle_rejected hok
    have hacc : (s.step m).accepted = s.accepted := if_neg hok
    refine ⟨fun hne => ?_, fun a ha => ?_, by rw [hacc]; exact h.sorted⟩
    · rw [show (s.step m).recv.cache.level = s.recv.cache.level from hl.mpr hn]
      exact h.level (hacc ▸ hne)
    · rw [show (s.step m).recv.cache.time = s.recv.cache.time from ht,
        show (s.step m).recv.cache.volume = s.recv.cache.volume from hv]
      exact h.behind a (hacc ▸ ha)

/-- What is expected of a run on a zeroed entry: the accepted messages never go
back, and no rejected one changes the level. -/
def Monotone (ms : List Msg) : Prop :=
  (∀ s, machine.run Run.start ms = some s →
    s.accepted.Pairwise fun a b => a.1 ≤ b.1 ∧ a.2 ≤ b.2) ∧
  machine.Along KeepsLevel Run.start ms

/-- **Exact condition.** -/
theorem monotone_iff_no_clobber (ms : List Msg) :
    Monotone ms ↔ machine.Along NoClobber Run.start ms := by
  rw [Monotone, show KeepsLevel = NoClobber from funext fun s => funext fun m => propext (keepsLevel_iff s m)]
  refine ⟨fun h => h.2, fun h => ⟨fun s hr => ?_, h⟩⟩
  refine (Machine.run_along (P := Inv) (fun s m s' hi hn hs => ?_) start_inv h hr).sorted
  simp only [machine, Option.some.injEq] at hs
  exact hs ▸ step_inv hi hn

/-- The same Level-1 quote twice, then one a second older with a smaller volume. -/
def repeatThenOlder : List Msg :=
  [.l1 ⟨2000000000, 1230000, 10, 1220000, 3, 1240000, 4⟩,
    .l1 ⟨2000000000, 1230000, 10, 1220000, 3, 1240000, 4⟩,
    .l1 ⟨1000000000, 1230000, 9, 1220000, 3, 1240000, 4⟩]

/-- The repetition clears the level, and the older quote is accepted. -/
theorem repeat_then_older : ¬ ∀ ms, Monotone ms := by
  intro h
  have hrun : (machine.run Run.start repeatThenOlder).map (·.accepted) =
      some [(28802000, 10), (28801000, 9)] := by decide +kernel
  obtain ⟨s, hs, ha⟩ := Option.map_eq_some_iff.mp hrun
  have hsorted := (h repeatThenOlder).1 s hs
  rw [ha] at hsorted
  revert hsorted
  decide

end MdInfoSet.L4.DceFilter
