import MdInfoSet.L4App.GfexHandlers

/-!
# Suppressed Level-1 quotes

`HandleLv1Quota` drops a quote as a repetition (`COM_RESULT_REPEAT_L1`) when the
filter's entry was left by a Level-2 message with the same volume and best
prices. The entry is filled before `OnData_lv2` decides what to push, so the
consumer need not have that quote: a message whose best volumes decode to 0 is
not pushed at all, and a best price outside the limits is replaced by a NaN or
put on the other side.

**Exact condition.** Over every interleaving of the two handlers, a suppressed
quote is the last record pushed if and only if the Level-2 message it repeats had
both best prices within its limits and a best volume that is not 0
(`suppressed_iff`).
-/
namespace MdInfoSet.L4.Suppression

open MdInfoSet.L1.Lv2Quote MdInfoSet.L2.RingBuffer MdInfoSet.L4.Filter MdInfoSet.L4.GfexFilter
open MdInfoSet.L4.GfexHandlers

/-! ## The two handlers on one instrument -/

inductive Msg where
  | lv2 (databuffer : Mem) (size : Nat) (t0 t1 : UInt64)
  | lv1 (code : Bytes) (t0 : UInt64) (data : Mem) (dataLen : Nat) (t1 : UInt64)

/-- The entry, and as a history variable the Level-2 message accepted last, with
its time. -/
structure Sys where
  entry : Entry
  source : Option (Lv2ObQuote × UInt64)

/-- The Level-2 message the filter accepts in this call, if it does. -/
def lv2Source (e : Entry) (databuffer : Mem) (size : Nat) : Option (Lv2ObQuote × UInt64) :=
  match lv2Front databuffer size with
  | some (.quote msgdata extime) =>
    if (validLv2 e.cache msgdata extime).1 = .ok then some (msgdata, extime) else none
  | _ => none

def step (s : Sys) : Msg → Option Sys
  | .lv2 databuffer size t0 t1 =>
    (onDataLv2 s.entry databuffer size t0 t1).map fun e => ⟨e, (lv2Source s.entry databuffer size).or s.source⟩
  | .lv1 code t0 data dataLen t1 =>
    (handleLv1Quota s.entry code t0 data dataLen t1).map fun e => ⟨e, s.source⟩

def machine : Machine Sys Msg where
  init s := s = ⟨Entry.start, none⟩
  step := step

/-- `HandleLv1Quota` would drop this message as a repetition; `quota` is the
quote it carries. -/
def Suppressed (s : Sys) (code : Bytes) (data : Mem) (dataLen : Nat) (quota : Quota) : Prop :=
  lv1Quota s.entry.lv1Quota code data dataLen = some quota ∧ (validLv1 s.entry.cache quota).1 = .repeatL1

/-- A Level-2 record that carries the volume and the best prices of a quote. -/
structure Carries (slot : Slot) (quota : Quota) : Prop where
  msgType : slot.msgType = l2Md
  volume : slot.data.volume = quota.volume
  ap1 : priceCom (slot.data.ap 0) (quota.ap 0)
  bp1 : priceCom (slot.data.bp 0) (quota.bp 0)
  av1 : slot.data.av 0 = quota.av 0
  bv1 : slot.data.bv 0 = quota.bv 0

/-- The last record pushed is one the consumer can take the quote from. -/
def Delivered (s : Sys) (quota : Quota) : Prop :=
  ∃ slot, s.entry.pushed.getLast? = some slot ∧ Carries slot quota

/-! ## What is pushed for a message -/

/-- Both best prices are within the limits of the message. -/
structure InLimits (msgdata : Lv2ObQuote) : Prop where
  ask : (msgdata.ask 0).price ≥ msgdata.priceFloor ∧ (msgdata.ask 0).price ≤ msgdata.priceCeil
  bid : (msgdata.bid 0).price ≥ msgdata.priceFloor ∧ (msgdata.bid 0).price ≤ msgdata.priceCeil

theorem not_illegal {lower upper price : Float} (h : price ≥ lower ∧ price ≤ upper) :
    ¬ illegal lower upper price := by
  rintro (hlt | hgt)
  · exact Binary64.not_lt_of_ge h.1 hlt
  · exact Binary64.not_lt_of_ge h.2 hgt

theorem illegalPrice_of {lower upper price : Float} (h : price ≥ lower ∧ price ≤ upper) :
    illegalPrice lower upper price = price := if_pos h

/-- A price that is close to something was not replaced. -/
theorem illegalPrice_close {lower upper price x : Float} (h : priceCom (illegalPrice lower upper price) x) :
    price ≥ lower ∧ price ≤ upper := by
  unfold illegalPrice at h
  split at h
  · assumption
  · exact absurd h (Binary64.not_close_nan x _)

theorem lv2Quota_volume (msgdata : Lv2ObQuote) (extime : UInt64) :
    (lv2Quota msgdata extime).volume = msgdata.volume.toUInt32 := by
  unfold lv2Quota
  dsimp only
  repeat' split
  all_goals rfl

/-- Within the limits the record shows the best prices and volumes as they are. -/
theorem InLimits.shown {msgdata : Lv2ObQuote} (h : InLimits msgdata) (extime : UInt64) :
    (lv2Quota msgdata extime).ap 0 = (msgdata.ask 0).price ∧
    (lv2Quota msgdata extime).bp 0 = (msgdata.bid 0).price ∧
    (lv2Quota msgdata extime).av 0 = (decoded msgdata).av 0 ∧
    (lv2Quota msgdata extime).bv 0 = (decoded msgdata).bv 0 := by
  unfold lv2Quota
  dsimp only
  rw [if_neg (fun hall => not_illegal h.ask (hall 0)), if_neg (fun hall => not_illegal h.bid (hall 0))]
  exact ⟨illegalPrice_of h.ask, illegalPrice_of h.bid, rfl, rfl⟩

/-- A record with two usable best prices comes from a message within its limits. -/
theorem inLimits_of_close {msgdata : Lv2ObQuote} {extime : UInt64} {x y : Float}
    (ha : priceCom ((lv2Quota msgdata extime).ap 0) x) (hb : priceCom ((lv2Quota msgdata extime).bp 0) y) :
    InLimits msgdata := by
  unfold lv2Quota at ha hb
  dsimp only at ha hb
  split at ha
  · rename_i hask
    rw [if_pos hask] at hb
    exact absurd hb (Binary64.not_close_nan y _)
  · rename_i hask
    rw [if_neg hask] at hb
    split at ha
    · exact absurd ha (Binary64.not_close_nan x _)
    · rename_i hbid
      rw [if_neg hbid] at hb
      exact ⟨illegalPrice_close ha, illegalPrice_close hb⟩

theorem toUInt32_int32ToU64 (v : Int32) : (int32ToU64 v).toUInt32 = v.toUInt32 := by
  apply UInt32.toBitVec_inj.mp
  show (v.toBitVec.signExtend 64).setWidth 32 = v.toBitVec
  ext i h
  rw [BitVec.getElem_setWidth, BitVec.getLsbD_signExtend]
  simp [h, show i < 64 by omega]

/-- Equal as `uint64_t`, a signed and an unsigned volume are equal as `uint32_t`. -/
theorem toUInt32_eq_of_u64 {v : Int32} {q : UInt32} (h : q.toUInt64 = int32ToU64 v) : v.toUInt32 = q := by
  rw [← toUInt32_int32ToU64, ← h, UInt32.toUInt32_toUInt64]

/-! ## The invariant -/

/-- Level-2 records come from messages with volume, and while the filter's entry
has level 5 it is that of the source, which was pushed last if it has volume. -/
structure Inv (s : Sys) : Prop where
  records : ∀ slot ∈ s.entry.pushed, slot.msgType = l2Md →
    ∃ msgdata extime, slot.data = lv2Quota msgdata extime ∧ ¬ NoVolume msgdata
  source : s.entry.cache.level = 5 → ∃ msgdata extime, s.source = some (msgdata, extime) ∧
    s.entry.cache = lv2Cache msgdata extime ∧
    (¬ NoVolume msgdata → ∃ t0 t1, s.entry.pushed.getLast? = some (slotL2 (lv2Quota msgdata extime) t0 t1))

theorem start_inv : Inv ⟨Entry.start, none⟩ :=
  ⟨fun _ h => absurd h (List.not_mem_nil), fun h => absurd h (by decide)⟩

/-- Nothing the invariant speaks of has changed. -/
theorem Inv.same {s s' : Sys} (h : Inv s) (hc : s'.entry.cache = s.entry.cache)
    (hp : s'.entry.pushed = s.entry.pushed) (hs : s'.source = s.source) : Inv s' := by
  refine ⟨?_, ?_⟩
  · rw [hp]; exact h.records
  · rw [hc, hp, hs]; exact h.source

theorem Inv.lv2 {s s' : Sys} (h : Inv s) {databuffer : Mem} {size : Nat} {t0 t1 : UInt64}
    (hs : step s (.lv2 databuffer size t0 t1) = some s') : Inv s' := by
  obtain ⟨e, he, rfl⟩ := Option.map_eq_some_iff.mp hs
  obtain ⟨front, hf, rfl⟩ := Option.map_eq_some_iff.mp he
  cases front with
  | ignored | noPrice => exact h.same rfl rfl (by simp [lv2Source, hf])
  | quote msgdata extime =>
    have hspec := lv2Filter_spec s.entry msgdata extime t0 t1
    by_cases hok : (validLv2 s.entry.cache msgdata extime).1 = .ok
    · rw [if_pos hok] at hspec
      obtain ⟨hc, hp⟩ := hspec
      refine ⟨fun slot hslot htype => ?_, fun _ => ⟨msgdata, extime, ?_, hc, fun hn => ⟨t0, t1, ?_⟩⟩⟩
      · simp only [hp] at hslot
        rcases List.mem_append.mp hslot with hslot | hslot
        · exact h.records slot hslot htype
        · split at hslot
          · cases hslot
          · rename_i hn
            rw [List.mem_singleton] at hslot
            exact ⟨msgdata, extime, by rw [hslot]; rfl, hn⟩
      · simp [lv2Source, hf, hok]
      · simp only [hp, if_neg hn, List.getLast?_append, List.getLast?_singleton, Option.some_or]
    · rw [if_neg hok] at hspec
      exact h.same hspec.1 hspec.2 (by simp [lv2Source, hf, hok])

theorem Inv.lv1 {s s' : Sys} (h : Inv s) {code : Bytes} {t0 t1 : UInt64} {data : Mem} {dataLen : Nat}
    (hs : step s (.lv1 code t0 data dataLen t1) = some s') : Inv s' := by
  obtain ⟨e, he, rfl⟩ := Option.map_eq_some_iff.mp hs
  obtain ⟨quota, -, -, hspec⟩ := handleLv1Quota_spec he
  by_cases hok : (validLv1 s.entry.cache quota).1 = .ok
  · rw [if_pos hok] at hspec
    obtain ⟨hl, hp⟩ := hspec
    refine ⟨fun slot hslot htype => ?_, fun h5 => ?_⟩
    · simp only [hp] at hslot
      rcases List.mem_append.mp hslot with hslot | hslot
      · exact h.records slot hslot htype
      · rw [List.mem_singleton] at hslot
        rw [hslot] at htype
        cases htype
    · rw [show e.cache.level = 5 from h5] at hl
      cases hl
  · rw [if_neg hok] at hspec
    exact h.same hspec.1 hspec.2 rfl

theorem inv_inductive : machine.Inductive Inv where
  init := by
    rintro s rfl
    exact start_inv
  step := by
    intro s l s' h hs
    cases l with
    | lv2 databuffer size t0 t1 => exact h.lv2 hs
    | lv1 code t0 data dataLen t1 => exact h.lv1 hs

/-! ## Suppression -/

/-- **Exact condition.** Whenever a Level-1 quote is suppressed, the last record
pushed carries it if and only if the Level-2 message accepted last had its best
prices within its limits and a best volume that is not 0. -/
theorem suppressed_iff {s : Sys} (hs : machine.Reachable s) {code : Bytes} {data : Mem} {dataLen : Nat}
    {quota : Quota} (h : Suppressed s code data dataLen quota) :
    ∃ msgdata extime, s.source = some (msgdata, extime) ∧
      (Delivered s quota ↔ InLimits msgdata ∧ ¬ NoVolume msgdata) := by
  have hinv := inv_inductive.reachable hs
  obtain ⟨h5, -, hvol, hav, hbv, hap, hbp⟩ := isValidQuota_repeat h.2
  obtain ⟨msgdata, extime, hsrc, hcache, hlast⟩ := hinv.source h5
  rw [hcache] at hvol hav hbv hap hbp
  refine ⟨msgdata, extime, hsrc, ?_⟩
  constructor
  · intro ⟨slot, hslot, hcar⟩
    by_cases hn : NoVolume msgdata
    · -- then the quote has no volume either, and no Level-2 record carries that
      exfalso
      obtain ⟨msgdata', extime', hdata, hn'⟩ :=
        hinv.records slot (List.mem_of_getLast? hslot) hcar.msgType
      have hlim := inLimits_of_close (hdata ▸ hcar.ap1) (hdata ▸ hcar.bp1)
      obtain ⟨-, -, hav', hbv'⟩ := hlim.shown extime'
      refine hn' ⟨?_, ?_⟩
      · rw [← hav', ← hdata, hcar.av1, ← hav]; exact hn.1
      · rw [← hbv', ← hdata, hcar.bv1, ← hbv]; exact hn.2
    · obtain ⟨t0, t1, hl⟩ := hlast hn
      rw [hslot, Option.some.injEq] at hl
      rw [hl] at hcar
      exact ⟨inLimits_of_close hcar.ap1 hcar.bp1, hn⟩
  · intro ⟨hlim, hn⟩
    obtain ⟨t0, t1, hl⟩ := hlast hn
    obtain ⟨ha, hb, hav', hbv'⟩ := hlim.shown extime
    refine ⟨_, hl, rfl, ?_, ?_, ?_, ?_, ?_⟩
    · exact (lv2Quota_volume msgdata extime).trans (toUInt32_eq_of_u64 hvol)
    · rw [show (slotL2 (lv2Quota msgdata extime) t0 t1).data.ap 0 = _ from ha]; exact hap
    · rw [show (slotL2 (lv2Quota msgdata extime) t0 t1).data.bp 0 = _ from hb]; exact hbp
    · exact hav'.trans hav
    · exact hbv'.trans hbv

/-! ## A book and the tick that repeats it -/

/-- A book of 09:00:00 with the limits 10.0 and 20.0, five bids at 15.0 and five
asks at 16.0, and the true volume `v` on all ten levels (scheme `3v`). -/
def sampleBook (v : UInt8) : Mem := fun i =>
  if i < 180 then [0, 0, 0, 0, 0, 0, 0x34, 0x40, 0, 0, 0, 0, 0, 0, 0x24, 0x40].getD (i - 164) 0
  else if i < 272 then [0x30, 0x39, 0x3a, 0x30, 0x30, 0x3a, 0x30, 0x30].getD (i - 236) 0
  else if i < 432 then [0, 0, 0, 0, 0, 0, 0x2e, 0x40, 3 * v].getD ((i - 272) % 32) 0
  else [0, 0, 0, 0, 0, 0, 0x30, 0x40, 3 * v].getD ((i - 432) % 32) 0

/-- The best level of that book one second later, as a Level-1 message of 70 bytes. -/
def sampleTick (v : UInt8) : Mem := Mem.ofBytes <|
  [0, 0, 0, 0, 0, 0, 0, 0, 0, 0, 0x30, 0x39, 0x3a, 0x30, 0x30, 0x3a, 0x30, 0x31, 0, 0, 0, 0] ++
  [0, 0, 0, 0x86, 0, 8, 0x40, 0x2e, 0, 0, 0, 0, 0, 0] ++ [0, 0, 0, 0x87, 0, 4, 0, 0, 0, v] ++
  [0, 0, 0, 0x89, 0, 8, 0x40, 0x30, 0, 0, 0, 0, 0, 0] ++ [0, 0, 0, 0x9a, 0, 4, 0, 0, 0, v]

/-- After the book. -/
def sampleState (v : UInt8) : Sys :=
  ⟨lv2Filter Entry.start (Lv2ObQuote.ofMem (sampleBook v)) 32400000 0 0,
    some (Lv2ObQuote.ofMem (sampleBook v), 32400000)⟩

theorem sampleFront : ∀ v ∈ ([0, 1] : List UInt8), lv2Front (sampleBook v) lv2ObQuoteSize =
    some (.quote (Lv2ObQuote.ofMem (sampleBook v)) 32400000) := by
  intro v hv
  have ht : ∀ v ∈ ([0, 1] : List UInt8),
      timeStrToUtcS (Lv2ObQuote.ofMem (sampleBook v)).time = some 32400000 := by decide +kernel
  have hp : ∀ v ∈ ([0, 1] : List UInt8), ¬ illegal (Lv2ObQuote.ofMem (sampleBook v)).priceFloor
      (Lv2ObQuote.ofMem (sampleBook v)).priceCeil ((Lv2ObQuote.ofMem (sampleBook v)).ask 0).price := by
    decide +kernel
  unfold lv2Front
  rw [if_pos rfl]
  dsimp only
  rw [ht v hv, Option.map_some, if_neg (by decide), if_neg fun h => hp v hv h.1]

theorem sample_reachable : ∀ v ∈ ([0, 1] : List UInt8), machine.Reachable (sampleState v) := by
  intro v hv
  have hok : ∀ v ∈ ([0, 1] : List UInt8),
      (validLv2 Entry.start.cache (Lv2ObQuote.ofMem (sampleBook v)) 32400000).1 = .ok := by decide +kernel
  have hs : step ⟨Entry.start, none⟩ (.lv2 (sampleBook v) lv2ObQuoteSize 0 0) = some (sampleState v) := by
    simp only [step, onDataLv2, lv2Source, sampleFront v hv, Option.map_some]
    rw [if_pos (hok v hv), sampleState, Option.some_or]
  have hm : machine.step = step := rfl
  exact ⟨⟨Entry.start, none⟩, _, rfl, Machine.run_cons.mpr ⟨_, hm ▸ hs, Machine.run_nil _ _⟩⟩

/-- What the tick leaves in the Level-1 record. -/
def sampleQuota (v : UInt8) : Quota :=
  [22, 36, 46, 60].foldl
    (fun quota ptr => setField quota ((sampleTick v).u32 ptr) (sampleTick v) (ptr + quotaHeadSize))
    { Quota.init with code := [], extime := 32401000 }

theorem sample_suppressed : ∀ v ∈ ([0, 1] : List UInt8),
    Suppressed (sampleState v) [] (sampleTick v) 70 (sampleQuota v) := by
  intro v hv
  have ht : ∀ v ∈ ([0, 1] : List UInt8),
      timeStrToUtcS ((sampleTick v).slice 10 (70 - 10)) = some 32401000 := by decide +kernel
  have hr : ∀ v ∈ ([0, 1] : List UInt8),
      (validLv1 (sampleState v).entry.cache (sampleQuota v)).1 = .repeatL1 := by decide +kernel
  refine ⟨?_, hr v hv⟩
  have hcode : strncpy Entry.start.lv1Quota.code [] = [] := rfl
  rw [sampleState, lv2Filter_lv1Quota, lv1Quota, ht v hv, Option.bind_some, hcode]
  rw [fieldLoop_cons (w := 14) (by decide) (.inl ⟨rfl, rfl⟩),
    fieldLoop_cons (w := 10) (by decide) (.inr ⟨rfl, rfl⟩),
    fieldLoop_cons (w := 14) (by decide) (.inl ⟨rfl, rfl⟩),
    fieldLoop_cons (w := 10) (by decide) (.inr ⟨rfl, rfl⟩), fieldLoop_end (by decide)]
  simp only [sampleQuota, List.foldl, quotaBaseSize, quotaHeadSize, Nat.reduceAdd, Entry.start]

theorem suppressed_iff_sample : Suppressed (sampleState 1) [] (sampleTick 1) 70 (sampleQuota 1) ∧
    ∃ msgdata extime, (sampleState 1).source = some (msgdata, extime) ∧
      (Delivered (sampleState 1) (sampleQuota 1) ↔ InLimits msgdata ∧ ¬ NoVolume msgdata) :=
  ⟨sample_suppressed 1 (by decide),
    suppressed_iff (sample_reachable 1 (by decide)) (sample_suppressed 1 (by decide))⟩

theorem suppressed_undelivered : ¬ ∀ s, machine.Reachable s → ∀ code data dataLen quota,
    Suppressed s code data dataLen quota → Delivered s quota := by
  intro h
  obtain ⟨slot, hslot, -⟩ :=
    h _ (sample_reachable 0 (by decide)) _ _ _ _ (sample_suppressed 0 (by decide))
  have hnone : ((sampleState 0).entry.pushed.getLast?).isNone = true := by decide +kernel
  rw [hslot] at hnone
  cases hnone
end MdInfoSet.L4.Suppression

