import MdInfoSet.Core.DayTime
import MdInfoSet.L4App.ExanicSnapshot
import MdInfoSet.L4App.SseOption
import MdInfoSet.L4App.SzseEntries

/-!
# The time of the exchange

Three plugins are sent the time as a decimal number and publish it as `update_sec` and
`update_msec`: the SZSE plugin of `OrigTime`, `yyyymmddhhmmssmmm`
(src/szse_etf_mdsz/src/qx_sz_md_etf_option.cpp:286-289), the SSE plugin of `timestamp`
(src/sse_etf_mdsh_exanic/src/qx_sh_md_etf_exanic.cpp:288-289) and `OnData_lv1` of
`updateTime` (src/gfex_md_exanic/src/exanic_md.cpp:602-607), both `hhmmssmmm`.

    g_fb_md->set_update_sec(hhmmssToUtcSeconds2(origtime/1000));
    g_fb_md->set_update_msec(origtime/1000);

The second line divides where the remainder is meant, as the line it was made from has it
(`// quotation.update_msec = origtime%1000;`, cpp:296).

**Exact condition** (`published_time_iff`). The SSE and GFEX plugins publish every time as it
was sent, the SZSE plugin one whose `hhmmss` is also its milliseconds.

**Counterexample.** 09:30:00.123 is published with 93000 milliseconds (`msec_published_wrong`).
-/
namespace MdInfoSet.L4.ExchangeTime

open MdInfoSet.L1.ExanicMessages MdInfoSet.L1.SseMessage MdInfoSet.L1.SzseSnapshot
open MdInfoSet.L4.ExanicHandlers (DataQuote Queued Receiver Verdict onDataLv1 MarketDataField.extime)
open MdInfoSet.L4.ExanicSnapshot (dispatchMessage)
open MdInfoSet.L4.Publish
open MdInfoSet.L4.SzseEntries (setEntry_eq)
open MdInfoSet.L4.SzseOption (entryLoop hhmmssToUtcSeconds2 quoteAt setEntry snapshotHead)

/-! ## The three feeds -/

inductive Feed where
  | szse
  | sse
  | gfex
  deriving DecidableEq

/-- The number that is sent at a time of the day `yyyymmdd`. -/
def Feed.timestamp (feed : Feed) (yyyymmdd : Nat) (t : DayTime) : Nat :=
  match feed with
  | .szse => yyyymmdd * 1000000000 + t.stamp
  | .sse | .gfex => t.stamp

/-- A message that was sent with the number is published as the record. A Level-1 message of
GFEX is published when its slot is dispatched, whatever happened since. -/
inductive Publishes : Feed → Nat → MarketData → Prop where
  | szse {filter : Bytes → Bool} {reset fbMd : MarketData} {localTimeNsStart : UInt64} {data : Mem}
    {belongTo : Nat → Nat → Bool} {o sent : Nat}
    (sends : (SzseSnapShot.ofMem data o).origTime.toNat = sent)
    (publishes : (o, fbMd) ∈ SzseOption.onData filter reset localTimeNsStart data belongTo) :
    Publishes .szse sent fbMd
  | sse {belongTo : Nat → Nat → Bool} {filter : Bytes → Bool} {reset fbMd : MarketData}
    {r r' : SseOption.Receiver} {databuffer : Mem} {localTimeNsStart : UInt64} {sent : Nat}
    (sends : (SseMsg.ofMem databuffer 42).timestamp.toNat = sent)
    (publishes : SseOption.onData belongTo filter reset r databuffer localTimeNsStart = (r', some fbMd)) :
    Publishes .sse sent fbMd
  | gfex {r r' later : Receiver} {data : Mem} {localTimeNs : UInt64} {uninit : DataQuote}
    {verdict : Option Verdict} {q : Queued} {reset fbMd : MarketData} {sent : Nat}
    (sends : (MarketDataField.ofMem data).updateTime.toInt = sent)
    (handles : onDataLv1 r data localTimeNs uninit = some (r', verdict))
    (pushes : r'.queue = r.queue ++ [q])
    (publishes : dispatchMessage reset later q.slot = some fbMd) : Publishes .gfex sent fbMd

/-- The record has the time. -/
structure HasTime (fbMd : MarketData) (t : DayTime) : Prop where
  msec : fbMd.updateMsec.toInt < 1000
  time : fbMd.updateSec.toInt * 1000 + fbMd.updateMsec.toInt = t.millis

/-! ## What is published -/

/-- The seconds are those of the time. -/
theorem hhmmssToUtcSeconds2_hhmmss (t : DayTime) : hhmmssToUtcSeconds2 t.hhmmss = t.seconds := by
  obtain ⟨hh, mm, ss⟩ := t.hhmmss_parts
  rw [hhmmssToUtcSeconds2, hh, mm, ss, DayTime.seconds]
  omega

/-- With the seconds right, it is the milliseconds that count. -/
theorem hasTime_iff {fbMd : MarketData} {t : DayTime} {msec : Nat}
    (hsec : fbMd.updateSec = Int32.ofNat t.seconds) (hmsec : fbMd.updateMsec = Int32.ofNat msec)
    (hlt : msec < 2 ^ 31) : HasTime fbMd t ↔ msec = t.milli := by
  have hsecond := t.seconds_lt
  have hmilli := t.milli_lt
  have hs : fbMd.updateSec.toInt = t.seconds := by rw [hsec, Int32.toInt_ofNat_of_lt (by omega)]
  have hm : fbMd.updateMsec.toInt = msec := by rw [hmsec, Int32.toInt_ofNat_of_lt hlt]
  constructor
  · intro h
    have htime := h.time
    rw [hs, hm, DayTime.millis] at htime
    omega
  · intro h
    refine ⟨?_, ?_⟩
    · rw [hm]
      omega
    · rw [hs, hm, DayTime.millis]
      omega

/-- The entries of a snapshot leave its time alone. -/
theorem entryLoop_time {data : Mem} {o n : Nat} {readLen : Int} {fbMd : MarketData} {countFlag : Bool} :
    (entryLoop data o n readLen fbMd countFlag).1.updateSec = fbMd.updateSec ∧
      (entryLoop data o n readLen fbMd countFlag).1.updateMsec = fbMd.updateMsec := by
  induction n generalizing readLen fbMd countFlag with
  | zero => exact ⟨rfl, rfl⟩
  | succ n ih =>
    rw [entryLoop, ih.1, ih.2, setEntry_eq]
    exact ⟨rfl, rfl⟩

/-- What is published of a packet are the quotes of its messages. -/
theorem quoteAt_of_mem {filter : Bytes → Bool} {reset fbMd : MarketData} {localTimeNsStart : UInt64} {data : Mem}
    {belongTo : Nat → Nat → Bool} {o : Nat}
    (h : (o, fbMd) ∈ SzseOption.onData filter reset localTimeNsStart data belongTo) :
    fbMd = (quoteAt reset localTimeNsStart data o).2 := by
  rw [SzseOption.onData] at h
  split at h
  · rw [SzseOption.packetLoop_eq] at h
    obtain ⟨o', -, hq⟩ := List.mem_map.mp h
    obtain rfl : o' = o := congrArg Prod.fst hq
    rw [hq]
  · cases h

theorem szse_time {reset : MarketData} {localTimeNsStart : UInt64} {data : Mem} {o yyyymmdd : Nat} {t : DayTime}
    (h : (SzseSnapShot.ofMem data o).origTime.toNat = Feed.szse.timestamp yyyymmdd t) :
    (quoteAt reset localTimeNsStart data o).2.updateSec = Int32.ofNat t.seconds ∧
      (quoteAt reset localTimeNsStart data o).2.updateMsec = Int32.ofNat t.hhmmss := by
  have hstamp := t.stamp_lt
  have horig : ((SzseSnapShot.ofMem data o).origTime % 1000000000).toNat / 1000 = t.hhmmss := by
    rw [UInt64.toNat_mod, h, Feed.timestamp, ← t.stamp_div]
    simp only [UInt64.reduceToNat]
    omega
  rw [quoteAt]
  dsimp only
  rw [entryLoop_time.1, entryLoop_time.2, snapshotHead]
  dsimp only
  rw [horig, hhmmssToUtcSeconds2_hhmmss]
  exact ⟨rfl, rfl⟩

theorem toInt32_eq (v : UInt32) : v.toInt32 = Int32.ofNat v.toNat := by
  rw [← UInt32.toInt32_ofNat', UInt32.ofNat_toNat]

theorem sse_time {reset : MarketData} {localTimeNsStart : UInt64} {msgdata : SseMsg}
    {mdInterval : NanoGfex.MdInterval} {t : DayTime} (h : msgdata.timestamp.toNat = t.stamp) :
    (SseOption.fill reset localTimeNsStart msgdata mdInterval).updateSec = Int32.ofNat t.seconds ∧
      (SseOption.fill reset localTimeNsStart msgdata mdInterval).updateMsec = Int32.ofNat t.milli := by
  have hsec : (msgdata.timestamp / 1000).toNat = t.hhmmss := by
    rw [UInt32.toNat_div, h]
    exact t.stamp_div
  have hmsec : (msgdata.timestamp % 1000).toNat = t.milli := by
    rw [UInt32.toNat_mod, h]
    exact t.stamp_mod
  obtain ⟨hs, hm⟩ := SseOption.fill_time reset localTimeNsStart msgdata mdInterval
  rw [hs, hm, hsec, toInt32_eq, hmsec, hhmmssToUtcSeconds2_hhmmss]
  exact ⟨rfl, rfl⟩

theorem ofInt_natCast {n : Nat} (h : n < 2 ^ 64) : UInt64.ofInt n = UInt64.ofNat n := by
  rw [UInt64.ofInt, Int.emod_eq_of_lt (by omega) (by omega), Int.toNat_natCast]

/-- The four numbers `OnData_lv1` takes from `updateTime`. -/
theorem stamp_parts (t : DayTime) :
    (t.stamp : Int).tdiv 10000000 = t.hour ∧ ((t.stamp : Int).tdiv 100000).tmod 100 = t.minute ∧
      ((t.stamp : Int).tdiv 1000).tmod 100 = t.second ∧ (t.stamp : Int).tmod 1000 = t.milli := by
  obtain ⟨hh, mm, ss⟩ := t.hhmmss_parts
  have hdiv := t.stamp_div
  have hmod := t.stamp_mod
  have hpos : 0 ≤ (t.stamp : Int) := Int.natCast_nonneg _
  simp only [Int.tdiv_eq_ediv_of_nonneg hpos, Int.tmod_eq_emod_of_nonneg hpos,
    Int.tmod_eq_emod_of_nonneg (Int.ediv_nonneg hpos (show (0 : Int) ≤ 100000 by decide)),
    Int.tmod_eq_emod_of_nonneg (Int.ediv_nonneg hpos (show (0 : Int) ≤ 1000 by decide))]
  omega

/-- They make up the milliseconds since midnight. -/
theorem extime_eq {msgdata : MarketDataField} {t : DayTime} (h : msgdata.updateTime.toInt = t.stamp) :
    MarketDataField.extime msgdata = UInt64.ofNat t.millis := by
  have hhour := t.hour_lt
  have hminute := t.minute_lt
  have hsecond := t.second_lt
  have hmilli := t.milli_lt
  obtain ⟨hh, mm, ss, ms⟩ := stamp_parts t
  rw [MarketDataField.extime, h, hh, mm, ss, ms, ofInt_natCast (by omega), ofInt_natCast (by omega), ofInt_natCast (by omega),
    ofInt_natCast (by omega)]
  apply UInt64.toNat_inj.mp
  simp only [UInt64.toNat_add, UInt64.toNat_mul, UInt64.toNat_ofNat', UInt64.reduceToNat, DayTime.millis,
    DayTime.seconds]
  omega

theorem dispatch_time {reset fbMd : MarketData} {r : Receiver} {slot : ExanicHandlers.Slot}
    (h : dispatchMessage reset r slot = some fbMd) :
    fbMd.updateSec = updateSec slot.extime ∧ fbMd.updateMsec = updateMsec slot.extime := by
  obtain ⟨cache, -, h⟩ := Option.bind_eq_some_iff.mp h
  dsimp only at h
  split at h
  · cases h
    exact ⟨rfl, rfl⟩
  · split at h
    · cases h
      exact ⟨rfl, rfl⟩
    · cases h

/-- A slot that is pushed has the time of its message. -/
theorem pushed_extime {r r' : Receiver} {data : Mem} {localTimeNs : UInt64} {uninit : DataQuote}
    {verdict : Option Verdict} {q : Queued} (h : onDataLv1 r data localTimeNs uninit = some (r', verdict))
    (hq : r'.queue = r.queue ++ [q]) :
    q.slot.extime = MarketDataField.extime (MarketDataField.ofMem data) := by
  have hgrown : r'.queue ≠ r.queue := by
    rw [hq]
    simp
  obtain ⟨code, -, h⟩ := Option.bind_eq_some_iff.mp h
  rcases ExanicHandlers.onMessage_spec h with ⟨hr, -⟩ | ⟨i, cache, -, -, -, -, hqueue | ⟨-, hqueue⟩⟩
  · exact absurd (congrArg Receiver.queue hr) hgrown
  · exact absurd hqueue hgrown
  · rw [hq] at hqueue
    rw [List.singleton_inj.mp (List.append_cancel_left hqueue)]
    rfl

theorem gfex_time {reset fbMd : MarketData} {r : Receiver} {slot : ExanicHandlers.Slot} {t : DayTime}
    (h : dispatchMessage reset r slot = some fbMd) (hslot : slot.extime = UInt64.ofNat t.millis) :
    fbMd.updateSec = Int32.ofNat t.seconds ∧ fbMd.updateMsec = Int32.ofNat t.milli := by
  have hlt := t.millis_lt
  have hextime : slot.extime.toNat = t.millis := by
    rw [hslot, UInt64.toNat_ofNat']
    omega
  obtain ⟨hsec, hmsec⟩ := dispatch_time h
  rw [updateSec_eq, hextime, t.millis_div] at hsec
  rw [updateMsec_eq, hextime, t.millis_mod] at hmsec
  exact ⟨hsec, hmsec⟩

/-! ## The time of the message -/

theorem szse_hasTime_iff {yyyymmdd : Nat} {t : DayTime} {fbMd : MarketData}
    (h : Publishes .szse (Feed.szse.timestamp yyyymmdd t) fbMd) : HasTime fbMd t ↔ t.hhmmss = t.milli := by
  have hlt := t.hhmmss_lt
  cases h with
  | szse sends publishes =>
    rw [quoteAt_of_mem publishes]
    obtain ⟨hsec, hmsec⟩ := szse_time sends
    exact hasTime_iff hsec hmsec (by omega)

/-- **Exact condition.** For every time of the day, whatever the message says besides. -/
theorem published_time_iff {feed : Feed} {yyyymmdd : Nat} {t : DayTime} {fbMd : MarketData}
    (h : Publishes feed (feed.timestamp yyyymmdd t) fbMd) :
    HasTime fbMd t ↔ (feed = .szse → t.hhmmss = t.milli) := by
  have hlt := t.milli_lt
  cases feed with
  | szse => rw [szse_hasTime_iff h, imp_iff_right rfl]
  | sse =>
    cases h with
    | sse sends publishes =>
      obtain ⟨mdInterval, -, rfl⟩ := SseOption.onData_published publishes
      obtain ⟨hsec, hmsec⟩ := sse_time sends
      rw [hasTime_iff hsec hmsec (by omega)]
      exact ⟨fun _ => nofun, fun _ => rfl⟩
  | gfex =>
    cases h with
    | gfex sends handles pushes publishes =>
      have hslot := (pushed_extime handles pushes).trans (extime_eq sends)
      obtain ⟨hsec, hmsec⟩ := gfex_time publishes hslot
      rw [hasTime_iff hsec hmsec (by omega)]
      exact ⟨fun _ => nofun, fun _ => rfl⟩

/-- 00:09:30.930 and 09:30:00.123. -/
def goodTime : DayTime := ⟨0, 9, 30, 930, by decide, by decide, by decide, by decide⟩

def badTime : DayTime := ⟨9, 30, 0, 123, by decide, by decide, by decide, by decide⟩

/-- A packet of one snapshot, sent at the time of 13 August 2025. -/
def sampleFrame (t : DayTime) : Mem :=
  SzseOption.frame [SzseOption.snapshotMsg.take 8 ++
    Lv1Increments.bigEndian 8 (Feed.szse.timestamp 20250813 t) ++ SzseOption.snapshotMsg.drop 16]

def sampleQuote (t : DayTime) : MarketData := (quoteAt .zero 0 (sampleFrame t) 48).2

theorem sample_publishes (t : DayTime) (h : t ∈ [goodTime, badTime]) :
    Publishes .szse (Feed.szse.timestamp 20250813 t) (sampleQuote t) := by
  have hreads : ∀ t ∈ [goodTime, badTime],
      (SzseSnapShot.ofMem (sampleFrame t) 48).origTime.toNat = Feed.szse.timestamp 20250813 t ∧
        myTransU16 (sampleFrame t) 46 = 1 ∧ SzseOption.passes (fun _ => true) (sampleFrame t) 48 = true ∧
        SzseOption.hasEntries (sampleFrame t) 48 = true := by
    decide +kernel
  obtain ⟨hsends, hcount, hpasses, hentries⟩ := hreads t h
  have hmem : (48, sampleQuote t) ∈ SzseOption.onData (fun _ => true) .zero 0 (sampleFrame t) (fun _ _ => true) := by
    have hquote : (48, sampleQuote t) = quoteAt .zero 0 (sampleFrame t) 48 := by rw [sampleQuote, quoteAt]
    rw [SzseOption.onData, if_pos rfl, hcount, SzseOption.packetLoop_pass hpasses, hentries, Bool.or_true, if_pos rfl,
      hquote]
    exact List.mem_append_left _ (List.mem_singleton_self _)
  exact .szse hsends hmem

/-- Nine minutes, thirty seconds and 930 milliseconds past midnight. -/
theorem published_time_iff_same : HasTime (sampleQuote goodTime) goodTime :=
  (published_time_iff (sample_publishes goodTime (by simp))).mpr fun _ => by decide

/-- **Counterexample.** Half past nine and 123 milliseconds is published with 93000
milliseconds. -/
theorem msec_published_wrong : ¬ ∀ (feed : Feed) (yyyymmdd : Nat) (t : DayTime) (fbMd : MarketData),
    Publishes feed (feed.timestamp yyyymmdd t) fbMd → HasTime fbMd t := by
  intro h
  have hpub := sample_publishes badTime (by simp)
  exact absurd ((szse_hasTime_iff hpub).mp (h _ _ _ _ hpub)) (by decide)

end MdInfoSet.L4.ExchangeTime
