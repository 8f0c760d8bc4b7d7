import MdInfoSet.L2Machine.InstMapRuns
import MdInfoSet.L3Protocol.DceDecode
import MdInfoSet.L4App.DceFeed

/-!
# The DCE plugin, from the socket to `on_msg`

`UdpHandler` hands every packet to `DecodeMsg` (src/gz_dce_udp/src/gz_dce_md.cpp:605-616,
734-921), unless it is to use the vendor's library. The packets come encrypted, and what the
plugin publishes of one depends on the packets before it in two ways: on the 290-byte packet it
took the key from, and on the best quote a depth message is joined with.

**End to end** (`published_from_key`). Whatever the key of the day is: what is passed to
`on_msg` are the messages of the subscribed contracts behind the first 290-byte packet, each
once, in order and with the values the exchange gave them, a depth message with those of the
last best quote of its contract behind that packet.

The first 290-byte packet is one with the bytes `GenKey_290` assumes, and the names of the
subscribed contracts are shorter than the 16 bytes `m_quota_cache` tells them apart by.
-/
namespace MdInfoSet.L4.DcePipeline

open MdInfoSet.L1.DceKey MdInfoSet.L1.DceL2 MdInfoSet.L2.InstMap MdInfoSet.XorStream
open MdInfoSet.L3.DceDecode (Decoder IsMd sent step_first step_latched step_unlatched)
open MdInfoSet.L4.DceDepth (BestValues IsBestOf)
open MdInfoSet.L4.DceFeed MdInfoSet.L4.Publish
open MdInfoSet.L4.DceReceiver (KeysOf Load QxMdMgr loaded)
open MdInfoSet.L4.TimeStrings (text timeStrToUtcS_text)

/-! ## The plugin -/

structure Plugin where
  decoder : Decoder
  mgr : QxMdMgr

/-- A packet off the socket, and the clock while it is handled. -/
structure Arrival where
  localTimeNs0 : UInt64
  packet : L3.DceDecode.Packet

/-- mirrors src/gz_dce_udp/src/gz_dce_md.cpp:734-921 -/
def decodeMsg (reset : MarketData) (s : Plugin) (a : Arrival) : Option (Plugin × Option MarketData) :=
  match L3.DceDecode.decodeMsg s.decoder a.packet with
  | (decoder, none) => some (⟨decoder, s.mgr⟩, none)
  | (decoder, some buffer) =>
    (DceReceiver.decodeMsg reset s.mgr a.localTimeNs0 buffer).map fun r => (⟨decoder, r.1⟩, r.2)

/-- What is passed to `on_msg` while the packets are handled. -/
def published (reset : MarketData) : Plugin → List Arrival → Option (List MarketData)
  | _, [] => some []
  | s, a :: arrivals => do
    let (s', fbMd) ← decodeMsg reset s a
    let fbMds ← published reset s' arrivals
    return fbMd.toList ++ fbMds

/-! ## What the exchange sends -/

inductive Message where
  | best (q : Best) (other : Mem)
  | depth (q : Depth) (other : Mem)
  | control (bs : Bytes) (h : ¬ IsMd bs)

def Message.bytes : Message → Bytes
  | .best q other => q.encode other
  | .depth q other => q.encode other
  | .control bs _ => bs

/-- A message, with what the clocks of the plugin show when it arrives. -/
structure Sent where
  localTimeNs0 : UInt64
  date : UInt32
  message : Message

def Sent.arrival (K : CalcKey) (m : Sent) : Arrival := ⟨m.localTimeNs0, sent K ⟨m.date, m.message.bytes⟩⟩

/-! ## What is to be published -/

def Message.bestOf (code : Bytes) : Message → Option Best
  | .best q _ => if q.code.chars = code then some q else none
  | .depth _ _ | .control _ _ => none

/-- The values of the last best quote of a contract. -/
def lastValues (code : Bytes) (seen : List Sent) : BestValues :=
  (seen.filterMap fun m => m.message.bestOf code).getLast?.elim .zero Best.values

/-- What is to be published of a message, behind the messages `seen`. -/
def Sent.record (reset : MarketData) (insts : List Bytes) (seen : List Sent) (m : Sent) : Option MarketData :=
  match m.message with
  | .best q _ => if q.code.chars ∈ insts then some (q.record reset m.localTimeNs0) else none
  | .depth q _ =>
    if q.code.chars ∈ insts then some (q.record reset m.localTimeNs0 (lastValues q.code.chars seen)) else none
  | .control _ _ => none

def records (reset : MarketData) (insts : List Bytes) : List Sent → List Sent → List MarketData
  | _, [] => []
  | seen, m :: ms => (m.record reset insts seen).toList ++ records reset insts (seen ++ [m]) ms

/-! ## One message -/

section Message

variable {reset : MarketData} {mgr : QxMdMgr} {localTimeNs0 : UInt64}

theorem time_text (t : DayTime) : dceTimeStrToUtcS (text t) = some (UInt64.ofNat t.millis) := timeStrToUtcS_text t []

theorem update_millis (t : DayTime) : updateSec (UInt64.ofNat t.millis) = Int32.ofNat t.seconds ∧
    updateMsec (UInt64.ofNat t.millis) = Int32.ofNat t.milli := by
  have hlt := t.millis_lt
  have hval : (UInt64.ofNat t.millis).toNat = t.millis := by
    rw [UInt64.toNat_ofNat']
    omega
  rw [updateSec_eq, updateMsec_eq, hval, t.millis_div, t.millis_mod]
  exact ⟨rfl, rfl⟩

/-- A best quote that is found is published. -/
theorem decode370_found (q : Best) {i : Nat} (hi : find mgr.mQuotaCache.data q.code.chars = some i) :
    ∃ mgr', DceReceiver.decode370 reset mgr localTimeNs0 q.msg = some (mgr', some (q.record reset localTimeNs0)) := by
  obtain ⟨hsec, hmsec⟩ := update_millis q.time
  have htime : dceTimeStrToUtcS q.msg.extime = some (UInt64.ofNat q.time.millis) := time_text q.time
  rw [DceReceiver.decode370, show q.msg.code = q.code.chars from rfl, hi]
  dsimp only
  rw [htime, Option.map_some, hsec, hmsec]
  exact ⟨_, rfl⟩

/-- A depth message that is found is published with the values of the entry. -/
theorem decode366_found (q : Depth) {i : Nat} {v : BestValues} (hi : find mgr.mQuotaCache.data q.code.chars = some i)
    (hv : (valueAt mgr.mQuotaCache.data i).map DceDepth.entryValues = some v) :
    DceReceiver.decode366 mgr localTimeNs0 q.msg = some (mgr, some (q.record reset localTimeNs0 v)) := by
  obtain ⟨hsec, hmsec⟩ := update_millis q.time
  have htime : dceTimeStrToUtcS q.msg.extime = some (UInt64.ofNat q.time.millis) := time_text q.time
  obtain ⟨cache, hcache, rfl⟩ := Option.map_eq_some_iff.mp hv
  rw [DceReceiver.decode366, show q.msg.code = q.code.chars from rfl, hi, Option.bind_some, hcache]
  dsimp only
  rw [htime, Option.map_some, hsec, hmsec]
  rfl

end Message

/-! ## Behind the key -/

/-- A buffer that is handed on. -/
def Sent.handed (m : Sent) : Option DceDepth.Packet :=
  match m.message with
  | .best q other => some ⟨m.localTimeNs0, q.encode other⟩
  | .depth q other => some ⟨m.localTimeNs0, q.encode other⟩
  | .control _ _ => none

theorem code_best (q : Best) (other : Mem) : cString (q.encode other) 38 = q.code.chars :=
  congrArg DceL2_370.code (q.ofBytes_encode other)

theorem code_depth (q : Depth) (other : Mem) : cString (q.encode other) 38 = q.code.chars :=
  congrArg DceL2_366.code (q.ofBytes_encode other)

/-- The best quotes of a contract among the buffers are those among the messages. -/
theorem bests_handed (code : Bytes) (seen : List Sent) :
    ((seen.filterMap Sent.handed).filter (IsBestOf code ·)).map (fun p => DceL2_370.ofBytes p.buffer) =
      (seen.filterMap fun m => m.message.bestOf code).map Best.msg := by
  induction seen with
  | nil => rfl
  | cons m seen ih =>
    obtain ⟨localTimeNs0, date, message⟩ := m
    cases message with
    | best q other =>
      have hbest : IsBestOf code ⟨localTimeNs0, q.encode other⟩ ↔ q.code.chars = code := by
        rw [IsBestOf, DceDepth.Packet.code, code_best]
        exact and_iff_right (q.encode_length other)
      by_cases hcode : q.code.chars = code
      · simp [Sent.handed, Message.bestOf, hbest, hcode, q.ofBytes_encode, ih]
      · simp [Sent.handed, Message.bestOf, hbest, hcode, ih]
    | depth q other =>
      have hbest : ¬ IsBestOf code ⟨localTimeNs0, q.encode other⟩ := by simp [IsBestOf]
      simp [Sent.handed, Message.bestOf, hbest, ih]
    | control bs hlen => exact ih

theorem latest_handed (code : Bytes) (seen : List Sent) :
    DceDepth.latest code (seen.filterMap Sent.handed) = lastValues code seen := by
  rw [DceDepth.latest, DceDepth.lastBest, ← List.getLast?_map, bests_handed, List.getLast?_map, lastValues]
  cases (seen.filterMap fun m => m.message.bestOf code).getLast? <;> rfl

/-- The key is known, and the entries hold what the messages `seen` have left in them. -/
structure Ready (K : CalcKey) (insts : List Bytes) (s : Plugin) (seen : List Sent) : Prop where
  decoder : s.decoder = ⟨K, true⟩
  insts : s.mgr.mSubscribeInsts = insts
  keys : KeysOf s.mgr
  entries : DceDepth.Inv s.mgr (seen.filterMap Sent.handed)

/-- The names are told apart by their keys. -/
def Short (insts : List Bytes) : Prop := ∀ inst ∈ insts, inst.length < instLenMax ∧ 0 ∉ inst

section Steps

variable {K : CalcKey} {insts : List Bytes} {s : Plugin} {seen : List Sent} (reset : MarketData)

theorem Short.apart (hshort : Short insts) (code : Code) {inst : Bytes} (hin : inst ∈ insts)
    (hkey : charsToUint128 inst = charsToUint128 code.chars) : inst = code.chars := by
  have hcode : cbytes code.chars = inst :=
    eq_of_padded (hshort inst hin).2 (hshort inst hin).1 (charsToUint128_eq_iff.mp hkey.symm)
  rw [← hcode, cbytes_eq_self fun h0 => code.ends 0 h0 rfl]

/-- A contract is found if it is subscribed. -/
theorem Ready.find_iff (h : Ready K insts s seen) (hshort : Short insts) (code : Code) :
    (∃ i, find s.mgr.mQuotaCache.data code.chars = some i) ↔ code.chars ∈ insts := by
  rw [h.keys.find_iff, h.insts]
  constructor
  · rintro ⟨inst, hin, hkey⟩
    rwa [← hshort.apart code hin hkey]
  · exact fun hin => ⟨code.chars, hin, rfl⟩

theorem decodeMsg_latched (mgr : QxMdMgr) {m : Sent} (hmd : IsMd m.message.bytes) :
    decodeMsg reset ⟨⟨K, true⟩, mgr⟩ (m.arrival K) =
      (DceReceiver.decodeMsg reset mgr m.localTimeNs0 m.message.bytes).map fun r => (⟨⟨K, true⟩, r.1⟩, r.2) := by
  rw [decodeMsg, Sent.arrival, step_latched, if_pos hmd, crypt_crypt]

theorem decodeMsg_skipped (mgr : QxMdMgr) {m : Sent} (hmd : ¬ IsMd m.message.bytes) :
    decodeMsg reset ⟨⟨K, true⟩, mgr⟩ (m.arrival K) = some (⟨⟨K, true⟩, mgr⟩, none) := by
  rw [decodeMsg, Sent.arrival, step_latched, if_neg hmd]

/-- What a message that is handed on leaves. -/
theorem Ready.next (h : Ready K insts s seen) (hshort : Short insts) {m : Sent} {p : DceDepth.Packet} {code : Code}
    (hp : m.handed = some p) (hcode : p.code = code.chars) {mgr' : QxMdMgr} {fbMd : Option MarketData}
    (hdec : DceReceiver.decodeMsg reset s.mgr p.localTimeNs0 p.buffer = some (mgr', fbMd)) :
    Ready K insts ⟨⟨K, true⟩, mgr'⟩ (seen ++ [m]) := by
  have hsame := DceReceiver.decodeMsg_sameKeys hdec
  refine ⟨rfl, hsame.insts.trans h.insts, hsame.keysOf h.keys, ?_⟩
  rw [List.filterMap_append, List.filterMap_cons, hp, List.filterMap_nil]
  refine DceDepth.decodeMsg_inv h.entries (fun inst hin hkey => ?_) hdec
  rw [h.insts] at hin
  rw [hcode] at hkey ⊢
  exact hshort.apart code hin hkey

/-- A best quote. -/
theorem Ready.best (h : Ready K insts s seen) (hshort : Short insts) (localTimeNs0 : UInt64) (q : Best) (other : Mem) :
    ∃ mgr', DceReceiver.decodeMsg reset s.mgr localTimeNs0 (q.encode other) =
      some (mgr', if q.code.chars ∈ insts then some (q.record reset localTimeNs0) else none) := by
  have hiff := h.find_iff hshort q.code
  rw [DceReceiver.decodeMsg, if_pos (q.encode_length other), q.ofBytes_encode]
  cases hfind : find s.mgr.mQuotaCache.data q.code.chars with
  | none =>
    refine ⟨s.mgr, ?_⟩
    rw [if_neg (by simp [← hiff, hfind]), DceReceiver.decode370, show q.msg.code = q.code.chars from rfl, hfind]
  | some i =>
    rw [if_pos (hiff.mp ⟨i, hfind⟩)]
    exact decode370_found q hfind

/-- A depth message. -/
theorem Ready.depth (h : Ready K insts s seen) (hshort : Short insts) (localTimeNs0 : UInt64) (q : Depth) (other : Mem) :
    DceReceiver.decodeMsg reset s.mgr localTimeNs0 (q.encode other) = some (s.mgr,
      if q.code.chars ∈ insts then some (q.record reset localTimeNs0 (lastValues q.code.chars seen)) else none) := by
  have hiff := h.find_iff hshort q.code
  have hlen := q.encode_length other
  rw [DceReceiver.decodeMsg, if_neg (by omega), if_pos hlen, q.ofBytes_encode]
  cases hfind : find s.mgr.mQuotaCache.data q.code.chars with
  | none =>
    rw [if_neg (by simp [← hiff, hfind]), DceReceiver.decode366, show q.msg.code = q.code.chars from rfl, hfind,
      Option.bind_none]
  | some i =>
    have hin := hiff.mp ⟨i, hfind⟩
    have hentry := h.entries q.code.chars (h.insts ▸ hin) i hfind
    rw [latest_handed] at hentry
    rw [if_pos hin]
    exact decode366_found q hfind hentry

/-- One message. -/
theorem Ready.step (h : Ready K insts s seen) (hshort : Short insts) (m : Sent) :
    ∃ s', decodeMsg reset s (m.arrival K) = some (s', m.record reset insts seen) ∧ Ready K insts s' (seen ++ [m]) := by
  obtain ⟨decoder, mgr⟩ := s
  obtain rfl : decoder = ⟨K, true⟩ := h.decoder
  obtain ⟨localTimeNs0, date, message⟩ := m
  cases message with
  | best q other =>
    obtain ⟨mgr', hdec⟩ := h.best reset hshort localTimeNs0 q other
    refine ⟨⟨⟨K, true⟩, mgr'⟩, ?_, h.next reset hshort (p := ⟨_, _⟩) rfl (code_best q other) hdec⟩
    rw [decodeMsg_latched reset mgr (m := ⟨_, _, .best q other⟩) (.inr (q.encode_length other)), Message.bytes, hdec]
    rfl
  | depth q other =>
    have hdec := h.depth reset hshort localTimeNs0 q other
    refine ⟨⟨⟨K, true⟩, mgr⟩, ?_, h.next reset hshort (p := ⟨_, _⟩) rfl (code_depth q other) hdec⟩
    rw [decodeMsg_latched reset mgr (m := ⟨_, _, .depth q other⟩) (.inl (q.encode_length other)), Message.bytes, hdec]
    rfl
  | control bs hlen =>
    have hsame : (seen ++ [Sent.mk localTimeNs0 date (.control bs hlen)]).filterMap Sent.handed =
        seen.filterMap Sent.handed := by
      rw [List.filterMap_append]
      exact List.append_nil _
    exact ⟨⟨⟨K, true⟩, mgr⟩, decodeMsg_skipped reset mgr hlen, rfl, h.insts, h.keys, hsame ▸ h.entries⟩

/-- All that is sent behind the key. -/
theorem Ready.run (h : Ready K insts s seen) (hshort : Short insts) (ms : List Sent) :
    published reset s (ms.map (Sent.arrival K)) = some (records reset insts seen ms) := by
  induction ms generalizing s seen with
  | nil => rfl
  | cons m ms ih =>
    obtain ⟨s', hstep, hnext⟩ := h.step reset hshort m
    rw [List.map_cons, published, hstep, records]
    simp [ih hnext]

end Steps

/-! ## From the start -/

/-- Nothing is published while there is no key. -/
theorem published_before_key {reset : MarketData} {K : CalcKey} {s : Plugin} (hs : s.decoder.mKeyGenFinished = false)
    {pre : List Sent} (hpre : ∀ m ∈ pre, m.message.bytes.length ≠ 290) (arrivals : List Arrival) :
    published reset s (pre.map (Sent.arrival K) ++ arrivals) = published reset s arrivals := by
  induction pre with
  | nil => rfl
  | cons m pre ih =>
    obtain ⟨hm, hpre⟩ := List.forall_mem_cons.mp hpre
    have hstep : decodeMsg reset s (m.arrival K) = some (s, none) := by
      rw [decodeMsg, Sent.arrival, @step_unlatched K s.decoder ⟨m.date, m.message.bytes⟩ hs hm]
    rw [List.map_cons, List.cons_append, published, hstep]
    simp [ih hpre]

/-- The first 290-byte packet makes the plugin ready. -/
theorem ready_of_sample {reset : MarketData} (K : CalcKey) (loads : List Load) {m : Sent}
    (hm : Assumed m.date m.message.bytes) : ∃ s, decodeMsg reset ⟨.start, loaded loads⟩ (m.arrival K) = some (s, none) ∧
      Ready K (loaded loads).mSubscribeInsts s [] := by
  refine ⟨⟨⟨K, true⟩, loaded loads⟩, ?_, rfl, rfl, (DceDepth.loaded_ok loads).2, DceDepth.loaded_inv loads⟩
  rw [decodeMsg, Sent.arrival, @step_first K .start ⟨m.date, m.message.bytes⟩ rfl hm.length, genKey290_eq hm]

/-- **End to end.** -/
theorem published_from_key (reset : MarketData) (K : CalcKey) (loads : List Load) (pre post : List Sent) (m : Sent)
    (hshort : Short (loaded loads).mSubscribeInsts) (hpre : ∀ m ∈ pre, m.message.bytes.length ≠ 290)
    (hm : Assumed m.date m.message.bytes) :
    published reset ⟨.start, loaded loads⟩ ((pre ++ m :: post).map (Sent.arrival K)) =
      some (records reset (loaded loads).mSubscribeInsts [] post) := by
  obtain ⟨s, hsample, hready⟩ := @ready_of_sample reset K loads m hm
  rw [List.map_append, published_before_key rfl hpre, List.map_cons, published, hsample]
  simp [hready.run reset hshort post]

/-- `eb2605` -/
def eb2605 : Code := ⟨[0x65, 0x62, 0x32, 0x36, 0x30, 0x35], by decide, by simp⟩

def quarterPastTen : DayTime := ⟨10, 15, 21, 500, by decide, by decide, by decide, by decide⟩
def someLevel : Level := ⟨0x4024000000000000, 1, 0⟩

/-- A best quote of one lot, and a depth message. -/
def someBest : Best := ⟨eb2605, quarterPastTen, 0, 0, 0, 1, 0, 0, 0, 0, 0, 0, 0, someLevel, someLevel, 0⟩
def someDepth : Depth := ⟨eb2605, quarterPastTen, fun _ => someLevel, fun _ => someLevel⟩

def sampleSent : Sent where
  localTimeNs0 := 0
  date := 20260408
  message := .control (sample 20260408) (by rw [IsMd, sample_assumed.length]; decide)

def bestSent : Sent := ⟨1, 20260408, .best someBest fun _ => 0⟩
def depthSent : Sent := ⟨2, 20260408, .depth someDepth fun _ => 0⟩

/-- The first best quote comes before the key. -/
theorem published_from_key_joined :
    published .zero ⟨.start, loaded [.subscribeInst eb2605.chars]⟩
        (([bestSent] ++ sampleSent :: [bestSent, depthSent]).map (Sent.arrival sampleKey)) =
      some [someBest.record .zero 1, someDepth.record .zero 2 someBest.values] := by
  have hinsts : (loaded [.subscribeInst eb2605.chars]).mSubscribeInsts = [eb2605.chars] := rfl
  have hrun := published_from_key .zero sampleKey [.subscribeInst eb2605.chars] [bestSent] [bestSent, depthSent]
    sampleSent (by rw [hinsts, Short, List.forall_mem_singleton]; decide)
    (by rw [List.forall_mem_singleton, bestSent, Message.bytes, someBest.encode_length]; decide) sample_assumed
  have hin : someBest.code.chars ∈ [eb2605.chars] ∧ someDepth.code.chars ∈ [eb2605.chars] := by decide
  rw [hrun, hinsts]
  simp only [records, Sent.record, bestSent, depthSent, if_pos hin.1, if_pos hin.2, List.nil_append]
  rfl

end MdInfoSet.L4.DcePipeline
