import Mathlib.Data.Fintype.Basic
import Mathlib.Logic.Function.Basic
import MdInfoSet.Core.Binary64
import MdInfoSet.Core.Machine
import MdInfoSet.Core.Mem
import MdInfoSet.Core.Setbacks

/-!
# The nano GFEX receiver

`CNanoMdReceiver` of src/nano_api_gfex/src/nano_gfex_recevier.cpp: the two
callbacks, the filter they share and the record they pass to the registered
handler. The filter is documented to drop quotes whose time or volume becomes
smaller:

    auto & last_quota = m_quota_merge.at(inst);
    if ((extime < m_quota_merge.at(inst).time) || (vol < last_quota.volume)){
        last_quota.time = extime;
        last_quota.volume = vol;
        return false;
    }

It keeps the quote it rejects and forgets the one it lets through, so what later
calls are compared with is the first quote or the last rejected one.

**Exact condition.** The filter drops what falls behind step by step: the first call behind the
first one, the first call behind that one, and so on (`Setbacks`). What is delivered never goes
back if and only if none of the other calls has a smaller time or volume than one of them before
it (`never_back_iff`).
-/
namespace MdInfoSet.L4.NanoGfex

open Setbacks (Reference Ahead Forward Setback)

/-! ## Time strings -/

def isSpace (c : UInt8) : Bool := c = 0x20 ∨ 0x09 ≤ c ∧ c ≤ 0x0d

def isDigit (c : UInt8) : Bool := 0x30 ≤ c ∧ c ≤ 0x39

/-- `atol`, and `atoi` on as few digits: blanks, a sign, and the digits up to the
first other character. -/
def atol (s : Bytes) : Int :=
  let num := fun ds : Bytes => ((ds.takeWhile isDigit).foldl (fun n c => n * 10 + (c.toNat - 0x30)) 0 : Nat)
  match s.dropWhile isSpace with
  | [] => 0
  | c :: cs => if c = 0x2d then - (num cs : Int) else if c = 0x2b then num cs else num (c :: cs)

/-- mirrors src/nano_api_gfex/src/nano_gfex_recevier.cpp:16-32 -/
def timeStrToUtcS (str : Bytes) : UInt64 :=
  if str.length ≠ 8 ∧ str.length ≠ 12 then 0
  else
    let hh := UInt64.ofInt (atol (str.take 2))
    let mm := UInt64.ofInt (atol ((str.drop 3).take 2))
    let ss := UInt64.ofInt (atol ((str.drop 6).take 2))
    let ms := if str.length = 12 then UInt64.ofInt (atol ((str.drop 9).take 3)) else 0
    (hh * 3600 + mm * 60 + ss) * 1000 + ms

example : timeStrToUtcS [0x30, 0x39, 0x3a, 0x30, 0x39, 0x3a, 0x33, 0x34, 0x2e, 0x31, 0x36, 0x34] = 32974164 := by
  decide

/-! ## Messages and records -/

/-- mirrors src/nano_api_gfex/dependency/NanoGfexMdStruct.h:8-25
The two texts are what a C string function sees from the field on. -/
structure NanoGfexL1Md where
  contractNo : UInt16
  contractName : Bytes
  sendTime : Bytes
  lastPrice : Float
  lastMatchQty : UInt32
  totalMatchQty : UInt32
  turnOver : Float
  openInterest : UInt32
  openInterestChange : Int32
  bidPrice : Float
  bidQty : Int32
  askPrice : Float
  askQty : Int32
  avgPrice : Float
  updateFlag : Int16

/-- mirrors src/nano_api_gfex/dependency/NanoGfexMdStruct.h:29-69 -/
structure NanoGfexL2Md where
  contractName : Bytes
  lastPrice : Float
  lastMatchQty : UInt32
  matchTotalQty : UInt32
  turnOver : Float
  openInterest : UInt32
  openInterestChange : Int32
  genTime : Bytes
  bidPx : Fin 5 → Float
  bidVol : Fin 5 → UInt32
  askPx : Fin 5 → Float
  askVol : Fin 5 → UInt32
  buyImplyQty : Fin 5 → Int32
  sellImplyQty : Fin 5 → Int32

/-- mirrors src/qx_commom/data_type_def.h:259-287 -/
structure NanoGfexMd where
  instId : Bytes
  mdLevel : Int32
  extime : UInt64
  open' : Float
  high : Float
  low : Float
  lastPrice : Float
  turnOver : Float
  volume : UInt32
  lastMatchQty : UInt32
  openInterest : UInt32
  openInterestChange : Int32
  ap : Fin 5 → Float
  bp : Fin 5 → Float
  av : Fin 5 → UInt32
  bv : Fin 5 → UInt32
  avgPrice : Float
  contractNo : UInt16
  l1UpdateFlag : Int16
  buyImplyQty : Fin 5 → Int32
  sellImplyQty : Fin 5 → Int32
  localTime : UInt64

/-- mirrors src/nano_api_gfex/src/nano_gfex_recevier.h:42-55 -/
structure MdInterval where
  open' : Float
  high : Float
  low : Float

/-- mirrors src/nano_api_gfex/src/nano_gfex_typedef.h:12-16 -/
structure QuotaMerge where
  time : UInt64
  volume : UInt64
  deriving DecidableEq

/-! ## The receiver -/

/-- The two maps of the receiver, and with each record passed to the handler the
instrument of the call that passed it. -/
structure Receiver where
  quotaMerge : Bytes → Option QuotaMerge
  mdInterval : Bytes → Option MdInterval
  delivered : List (Bytes × NanoGfexMd)

def Receiver.start : Receiver := ⟨fun _ => none, fun _ => none, []⟩

/-- The filter's comparison. -/
def Behind (extime vol : UInt64) (quota : QuotaMerge) : Prop := extime < quota.time ∨ vol < quota.volume

instance (extime vol : UInt64) (quota : QuotaMerge) : Decidable (Behind extime vol quota) := by
  unfold Behind; infer_instance

/-- mirrors src/nano_api_gfex/src/nano_gfex_recevier.cpp:61-74
The verdict and the entry of the instrument afterwards. -/
def isValidQuota (entry : Option QuotaMerge) (extime vol : UInt64) : Bool × QuotaMerge :=
  match entry with
  | none => (true, ⟨extime, vol⟩)
  | some lastQuota =>
    if Behind extime vol lastQuota then (false, ⟨extime, vol⟩)
    else (true, lastQuota)

/-- The prices of the day so far, after a quote (cpp:87-102, 200-215). -/
def updateInterval (entry : Option MdInterval) (lastPrice : Float) : MdInterval :=
  let i := entry.getD ⟨lastPrice, lastPrice, lastPrice⟩
  let i := if (i.open' != i.open') = true ∧ lastPrice > 0 then { i with open' := lastPrice } else i
  let i := if lastPrice > i.high then { i with high := lastPrice } else i
  if lastPrice < i.low then { i with low := lastPrice } else i

inductive Call where
  | l1 (msgdata : NanoGfexL1Md)
  | l2 (msgdata : NanoGfexL2Md)

def Call.inst : Call → Bytes
  | .l1 m => m.contractName
  | .l2 m => m.contractName

def Call.extime : Call → UInt64
  | .l1 m => timeStrToUtcS m.sendTime
  | .l2 m => timeStrToUtcS m.genTime

def Call.volume : Call → UInt32
  | .l1 m => m.totalMatchQty
  | .l2 m => m.matchTotalQty

def Call.lastPrice : Call → Float
  | .l1 m => m.lastPrice
  | .l2 m => m.lastPrice

/-- The record the two callbacks fill (cpp:106-159, 219-278). -/
def Call.record (c : Call) (interval : MdInterval) (localTime : UInt64) : NanoGfexMd :=
  match c with
  | .l1 m =>
    { instId := m.contractName.take 20, mdLevel := 1, extime := timeStrToUtcS m.sendTime
      open' := interval.open', high := interval.high, low := interval.low
      lastPrice := m.lastPrice, turnOver := m.turnOver, volume := m.totalMatchQty, lastMatchQty := m.lastMatchQty
      openInterest := m.openInterest, openInterestChange := m.openInterestChange
      ap := Function.update (fun _ => Binary64.nan) 0 m.askPrice
      bp := Function.update (fun _ => Binary64.nan) 0 m.bidPrice
      av := Function.update (fun _ => 0) 0 m.askQty.toUInt32
      bv := Function.update (fun _ => 0) 0 m.bidQty.toUInt32
      avgPrice := m.avgPrice, contractNo := m.contractNo, l1UpdateFlag := m.updateFlag
      buyImplyQty := fun _ => 0, sellImplyQty := fun _ => 0, localTime := localTime }
  | .l2 m =>
    { instId := m.contractName.take 20, mdLevel := 1, extime := timeStrToUtcS m.genTime
      open' := interval.open', high := interval.high, low := interval.low
      lastPrice := m.lastPrice, turnOver := m.turnOver, volume := m.matchTotalQty, lastMatchQty := m.lastMatchQty
      openInterest := m.openInterest, openInterestChange := m.openInterestChange
      ap := m.askPx, bp := m.bidPx, av := m.askVol, bv := m.bidVol
      avgPrice := Binary64.nan, contractNo := 0, l1UpdateFlag := 0
      buyImplyQty := m.buyImplyQty, sellImplyQty := m.sellImplyQty, localTime := localTime }

/-- mirrors src/nano_api_gfex/src/nano_gfex_recevier.cpp:78-160, 191-279
`OnNanoGfexL1Md` and `OnNanoGfexL2Md`; `localTime` is the reading of the clock. -/
def onNanoGfexMd (r : Receiver) (c : Call) (localTime : UInt64) : Receiver :=
  let (valid, quota) := isValidQuota (r.quotaMerge c.inst) c.extime c.volume.toUInt64
  let r := { r with quotaMerge := Function.update r.quotaMerge c.inst (some quota) }
  if valid = false then r
  else
    let interval := updateInterval (r.mdInterval c.inst) c.lastPrice
    { r with
      mdInterval := Function.update r.mdInterval c.inst (some interval)
      delivered := r.delivered ++ [(c.inst, c.record interval localTime)] }

def machine : Machine Receiver (Call × UInt64) where
  init r := r = Receiver.start
  step r c := some (onNanoGfexMd r c.1 c.2)

/-! ## What is delivered -/

/-- The records of one instrument. -/
def Receiver.stream (r : Receiver) (inst : Bytes) : List NanoGfexMd :=
  (r.delivered.filter fun d => d.1 = inst).map Prod.snd

/-- The later of two records. -/
def NotBehind (a b : NanoGfexMd) : Prop := a.extime ≤ b.extime ∧ a.volume ≤ b.volume

instance (a b : NanoGfexMd) : Decidable (NotBehind a b) := by unfold NotBehind; infer_instance

/-- No stream goes back in time or volume. -/
def NeverBack (r : Receiver) : Prop := ∀ inst, (r.stream inst).Pairwise NotBehind

/-- What the filter looks at. -/
def Call.stamp (c : Call) : QuotaMerge := ⟨c.extime, c.volume.toUInt64⟩

/-- Time and volume of the calls of one instrument, in their order. -/
def stamps (cs : List (Call × UInt64)) (inst : Bytes) : List QuotaMerge :=
  (cs.filter fun c => c.1.inst = inst).map fun c => c.1.stamp

/-- Time or volume is smaller. -/
def QuotaMerge.IsBehind (quota last : QuotaMerge) : Prop := Behind quota.time quota.volume last

instance : DecidableRel QuotaMerge.IsBehind := fun quota last => by unfold QuotaMerge.IsBehind; infer_instance

def NanoGfexMd.stamp (r : NanoGfexMd) : QuotaMerge := ⟨r.extime, r.volume.toUInt64⟩

theorem Call.record_stamp (c : Call) (interval : MdInterval) (localTime : UInt64) :
    (c.record interval localTime).stamp = c.stamp := by
  cases c <;> rfl

/-- A record is behind another when the filter's comparison says so. -/
theorem notBehind_iff {last r : NanoGfexMd} : NotBehind last r ↔ ¬ r.stamp.IsBehind last.stamp := by
  unfold NotBehind QuotaMerge.IsBehind Behind NanoGfexMd.stamp
  rw [not_or, UInt64.not_lt, UInt64.not_lt, UInt64.le_iff_toNat_le (a := last.volume.toUInt64),
    UInt32.toNat_toUInt64, UInt32.toNat_toUInt64, ← UInt32.le_iff_toNat_le]

/-! ## One call -/

/-- What the filter made of the calls of one instrument: the entry is the last call that fell
behind, the records are those of the others. -/
structure Filtered (calls : List QuotaMerge) (entry : Option QuotaMerge) (stream : List NanoGfexMd) : Prop where
  first : entry = none → calls = []
  kept : ∀ q, entry = some q → ∃ k, Reference QuotaMerge.IsBehind calls k q
  passed : ∀ q, (∃ r ∈ stream, r.stamp = q) ↔ Ahead QuotaMerge.IsBehind calls q
  forward : stream.Pairwise NotBehind ↔ Forward QuotaMerge.IsBehind calls

theorem filtered_nil : Filtered [] none [] where
  first _ := rfl
  kept _ h := by cases h
  passed q := by simp [Ahead]
  forward := iff_of_true List.Pairwise.nil fun i j a b _ ha => by simp at ha

/-- It rejects the setbacks, and the entry is what the next call is compared with. -/
theorem Filtered.verdict {calls : List QuotaMerge} {entry : Option QuotaMerge} {stream : List NanoGfexMd}
    (h : Filtered calls entry stream) (x : QuotaMerge) :
    ((isValidQuota entry x.time x.volume).1 = true ↔ ¬ Setback QuotaMerge.IsBehind (calls ++ [x]) calls.length) ∧
      ∃ k, Reference QuotaMerge.IsBehind (calls ++ [x]) k (isValidQuota entry x.time x.volume).2 := by
  cases entry with
  | none =>
    rw [h.first rfl]
    exact ⟨iff_of_true rfl Setbacks.not_setback_zero, 0, Setbacks.reference_single⟩
  | some last =>
    obtain ⟨k, hk⟩ := h.kept last rfl
    have hnext := Setbacks.reference_concat (x := x) hk
    rw [Setbacks.setback_last hk]
    unfold isValidQuota
    by_cases hx : x.IsBehind last
    · rw [if_pos hx] at hnext
      simp only [if_pos (show Behind x.time x.volume last from hx), hx, not_true_eq_false, Bool.false_eq_true, true_and]
      exact ⟨_, hnext⟩
    · rw [if_neg hx] at hnext
      simp only [if_neg (show ¬ Behind x.time x.volume last from hx), hx, not_false_eq_true, true_and]
      exact ⟨k, hnext⟩

theorem Filtered.step {calls : List QuotaMerge} {entry : Option QuotaMerge} {stream : List NanoGfexMd}
    (h : Filtered calls entry stream) (r : NanoGfexMd) :
    Filtered (calls ++ [r.stamp]) (some (isValidQuota entry r.stamp.time r.stamp.volume).2)
      (stream ++ if (isValidQuota entry r.stamp.time r.stamp.volume).1 = true then [r] else []) := by
  obtain ⟨hvalid, k, hk⟩ := h.verdict r.stamp
  refine ⟨fun he => (by cases he), fun q hq => ⟨k, Option.some.inj hq ▸ hk⟩, fun q => ?_, ?_⟩
  · rw [Setbacks.ahead_concat, ← h.passed, ← hvalid]
    split
    · simp [‹(isValidQuota _ _ _).1 = true›, or_and_right, exists_or, eq_comm]
    · simp [‹¬ (isValidQuota _ _ _).1 = true›]
  · rw [Setbacks.forward_concat, ← h.forward, ← hvalid]
    split
    · simp only [List.pairwise_append, List.pairwise_singleton, List.mem_singleton, forall_eq, true_and,
        ‹(isValidQuota _ _ _).1 = true›, forall_const, notBehind_iff, ← h.passed]
      exact and_congr_right fun _ => ⟨fun hall q ⟨d, hd, hq⟩ => hq ▸ hall d hd, fun hall d hd => hall _ ⟨d, hd, rfl⟩⟩
    · simp [‹¬ (isValidQuota _ _ _).1 = true›]

/-- A rejected call delivers nothing. -/
theorem stream_rejected {r : Receiver} {c : Call} (t : UInt64) (inst : Bytes)
    (h : (isValidQuota (r.quotaMerge c.inst) c.extime c.volume.toUInt64).1 = false) :
    (onNanoGfexMd r c t).stream inst = r.stream inst := by
  simp only [onNanoGfexMd, h, if_true, Receiver.stream]

/-- An accepted one appends its record to the stream of its instrument. -/
theorem stream_accepted {r : Receiver} {c : Call} (t : UInt64) (inst : Bytes)
    (h : (isValidQuota (r.quotaMerge c.inst) c.extime c.volume.toUInt64).1 = true) :
    (onNanoGfexMd r c t).stream inst = r.stream inst ++
      if c.inst = inst then [c.record (updateInterval (r.mdInterval c.inst) c.lastPrice) t] else [] := by
  simp only [onNanoGfexMd, h, Bool.true_eq_false, if_false, Receiver.stream, List.filter_append, List.map_append]
  congr 1
  by_cases hi : c.inst = inst
  · simp [hi]
  · simp [hi]

/-- A call hands on at most its own record, and touches no other instrument. -/
theorem onNanoGfexMd_cases (r : Receiver) (c : Call) (t : UInt64) (inst : Bytes) :
    (onNanoGfexMd r c t).quotaMerge inst =
        (if c.inst = inst then some (isValidQuota (r.quotaMerge inst) c.extime c.volume.toUInt64).2
          else r.quotaMerge inst) ∧
      ∃ record : NanoGfexMd, record.stamp = c.stamp ∧ (onNanoGfexMd r c t).stream inst = r.stream inst ++
        if c.inst = inst then
          if (isValidQuota (r.quotaMerge inst) c.extime c.volume.toUInt64).1 = true then [record] else []
        else [] := by
  refine ⟨?_, c.record (updateInterval (r.mdInterval c.inst) c.lastPrice) t, c.record_stamp _ t, ?_⟩
  · by_cases hi : c.inst = inst
    · subst hi
      simp only [onNanoGfexMd, if_true]
      split <;> exact Function.update_self ..
    · simp only [onNanoGfexMd, if_neg hi]
      split <;> exact Function.update_of_ne (Ne.symm hi) ..
  · cases hv : (isValidQuota (r.quotaMerge c.inst) c.extime c.volume.toUInt64).1 with
    | false =>
      rw [stream_rejected t inst hv]
      by_cases hi : c.inst = inst
      · simp [← hi, hv]
      · simp [hi]
    | true =>
      rw [stream_accepted t inst hv]
      by_cases hi : c.inst = inst
      · simp [← hi, hv]
      · simp [hi]

/-! ## Runs -/

theorem filtered_run {s : Receiver} {cs : List (Call × UInt64)} (hr : machine.run Receiver.start cs = some s) :
    ∀ inst, Filtered (stamps cs inst) (s.quotaMerge inst) (s.stream inst) := by
  have hstart : ∀ inst, Filtered (stamps [] inst) (Receiver.start.quotaMerge inst) (Receiver.start.stream inst) :=
    fun _ => filtered_nil
  refine Machine.run_history (P := fun (cs : List (Call × UInt64)) (r : Receiver) => ∀ inst,
    Filtered (stamps cs inst) (r.quotaMerge inst) (r.stream inst)) (fun cs r c r' h hstep inst => ?_) hstart hr
  cases hstep
  obtain ⟨hentry, record, hstamp, hstream⟩ := onNanoGfexMd_cases r c.1 c.2 inst
  rw [hentry, hstream]
  by_cases hi : c.1.inst = inst
  · have hcalls : stamps (cs ++ [c]) inst = stamps cs inst ++ [record.stamp] := by simp [stamps, hi, hstamp]
    rw [hcalls, if_pos hi, if_pos hi]
    have hnext := (h inst).step record
    rwa [hstamp] at hnext ⊢
  · have hcalls : stamps (cs ++ [c]) inst = stamps cs inst := by simp [stamps, hi]
    rw [hcalls, if_neg hi, if_neg hi, List.append_nil]
    exact h inst

theorem run_total (cs : List (Call × UInt64)) (r : Receiver) : ∃ s, machine.run r cs = some s := by
  induction cs generalizing r with
  | nil => exact ⟨r, rfl⟩
  | cons c cs ih => exact ih (onNanoGfexMd r c.1 c.2)

/-- **Exact condition.** Among the calls of an instrument that do not fall behind step by step,
from the first one on, none is behind an earlier one. -/
theorem never_back_iff (cs : List (Call × UInt64)) :
    (∀ s, machine.run Receiver.start cs = some s → NeverBack s) ↔
      ∀ inst, Forward QuotaMerge.IsBehind (stamps cs inst) := by
  obtain ⟨s, hs⟩ := run_total cs Receiver.start
  constructor
  · exact fun h inst => (filtered_run hs inst).forward.mp (h s hs inst)
  · exact fun h s' hs' inst => (filtered_run hs' inst).forward.mpr (h inst)

/-- Level-1 calls of one instrument at 09:00, 09:02 and 09:01. -/
def upAndBack : List (Call × UInt64) :=
  [0x30, 0x32, 0x31].map fun m =>
    (.l1 ⟨1, [0x73, 0x69], [0x30, 0x39, 0x3a, 0x30, m, 0x3a, 0x30, 0x30], 10, 1, 5, 10, 0, 0, 9, 1, 11, 1, 10, 0⟩, 0)

/-- The third call is compared with the first and delivered behind the second. -/
theorem back_after_forward : ¬ ∀ cs s, machine.run Receiver.start cs = some s → NeverBack s := by
  intro h
  have hrun : ((machine.run Receiver.start upAndBack).map fun s => (s.stream [0x73, 0x69]).map (·.extime)) =
      some [32400000, 32520000, 32460000] := by decide +kernel
  obtain ⟨s, hs, ht⟩ := Option.map_eq_some_iff.mp hrun
  have hsorted : ((s.stream [0x73, 0x69]).map (·.extime)).Pairwise (· ≤ ·) :=
    List.pairwise_map.mpr ((h upAndBack s hs [0x73, 0x69]).imp fun hb => hb.1)
  rw [ht] at hsorted
  revert hsorted
  decide

end MdInfoSet.L4.NanoGfex
