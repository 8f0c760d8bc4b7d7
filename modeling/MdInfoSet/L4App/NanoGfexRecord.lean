import Mathlib.Data.Fin.VecNotation
import Mathlib.Data.List.GetD
import Mathlib.Tactic.FinCases
import MdInfoSet.L4App.NanoGfex

/-!
# The records of the nano GFEX receiver

Each callback of `CNanoMdReceiver` has one `static NanoGfexMd md_data`, which it fills field by
field for every message it delivers and passes on. `Store` is the receiver of `NanoGfex.lean`
with these two records.

* `fillL1_eq`, `fillL2_eq`: whatever the record held before, what is in it afterwards comes from
  the message, except for the last 12 bytes of `inst_id`, which stay zero (`inv_reachable`).
* `onMd_receiver`: without its records this is the receiver of `NanoGfex.lean`.

**Exact condition.** A delivered record shows all values of its message exactly for the
level-1 messages whose two quantities are not negative (`record_iff`).

**Counterexample.** The record of a level-2 message has `md_level` 1 (`l2_level_one`).
-/
namespace MdInfoSet.L4.NanoGfex

/-! ## One static record -/

/-- mirrors src/qx_commom/data_type_def.h:259-287, with the 32 bytes of `inst_id` -/
structure MdData where
  instId : Fin 32 → UInt8
  mdLevel : Int32
  extime : UInt64
  open' : Float
  high : Float
  low : Float
  lastPrice : Float
  turnOver : Float
  volume : UInt32
  lastMatchQty : UInt32
  openInterest : UInt32
  openInterestChange : Int32
  ap : Fin 5 → Float
  bp : Fin 5 → Float
  av : Fin 5 → UInt32
  bv : Fin 5 → UInt32
  avgPrice : Float
  contractNo : UInt16
  l1UpdateFlag : Int16
  buyImplyQty : Fin 5 → Int32
  sellImplyQty : Fin 5 → Int32
  localTime : UInt64

/-- A static object begins as zeros. -/
def MdData.zero : MdData where
  instId := fun _ => 0
  mdLevel := 0
  extime := 0
  open' := 0
  high := 0
  low := 0
  lastPrice := 0
  turnOver := 0
  volume := 0
  lastMatchQty := 0
  openInterest := 0
  openInterestChange := 0
  ap := fun _ => 0
  bp := fun _ => 0
  av := fun _ => 0
  bv := fun _ => 0
  avgPrice := 0
  contractNo := 0
  l1UpdateFlag := 0
  buyImplyQty := fun _ => 0
  sellImplyQty := fun _ => 0
  localTime := 0

/-- `strncpy(md_data.inst_id, name, 20)`: the name, then zeros up to 20 bytes. -/
def strncpy20 (instId : Fin 32 → UInt8) (name : Bytes) : Fin 32 → UInt8 :=
  fun i => if i.val < 20 then name.getD i 0 else instId i

/-- The assignments to the five elements of an array, one after the other. -/
def assign {α : Type} (a : Fin 5 → α) (x0 x1 x2 x3 x4 : α) : Fin 5 → α :=
  Function.update (Function.update (Function.update (Function.update (Function.update a 0 x0) 1 x1) 2 x2) 3 x3) 4 x4

/-- mirrors src/nano_api_gfex/src/nano_gfex_recevier.cpp:107-159 -/
def fillL1 (mdData : MdData) (m : NanoGfexL1Md) (interval : MdInterval) (localTime : UInt64) : MdData :=
  { mdData with
    instId := strncpy20 mdData.instId m.contractName
    mdLevel := 1
    extime := timeStrToUtcS m.sendTime
    open' := interval.open', high := interval.high, low := interval.low
    lastPrice := m.lastPrice
    lastMatchQty := m.lastMatchQty
    volume := m.totalMatchQty
    turnOver := m.turnOver
    openInterest := m.openInterest
    openInterestChange := m.openInterestChange
    ap := assign mdData.ap m.askPrice Binary64.nan Binary64.nan Binary64.nan Binary64.nan
    bp := assign mdData.bp m.bidPrice Binary64.nan Binary64.nan Binary64.nan Binary64.nan
    av := assign mdData.av m.askQty.toUInt32 0 0 0 0
    bv := assign mdData.bv m.bidQty.toUInt32 0 0 0 0
    avgPrice := m.avgPrice
    contractNo := m.contractNo
    l1UpdateFlag := m.updateFlag
    buyImplyQty := assign mdData.buyImplyQty 0 0 0 0 0
    sellImplyQty := assign mdData.sellImplyQty 0 0 0 0 0
    localTime := localTime }

/-- mirrors src/nano_api_gfex/src/nano_gfex_recevier.cpp:221-278 -/
def fillL2 (mdData : MdData) (m : NanoGfexL2Md) (interval : MdInterval) (localTime : UInt64) : MdData :=
  { mdData with
    instId := strncpy20 mdData.instId m.contractName
    mdLevel := 1
    extime := timeStrToUtcS m.genTime
    open' := interval.open', high := interval.high, low := interval.low
    lastPrice := m.lastPrice
    lastMatchQty := m.lastMatchQty
    volume := m.matchTotalQty
    turnOver := m.turnOver
    openInterest := m.openInterest
    openInterestChange := m.openInterestChange
    ap := assign mdData.ap (m.askPx 0) (m.askPx 1) (m.askPx 2) (m.askPx 3) (m.askPx 4)
    bp := assign mdData.bp (m.bidPx 0) (m.bidPx 1) (m.bidPx 2) (m.bidPx 3) (m.bidPx 4)
    av := assign mdData.av (m.askVol 0) (m.askVol 1) (m.askVol 2) (m.askVol 3) (m.askVol 4)
    bv := assign mdData.bv (m.bidVol 0) (m.bidVol 1) (m.bidVol 2) (m.bidVol 3) (m.bidVol 4)
    avgPrice := Binary64.nan
    contractNo := 0
    l1UpdateFlag := 0
    buyImplyQty := assign mdData.buyImplyQty (m.buyImplyQty 0) (m.buyImplyQty 1) (m.buyImplyQty 2) (m.buyImplyQty 3)
      (m.buyImplyQty 4)
    sellImplyQty := assign mdData.sellImplyQty (m.sellImplyQty 0) (m.sellImplyQty 1) (m.sellImplyQty 2)
      (m.sellImplyQty 3) (m.sellImplyQty 4)
    localTime := localTime }

/-! ## The receiver with its records -/

structure Store where
  quotaMerge : Bytes → Option QuotaMerge
  mdInterval : Bytes → Option MdInterval
  l1Data : MdData
  l2Data : MdData
  delivered : List (Bytes × MdData)

def Store.start : Store := ⟨fun _ => none, fun _ => none, .zero, .zero, []⟩

/-- The record that a call fills. -/
def Store.fill (s : Store) (c : Call) (interval : MdInterval) (localTime : UInt64) : MdData :=
  match c with
  | .l1 m => fillL1 s.l1Data m interval localTime
  | .l2 m => fillL2 s.l2Data m interval localTime

/-- The static record of the callback after it is filled. -/
def Store.setData (s : Store) (c : Call) (mdData : MdData) : Store :=
  match c with
  | .l1 _ => { s with l1Data := mdData }
  | .l2 _ => { s with l2Data := mdData }

/-- The filter lets the call through. -/
def Store.Accepts (s : Store) (c : Call) : Prop :=
  (isValidQuota (s.quotaMerge c.inst) c.extime c.volume.toUInt64).1 = true

/-- mirrors src/nano_api_gfex/src/nano_gfex_recevier.cpp:78-160, 191-279 -/
def Store.onMd (s : Store) (c : Call) (localTime : UInt64) : Store :=
  let (valid, quota) := isValidQuota (s.quotaMerge c.inst) c.extime c.volume.toUInt64
  let s := { s with quotaMerge := Function.update s.quotaMerge c.inst (some quota) }
  if valid = false then s
  else
    let interval := updateInterval (s.mdInterval c.inst) c.lastPrice
    let mdData := s.fill c interval localTime
    let s := s.setData c mdData
    { s with
      mdInterval := Function.update s.mdInterval c.inst (some interval)
      delivered := s.delivered ++ [(c.inst, mdData)] }

def storeMachine : Machine Store (Call × UInt64) where
  init s := s = Store.start
  step s c := some (s.onMd c.1 c.2)

/-! ## What a record should be -/

/-- `md_level`: "1: 只有一档，即L1   5：5档  即L2" (data_type_def.h:263). -/
def Call.level : Call → Int32
  | .l1 _ => 1
  | .l2 _ => 5

/-- Every field the message sends is in the record with its value. -/
def Carries (c : Call) (d : MdData) : Prop :=
  (∀ i : Fin 32, d.instId i = (c.inst.take 20).getD i 0) ∧ d.extime = c.extime ∧ d.volume = c.volume ∧
    d.lastPrice = c.lastPrice ∧
  match c with
  | .l1 m =>
    d.contractNo = m.contractNo ∧ d.lastMatchQty = m.lastMatchQty ∧ d.turnOver = m.turnOver ∧
      d.openInterest = m.openInterest ∧ d.openInterestChange = m.openInterestChange ∧
      d.bp 0 = m.bidPrice ∧ ((d.bv 0).toNat : Int) = m.bidQty.toInt ∧
      d.ap 0 = m.askPrice ∧ ((d.av 0).toNat : Int) = m.askQty.toInt ∧
      d.avgPrice = m.avgPrice ∧ d.l1UpdateFlag = m.updateFlag
  | .l2 m =>
    d.lastMatchQty = m.lastMatchQty ∧ d.turnOver = m.turnOver ∧
      d.openInterest = m.openInterest ∧ d.openInterestChange = m.openInterestChange ∧
      d.bp = m.bidPx ∧ d.bv = m.bidVol ∧ d.ap = m.askPx ∧ d.av = m.askVol ∧
      d.buyImplyQty = m.buyImplyQty ∧ d.sellImplyQty = m.sellImplyQty

/-- No price and no quantity behind the first level. -/
def MdData.OneLevel (d : MdData) : Prop :=
  ∀ i, i ≠ 0 → d.ap i = Binary64.nan ∧ d.bp i = Binary64.nan ∧ d.av i = 0 ∧ d.bv i = 0

/-- The record is right for its message. -/
def Right (c : Call) (d : MdData) : Prop :=
  Carries c d ∧ d.mdLevel = c.level ∧ ∀ m, c = .l1 m → d.OneLevel

/-- The call delivers the record. -/
def Store.Delivers (s : Store) (c : Call) (localTime : UInt64) (d : MdData) : Prop :=
  (s.onMd c localTime).delivered = s.delivered ++ [(c.inst, d)]

/-- A level-1 message with two quantities that an unsigned field can hold. -/
def Call.Level1Unsigned : Call → Prop
  | .l1 m => 0 ≤ m.bidQty.toInt ∧ 0 ≤ m.askQty.toInt
  | .l2 _ => False

/-! ## Filling -/

/-- Nothing of the array is left. -/
@[simp] theorem assign_eq {α : Type} (a : Fin 5 → α) (x0 x1 x2 x3 x4 : α) :
    assign a x0 x1 x2 x3 x4 = ![x0, x1, x2, x3, x4] := by
  funext i
  fin_cases i <;> rfl

theorem vec_eta {α : Type} (f : Fin 5 → α) : ![f 0, f 1, f 2, f 3, f 4] = f := by
  funext i
  fin_cases i <;> rfl

/-- `strncpy` does not reach the last 12 bytes of `inst_id`. -/
def MdData.ClearTail (d : MdData) : Prop := ∀ i : Fin 32, 20 ≤ i.val → d.instId i = 0

theorem MdData.zero_clearTail : MdData.zero.ClearTail := fun _ _ => rfl

theorem strncpy20_eq {d : MdData} (hd : d.ClearTail) (name : Bytes) :
    strncpy20 d.instId name = fun i : Fin 32 => (name.take 20).getD i 0 := by
  funext i
  by_cases h : i.val < 20
  · simp [strncpy20, h, List.getD_eq_getElem?_getD]
  · simp [strncpy20, h, hd i (Nat.le_of_not_lt h), List.getD_eq_getElem?_getD]

theorem fillL1_eq {d : MdData} (hd : d.ClearTail) (m : NanoGfexL1Md) (iv : MdInterval) (t : UInt64) :
    fillL1 d m iv t = fillL1 .zero m iv t := by
  simp [fillL1, strncpy20_eq hd, strncpy20_eq MdData.zero_clearTail]

theorem fillL2_eq {d : MdData} (hd : d.ClearTail) (m : NanoGfexL2Md) (iv : MdInterval) (t : UInt64) :
    fillL2 d m iv t = fillL2 .zero m iv t := by
  simp [fillL2, strncpy20_eq hd, strncpy20_eq MdData.zero_clearTail]

/-- The record of a call, filled into a fresh one. -/
def Call.data (c : Call) (interval : MdInterval) (localTime : UInt64) : MdData :=
  Store.start.fill c interval localTime

theorem Call.data_clearTail (c : Call) (iv : MdInterval) (t : UInt64) : (c.data iv t).ClearTail := by
  intro i hi
  cases c with
  | l1 m => simp [Call.data, Store.fill, fillL1, strncpy20, hi, Store.start, MdData.zero]
  | l2 m => simp [Call.data, Store.fill, fillL2, strncpy20, hi, Store.start, MdData.zero]

/-- The clock is in no field but its own. -/
theorem Call.data_localTime (c : Call) (iv : MdInterval) (t t' : UInt64) :
    c.data iv t' = { c.data iv t with localTime := (c.data iv t').localTime } := by
  cases c <;> rfl

/-! ## The static records in a run -/

/-- Neither static record has anything in the bytes that no call writes. -/
def Store.Inv (s : Store) : Prop := s.l1Data.ClearTail ∧ s.l2Data.ClearTail

/-- A call fills a used record as it would a fresh one. -/
theorem Store.fill_eq {s : Store} (h : s.Inv) (c : Call) (iv : MdInterval) (t : UInt64) : s.fill c iv t = c.data iv t := by
  cases c with
  | l1 m => exact fillL1_eq h.1 m iv t
  | l2 m => exact fillL2_eq h.2 m iv t

/-- The receiver's state after a call that the filter stops. -/
theorem onMd_rejected {s : Store} {c : Call} (h : ¬ s.Accepts c) (t : UInt64) :
    s.onMd c t = { s with
      quotaMerge := Function.update s.quotaMerge c.inst
        (some (isValidQuota (s.quotaMerge c.inst) c.extime c.volume.toUInt64).2) } := by
  rw [Store.Accepts, Bool.not_eq_true] at h
  simp [Store.onMd, h]

/-- The receiver's state after a call that is delivered. -/
theorem onMd_accepted {s : Store} {c : Call} (hs : s.Inv) (h : s.Accepts c) (t : UInt64) :
    s.onMd c t = { s.setData c (c.data (updateInterval (s.mdInterval c.inst) c.lastPrice) t) with
      quotaMerge := Function.update s.quotaMerge c.inst
        (some (isValidQuota (s.quotaMerge c.inst) c.extime c.volume.toUInt64).2)
      mdInterval := Function.update s.mdInterval c.inst (some (updateInterval (s.mdInterval c.inst) c.lastPrice))
      delivered := s.delivered ++ [(c.inst, c.data (updateInterval (s.mdInterval c.inst) c.lastPrice) t)] } := by
  rw [Store.Accepts] at h
  rw [← s.fill_eq hs]
  cases c <;> simp [Store.onMd, h, Store.setData, Store.fill]

theorem inv_inductive : storeMachine.Inductive Store.Inv where
  init s hs := by
    rw [show s = Store.start from hs]
    exact ⟨fun _ _ => rfl, fun _ _ => rfl⟩
  step s l s' hinv hstep := by
    have hs' : s.onMd l.1 l.2 = s' := Option.some.inj hstep
    by_cases ha : s.Accepts l.1
    · rw [onMd_accepted hinv ha] at hs'
      have hdata := l.1.data_clearTail (updateInterval (s.mdInterval l.1.inst) l.1.lastPrice) l.2
      subst hs'
      obtain ⟨m | m, t⟩ := l
      · exact ⟨hdata, hinv.2⟩
      · exact ⟨hinv.1, hdata⟩
    · rw [onMd_rejected ha] at hs'
      exact hs' ▸ hinv

theorem inv_reachable {s : Store} (h : storeMachine.Reachable s) : s.Inv := inv_inductive.reachable h

/-! ## The receiver without its records -/

/-- The record as a reader of C strings sees it. -/
def MdData.toMd (d : MdData) : NanoGfexMd where
  instId := (List.ofFn d.instId).takeWhile (· ≠ 0)
  mdLevel := d.mdLevel
  extime := d.extime
  open' := d.open'
  high := d.high
  low := d.low
  lastPrice := d.lastPrice
  turnOver := d.turnOver
  volume := d.volume
  lastMatchQty := d.lastMatchQty
  openInterest := d.openInterest
  openInterestChange := d.openInterestChange
  ap := d.ap
  bp := d.bp
  av := d.av
  bv := d.bv
  avgPrice := d.avgPrice
  contractNo := d.contractNo
  l1UpdateFlag := d.l1UpdateFlag
  buyImplyQty := d.buyImplyQty
  sellImplyQty := d.sellImplyQty
  localTime := d.localTime

def Store.receiver (s : Store) : Receiver where
  quotaMerge := s.quotaMerge
  mdInterval := s.mdInterval
  delivered := s.delivered.map fun d => (d.1, d.2.toMd)

/-- A text without a NUL is what a reader of the field finds. -/
theorem takeWhile_field {name : Bytes} (h : 0 ∉ name) :
    (List.ofFn fun i : Fin 32 => (name.take 20).getD i 0).takeWhile (· ≠ 0) = name.take 20 := by
  have hfield : (List.ofFn fun i : Fin 32 => (name.take 20).getD i 0) =
      name.take 20 ++ List.replicate (32 - (name.take 20).length) 0 := by
    have hlen : (name.take 20).length ≤ 32 := (List.length_take_le 20 name).trans (by decide)
    refine List.ext_getElem ?_ fun i h1 h2 => ?_
    · rw [List.length_ofFn, List.length_append, List.length_replicate, Nat.add_sub_cancel' hlen]
    rw [List.getElem_ofFn]
    by_cases hi : i < (name.take 20).length
    · rw [List.getElem_append_left hi, List.getD_eq_getElem _ _ hi]
    · rw [List.getElem_append_right (Nat.le_of_not_lt hi), List.getElem_replicate,
        List.getD_eq_default _ _ (Nat.le_of_not_lt hi)]
  rw [hfield, List.takeWhile_append_of_pos fun b hb => ?_]
  · simp
  · exact decide_eq_true fun h0 => h (h0 ▸ List.mem_of_mem_take hb)

theorem Call.data_instId (c : Call) (iv : MdInterval) (t : UInt64) :
    (c.data iv t).instId = fun i : Fin 32 => (c.inst.take 20).getD i 0 := by
  rw [← strncpy20_eq MdData.zero_clearTail]
  cases c <;> rfl

theorem Call.data_toMd {c : Call} (h : 0 ∉ c.inst) (iv : MdInterval) (t : UInt64) : (c.data iv t).toMd = c.record iv t := by
  have hname : (c.data iv t).toMd.instId = (c.record iv t).instId := by
    rw [MdData.toMd, c.data_instId, takeWhile_field h]
    cases c <;> rfl
  have hrest : (c.data iv t).toMd = { c.record iv t with instId := (c.data iv t).toMd.instId } := by
    cases c with
    | l1 m =>
      have hlevels : ∀ {α : Type} (x y : α), ![x, y, y, y, y] = Function.update (fun _ => y) 0 x := by
        intro α x y
        funext i
        fin_cases i <;> rfl
      simp [Call.data, Store.fill, fillL1, MdData.toMd, Call.record, hlevels]
    | l2 m => simp [Call.data, Store.fill, fillL2, MdData.toMd, Call.record, vec_eta]
  rw [hrest, hname]

/-- With the records written out the receiver does what it does without. -/
theorem onMd_receiver {s : Store} {c : Call} (hs : s.Inv) (hc : 0 ∉ c.inst) (t : UInt64) :
    (s.onMd c t).receiver = onNanoGfexMd s.receiver c t := by
  by_cases ha : s.Accepts c
  · rw [onMd_accepted hs ha]
    rw [Store.Accepts] at ha
    cases c <;> simp [Store.receiver, onNanoGfexMd, ha, Call.data_toMd hc]
  · rw [onMd_rejected ha]
    rw [Store.Accepts, Bool.not_eq_true] at ha
    simp [Store.receiver, onNanoGfexMd, ha]

/-! ## What is delivered -/

/-- A delivered call delivers its own record. -/
theorem delivers_iff {s : Store} {c : Call} (hs : s.Inv) (h : s.Accepts c) (t : UInt64) (d : MdData) :
    s.Delivers c t d ↔ d = c.data (updateInterval (s.mdInterval c.inst) c.lastPrice) t := by
  rw [Store.Delivers, onMd_accepted hs h]
  cases c <;> simp [eq_comm]

/-- A quantity survives the unsigned field exactly if it is not negative. -/
theorem qty_iff (q : Int32) : ((q.toUInt32.toNat : Int) = q.toInt) ↔ 0 ≤ q.toInt := by
  have h := q.toBitVec.toInt_eq_toNat_cond
  have hlt := q.toUInt32.toNat_lt
  have hnat : q.toUInt32.toNat = q.toBitVec.toNat := rfl
  have hint : q.toInt = q.toBitVec.toInt := rfl
  rw [hint, hnat] at *
  omega

/-- What the callbacks write is the message, but for the signs of the level-1 quantities and
the level of the second callback. -/
theorem right_iff (c : Call) (iv : MdInterval) (t : UInt64) : Right c (c.data iv t) ↔ c.Level1Unsigned := by
  have hname := c.data_instId iv t
  cases c with
  | l1 m =>
    have hlevels : ((Call.l1 m).data iv t).OneLevel := by
      intro i hi
      fin_cases i
      · exact absurd rfl hi
      all_goals simp [Call.data, Store.fill, fillL1]
    simp only [Right, Carries, Call.level, Call.Level1Unsigned, ← qty_iff]
    constructor
    · intro ⟨⟨_, _, _, _, hc⟩, _⟩
      obtain ⟨_, _, _, _, _, _, hbid, _, hask, _⟩ := hc
      exact ⟨hbid, hask⟩
    · intro ⟨hbid, hask⟩
      refine ⟨⟨fun i => congrFun hname i, rfl, rfl, rfl, ?_⟩, rfl, fun _ _ => hlevels⟩
      exact ⟨rfl, rfl, rfl, rfl, rfl, rfl, hbid, rfl, hask, rfl, rfl⟩
  | l2 m =>
    refine iff_of_false (fun h => ?_) id
    -- the level is the other callback's
    have hlevel : (1 : Int32) = 5 := h.2.1
    exact absurd hlevel (by decide)

/-- **Exact condition.** -/
theorem record_iff {r s : Store} {c : Call} (hr : storeMachine.Reachable r) (hs : storeMachine.Reachable s)
    (hq : r.quotaMerge c.inst = s.quotaMerge c.inst) (hi : r.mdInterval c.inst = s.mdInterval c.inst)
    (ha : r.Accepts c) (t t' : UInt64) :
    (∃ d d', r.Delivers c t d ∧ s.Delivers c t' d' ∧ d' = { d with localTime := d'.localTime } ∧
      Right c d ∧ Right c d') ↔ c.Level1Unsigned := by
  have ha' : s.Accepts c := by rwa [Store.Accepts, ← hq]
  simp only [delivers_iff (inv_reachable hr) ha, delivers_iff (inv_reachable hs) ha', ← hi]
  constructor
  · intro ⟨d, d', hd, _, _, hright, _⟩
    exact (right_iff c _ t).mp (hd ▸ hright)
  · intro hc
    refine ⟨_, _, rfl, rfl, c.data_localTime _ t t', ?_, ?_⟩
    · exact (right_iff c _ t).mpr hc
    · exact (right_iff c _ t').mpr hc

/-- A level-1 message of `si2403` at 09:00. -/
def si2403 : NanoGfexL1Md :=
  ⟨1, [0x73, 0x69, 0x32, 0x34, 0x30, 0x33], [0x30, 0x39, 0x3a, 0x30, 0x30, 0x3a, 0x30, 0x30], 10, 1, 5, 10, 0, 0, 9, 1,
    11, 1, 10, 0⟩

/-- The message of a minute before, with another price. -/
def si2403Before : NanoGfexL1Md :=
  { si2403 with sendTime := [0x30, 0x38, 0x3a, 0x35, 0x39, 0x3a, 0x30, 0x30], lastPrice := 12 }

/-- `si2403` at 08:59. -/
def oneBefore : Store := Store.start.onMd (.l1 si2403Before) 1

/-- `si2404` first, with a larger quantity, then the same. -/
def twoBefore : Store :=
  (Store.start.onMd (.l1 { si2403 with contractName := [0x73, 0x69, 0x32, 0x34, 0x30, 0x34], bidQty := 77 }) 1).onMd
    (.l1 si2403Before) 2

/-- With different messages before it. -/
theorem record_iff_si2403 :
    (∃ d d', oneBefore.Delivers (.l1 si2403) 7 d ∧ twoBefore.Delivers (.l1 si2403) 8 d' ∧
      d' = { d with localTime := d'.localTime } ∧ Right (.l1 si2403) d ∧ Right (.l1 si2403) d') ↔
    (Call.l1 si2403).Level1Unsigned :=
  record_iff ⟨.start, [(.l1 si2403Before, 1)], rfl, rfl⟩
    ⟨.start, [(.l1 { si2403 with contractName := [0x73, 0x69, 0x32, 0x34, 0x30, 0x34], bidQty := 77 }, 1),
      (.l1 si2403Before, 2)], rfl, rfl⟩ (by rfl) (by rfl) (by rfl) 7 8

/-- The level-2 message of `si2403` at 09:00. -/
def si2403L2 : NanoGfexL2Md :=
  ⟨si2403.contractName, 10, 1, 5, 10, 0, 0, si2403.sendTime, fun _ => 9, fun _ => 1, fun _ => 11, fun _ => 1, fun _ => 0,
    fun _ => 0⟩

/-- **Counterexample.** The first level-2 message is delivered with `md_level` 1. -/
theorem l2_level_one : Store.start.Accepts (.l2 si2403L2) ∧
    ∀ t d, Store.start.Delivers (.l2 si2403L2) t d → d.mdLevel = 1 ∧ ¬ Right (.l2 si2403L2) d := by
  have hinv : Store.start.Inv := inv_inductive.init _ rfl
  have hacc : Store.start.Accepts (.l2 si2403L2) := rfl
  refine ⟨hacc, fun t d hd => ?_⟩
  rw [delivers_iff hinv hacc] at hd
  subst hd
  exact ⟨rfl, fun h => (right_iff _ _ _).mp h⟩

end MdInfoSet.L4.NanoGfex
