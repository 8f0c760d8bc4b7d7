import MdInfoSet.Core.Machine
import MdInfoSet.L1Encoding.DceL2
import MdInfoSet.L2Machine.InstMap
import MdInfoSet.L4App.Publish

/-!
# The two decode paths of the DCE Level-2 receiver

`QxMdMgr` (src/gz_dce_udp/src/gz_dce_md.cpp) decodes a packet itself (`DecodeMsg`) or
has the vendor's library do it (`mds_on_best`, `mds_on_deep`). Both look the contract up
in `m_quota_cache`, by the 16 bytes of its key; only the callbacks test before that
whether it is in `m_subscribe_insts`, by the whole name.

**Exact condition.** The paths do the same with a message if and only if its contract is
subscribed or has the key of no subscribed one (`same_paths_iff`).
-/
namespace MdInfoSet.L4.DceReceiver

open MdInfoSet.L1.DceL2 MdInfoSet.L2.InstMap MdInfoSet.L4.Publish

/-- mirrors src/gz_dce_udp/src/gz_dce_md.h:93-115 -/
structure QuotaInfo where
  time : UInt64
  volume : UInt64
  ap1 : Float
  bp1 : Float
  turnOver : Float
  open' : Float
  high : Float
  low : Float
  lastPrice : Float
  upper : Float
  lower : Float
  preSettle : Float
  preClose : Float
  level : UInt32
  av1 : UInt32
  bv1 : UInt32
  openInterest : UInt32
  preOpenInterest : UInt32

def QuotaInfo.zero : QuotaInfo := ⟨0, 0, 0, 0, 0, 0, 0, 0, 0, 0, 0, 0, 0, 0, 0, 0, 0, 0⟩

structure QxMdMgr where
  mSubscribeInsts : List Bytes
  mQuotaCache : Sorted QuotaInfo

def QxMdMgr.start : QxMdMgr := ⟨[], ⟨[], .nil⟩⟩

/-! ## Loading the instruments -/

/-- `std::set::emplace`; the order of the elements is of no account here. -/
def emplace (insts : List Bytes) (inst : Bytes) : List Bytes := if inst ∈ insts then insts else insts ++ [inst]

/-- mirrors src/gz_dce_udp/src/gz_dce_md.cpp:174-183 -/
def subscribeInst (mgr : QxMdMgr) (inst : Bytes) : QxMdMgr :=
  if inst ∈ mgr.mSubscribeInsts then mgr
  else ⟨emplace mgr.mSubscribeInsts inst, sort (initOnce .zero mgr.mQuotaCache.data inst)⟩

/-- mirrors src/gz_dce_udp/src/gz_dce_md.cpp:185-253
`insts` are the names the configuration and the instrument file give. -/
def loadJsonCfg (mgr : QxMdMgr) (insts : List Bytes) : QxMdMgr :=
  let subscribeInsts := insts.foldl emplace mgr.mSubscribeInsts
  ⟨subscribeInsts, sort (subscribeInsts.foldl (initOnce .zero) mgr.mQuotaCache.data)⟩

inductive Load where
  | loadJsonCfg (insts : List Bytes)
  | subscribeInst (inst : Bytes)

def Load.apply (mgr : QxMdMgr) : Load → QxMdMgr
  | .loadJsonCfg insts => DceReceiver.loadJsonCfg mgr insts
  | .subscribeInst inst => DceReceiver.subscribeInst mgr inst

/-- The receiver after some instruments were loaded. -/
def loaded (loads : List Load) : QxMdMgr := loads.foldl Load.apply .start

/-! ## The library's callbacks -/

section Handlers

variable (reset : MarketData)

/-- What a handler leaves, and the record it passed to `on_msg`; `none` where the time
string is undefined. -/
abbrev Outcome := Option (QxMdMgr × Option MarketData)

/-- mirrors src/gz_dce_udp/src/gz_dce_md.cpp:261-353 -/
def mdsOnBest (mgr : QxMdMgr) (localTimeNs0 : UInt64) (contractInfo : MdsContractInfo) (msgdata : MdsBest) :
    Outcome :=
  if contractInfo.contractId ∈ mgr.mSubscribeInsts then
    match find mgr.mQuotaCache.data contractInfo.contractId with
    | none => some (mgr, none)
    | some cache => (dceTimeStrToUtcS contractInfo.genTime).map fun extime =>
      ({ mgr with
          mQuotaCache := mgr.mQuotaCache.modify cache fun q =>
            { q with
              time := localTimeNs0
              volume := msgdata.matchTotQty.toUInt64
              ap1 := msgdata.sellPriceOne
              bp1 := msgdata.buyPriceOne
              turnOver := msgdata.turnover
              open' := msgdata.openPrice
              high := msgdata.highPrice
              low := msgdata.lowPrice
              lastPrice := msgdata.lastPrice
              upper := msgdata.riseLimit
              lower := msgdata.fallLimit
              preSettle := msgdata.lastClearPrice
              preClose := msgdata.lastClose
              av1 := msgdata.sellQtyOne
              bv1 := msgdata.buyQtyOne
              openInterest := msgdata.openInterest
              preOpenInterest := msgdata.lastOpenInterest } },
        some
          { reset with
            localTimestamp := localTimeNs0
            maxDepth := 1
            instrumentId := contractInfo.contractId
            exchangeId := fbExchangeDce
            updateSec := updateSec extime
            updateMsec := updateMsec extime
            open' := convertPriceIfVolumeZero msgdata.openPrice msgdata.matchTotQty
            close := convertPriceIfVolumeZero msgdata.lastPrice msgdata.matchTotQty
            iopv := iopvTagLv1
            upperLimitPrice := msgdata.riseLimit
            downLimitPrice := msgdata.fallLimit
            preSettlement := msgdata.lastClearPrice
            preClose := msgdata.lastClose
            preOpenInterest := Float.ofNat msgdata.lastOpenInterest.toNat
            highPrice := convertPriceIfVolumeZero msgdata.highPrice msgdata.matchTotQty
            lowPrice := convertPriceIfVolumeZero msgdata.lowPrice msgdata.matchTotQty
            lastPrice := convertPriceIfVolumeZero msgdata.lastPrice msgdata.matchTotQty
            volume := msgdata.matchTotQty.toInt32
            turnOver := msgdata.turnover
            openInterest := Float.ofNat msgdata.openInterest.toNat
            askPrice := Function.update reset.askPrice 0
              (convertPriceIfVolumeZero msgdata.sellPriceOne msgdata.sellQtyOne)
            askVolume := Function.update reset.askVolume 0 msgdata.sellQtyOne.toInt32
            bidPrice := Function.update reset.bidPrice 0
              (convertPriceIfVolumeZero msgdata.buyPriceOne msgdata.buyQtyOne)
            bidVolume := Function.update reset.bidVolume 0 msgdata.buyQtyOne.toInt32 })
  else some (mgr, none)

/-- mirrors src/gz_dce_udp/src/gz_dce_md.cpp:382-503
A depth record sets every field. -/
def mdsOnDeep (mgr : QxMdMgr) (localTimeNs0 : UInt64) (contractInfo : MdsContractInfo) (msgdata : MdsDeep) :
    Outcome :=
  if contractInfo.contractId ∈ mgr.mSubscribeInsts then
    match (find mgr.mQuotaCache.data contractInfo.contractId).bind (valueAt mgr.mQuotaCache.data) with
    | none => some (mgr, none)
    | some cache => (dceTimeStrToUtcS contractInfo.genTime).map fun extime =>
      (mgr, some
        { localTimestamp := localTimeNs0
          maxDepth := 5
          instrumentId := contractInfo.contractId
          exchangeId := fbExchangeDce
          updateSec := updateSec extime
          updateMsec := updateMsec extime
          open' := convertPriceIfVolumeZero cache.open' cache.volume.toUInt32
          close := convertPriceIfVolumeZero cache.lastPrice cache.volume.toUInt32
          iopv := iopvTagLv2
          upperLimitPrice := cache.upper
          downLimitPrice := cache.lower
          preSettlement := cache.preSettle
          preClose := cache.preClose
          preOpenInterest := Float.ofNat cache.preOpenInterest.toNat
          highPrice := convertPriceIfVolumeZero cache.high cache.volume.toUInt32
          lowPrice := convertPriceIfVolumeZero cache.low cache.volume.toUInt32
          lastPrice := convertPriceIfVolumeZero cache.lastPrice cache.volume.toUInt32
          volume := cache.volume.toUInt32.toInt32
          turnOver := cache.turnOver
          openInterest := Float.ofNat cache.openInterest.toNat
          askPrice := fun i => convertPriceIfVolumeZero (msgdata.sellPrice i) (msgdata.sellQty i)
          askVolume := fun i => (msgdata.sellQty i).toInt32
          bidPrice := fun i => convertPriceIfVolumeZero (msgdata.buyPrice i) (msgdata.buyQty i)
          bidVolume := fun i => (msgdata.buyQty i).toInt32 })
  else some (mgr, none)

/-! ## `DecodeMsg` -/

/-- mirrors src/gz_dce_udp/src/gz_dce_md.cpp:750-836 -/
def decode370 (mgr : QxMdMgr) (localTimeNs0 : UInt64) (msgdata : DceL2_370) : Outcome :=
  match find mgr.mQuotaCache.data msgdata.code with
  | none => some (mgr, none)
  | some cache => (dceTimeStrToUtcS msgdata.extime).map fun extime =>
    ({ mgr with
        mQuotaCache := mgr.mQuotaCache.modify cache fun q =>
          { q with
            time := localTimeNs0
            volume := msgdata.volume.toUInt64
            ap1 := msgdata.ap1
            bp1 := msgdata.bp1
            turnOver := msgdata.turnOver
            open' := msgdata.open'
            high := msgdata.high
            low := msgdata.low
            lastPrice := msgdata.lastPrice
            upper := msgdata.upper
            lower := msgdata.lower
            preSettle := msgdata.preSettle
            preClose := msgdata.preClose
            av1 := msgdata.av1
            bv1 := msgdata.bv1
            openInterest := msgdata.openInterest
            preOpenInterest := msgdata.preOpenInterest } },
      some
        { reset with
          localTimestamp := localTimeNs0
          maxDepth := 1
          instrumentId := msgdata.code
          exchangeId := fbExchangeDce
          updateSec := updateSec extime
          updateMsec := updateMsec extime
          open' := convertPriceIfVolumeZero msgdata.open' msgdata.volume
          close := convertPriceIfVolumeZero msgdata.lastPrice msgdata.volume
          iopv := iopvTagLv1
          upperLimitPrice := msgdata.upper
          downLimitPrice := msgdata.lower
          preSettlement := msgdata.preSettle
          preClose := msgdata.preClose
          preOpenInterest := Float.ofNat msgdata.preOpenInterest.toNat
          highPrice := convertPriceIfVolumeZero msgdata.high msgdata.volume
          lowPrice := convertPriceIfVolumeZero msgdata.low msgdata.volume
          lastPrice := convertPriceIfVolumeZero msgdata.lastPrice msgdata.volume
          volume := msgdata.volume.toInt32
          turnOver := msgdata.turnOver
          openInterest := Float.ofNat msgdata.openInterest.toNat
          askPrice := Function.update reset.askPrice 0 (convertPriceIfVolumeZero msgdata.ap1 msgdata.av1)
          askVolume := Function.update reset.askVolume 0 msgdata.av1.toInt32
          bidPrice := Function.update reset.bidPrice 0 (convertPriceIfVolumeZero msgdata.bp1 msgdata.bv1)
          bidVolume := Function.update reset.bidVolume 0 msgdata.bv1.toInt32 })

/-- mirrors src/gz_dce_udp/src/gz_dce_md.cpp:837-921 -/
def decode366 (mgr : QxMdMgr) (localTimeNs0 : UInt64) (msgdata : DceL2_366) : Outcome :=
  match (find mgr.mQuotaCache.data msgdata.code).bind (valueAt mgr.mQuotaCache.data) with
  | none => some (mgr, none)
  | some cache => (dceTimeStrToUtcS msgdata.extime).map fun extime =>
    (mgr, some
      { localTimestamp := localTimeNs0
        maxDepth := 5
        instrumentId := msgdata.code
        exchangeId := fbExchangeDce
        updateSec := updateSec extime
        updateMsec := updateMsec extime
        open' := convertPriceIfVolumeZero cache.open' cache.volume.toUInt32
        close := convertPriceIfVolumeZero cache.lastPrice cache.volume.toUInt32
        iopv := iopvTagLv2
        upperLimitPrice := cache.upper
        downLimitPrice := cache.lower
        preSettlement := cache.preSettle
        preClose := cache.preClose
        preOpenInterest := Float.ofNat cache.preOpenInterest.toNat
        highPrice := convertPriceIfVolumeZero cache.high cache.volume.toUInt32
        lowPrice := convertPriceIfVolumeZero cache.low cache.volume.toUInt32
        lastPrice := convertPriceIfVolumeZero cache.lastPrice cache.volume.toUInt32
        volume := cache.volume.toUInt32.toInt32
        turnOver := cache.turnOver
        openInterest := Float.ofNat cache.openInterest.toNat
        askPrice := fun i => convertPriceIfVolumeZero (msgdata.ask i).price (msgdata.ask i).qty
        askVolume := fun i => (msgdata.ask i).qty.toInt32
        bidPrice := fun i => convertPriceIfVolumeZero (msgdata.bid i).price (msgdata.bid i).qty
        bidVolume := fun i => (msgdata.bid i).qty.toInt32 })

/-- mirrors src/gz_dce_udp/src/gz_dce_md.cpp:748-921
`buffer` is the decrypted packet, as `L3.DceDecode.decodeMsg` hands it on. -/
def decodeMsg (mgr : QxMdMgr) (localTimeNs0 : UInt64) (buffer : Bytes) : Outcome :=
  if buffer.length = 370 then decode370 reset mgr localTimeNs0 (.ofBytes buffer)
  else if buffer.length = 366 then decode366 mgr localTimeNs0 (.ofBytes buffer)
  else some (mgr, none)

/-! ## Runs -/

inductive Event where
  | load (l : Load)
  | best (localTimeNs0 : UInt64) (contractInfo : MdsContractInfo) (msgdata : MdsBest)
  | deep (localTimeNs0 : UInt64) (contractInfo : MdsContractInfo) (msgdata : MdsDeep)
  | packet (localTimeNs0 : UInt64) (buffer : Bytes)

def handle (mgr : QxMdMgr) : Event → Outcome
  | .load l => some (l.apply mgr, none)
  | .best localTimeNs0 contractInfo msgdata => mdsOnBest reset mgr localTimeNs0 contractInfo msgdata
  | .deep localTimeNs0 contractInfo msgdata => mdsOnDeep mgr localTimeNs0 contractInfo msgdata
  | .packet localTimeNs0 buffer => decodeMsg reset mgr localTimeNs0 buffer

/-- Instruments may be loaded at any time. -/
def machine : Machine QxMdMgr Event where
  init mgr := mgr = .start
  step mgr e := (handle reset mgr e).map Prod.fst

end Handlers

/-! ## The keys of the map -/

def QxMdMgr.keys (mgr : QxMdMgr) : List Nat := mgr.mQuotaCache.data.map Prod.fst

/-- The map holds the keys of the subscribed instruments and no others. -/
def KeysOf (mgr : QxMdMgr) : Prop :=
  ∀ k, k ∈ mgr.keys ↔ ∃ inst ∈ mgr.mSubscribeInsts, charsToUint128 inst = k

theorem mem_emplace {insts : List Bytes} {inst x : Bytes} : x ∈ emplace insts inst ↔ x ∈ insts ∨ x = inst := by
  unfold emplace
  split
  · rename_i h
    exact ⟨Or.inl, fun hx => hx.elim id fun he => he ▸ h⟩
  · simp

theorem mem_foldl_emplace {insts insts' : List Bytes} {x : Bytes} :
    x ∈ insts'.foldl emplace insts ↔ x ∈ insts ∨ x ∈ insts' := by
  induction insts' generalizing insts with
  | nil => simp
  | cons inst insts' ih => rw [List.foldl_cons, ih, mem_emplace, List.mem_cons, or_assoc]

theorem mem_sort_keys {T : Type} {data : List (Nat × T)} {k : Nat} :
    k ∈ (sort data).data.map Prod.fst ↔ k ∈ data.map Prod.fst := by
  simp [sort]

theorem foldl_initOnce_keys {T : Type} (zero : T) (data : List (Nat × T)) (insts : List Bytes) :
    (insts.foldl (initOnce zero) data).map Prod.fst = data.map Prod.fst ++ insts.map charsToUint128 := by
  induction insts generalizing data with
  | nil => simp
  | cons inst insts ih => rw [List.foldl_cons, ih]; simp [initOnce]

theorem mem_keys_loadJsonCfg {mgr : QxMdMgr} {insts : List Bytes} {k : Nat} :
    k ∈ (loadJsonCfg mgr insts).keys ↔
      k ∈ mgr.keys ∨ ∃ inst ∈ (loadJsonCfg mgr insts).mSubscribeInsts, charsToUint128 inst = k := by
  rw [QxMdMgr.keys, loadJsonCfg, mem_sort_keys, foldl_initOnce_keys, List.mem_append]
  exact or_congr_right List.mem_map

theorem mem_keys_subscribeInst {mgr : QxMdMgr} {inst : Bytes} {k : Nat} (h : inst ∉ mgr.mSubscribeInsts) :
    k ∈ (subscribeInst mgr inst).keys ↔ k ∈ mgr.keys ∨ charsToUint128 inst = k := by
  rw [subscribeInst, if_neg h, QxMdMgr.keys, mem_sort_keys, initOnce, List.map_append, List.mem_append]
  simp [QxMdMgr.keys, eq_comm]

theorem load_keysOf {mgr : QxMdMgr} (l : Load) (h : KeysOf mgr) : KeysOf (l.apply mgr) := by
  intro k
  cases l with
  | loadJsonCfg insts =>
    rw [Load.apply, mem_keys_loadJsonCfg]
    constructor
    · rintro (hk | hk)
      · obtain ⟨c, hc, he⟩ := (h k).mp hk
        exact ⟨c, mem_foldl_emplace.mpr (.inl hc), he⟩
      · exact hk
    · exact Or.inr
  | subscribeInst inst =>
    by_cases hin : inst ∈ mgr.mSubscribeInsts
    · rw [Load.apply, subscribeInst, if_pos hin]
      exact h k
    · have hsub : (subscribeInst mgr inst).mSubscribeInsts = emplace mgr.mSubscribeInsts inst := by
        rw [subscribeInst, if_neg hin]
      rw [Load.apply, mem_keys_subscribeInst hin, h k, hsub]
      constructor
      · rintro (⟨c, hc, he⟩ | he)
        · exact ⟨c, mem_emplace.mpr (.inl hc), he⟩
        · exact ⟨inst, mem_emplace.mpr (.inr rfl), he⟩
      · intro ⟨c, hc, he⟩
        rcases mem_emplace.mp hc with hc | rfl
        · exact .inl ⟨c, hc, he⟩
        · exact .inr he

/-- A message changes neither the instruments nor the keys. -/
structure SameKeys (mgr mgr' : QxMdMgr) : Prop where
  insts : mgr'.mSubscribeInsts = mgr.mSubscribeInsts
  keys : mgr'.keys = mgr.keys

theorem SameKeys.refl (mgr : QxMdMgr) : SameKeys mgr mgr := ⟨rfl, rfl⟩

theorem SameKeys.modify (mgr : QxMdMgr) (i : Nat) (f : QuotaInfo → QuotaInfo) :
    SameKeys mgr { mgr with mQuotaCache := mgr.mQuotaCache.modify i f } :=
  ⟨rfl, modify_keys _ i f⟩

theorem SameKeys.keysOf {mgr mgr' : QxMdMgr} (h : SameKeys mgr mgr') (hk : KeysOf mgr) : KeysOf mgr' := by
  intro k
  rw [h.insts, h.keys]
  exact hk k

/-- Every handler that finds its entry ends with a record, once the time is known. -/
theorem SameKeys.of_map {mgr mgr1 mgr' : QxMdMgr} {extime : Option UInt64} {record : UInt64 → MarketData}
    {fbMd : Option MarketData} (hsame : SameKeys mgr mgr1)
    (h : (extime.map fun t => (mgr1, some (record t))) = some (mgr', fbMd)) : SameKeys mgr mgr' := by
  obtain ⟨t, -, he⟩ := Option.map_eq_some_iff.mp h
  cases he
  exact hsame

/-- A contract is found if and only if a subscribed one has its key. -/
theorem KeysOf.find_iff {mgr : QxMdMgr} (h : KeysOf mgr) (code : Bytes) :
    (∃ i, find mgr.mQuotaCache.data code = some i) ↔
      ∃ inst ∈ mgr.mSubscribeInsts, charsToUint128 inst = charsToUint128 code := by
  rw [find_isSome_iff]
  exact h _

section Paths

variable {reset : MarketData}

theorem decode370_sameKeys {mgr mgr' : QxMdMgr} {localTimeNs0 : UInt64} {msgdata : DceL2_370}
    {fbMd : Option MarketData} (h : decode370 reset mgr localTimeNs0 msgdata = some (mgr', fbMd)) :
    SameKeys mgr mgr' := by
  unfold decode370 at h
  split at h
  · cases h
    exact .refl mgr
  · exact (SameKeys.modify mgr _ _).of_map h

theorem decode366_sameKeys {mgr mgr' : QxMdMgr} {localTimeNs0 : UInt64} {msgdata : DceL2_366}
    {fbMd : Option MarketData} (h : decode366 mgr localTimeNs0 msgdata = some (mgr', fbMd)) :
    SameKeys mgr mgr' := by
  unfold decode366 at h
  split at h
  · cases h
    exact .refl mgr
  · exact (SameKeys.refl mgr).of_map h

/-- What a message leaves has the instruments and the keys it found. -/
theorem decodeMsg_sameKeys {mgr mgr' : QxMdMgr} {localTimeNs0 : UInt64} {buffer : Bytes}
    {fbMd : Option MarketData} (h : decodeMsg reset mgr localTimeNs0 buffer = some (mgr', fbMd)) :
    SameKeys mgr mgr' := by
  unfold decodeMsg at h
  split at h
  · exact decode370_sameKeys h
  · split at h
    · exact decode366_sameKeys h
    · cases h
      exact .refl mgr

theorem mdsOnBest_sameKeys {mgr mgr' : QxMdMgr} {localTimeNs0 : UInt64} {contractInfo : MdsContractInfo}
    {msgdata : MdsBest} {fbMd : Option MarketData}
    (h : mdsOnBest reset mgr localTimeNs0 contractInfo msgdata = some (mgr', fbMd)) : SameKeys mgr mgr' := by
  unfold mdsOnBest at h
  split at h
  · split at h
    · cases h
      exact .refl mgr
    · exact (SameKeys.modify mgr _ _).of_map h
  · cases h
    exact .refl mgr

theorem mdsOnDeep_sameKeys {mgr mgr' : QxMdMgr} {localTimeNs0 : UInt64} {contractInfo : MdsContractInfo}
    {msgdata : MdsDeep} {fbMd : Option MarketData}
    (h : mdsOnDeep mgr localTimeNs0 contractInfo msgdata = some (mgr', fbMd)) : SameKeys mgr mgr' := by
  unfold mdsOnDeep at h
  split at h
  · split at h
    · cases h
      exact .refl mgr
    · exact (SameKeys.refl mgr).of_map h
  · cases h
    exact .refl mgr

/-- In every state the map holds the keys of the subscribed instruments. -/
theorem keysOf_inductive : (machine reset).Inductive KeysOf where
  init := by
    intro mgr hs k
    rw [show mgr = QxMdMgr.start from hs]
    simp [QxMdMgr.start, QxMdMgr.keys]
  step := by
    intro mgr e mgr' hk hs
    obtain ⟨⟨mgr'', fbMd⟩, hh, rfl⟩ := Option.map_eq_some_iff.mp hs
    cases e with
    | load l =>
      cases hh
      exact load_keysOf l hk
    | best localTimeNs0 contractInfo msgdata => exact (mdsOnBest_sameKeys hh).keysOf hk
    | deep localTimeNs0 contractInfo msgdata => exact (mdsOnDeep_sameKeys hh).keysOf hk
    | packet localTimeNs0 buffer => exact (decodeMsg_sameKeys hh).keysOf hk

/-! ## Where the paths differ -/

/-- The contract is subscribed, or none that is has its key. -/
def OwnKey (mgr : QxMdMgr) (code : Bytes) : Prop :=
  code ∈ mgr.mSubscribeInsts ∨ ∀ inst ∈ mgr.mSubscribeInsts, charsToUint128 inst ≠ charsToUint128 code

/-- A contract that is not subscribed and is found all the same. -/
theorem KeysOf.found {mgr : QxMdMgr} (hk : KeysOf mgr) {code : Bytes} (h : ¬ OwnKey mgr code) :
    code ∉ mgr.mSubscribeInsts ∧ ∃ i, find mgr.mQuotaCache.data code = some i := by
  unfold OwnKey at h
  push Not at h
  exact ⟨h.1, (hk.find_iff code).mpr h.2⟩

/-- Without a subscribed contract of its key, a contract is not found. -/
theorem KeysOf.not_found {mgr : QxMdMgr} (hk : KeysOf mgr) {code : Bytes}
    (h : ∀ inst ∈ mgr.mSubscribeInsts, charsToUint128 inst ≠ charsToUint128 code) :
    find mgr.mQuotaCache.data code = none := by
  rw [Option.eq_none_iff_forall_ne_some]
  intro i hi
  obtain ⟨inst, hin, he⟩ := (hk.find_iff code).mp ⟨i, hi⟩
  exact h inst hin he

/-- Nothing published is not a record published. -/
theorem ne_map_published {mgr : QxMdMgr} {extime : Option UInt64} {f : UInt64 → QxMdMgr}
    {g : UInt64 → MarketData} : some (mgr, none) ≠ extime.map fun t => (f t, some (g t)) := by
  cases extime with
  | none => exact nofun
  | some t => exact fun h => nomatch (Prod.mk.inj (Option.some.inj h)).2

/-- A callback that tests the name, and a path that only looks the key up: on a contract
that is subscribed they are the same. -/
theorem KeysOf.same_iff {mgr : QxMdMgr} (hk : KeysOf mgr) {code : Bytes} {callback path : Outcome}
    (hin : code ∈ mgr.mSubscribeInsts → callback = path)
    (hout : code ∉ mgr.mSubscribeInsts → callback = some (mgr, none))
    (hfound : ∀ i, find mgr.mQuotaCache.data code = some i → path ≠ some (mgr, none))
    (hmissing : find mgr.mQuotaCache.data code = none → path = some (mgr, none)) :
    callback = path ↔ OwnKey mgr code := by
  constructor
  · intro h
    by_contra hown
    obtain ⟨hnot, i, hi⟩ := hk.found hown
    exact hfound i hi (h.symm.trans (hout hnot))
  · rintro (hsub | hkey)
    · exact hin hsub
    · by_cases hsub : code ∈ mgr.mSubscribeInsts
      · exact hin hsub
      · rw [hout hsub, hmissing (hk.not_found hkey)]

theorem best_same_iff {mgr : QxMdMgr} (hk : KeysOf mgr) (localTimeNs0 : UInt64) (msgdata : DceL2_370) :
    mdsOnBest reset mgr localTimeNs0 msgdata.contractInfo msgdata.best =
      decode370 reset mgr localTimeNs0 msgdata ↔ OwnKey mgr msgdata.code := by
  refine hk.same_iff (fun h => if_pos h) (fun h => if_neg h) (fun i hi => ?_) fun hnone => ?_
  · rw [decode370, hi]
    exact ne_map_published.symm
  · rw [decode370, hnone]

theorem deep_same_iff {mgr : QxMdMgr} (hk : KeysOf mgr) (localTimeNs0 : UInt64) (msgdata : DceL2_366) :
    mdsOnDeep mgr localTimeNs0 msgdata.contractInfo msgdata.deep = decode366 mgr localTimeNs0 msgdata ↔
      OwnKey mgr msgdata.code := by
  refine hk.same_iff (fun h => if_pos h) (fun h => if_neg h) (fun i hi => ?_) fun hnone => ?_
  · obtain ⟨cache, hc⟩ := valueAt_isSome hi
    rw [decode366, hi, Option.bind_some, hc]
    exact ne_map_published.symm
  · rw [decode366, hnone]
    rfl

/-- **Exact condition.** In every state that is reached, the callbacks and `DecodeMsg`
publish the same of a message, and leave the same behind, if and only if its contract
has a key of its own. -/
theorem same_paths_iff {mgr : QxMdMgr} (h : (machine reset).Reachable mgr) (localTimeNs0 : UInt64)
    (best : DceL2_370) (depth : DceL2_366) :
    (mdsOnBest reset mgr localTimeNs0 best.contractInfo best.best = decode370 reset mgr localTimeNs0 best ↔
      OwnKey mgr best.code) ∧
    (mdsOnDeep mgr localTimeNs0 depth.contractInfo depth.deep = decode366 mgr localTimeNs0 depth ↔
      OwnKey mgr depth.code) :=
  have hk := keysOf_inductive.reachable h
  ⟨best_same_iff hk localTimeNs0 best, deep_same_iff hk localTimeNs0 depth⟩

end Paths

/-- `eb2605-MS-C-1200`, and the strike of ten times as much, whose name is that with one
more character. -/
def strike1200 : Bytes :=
  [0x65, 0x62, 0x32, 0x36, 0x30, 0x35, 0x2d, 0x4d, 0x53, 0x2d, 0x43, 0x2d, 0x31, 0x32, 0x30, 0x30]
def strike12000 : Bytes := strike1200 ++ [0x30]

/-- A best quote of 09:00:00.000. -/
def sampleBest (code : Bytes) : DceL2_370 :=
  ⟨code, [0x30, 0x39, 0x3a, 0x30, 0x30, 0x3a, 0x30, 0x30, 0x2e, 0x30, 0x30, 0x30], 0, 0, 0, 0, 0, 0, 0, 0, 0,
    0, 0, 0, 0, 0, 0, 0⟩

/-- The receiver once the smaller strike is subscribed. -/
def subscribed1200 : QxMdMgr := subscribeInst .start strike1200

theorem subscribed1200_reachable : (machine .zero).Reachable subscribed1200 :=
  ⟨.start, [.load (.subscribeInst strike1200)], rfl, rfl⟩

/-- The subscribed strike: both paths do the same. -/
theorem same_paths_iff_subscribed :
    mdsOnBest .zero subscribed1200 0 (sampleBest strike1200).contractInfo (sampleBest strike1200).best =
      decode370 .zero subscribed1200 0 (sampleBest strike1200) :=
  (same_paths_iff subscribed1200_reachable 0 (sampleBest strike1200) ⟨[], [], fun _ => ⟨0, 0⟩, fun _ => ⟨0, 0⟩⟩).1.mpr
    (.inl List.mem_cons_self)

/-- **Counterexample.** The other strike is published by `DecodeMsg` alone. -/
theorem strike12000_by_decodeMsg_only :
    mdsOnBest .zero subscribed1200 0 (sampleBest strike12000).contractInfo (sampleBest strike12000).best =
        some (subscribed1200, none) ∧
      ∃ mgr fbMd, decode370 .zero subscribed1200 0 (sampleBest strike12000) = some (mgr, some fbMd) := by
  have hin : strike12000 ∉ subscribed1200.mSubscribeInsts := by decide
  have hk := keysOf_inductive.reachable subscribed1200_reachable
  have hfound : ∃ i, find subscribed1200.mQuotaCache.data strike12000 = some i :=
    (hk.find_iff strike12000).mpr ⟨strike1200, List.mem_cons_self, by decide⟩
  obtain ⟨i, hi⟩ := hfound
  have htime : dceTimeStrToUtcS (sampleBest strike12000).extime = some 32400000 := by decide +kernel
  refine ⟨if_neg hin, ?_⟩
  rw [decode370, show (sampleBest strike12000).code = strike12000 from rfl, hi, htime]
  exact ⟨_, _, rfl⟩

end MdInfoSet.L4.DceReceiver
