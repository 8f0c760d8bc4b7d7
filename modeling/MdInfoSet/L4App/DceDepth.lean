import MdInfoSet.L4App.DceReceiver

/-!
# The DCE depth join

A 366-byte depth message carries the book alone. `DecodeMsg` publishes it with the
prices, volumes and limits the last 370-byte best quote of the contract left in its
`QuotaInfo` entry (src/gz_dce_udp/src/gz_dce_md.cpp:812-830, 846-873).

**Latest best quote** (`depth_join`). In every run over contracts whose keys differ, a
depth record carries the values of the most recent best quote of its own contract, or
those of the zero entry. Beyond a volume of 0, `convertPriceIfVolumeZero` also takes a
price that is not a number between the lowest and the highest for none
(`infinite_open_not_carried`).
-/
namespace MdInfoSet.L4.DceDepth

open MdInfoSet.L1.DceL2 MdInfoSet.L2.InstMap MdInfoSet.L4.DceReceiver MdInfoSet.L4.Publish

/-! ## The values joined -/

/-- What a depth record takes from the entry. -/
structure BestValues where
  open' : Float
  high : Float
  low : Float
  lastPrice : Float
  volume : UInt32
  turnOver : Float
  openInterest : UInt32
  upper : Float
  lower : Float
  preSettle : Float
  preClose : Float
  preOpenInterest : UInt32

def BestValues.zero : BestValues := ⟨0, 0, 0, 0, 0, 0, 0, 0, 0, 0, 0, 0⟩

/-- The values of an entry. -/
def entryValues (cache : QuotaInfo) : BestValues where
  open' := cache.open'
  high := cache.high
  low := cache.low
  lastPrice := cache.lastPrice
  volume := cache.volume.toUInt32
  turnOver := cache.turnOver
  openInterest := cache.openInterest
  upper := cache.upper
  lower := cache.lower
  preSettle := cache.preSettle
  preClose := cache.preClose
  preOpenInterest := cache.preOpenInterest

/-- The values of a best quote. -/
def bestValues (msgdata : DceL2_370) : BestValues where
  open' := msgdata.open'
  high := msgdata.high
  low := msgdata.low
  lastPrice := msgdata.lastPrice
  volume := msgdata.volume
  turnOver := msgdata.turnOver
  openInterest := msgdata.openInterest
  upper := msgdata.upper
  lower := msgdata.lower
  preSettle := msgdata.preSettle
  preClose := msgdata.preClose
  preOpenInterest := msgdata.preOpenInterest

/-- The record carries the values: the four prices of the day as
`convertPriceIfVolumeZero` publishes them, the others as they are. -/
structure Carries (v : BestValues) (fbMd : MarketData) : Prop where
  open' : fbMd.open' = convertPriceIfVolumeZero v.open' v.volume
  high : fbMd.highPrice = convertPriceIfVolumeZero v.high v.volume
  low : fbMd.lowPrice = convertPriceIfVolumeZero v.low v.volume
  lastPrice : fbMd.lastPrice = convertPriceIfVolumeZero v.lastPrice v.volume
  volume : fbMd.volume = v.volume.toInt32
  turnOver : fbMd.turnOver = v.turnOver
  openInterest : fbMd.openInterest = Float.ofNat v.openInterest.toNat
  upper : fbMd.upperLimitPrice = v.upper
  lower : fbMd.downLimitPrice = v.lower
  preSettle : fbMd.preSettlement = v.preSettle
  preClose : fbMd.preClose = v.preClose
  preOpenInterest : fbMd.preOpenInterest = Float.ofNat v.preOpenInterest.toNat

/-! ## Runs of decrypted packets -/

/-- A decrypted packet, and the clock while it is handled. -/
structure Packet where
  localTimeNs0 : UInt64
  buffer : Bytes

/-- The contract of a packet; the field stands in the same place in both kinds. -/
def Packet.code (p : Packet) : Bytes := cString p.buffer 38

/-- The receiver after the packets `ps`, if each is defined. -/
def run (reset : MarketData) : QxMdMgr → List Packet → Option QxMdMgr
  | mgr, [] => some mgr
  | mgr, p :: ps => (decodeMsg reset mgr p.localTimeNs0 p.buffer).bind fun r => run reset r.1 ps

/-- The packets that are best quotes of a contract. -/
def IsBestOf (code : Bytes) (p : Packet) : Prop := p.buffer.length = 370 ∧ p.code = code

instance (code : Bytes) (p : Packet) : Decidable (IsBestOf code p) := by unfold IsBestOf; infer_instance

/-- The last best quote of a contract. -/
def lastBest (code : Bytes) (ps : List Packet) : Option DceL2_370 :=
  (ps.filter (IsBestOf code ·)).getLast?.map fun p => .ofBytes p.buffer

/-- The values a depth record of the contract is to carry. -/
def latest (code : Bytes) (ps : List Packet) : BestValues := (lastBest code ps).elim .zero bestValues

theorem latest_append_best {code : Bytes} {p : Packet} (h : IsBestOf code p) (ps : List Packet) :
    latest code (ps ++ [p]) = bestValues (.ofBytes p.buffer) := by
  simp [latest, lastBest, h]

theorem latest_append_other {code : Bytes} {p : Packet} (h : ¬ IsBestOf code p) (ps : List Packet) :
    latest code (ps ++ [p]) = latest code ps := by
  simp [latest, lastBest, h]

/-- The entry of every subscribed contract holds the values of its last best quote. -/
def Inv (mgr : QxMdMgr) (seen : List Packet) : Prop :=
  ∀ code ∈ mgr.mSubscribeInsts, ∀ i, find mgr.mQuotaCache.data code = some i →
    (valueAt mgr.mQuotaCache.data i).map entryValues = some (latest code seen)

/-- A subscribed contract with the key of that of `p` is that of `p`. -/
def KeyApart (insts : List Bytes) (p : Packet) : Prop :=
  ∀ inst ∈ insts, charsToUint128 inst = charsToUint128 p.code → inst = p.code

section Steps

variable {reset : MarketData} {mgr mgr' : QxMdMgr} {localTimeNs0 : UInt64}

/-- A best quote that is found is written to the entry, and no other one is touched. -/
theorem decode370_spec {msgdata : DceL2_370} {fbMd : Option MarketData}
    (h : decode370 reset mgr localTimeNs0 msgdata = some (mgr', fbMd)) :
    (find mgr.mQuotaCache.data msgdata.code = none ∧ mgr' = mgr) ∨
      ∃ j f, find mgr.mQuotaCache.data msgdata.code = some j ∧ (∀ q, entryValues (f q) = bestValues msgdata) ∧
        mgr' = { mgr with mQuotaCache := mgr.mQuotaCache.modify j f } := by
  unfold decode370 at h
  cases hf : find mgr.mQuotaCache.data msgdata.code with
  | none =>
    rw [hf] at h
    cases h
    exact .inl ⟨rfl, rfl⟩
  | some j =>
    rw [hf] at h
    obtain ⟨extime, -, he⟩ := Option.map_eq_some_iff.mp h
    cases he
    refine .inr ⟨j, _, rfl, fun q => ?_, rfl⟩
    simp [entryValues, bestValues]

/-- A depth record carries the values of the entry, which stays as it is. -/
theorem decode366_spec {msgdata : DceL2_366} {fbMd : Option MarketData}
    (h : decode366 mgr localTimeNs0 msgdata = some (mgr', fbMd)) :
    mgr' = mgr ∧ ∀ record, fbMd = some record → ∃ i cache, find mgr.mQuotaCache.data msgdata.code = some i ∧
      valueAt mgr.mQuotaCache.data i = some cache ∧ Carries (entryValues cache) record := by
  unfold decode366 at h
  cases hf : (find mgr.mQuotaCache.data msgdata.code).bind (valueAt mgr.mQuotaCache.data) with
  | none =>
    rw [hf] at h
    cases h
    exact ⟨rfl, nofun⟩
  | some cache =>
    rw [hf] at h
    obtain ⟨extime, -, he⟩ := Option.map_eq_some_iff.mp h
    obtain ⟨i, hi, hc⟩ := Option.bind_eq_some_iff.mp hf
    cases he
    refine ⟨rfl, fun record hrec => ⟨i, cache, hi, hc, ?_⟩⟩
    cases hrec
    exact ⟨rfl, rfl, rfl, rfl, rfl, rfl, rfl, rfl, rfl, rfl, rfl, rfl⟩

/-- One packet. -/
theorem decodeMsg_inv {p : Packet} {seen : List Packet} {fbMd : Option MarketData} (hinv : Inv mgr seen)
    (hp : KeyApart mgr.mSubscribeInsts p)
    (h : decodeMsg reset mgr p.localTimeNs0 p.buffer = some (mgr', fbMd)) : Inv mgr' (seen ++ [p]) := by
  have hsame : mgr' = mgr → (∀ code, (∃ i, find mgr.mQuotaCache.data code = some i) → ¬ IsBestOf code p) →
      Inv mgr' (seen ++ [p]) := by
    rintro rfl hnot code hin i hi
    rw [latest_append_other (hnot code ⟨i, hi⟩)]
    exact hinv code hin i hi
  unfold decodeMsg at h
  split at h
  · rename_i hlen
    rcases decode370_spec h with ⟨hnone, rfl⟩ | ⟨j, f, hj, hf, rfl⟩
    · -- a best quote that is not found is of no contract with an entry
      refine hsame rfl fun code ⟨i, hi⟩ hbest => ?_
      rw [show (DceL2_370.ofBytes p.buffer).code = p.code from rfl, hbest.2, hi] at hnone
      cases hnone
    · intro code hin i hi
      rw [show (QxMdMgr.mQuotaCache { mgr with mQuotaCache := mgr.mQuotaCache.modify j f }).data =
        modify mgr.mQuotaCache.data j f from rfl, find_modify] at hi
      change (valueAt (modify mgr.mQuotaCache.data j f) i).map entryValues = _
      by_cases hij : j = i
      · subst hij
        have hcode : code = p.code := hp code hin (find_inj hi hj)
        obtain ⟨v, hv⟩ := valueAt_isSome hi
        rw [latest_append_best ⟨hlen, hcode.symm⟩, valueAt_modify_self, hv, Option.map_some, Option.map_some, hf]
      · have hne : p.code ≠ code := fun he => by
          rw [show (DceL2_370.ofBytes p.buffer).code = p.code from rfl, he, hi] at hj
          exact hij (Option.some.inj hj).symm
        rw [latest_append_other fun hb => hne hb.2, valueAt_modify_ne f hij]
        exact hinv code hin i hi
  · rename_i hlen
    split at h
    · exact hsame (decode366_spec h).1 fun code _ hb => hlen hb.1
    · cases h
      exact hsame rfl fun code _ hb => hlen hb.1

end Steps

/-! ## From loading on -/

/-- Loading leaves every entry zeroed. -/
def AllZero (mgr : QxMdMgr) : Prop := ∀ kv ∈ mgr.mQuotaCache.data, kv.2 = QuotaInfo.zero

theorem foldl_initOnce_zero {data : List (Nat × QuotaInfo)} {insts : List Bytes}
    (h : ∀ kv ∈ data, kv.2 = QuotaInfo.zero) :
    ∀ kv ∈ insts.foldl (initOnce .zero) data, kv.2 = QuotaInfo.zero := by
  induction insts generalizing data with
  | nil => exact h
  | cons inst insts ih =>
    refine ih fun kv hkv => ?_
    rcases List.mem_append.mp hkv with hkv | hkv
    · exact h kv hkv
    · rw [List.mem_singleton.mp hkv]

theorem load_allZero {mgr : QxMdMgr} (l : Load) (h : AllZero mgr) : AllZero (l.apply mgr) := by
  intro kv hkv
  cases l with
  | loadJsonCfg insts => exact foldl_initOnce_zero h kv (List.mem_mergeSort.mp hkv)
  | subscribeInst inst =>
    rw [Load.apply, subscribeInst] at hkv
    split at hkv
    · exact h kv hkv
    · exact @foldl_initOnce_zero _ [inst] h kv (List.mem_mergeSort.mp hkv)

theorem loaded_ok (loads : List Load) : AllZero (loaded loads) ∧ KeysOf (loaded loads) := by
  have hfold : ∀ mgr, AllZero mgr ∧ KeysOf mgr →
      AllZero (loads.foldl Load.apply mgr) ∧ KeysOf (loads.foldl Load.apply mgr) := by
    induction loads with
    | nil => exact fun _ h => h
    | cons l loads ih => exact fun mgr h => ih _ ⟨load_allZero l h.1, load_keysOf l h.2⟩
  refine hfold .start ⟨nofun, fun k => ?_⟩
  simp [QxMdMgr.start, QxMdMgr.keys]

theorem loaded_inv (loads : List Load) : Inv (loaded loads) [] := by
  intro code _ i hi
  obtain ⟨v, hv⟩ := valueAt_isSome hi
  obtain ⟨kv, hkv, rfl⟩ := Option.map_eq_some_iff.mp hv
  rw [hv, (loaded_ok loads).1 kv (List.mem_of_getElem? hkv)]
  rfl

/-- The entries over a run, which changes neither instruments nor keys. -/
theorem run_inv {reset : MarketData} {mgr mgr' : QxMdMgr} {seen ps : List Packet} (hinv : Inv mgr seen)
    (hps : ∀ p ∈ ps, KeyApart mgr.mSubscribeInsts p) (hr : run reset mgr ps = some mgr') :
    Inv mgr' (seen ++ ps) ∧ SameKeys mgr mgr' := by
  induction ps generalizing mgr seen with
  | nil =>
    cases hr
    rw [List.append_nil]
    exact ⟨hinv, .refl _⟩
  | cons p ps ih =>
    obtain ⟨⟨mgr1, fbMd⟩, h1, h2⟩ := Option.bind_eq_some_iff.mp hr
    have hsame := decodeMsg_sameKeys h1
    have hinv1 := decodeMsg_inv hinv (hps p List.mem_cons_self) h1
    have hps1 : ∀ q ∈ ps, KeyApart mgr1.mSubscribeInsts q := by
      rw [hsame.insts]
      exact fun q hq => hps q (List.mem_cons_of_mem _ hq)
    obtain ⟨hinv2, hsame2⟩ := ih hinv1 hps1 h2
    rw [List.append_assoc] at hinv2
    exact ⟨hinv2, hsame2.insts.trans hsame.insts, hsame2.keys.trans hsame.keys⟩

/-- What a depth record carries in a state with the invariant. -/
theorem depth_carries {reset : MarketData} {mgr mgr' : QxMdMgr} {seen : List Packet} {p : Packet}
    {fbMd : MarketData} (hinv : Inv mgr seen) (hk : KeysOf mgr) (hp : KeyApart mgr.mSubscribeInsts p)
    (hlen : p.buffer.length = 366)
    (hd : decodeMsg reset mgr p.localTimeNs0 p.buffer = some (mgr', some fbMd)) :
    Carries (latest p.code seen) fbMd := by
  rw [decodeMsg, if_neg (by omega), if_pos hlen] at hd
  obtain ⟨i, cache, hi, hc, hcarries⟩ := (decode366_spec hd).2 fbMd rfl
  have hi' : find mgr.mQuotaCache.data p.code = some i := hi
  obtain ⟨inst, hin, hkey⟩ := (hk.find_iff p.code).mp ⟨i, hi'⟩
  have hcode : p.code ∈ mgr.mSubscribeInsts := hp inst hin hkey ▸ hin
  have hval := hinv p.code hcode i hi'
  rw [hc, Option.map_some, Option.some.injEq] at hval
  rwa [← hval]

/-- **Latest best quote.** In every run from a freshly loaded receiver. -/
theorem depth_join {reset : MarketData} {loads : List Load} {ps : List Packet} {p : Packet}
    {mgr mgr' : QxMdMgr} {fbMd : MarketData}
    (hkeys : ∀ q ∈ ps ++ [p], KeyApart (loaded loads).mSubscribeInsts q)
    (hr : run reset (loaded loads) ps = some mgr) (hlen : p.buffer.length = 366)
    (hd : decodeMsg reset mgr p.localTimeNs0 p.buffer = some (mgr', some fbMd)) :
    Carries (latest p.code ps) fbMd := by
  obtain ⟨hinv, hsame⟩ := run_inv (loaded_inv loads) (fun q hq => hkeys q (List.mem_append_left _ hq)) hr
  refine depth_carries hinv (hsame.keysOf (loaded_ok loads).2) ?_ hlen hd
  rw [hsame.insts]
  exact hkeys p (List.mem_append_right _ List.mem_cons_self)

/-! ## Two contracts -/

/-- `09:00:00.000` -/
def nineOClock : Bytes := [0x30, 0x39, 0x3a, 0x30, 0x30, 0x3a, 0x30, 0x30, 0x2e, 0x30, 0x30, 0x30]

example : dceTimeStrToUtcS nineOClock = some 32400000 := by decide +kernel

/-- The put of the strike. -/
def put1200 : Bytes := [0x65, 0x62, 0x32, 0x36, 0x30, 0x35, 0x2d, 0x4d, 0x53, 0x2d, 0x50, 0x2d, 0x31, 0x32, 0x30, 0x30]

/-- The fields of a packet up to the time, which both kinds share. -/
def packetHead (code : Bytes) : Bytes := List.replicate 38 0 ++ code ++ List.replicate 127 0 ++ nineOClock

/-- A best quote with a volume of 1 and the given bytes of the opening price. -/
def bestPacket (code open8 : Bytes) : Packet :=
  ⟨0, packetHead code ++ List.replicate 41 0 ++ [1, 0, 0, 0] ++ List.replicate 116 0 ++ open8 ++ List.replicate 8 0⟩

def depthPacket (code : Bytes) : Packet := ⟨0, packetHead code ++ List.replicate 173 0⟩

/-- The receiver with both subscribed. -/
def callAndPut : QxMdMgr := loaded [.subscribeInst strike1200, .subscribeInst put1200]

/-- A packet of a subscribed contract with a time. -/
structure Sample (insts : List Bytes) (p : Packet) : Prop where
  code : p.code ∈ insts
  extime : cString p.buffer 181 = nineOClock
  length : p.buffer.length = 370 ∨ p.buffer.length = 366

/-- It is found and published. -/
theorem sample_published {mgr : QxMdMgr} {p : Packet} (hk : KeysOf mgr) (h : Sample mgr.mSubscribeInsts p) :
    ∃ mgr' fbMd, decodeMsg .zero mgr p.localTimeNs0 p.buffer = some (mgr', some fbMd) := by
  obtain ⟨i, hi⟩ := (hk.find_iff p.code).mpr ⟨p.code, h.code, rfl⟩
  obtain ⟨cache, hc⟩ := valueAt_isSome hi
  have ht : dceTimeStrToUtcS nineOClock = some 32400000 := by decide +kernel
  rcases h.length with hlen | hlen
  · rw [decodeMsg, if_pos hlen, decode370, show (DceL2_370.ofBytes p.buffer).code = p.code from rfl, hi,
      show (DceL2_370.ofBytes p.buffer).extime = nineOClock from h.extime, ht]
    exact ⟨_, _, rfl⟩
  · rw [decodeMsg, if_neg (by omega), if_pos hlen, decode366,
      show (DceL2_366.ofBytes p.buffer).code = p.code from rfl, hi, Option.bind_some, hc,
      show (DceL2_366.ofBytes p.buffer).extime = nineOClock from h.extime, ht]
    exact ⟨_, _, rfl⟩

/-- Any number of them. -/
theorem sample_run {mgr : QxMdMgr} (hk : KeysOf mgr) {ps : List Packet} (h : ∀ q ∈ ps, Sample mgr.mSubscribeInsts q) :
    ∃ mgr', run .zero mgr ps = some mgr' ∧ KeysOf mgr' ∧ mgr'.mSubscribeInsts = mgr.mSubscribeInsts := by
  induction ps generalizing mgr with
  | nil => exact ⟨mgr, rfl, hk, rfl⟩
  | cons q ps ih =>
    obtain ⟨hq, hps⟩ := List.forall_mem_cons.mp h
    obtain ⟨mgr1, _, hdecode⟩ := sample_published hk hq
    have hsame := decodeMsg_sameKeys hdecode
    obtain ⟨mgr', hrun, hk', hinsts⟩ := ih (hsame.keysOf hk) (hsame.insts ▸ hps)
    exact ⟨mgr', by rw [run, hdecode, Option.bind_some, hrun], hk', hinsts.trans hsame.insts⟩

/-- Best quotes, then a depth message of the call. -/
theorem sample_join {ps : List Packet} (h : ∀ q ∈ ps, Sample callAndPut.mSubscribeInsts q) :
    ∃ mgr mgr' fbMd, run .zero callAndPut ps = some mgr ∧
      decodeMsg .zero mgr (depthPacket strike1200).localTimeNs0 (depthPacket strike1200).buffer =
        some (mgr', some fbMd) := by
  obtain ⟨mgr, hrun, hk, hinsts⟩ := sample_run (loaded_ok _).2 h
  have hdepth : Sample mgr.mSubscribeInsts (depthPacket strike1200) :=
    ⟨hinsts ▸ List.mem_cons_self, by decide +kernel, by decide +kernel⟩
  obtain ⟨mgr', fbMd, hdecode⟩ := sample_published hk hdepth
  exact ⟨mgr, mgr', fbMd, hrun, hdecode⟩

/-- The two have different keys. -/
theorem sample_keyApart {p : Packet} (h : p.code = strike1200 ∨ p.code = put1200) :
    KeyApart callAndPut.mSubscribeInsts p := by
  intro inst hin hkey
  have hne : charsToUint128 strike1200 ≠ charsToUint128 put1200 := by decide
  have hin' : inst = strike1200 ∨ inst = put1200 := List.mem_pair.mp hin
  rcases h with h | h <;> rcases hin' with rfl | rfl
  · exact h.symm
  · exact absurd (h ▸ hkey).symm hne
  · exact absurd (h ▸ hkey) hne
  · exact h.symm

/-- The opening prices 10.0 and 12.0 of the call, and 14.0 of the put between its depth message and
that of the call. -/
def interleaved : List Packet :=
  [bestPacket strike1200 [0, 0, 0, 0, 0, 0, 0x24, 0x40], bestPacket strike1200 [0, 0, 0, 0, 0, 0, 0x28, 0x40],
    depthPacket put1200, bestPacket put1200 [0, 0, 0, 0, 0, 0, 0x2c, 0x40]]

theorem depth_join_sample : ∃ mgr mgr' fbMd, run .zero callAndPut interleaved = some mgr ∧
    decodeMsg .zero mgr (depthPacket strike1200).localTimeNs0 (depthPacket strike1200).buffer =
      some (mgr', some fbMd) ∧
    Carries (latest (depthPacket strike1200).code interleaved) fbMd ∧ fbMd.open' = 12 := by
  have hcodes : ∀ q ∈ interleaved ++ [depthPacket strike1200], q.code = strike1200 ∨ q.code = put1200 := by
    decide +kernel
  have hsample : ∀ q ∈ interleaved, Sample callAndPut.mSubscribeInsts q := by
    intro q hq
    refine ⟨List.mem_pair.mpr (hcodes q (List.mem_append_left _ hq)), ?_, ?_⟩
    · revert q
      decide +kernel
    · revert q
      decide +kernel
  obtain ⟨mgr, mgr', fbMd, hr, hd⟩ := sample_join hsample
  have hcarries := depth_join (fun q hq => sample_keyApart (hcodes q hq)) hr (by decide +kernel) hd
  refine ⟨mgr, mgr', fbMd, hr, hd, hcarries, ?_⟩
  rw [hcarries.open']
  decide +kernel

/-- **Counterexample.** An infinite opening price is not carried, though the volume is
not 0. -/
theorem infinite_open_not_carried : ∃ mgr mgr' fbMd,
    run .zero callAndPut [bestPacket strike1200 [0, 0, 0, 0, 0, 0, 0xf0, 0x7f]] = some mgr ∧
    decodeMsg .zero mgr (depthPacket strike1200).localTimeNs0 (depthPacket strike1200).buffer =
      some (mgr', some fbMd) ∧
    (latest (depthPacket strike1200).code [bestPacket strike1200 [0, 0, 0, 0, 0, 0, 0xf0, 0x7f]]).volume = 1 ∧
    fbMd.open' ≠
      (latest (depthPacket strike1200).code [bestPacket strike1200 [0, 0, 0, 0, 0, 0, 0xf0, 0x7f]]).open' := by
  have hcode : (bestPacket strike1200 [0, 0, 0, 0, 0, 0, 0xf0, 0x7f]).code = strike1200 := by decide +kernel
  have hsample : ∀ q ∈ [bestPacket strike1200 [0, 0, 0, 0, 0, 0, 0xf0, 0x7f]],
      Sample callAndPut.mSubscribeInsts q := by
    intro q hq
    rw [List.mem_singleton.mp hq]
    exact ⟨List.mem_pair.mpr (.inl hcode), by decide +kernel, by decide +kernel⟩
  obtain ⟨mgr, mgr', fbMd, hr, hd⟩ := sample_join hsample
  have hapart : ∀ q ∈ [bestPacket strike1200 [0, 0, 0, 0, 0, 0, 0xf0, 0x7f]],
      KeyApart callAndPut.mSubscribeInsts q := by
    intro q hq
    rw [List.mem_singleton.mp hq]
    exact sample_keyApart (.inl hcode)
  obtain ⟨hinv, hsame⟩ := run_inv (loaded_inv _) hapart hr
  have hdepth : (depthPacket strike1200).code = strike1200 := by decide +kernel
  have hcarries := depth_carries hinv (hsame.keysOf (loaded_ok _).2)
    (hsame.insts ▸ sample_keyApart (.inl hdepth)) (by decide +kernel) hd
  refine ⟨mgr, mgr', fbMd, hr, hd, by decide +kernel, ?_⟩
  rw [hcarries.open']
  decide +kernel

end MdInfoSet.L4.DceDepth
