import MdInfoSet.Core.Binary64
import MdInfoSet.Core.Machine
import MdInfoSet.L4App.NanoGfex
import MdInfoSet.L4App.Publish

/-!
# Open, high and low of the day

Three plugins are not sent the open, high and low of the day and keep them
themselves, in a `fb_md_interval_t` (`md_interval_t`) per instrument: `MsgRoutine`
of src/npro_febao_shfe/src/shfe_md_quota.cpp, `DispatchMessage` of
src/nano_febao_gfex/src/gfex_nano.cpp and the two callbacks of
src/nano_api_gfex/src/nano_gfex_recevier.cpp (L4App/NanoGfex.lean). `clear` sets the
three to NaN, and the update fills `open` when it is a NaN and the price is positive:

    if (std::isnan(md_interval.open) && (msgdata.last_price>0)){
        md_interval.open = msgdata.last_price;
    }

An entry is however created with the last price of the first message in all three
fields, and that price is 0 before the first trade. `open` is then never a NaN and
keeps the 0, and no later price is below it: `open` and `low` stay 0 for the day,
which the febao plugins publish as `DBL_MAX`.

**Exact condition.** With prices that are zero before the first trade and positive
afterwards, what is published after the first trade is the open, high and low of the
positive prices if and only if there is no price before the first trade or none after
it; the febao plugins are right too when `DBL_MAX` is the first positive price and
none is below it (`day_interval_iff`).
-/
namespace MdInfoSet.L4.DayInterval

open MdInfoSet.Binary64 (IsNum)
open MdInfoSet.L4.NanoGfex (Call MdInterval updateInterval)
open MdInfoSet.L4.Publish

/-! ## The febao plugins -/

/-- The intervals, and the records passed to `on_msg`, each with its message. -/
structure Feed (Msg : Type) where
  fbMdInterval : Bytes → Option MdInterval
  published : List (Msg × MarketData)

def Feed.start {Msg : Type} : Feed Msg := ⟨fun _ => none, []⟩

/-- What both plugins do with a message of `inst`. -/
def Feed.onMsg {Msg : Type} (inst : Msg → Bytes) (lastPrice : Msg → Float)
    (record : Msg → MdInterval → MarketData) (f : Feed Msg) (m : Msg) : Feed Msg :=
  let interval := updateInterval (f.fbMdInterval (inst m)) (lastPrice m)
  { fbMdInterval := Function.update f.fbMdInterval (inst m) (some interval)
    published := f.published ++ [(m, record m interval)] }

/-- The part of `TNProUserMarketData` that is read. -/
structure NproMarketData where
  instrumentId : Bytes
  timestampSecond : Int32
  timestampMillisecond : Int32
  lastPrice : Float
  volume : Int32
  turnover : Float
  openInterest : Int32
  askPrice : Fin 5 → Float
  askVolume : Fin 5 → Int32
  bidPrice : Fin 5 → Float
  bidVolume : Fin 5 → Int32

/-- The part of `TNProInstrumentItem` that is read. -/
structure NproInstrumentItem where
  upperLimitPrice : Float
  lowerLimitPrice : Float

/-- mirrors src/nano_febao_gfex/dependency/NanoGfexMdStruct.h:71-81 -/
structure InstStaticInfo where
  initOpenInterst : UInt32
  limitUpPx : Float
  limitDownPx : Float
  lastSettlementPrice : Float
  lastClosingPrice : Float

/-- mirrors src/nano_febao_gfex/src/ringbuffer.h:17-30
The union and its tag are the `call` the slot was pushed for. -/
structure Slot where
  extime : UInt64
  timestamp0 : UInt64
  call : Call

section Shfe

variable (fbExchangeId : UInt8) (nproInstInfo : Bytes → Option NproInstrumentItem) (reset : MarketData)

/-- mirrors src/npro_febao_shfe/src/shfe_md_quota.cpp:443-493
The record for a message read at `localTimeNs`. -/
def nproRecord (m : NproMarketData × UInt64) (interval : MdInterval) : MarketData :=
  let (msgdata, localTimeNs) := m
  let fbMd := { reset with
    localTimestamp := localTimeNs
    maxDepth := 5
    instrumentId := msgdata.instrumentId
    exchangeId := fbExchangeId
    updateSec := (msgdata.timestampSecond.toUInt32 + 28800).toInt32
    updateMsec := msgdata.timestampMillisecond
    preOpenInterest := Float.ofInt msgdata.openInterest.toInt
    open' := convertPriceIfZero interval.open'
    close := convertPriceIfZero msgdata.lastPrice
    highPrice := convertPriceIfZero interval.high
    lowPrice := convertPriceIfZero interval.low
    lastPrice := convertPriceIfZero msgdata.lastPrice
    volume := msgdata.volume
    turnOver := msgdata.turnover
    openInterest := Float.ofInt msgdata.openInterest.toInt
    askPrice := fun i => convertPriceIfVolumeZero (msgdata.askPrice i) (msgdata.askVolume i).toUInt32
    askVolume := msgdata.askVolume
    bidPrice := fun i => convertPriceIfVolumeZero (msgdata.bidPrice i) (msgdata.bidVolume i).toUInt32
    bidVolume := msgdata.bidVolume }
  match nproInstInfo msgdata.instrumentId with
  | none => fbMd
  | some item => { fbMd with upperLimitPrice := item.upperLimitPrice, downLimitPrice := item.lowerLimitPrice }

/-- mirrors src/npro_febao_shfe/src/shfe_md_quota.cpp:355-524
`msgdata` is what `Read` returns. -/
def msgRoutine (f : Feed (NproMarketData × UInt64)) (msgdata : Option NproMarketData) (localTimeNs : UInt64) :
    Feed (NproMarketData × UInt64) :=
  match msgdata with
  | none => f
  | some msgdata => f.onMsg (fun m => m.1.instrumentId) (fun m => m.1.lastPrice)
      (nproRecord fbExchangeId nproInstInfo reset) (msgdata, localTimeNs)

def nproMachine : Machine (Feed (NproMarketData × UInt64)) (Option NproMarketData × UInt64) where
  init f := f = Feed.start
  step f e := some (msgRoutine fbExchangeId nproInstInfo reset f e.1 e.2)

end Shfe

section Gfex

variable (staticInfo : Bytes → Option InstStaticInfo) (reset : MarketData)

/-- mirrors src/nano_febao_gfex/src/gfex_nano.cpp:391-422, 477-541
The two branches differ in the depth and in what they take the rest of the record from. -/
def nanoRecord (slot : Slot) (interval : MdInterval) : MarketData :=
  let lastPrice := slot.call.lastPrice
  let common := { reset with
    localTimestamp := slot.timestamp0
    maxDepth := 1
    instrumentId := slot.call.inst
    exchangeId := fbExchangeGfex
    updateSec := updateSec slot.extime
    updateMsec := updateMsec slot.extime
    open' := convertPriceIfZero interval.open'
    close := convertPriceIfZero lastPrice
    highPrice := convertPriceIfZero interval.high
    lowPrice := convertPriceIfZero interval.low
    lastPrice := convertPriceIfZero lastPrice
    volume := slot.call.volume.toInt32 }
  let fbMd := match slot.call with
    | .l1 msgdata =>
      { common with
        iopv := iopvTagLv1
        turnOver := msgdata.turnOver
        openInterest := Float.ofInt msgdata.openInterest.toNat
        askPrice := Function.update common.askPrice 0
          (convertPriceIfVolumeZero msgdata.askPrice msgdata.askQty.toUInt32)
        askVolume := Function.update common.askVolume 0 msgdata.askQty
        bidPrice := Function.update common.bidPrice 0
          (convertPriceIfVolumeZero msgdata.bidPrice msgdata.bidQty.toUInt32)
        bidVolume := Function.update common.bidVolume 0 msgdata.bidQty }
    | .l2 msgdata =>
      { common with
        iopv := iopvTagLv2
        preOpenInterest := Float.ofInt msgdata.openInterest.toNat
        turnOver := msgdata.turnOver
        openInterest := Float.ofInt msgdata.openInterest.toNat
        askPrice := fun i => convertPriceIfVolumeZero (msgdata.askPx i) (msgdata.askVol i)
        askVolume := fun i => (msgdata.askVol i).toInt32
        bidPrice := fun i => convertPriceIfVolumeZero (msgdata.bidPx i) (msgdata.bidVol i)
        bidVolume := fun i => (msgdata.bidVol i).toInt32 }
  match staticInfo slot.call.inst with
  | none => fbMd
  | some item =>
    { fbMd with
      upperLimitPrice := item.limitUpPx
      downLimitPrice := item.limitDownPx
      preSettlement := item.lastSettlementPrice
      preClose := item.lastClosingPrice
      preOpenInterest := Float.ofInt item.initOpenInterst.toNat }

/-- mirrors src/nano_febao_gfex/src/gfex_nano.cpp:357-575 -/
def dispatchMessage (f : Feed Slot) (slot : Slot) : Feed Slot :=
  f.onMsg (fun slot => slot.call.inst) (fun slot => slot.call.lastPrice) (nanoRecord staticInfo reset) slot

def nanoMachine : Machine (Feed Slot) Slot where
  init f := f = Feed.start
  step f slot := some (dispatchMessage staticInfo reset f slot)

end Gfex

/-! ## What is published of the day -/

/-- The open, high and low of a record. -/
def dayOf (fbMd : MarketData) : MdInterval := ⟨fbMd.open', fbMd.highPrice, fbMd.lowPrice⟩

/-- The messages of one instrument: each last price, and the day published with it. -/
def Feed.stream {Msg : Type} (inst : Msg → Bytes) (lastPrice : Msg → Float) (f : Feed Msg) (i : Bytes) :
    List (Float × MdInterval) :=
  (f.published.filter fun p => inst p.1 = i).map fun p => (lastPrice p.1, dayOf p.2)

def nproStream (f : Feed (NproMarketData × UInt64)) (inst : Bytes) : List (Float × MdInterval) :=
  f.stream (fun m => m.1.instrumentId) (fun m => m.1.lastPrice) inst

def nanoStream (f : Feed Slot) (inst : Bytes) : List (Float × MdInterval) :=
  f.stream (fun slot => slot.call.inst) (fun slot => slot.call.lastPrice) inst

/-- The same of a record of nano_api_gfex, and of all its receiver delivered. -/
def apiDay (md : NanoGfex.NanoGfexMd) : Float × MdInterval := (md.lastPrice, ⟨md.open', md.high, md.low⟩)

def apiStream (r : NanoGfex.Receiver) (inst : Bytes) : List (Float × MdInterval) := (r.stream inst).map apiDay

/-- The positive prices. -/
def traded (prices : List Float) : List Float := prices.filter (0 < ·)

/-- `least` is the least of `prices`, `greatest` the greatest. -/
def IsLow (prices : List Float) (least : Float) : Prop := least ∈ prices ∧ ∀ p ∈ prices, least ≤ p
def IsHigh (prices : List Float) (greatest : Float) : Prop := greatest ∈ prices ∧ ∀ p ∈ prices, p ≤ greatest

/-- The day of the prices seen so far. -/
structure IsDay (prices : List Float) (day : MdInterval) : Prop where
  open' : prices.head? = some day.open'
  high : IsHigh prices day.high
  low : IsLow prices day.low

/-- Each day published after the first trade is that of the positive prices so far. -/
def DaysRight (stream : List (Float × MdInterval)) : Prop :=
  ∀ seen q, seen ++ [q] <+: stream → traded ((seen ++ [q]).map Prod.fst) ≠ [] →
    IsDay (traded ((seen ++ [q]).map Prod.fst)) q.2

/-- Prices that are zero before the first trade and positive afterwards. -/
structure ZeroThenPositive (prices zeros positives : List Float) : Prop where
  eq : prices = zeros ++ positives
  zero : ∀ z ∈ zeros, (z == 0) = true
  pos : ∀ p ∈ positives, 0 < p

/-! ## The interval after a list of prices -/

/-- The entry of an instrument after the last prices `prices`. -/
def intervalAfter (prices : List Float) : Option MdInterval :=
  prices.foldl (fun entry p => some (updateInterval entry p)) none

@[simp] theorem intervalAfter_append (prices : List Float) (p : Float) :
    intervalAfter (prices ++ [p]) = some (updateInterval (intervalAfter prices) p) := by
  simp [intervalAfter]

/-- One update of an interval whose open is a number. -/
theorem updateInterval_some {i : MdInterval} (p : Float) (h : IsNum i.open') :
    updateInterval (some i) p =
      ⟨i.open', if p > i.high then p else i.high, if p < i.low then p else i.low⟩ := by
  have hopen : (i.open' != i.open') = false := by
    simp only [bne, Binary64.beq_iff.mpr ⟨h, h, rfl⟩, Bool.not_true]
  simp only [updateInterval, Option.getD_some, hopen, Bool.false_eq_true, false_and, if_false]
  split <;> split <;> rfl

/-- The first price fills all three fields. -/
theorem updateInterval_none {p : Float} (h : IsNum p) : updateInterval none p = ⟨p, p, p⟩ := by
  have hp : ¬ p < p := fun hlt => (Binary64.lt_iff.mp hlt).2.2.false
  have hsome : updateInterval none p = updateInterval (some ⟨p, p, p⟩) p := by
    simp only [updateInterval, Option.getD_none, Option.getD_some]
  have hupd := updateInterval_some (i := ⟨p, p, p⟩) p h
  dsimp only at hupd
  rw [hsome, hupd, if_neg hp]

/-- The better of the two is the best of one price more. -/
theorem best_append (better : Float → Float → Prop) (htrans : ∀ {x y z}, better x y → better y z → better x z)
    {prices : List Float} {p best : Float} {new : Prop} [Decidable new] (hp : better p p)
    (hbest : best ∈ prices ∧ ∀ x ∈ prices, better x best) (hnew : new → better best p)
    (hold : ¬ new → better p best) :
    (if new then p else best) ∈ prices ++ [p] ∧ ∀ x ∈ prices ++ [p], better x (if new then p else best) := by
  simp only [List.mem_append, List.mem_singleton]
  by_cases h : new
  · rw [if_pos h]
    refine ⟨.inr rfl, fun x hx => ?_⟩
    cases hx with
    | inl hx => exact htrans (hbest.2 x hx) (hnew h)
    | inr hx => exact hx ▸ hp
  · rw [if_neg h]
    refine ⟨.inl hbest.1, fun x hx => ?_⟩
    cases hx with
    | inl hx => exact hbest.2 x hx
    | inr hx => exact hx ▸ hold h

theorem IsHigh.append {prices : List Float} {p high : Float} (h : IsHigh prices high)
    (hnum : ∀ x ∈ prices ++ [p], IsNum x) : IsHigh (prices ++ [p]) (if p > high then p else high) := by
  have hp : IsNum p := hnum p (by simp)
  have hh : IsNum high := hnum high (List.mem_append_left _ h.1)
  have hold : ¬ high < p → p ≤ high := Binary64.le_of_not_lt hh hp
  exact best_append (fun x y => x ≤ y) Binary64.le_trans (Binary64.le_refl hp) ⟨h.1, h.2⟩ Binary64.le_of_lt hold

theorem IsLow.append {prices : List Float} {p low : Float} (h : IsLow prices low)
    (hnum : ∀ x ∈ prices ++ [p], IsNum x) : IsLow (prices ++ [p]) (if p < low then p else low) := by
  have hp : IsNum p := hnum p (by simp)
  have hl : IsNum low := hnum low (List.mem_append_left _ h.1)
  have hold : ¬ p < low → low ≤ p := Binary64.le_of_not_lt hp hl
  exact best_append (fun x y => y ≤ x) (fun hxy hyz => Binary64.le_trans hyz hxy) (Binary64.le_refl hp) ⟨h.1, h.2⟩
    Binary64.le_of_lt hold

/-- The entry is the day of all prices, those before the first trade included. -/
theorem intervalAfter_isDay {prices : List Float} (hne : prices ≠ []) (hnum : ∀ x ∈ prices, IsNum x) :
    ∃ i, intervalAfter prices = some i ∧ IsDay prices i := by
  induction prices using List.reverseRecOn with
  | nil => exact absurd rfl hne
  | append_singleton prices p ih =>
    rw [intervalAfter_append]
    refine ⟨_, rfl, ?_⟩
    cases prices with
    | nil =>
      have hp : IsNum p := hnum p (by simp)
      rw [show intervalAfter [] = none from rfl, updateInterval_none hp]
      exact ⟨rfl, ⟨by simp, by simpa using Binary64.le_refl hp⟩, ⟨by simp, by simpa using Binary64.le_refl hp⟩⟩
    | cons q prices =>
      obtain ⟨i, hi, hday⟩ := ih (by simp) fun x hx => hnum x (List.mem_append_left _ hx)
      have hopen : q = i.open' := by simpa using hday.open'
      rw [hi, updateInterval_some p (hopen ▸ hnum q (by simp))]
      exact ⟨by simp [hopen], hday.high.append hnum, hday.low.append hnum⟩

/-! ## The days of a stream -/

/-- The three prices, each converted by `f`. -/
def convertDay (f : Float → Float) (i : MdInterval) : MdInterval := ⟨f i.open', f i.high, f i.low⟩

/-- The stream of an instrument whose entry is `entry`: each day is the entry after the
prices so far, converted by `f`. -/
structure Tracks (f : Float → Float) (entry : Option MdInterval) (stream : List (Float × MdInterval)) :
    Prop where
  entry : entry = intervalAfter (stream.map Prod.fst)
  days : ∀ seen q, seen ++ [q] <+: stream →
    some q.2 = (intervalAfter ((seen ++ [q]).map Prod.fst)).map (convertDay f)

variable {f : Float → Float} {entry : Option MdInterval} {stream : List (Float × MdInterval)}

theorem Tracks.nil : Tracks f none [] := ⟨rfl, fun seen q h => by simp at h⟩

/-- One message more. -/
theorem Tracks.append (h : Tracks f entry stream) (p : Float) :
    Tracks f (some (updateInterval entry p)) (stream ++ [(p, convertDay f (updateInterval entry p))]) := by
  refine ⟨by simp [h.entry], fun seen q hpre => ?_⟩
  rw [List.prefix_concat_iff] at hpre
  cases hpre with
  | inl heq =>
    obtain ⟨rfl, hq⟩ := List.append_inj' heq rfl
    cases hq
    simp [h.entry]
  | inr hpre => exact h.days seen q hpre

theorem ZeroThenPositive.isNum {prices zeros positives : List Float}
    (h : ZeroThenPositive prices zeros positives) : ∀ x ∈ zeros ++ positives, IsNum x := fun x hx => by
  cases List.mem_append.mp hx with
  | inl hx => exact (Binary64.beq_iff.mp (h.zero x hx)).1
  | inr hx => exact (Binary64.lt_iff.mp (h.pos x hx)).2.1

/-- The zeros are not traded, what follows them is. -/
theorem traded_zeros {zeros ps : List Float} (hz : ∀ z ∈ zeros, (z == 0) = true) (hp : ∀ p ∈ ps, 0 < p) :
    traded (zeros ++ ps) = ps := by
  have hzeros : traded zeros = [] := List.filter_eq_nil_iff.mpr fun z hmem hlt =>
    Binary64.not_beq_of_gt (of_decide_eq_true hlt) (hz z hmem)
  have hps : traded ps = ps := List.filter_eq_self.mpr fun p hmem => decide_eq_true (hp p hmem)
  rw [traded, List.filter_append]
  exact (congrArg₂ (· ++ ·) hzeros hps).trans (List.nil_append ps)

/-- The days published after the first trade belong to the prefixes of the positive prices. -/
theorem daysRight_prefixes {zeros positives : List Float} (ht : Tracks f entry stream)
    (hz : ZeroThenPositive (stream.map Prod.fst) zeros positives) :
    DaysRight stream ↔ ∀ ps i, ps <+: positives → ps ≠ [] → intervalAfter (zeros ++ ps) = some i →
      IsDay ps (convertDay f i) := by
  constructor
  · intro hr ps i hpre hne hi
    have hps : ∀ p ∈ ps, 0 < p := fun p hp => hz.pos p (hpre.subset hp)
    -- the records of these prices
    obtain ⟨rest, hrest⟩ := hpre
    have hsplit : stream.map Prod.fst = (zeros ++ ps) ++ rest := by
      rw [hz.eq, ← hrest, List.append_assoc]
    obtain ⟨published, later, hstream, hpub, -⟩ := List.map_eq_append_iff.mp hsplit
    obtain ⟨seen, q, rfl⟩ : ∃ seen q, published = seen ++ [q] := by
      refine ⟨published.dropLast, published.getLast ?_, (List.dropLast_append_getLast _).symm⟩
      intro hnil
      rw [hnil] at hpub
      exact hne (List.append_eq_nil_iff.mp hpub.symm).2
    have hseen : seen ++ [q] <+: stream := ⟨later, hstream.symm⟩
    have hday := ht.days seen q hseen
    rw [hpub, hi, Option.map_some, Option.some.injEq] at hday
    have := hr seen q hseen
    rw [hpub, traded_zeros hz.zero hps] at this
    exact hday ▸ this hne
  · intro h seen q hpre hne
    obtain ⟨later, hlater⟩ := hpre
    have hsplit : (seen ++ [q]).map Prod.fst ++ later.map Prod.fst = zeros ++ positives := by
      rw [← List.map_append, hlater, hz.eq]
    cases List.append_eq_append_iff.mp hsplit with
    | inl hshort =>
      -- nothing was traded yet
      obtain ⟨more, hmore, -⟩ := hshort
      have hnone : traded ((seen ++ [q]).map Prod.fst ++ []) = [] :=
        traded_zeros (fun z hmem => hz.zero z (hmore ▸ List.mem_append_left _ hmem)) (by simp)
      rw [List.append_nil] at hnone
      exact absurd hnone hne
    | inr hlong =>
      obtain ⟨ps, hps, hpos⟩ := hlong
      have hpre : ps <+: positives := ⟨_, hpos.symm⟩
      have htraded := traded_zeros hz.zero fun p hp => hz.pos p (hpre.subset hp)
      obtain ⟨i, hi, hq⟩ := Option.map_eq_some_iff.mp (ht.days seen q ⟨later, hlater⟩).symm
      rw [hps] at hi hne ⊢
      rw [htraded] at hne ⊢
      exact hq ▸ h ps i hpre hne hi

/-- Without a price before the first trade every day is right. -/
theorem isDay_of_no_zeros {ps : List Float} {i : MdInterval} (hf : ∀ x, 0 < x → f x = x)
    (hpos : ∀ p ∈ ps, 0 < p) (hday : IsDay ps i) : IsDay ps (convertDay f i) := by
  have hopen : i.open' ∈ ps := List.mem_of_mem_head? hday.open'
  rw [convertDay, hf _ (hpos _ hopen), hf _ (hpos _ hday.high.1), hf _ (hpos _ hday.low.1)]
  exact hday

/-- After one, the open is that price, and the low a zero. -/
theorem isDay_of_zeros {z : Float} {zeros ps : List Float} {i : MdInterval} (hf : ∀ x, 0 < x → f x = x)
    (hzero : ∀ x ∈ z :: zeros, (x == 0) = true) (hpos : ∀ p ∈ ps, 0 < p) (hne : ps ≠ [])
    (hday : IsDay (z :: zeros ++ ps) i) :
    (i.low == 0) = true ∧ (IsDay ps (convertDay f i) ↔ ps.head? = some (f z) ∧ IsLow ps (f i.low)) := by
  obtain ⟨p, hp⟩ := List.exists_mem_of_ne_nil ps hne
  have hbelow : ∀ x ∈ z :: zeros, x < p := fun x hx => Binary64.lt_of_beq_zero (hzero x hx) (hpos p hp)
  have hopen : z = i.open' := by simpa using hday.open'
  have hhigh : i.high ∈ ps := by
    cases List.mem_append.mp hday.high.1 with
    | inl hmem =>
      exact absurd (hbelow _ hmem) (Binary64.not_lt_of_ge (hday.high.2 p (List.mem_append_right _ hp)))
    | inr hmem => exact hmem
  have hlow : i.low ∈ z :: zeros := by
    cases List.mem_append.mp hday.low.1 with
    | inl hmem => exact hmem
    | inr hmem =>
      exact absurd (Binary64.lt_of_beq_zero (hzero z (by simp)) (hpos _ hmem))
        (Binary64.not_lt_of_ge (hday.low.2 z (by simp)))
  refine ⟨hzero _ hlow, fun h => ⟨?_, h.low⟩, fun h => ⟨?_, ?_, h.2⟩⟩
  · rw [hopen]
    exact h.open'
  · rw [h.1, hopen]
    rfl
  · show IsHigh ps (f i.high)
    rw [hf _ (hpos _ hhigh)]
    exact ⟨hhigh, fun x hx => hday.high.2 x (List.mem_append_right _ hx)⟩

/-- The entry on the way is the day of the prices so far. -/
theorem ZeroThenPositive.isDay {prices zeros positives ps : List Float} {i : MdInterval}
    (h : ZeroThenPositive prices zeros positives) (hpre : ps <+: positives) (hne : ps ≠ [])
    (hi : intervalAfter (zeros ++ ps) = some i) : IsDay (zeros ++ ps) i := by
  have hnum : ∀ x ∈ zeros ++ ps, IsNum x := fun x hx => h.isNum x (by
    cases List.mem_append.mp hx with
    | inl hx => exact List.mem_append_left _ hx
    | inr hx => exact List.mem_append_right _ (hpre.subset hx))
  obtain ⟨i', hi', hday⟩ := intervalAfter_isDay (by simp [hne]) hnum
  rw [hi', Option.some.injEq] at hi
  exact hi ▸ hday

/-- **Exact condition**, where the prices are published as they are. -/
theorem daysRight_id_iff {zeros positives : List Float} (ht : Tracks id entry stream)
    (hz : ZeroThenPositive (stream.map Prod.fst) zeros positives) :
    DaysRight stream ↔ zeros = [] ∨ positives = [] := by
  rw [daysRight_prefixes ht hz]
  constructor
  · intro h
    by_contra hno
    obtain ⟨hzeros, hpos⟩ := not_or.mp hno
    obtain ⟨z, zs, rfl⟩ := List.exists_cons_of_ne_nil hzeros
    obtain ⟨i, hi, hday⟩ := intervalAfter_isDay (by simp) hz.isNum
    have hright := h positives i (List.prefix_refl _) hpos hi
    obtain ⟨hopen, -⟩ := (isDay_of_zeros (fun _ _ => rfl) hz.zero hz.pos hpos hday).2.mp hright
    exact Binary64.not_beq_of_gt (hz.pos z (List.mem_of_mem_head? hopen)) (hz.zero z (by simp))
  · intro h ps i hpre hne hi
    have hday := hz.isDay hpre hne hi
    cases h with
    | inl hzeros =>
      subst hzeros
      exact isDay_of_no_zeros (fun _ _ => rfl) (fun p hp => hz.pos p (hpre.subset hp)) hday
    | inr hpos => exact absurd (List.prefix_nil.mp (hpos ▸ hpre)) hne

theorem convertPriceIfZero_pos (x : Float) (h : 0 < x) : convertPriceIfZero x = x :=
  if_neg (Binary64.not_beq_of_gt h)

/-- **Exact condition**, where a zero is published as `DBL_MAX`. -/
theorem daysRight_convert_iff {zeros positives : List Float} (ht : Tracks convertPriceIfZero entry stream)
    (hz : ZeroThenPositive (stream.map Prod.fst) zeros positives) :
    DaysRight stream ↔
      zeros = [] ∨ positives = [] ∨ positives.head? = some dblMax ∧ ∀ p ∈ positives, dblMax ≤ p := by
  rw [daysRight_prefixes ht hz]
  constructor
  · intro h
    by_contra hno
    obtain ⟨hzeros, hno⟩ := not_or.mp hno
    obtain ⟨hpos, hmax⟩ := not_or.mp hno
    obtain ⟨z, zs, rfl⟩ := List.exists_cons_of_ne_nil hzeros
    obtain ⟨i, hi, hday⟩ := intervalAfter_isDay (by simp) hz.isNum
    have hright := h positives i (List.prefix_refl _) hpos hi
    obtain ⟨hlow, hiff⟩ := isDay_of_zeros convertPriceIfZero_pos hz.zero hz.pos hpos hday
    obtain ⟨hopen, hleast⟩ := hiff.mp hright
    rw [convertPriceIfZero, if_pos (hz.zero z (by simp))] at hopen
    rw [convertPriceIfZero, if_pos hlow] at hleast
    exact hmax ⟨hopen, hleast.2⟩
  · intro h ps i hpre hne hi
    have hps : ∀ p ∈ ps, 0 < p := fun p hp => hz.pos p (hpre.subset hp)
    have hday := hz.isDay hpre hne hi
    cases zeros with
    | nil => exact isDay_of_no_zeros convertPriceIfZero_pos hps hday
    | cons z zs =>
      have hpositives : positives ≠ [] := fun hnil => hne (List.prefix_nil.mp (hnil ▸ hpre))
      obtain ⟨hopen, hleast⟩ := (h.resolve_left (by simp)).resolve_left hpositives
      obtain ⟨hlow, hiff⟩ := isDay_of_zeros convertPriceIfZero_pos hz.zero hps hne hday
      have hhead : ps.head? = some dblMax := by
        obtain ⟨p, ps', rfl⟩ := List.exists_cons_of_ne_nil hne
        obtain ⟨rest, rfl⟩ := hpre
        simpa using hopen
      rw [hiff, convertPriceIfZero, if_pos (hz.zero z (by simp)), convertPriceIfZero, if_pos hlow]
      exact ⟨hhead, List.mem_of_mem_head? hhead, fun p hp => hleast p (hpre.subset hp)⟩

/-! ## Runs -/

/-- A message keeps the entry and the stream of every instrument together. -/
theorem Feed.onMsg_tracks {Msg : Type} {inst : Msg → Bytes} {lastPrice : Msg → Float}
    {record : Msg → MdInterval → MarketData} {feed : Feed Msg}
    (hrec : ∀ m interval, dayOf (record m interval) = convertDay convertPriceIfZero interval)
    (h : ∀ i, Tracks convertPriceIfZero (feed.fbMdInterval i) (feed.stream inst lastPrice i)) (m : Msg)
    (i : Bytes) :
    Tracks convertPriceIfZero ((feed.onMsg inst lastPrice record m).fbMdInterval i)
      ((feed.onMsg inst lastPrice record m).stream inst lastPrice i) := by
  by_cases hi : inst m = i
  · subst hi
    have := (h (inst m)).append (lastPrice m)
    simpa [Feed.onMsg, Feed.stream, hrec] using this
  · have := h i
    simpa [Feed.onMsg, Feed.stream, hi, Function.update_of_ne (Ne.symm hi)] using this

theorem nproMachine_tracks (fbExchangeId : UInt8) (nproInstInfo : Bytes → Option NproInstrumentItem)
    (reset : MarketData) : (nproMachine fbExchangeId nproInstInfo reset).Inductive fun feed =>
      ∀ i, Tracks convertPriceIfZero (feed.fbMdInterval i) (nproStream feed i) where
  init feed hinit i := by
    rw [show feed = Feed.start from hinit]
    exact Tracks.nil
  step feed e feed' h hstep := by
    cases hstep
    obtain ⟨msgdata, t⟩ := e
    cases msgdata with
    | none => exact h
    | some msgdata =>
      refine Feed.onMsg_tracks (fun m interval => ?_) h (msgdata, t)
      cases hitem : nproInstInfo m.1.instrumentId with
      | none => simp only [nproRecord, hitem, dayOf, convertDay]
      | some item => simp only [nproRecord, hitem, dayOf, convertDay]

theorem nanoMachine_tracks (staticInfo : Bytes → Option InstStaticInfo) (reset : MarketData) :
    (nanoMachine staticInfo reset).Inductive fun feed =>
      ∀ i, Tracks convertPriceIfZero (feed.fbMdInterval i) (nanoStream feed i) where
  init feed hinit i := by
    rw [show feed = Feed.start from hinit]
    exact Tracks.nil
  step feed slot feed' h hstep := by
    cases hstep
    refine Feed.onMsg_tracks (fun slot interval => ?_) h slot
    cases hcall : slot.call with
    | l1 msgdata => simp only [nanoRecord, hcall]; split <;> rfl
    | l2 msgdata => simp only [nanoRecord, hcall]; split <;> rfl

theorem apiDay_record (c : Call) (interval : MdInterval) (t : UInt64) :
    apiDay (c.record interval t) = (c.lastPrice, interval) := by
  cases c <;> rfl

theorem apiMachine_tracks : NanoGfex.machine.Inductive fun r =>
    ∀ i, Tracks id (r.mdInterval i) (apiStream r i) where
  init r hinit i := by
    rw [show r = NanoGfex.Receiver.start from hinit]
    exact Tracks.nil
  step r e r' h hstep i := by
    cases hstep
    obtain ⟨c, t⟩ := e
    cases hv : (NanoGfex.isValidQuota (r.quotaMerge c.inst) c.extime c.volume.toUInt64).1 with
    | false =>
      rw [apiStream, NanoGfex.stream_rejected t i hv]
      simpa only [NanoGfex.onNanoGfexMd, hv, if_true, apiStream] using h i
    | true =>
      rw [apiStream, NanoGfex.stream_accepted t i hv]
      simp only [NanoGfex.onNanoGfexMd, hv, Bool.true_eq_false, if_false]
      by_cases hi : c.inst = i
      · subst hi
        have := (h c.inst).append c.lastPrice
        simpa [apiStream, apiDay_record, convertDay] using this
      · simpa [apiStream, hi, Function.update_of_ne (Ne.symm hi)] using h i

/-- **Exact condition**, in every run and for every instrument. -/
theorem day_interval_iff (zeros positives : List Float) (inst : Bytes) :
    (∀ fbExchangeId nproInstInfo reset events feed,
      (nproMachine fbExchangeId nproInstInfo reset).run Feed.start events = some feed →
      ZeroThenPositive ((nproStream feed inst).map Prod.fst) zeros positives →
      (DaysRight (nproStream feed inst) ↔
        zeros = [] ∨ positives = [] ∨ positives.head? = some dblMax ∧ ∀ p ∈ positives, dblMax ≤ p)) ∧
    (∀ staticInfo reset slots feed, (nanoMachine staticInfo reset).run Feed.start slots = some feed →
      ZeroThenPositive ((nanoStream feed inst).map Prod.fst) zeros positives →
      (DaysRight (nanoStream feed inst) ↔
        zeros = [] ∨ positives = [] ∨ positives.head? = some dblMax ∧ ∀ p ∈ positives, dblMax ≤ p)) ∧
    (∀ calls r, NanoGfex.machine.run NanoGfex.Receiver.start calls = some r →
      ZeroThenPositive ((apiStream r inst).map Prod.fst) zeros positives →
      (DaysRight (apiStream r inst) ↔ zeros = [] ∨ positives = [])) := by
  refine ⟨fun fbExchangeId nproInstInfo reset events feed hrun hz => ?_,
    fun staticInfo reset slots feed hrun hz => ?_, fun calls r hrun hz => ?_⟩
  · have htracks := nproMachine_tracks fbExchangeId nproInstInfo reset
    exact daysRight_convert_iff (htracks.run (htracks.init _ rfl) hrun inst) hz
  · have htracks := nanoMachine_tracks staticInfo reset
    exact daysRight_convert_iff (htracks.run (htracks.init _ rfl) hrun inst) hz
  · exact daysRight_id_iff (apiMachine_tracks.run (apiMachine_tracks.init _ rfl) hrun inst) hz

/-- A message of one instrument with the given last price, for each of the plugins. -/
def nproMessage (lastPrice : Float) : Option NproMarketData × UInt64 :=
  (some ⟨[0x61, 0x75], 0, 0, lastPrice, 1, 0, 1, fun _ => 11, fun _ => 1, fun _ => 9, fun _ => 1⟩, 0)

def gfexCall (lastPrice : Float) : Call :=
  .l1 ⟨1, [0x61, 0x75], [], lastPrice, 0, 0, 0, 0, 0, 9, 1, 11, 1, 0, 0⟩

theorem ten_twelve_nine {prices : List Float} (h : prices = [10, 12, 9]) : ZeroThenPositive prices [] [10, 12, 9] :=
  ⟨h, by decide +kernel, by decide +kernel⟩

/-- An instrument whose first price is that of a trade, with a higher and a lower one after it. -/
theorem traded_from_the_start :
    (∃ feed, (nproMachine 0 (fun _ => none) .zero).run Feed.start [nproMessage 10, nproMessage 12, nproMessage 9] =
        some feed ∧ DaysRight (nproStream feed [0x61, 0x75])) ∧
    (∃ feed, (nanoMachine (fun _ => none) .zero).run Feed.start
        [⟨0, 0, gfexCall 10⟩, ⟨0, 0, gfexCall 12⟩, ⟨0, 0, gfexCall 9⟩] = some feed ∧
        DaysRight (nanoStream feed [0x61, 0x75])) ∧
    ∃ r, NanoGfex.machine.run NanoGfex.Receiver.start [(gfexCall 10, 0), (gfexCall 12, 1), (gfexCall 9, 2)] = some r ∧
      DaysRight (apiStream r [0x61, 0x75]) := by
  obtain ⟨hnpro, hnano, hapi⟩ := day_interval_iff [] [10, 12, 9] [0x61, 0x75]
  refine ⟨⟨_, rfl, (hnpro 0 (fun _ => none) .zero [nproMessage 10, nproMessage 12, nproMessage 9] _ rfl ?_).mpr (.inl rfl)⟩,
    ⟨_, rfl, (hnano (fun _ => none) .zero [⟨0, 0, gfexCall 10⟩, ⟨0, 0, gfexCall 12⟩, ⟨0, 0, gfexCall 9⟩] _
      rfl ?_).mpr (.inl rfl)⟩,
    ⟨_, rfl, (hapi [(gfexCall 10, 0), (gfexCall 12, 1), (gfexCall 9, 2)] _ rfl ?_).mpr (.inl rfl)⟩⟩
  · exact ten_twelve_nine (by decide +kernel)
  · exact ten_twelve_nine (by decide +kernel)
  · exact ten_twelve_nine (by decide +kernel)

theorem zero_then_ten : ZeroThenPositive [0, 10] [0] [10] :=
  ⟨rfl, by decide +kernel, by decide +kernel⟩

/-- A quote before the first trade, and a trade, not at `DBL_MAX`. -/
theorem wrong_after_zero (ht : Tracks convertPriceIfZero entry stream) (hp : stream.map Prod.fst = [0, 10]) :
    ¬ DaysRight stream := by
  have hten : ¬ ((10 : Float) = dblMax) := by decide +kernel
  rw [daysRight_convert_iff ht (hp ▸ zero_then_ten)]
  simp [hten]

/-- **Counterexample.** After a quote at 0 and a trade at 10 all three are wrong. -/
theorem zero_seeds_the_day :
    (¬ ∀ events feed, (nproMachine 0 (fun _ => none) .zero).run Feed.start events = some feed →
      ∀ inst zeros positives, ZeroThenPositive ((nproStream feed inst).map Prod.fst) zeros positives →
        DaysRight (nproStream feed inst)) ∧
    (¬ ∀ slots feed, (nanoMachine (fun _ => none) .zero).run Feed.start slots = some feed →
      ∀ inst zeros positives, ZeroThenPositive ((nanoStream feed inst).map Prod.fst) zeros positives →
        DaysRight (nanoStream feed inst)) ∧
    ¬ ∀ calls r, NanoGfex.machine.run NanoGfex.Receiver.start calls = some r →
      ∀ inst zeros positives, ZeroThenPositive ((apiStream r inst).map Prod.fst) zeros positives →
        DaysRight (apiStream r inst) := by
  refine ⟨fun h => ?_, fun h => ?_, fun h => ?_⟩
  · have hrun : ((nproMachine 0 (fun _ => none) .zero).run Feed.start [nproMessage 0, nproMessage 10]).map
        (fun feed => (nproStream feed [0x61, 0x75]).map Prod.fst) = some [0, 10] := by decide +kernel
    obtain ⟨feed, hfeed, hprices⟩ := Option.map_eq_some_iff.mp hrun
    have htracks := nproMachine_tracks 0 (fun _ => none) .zero
    exact wrong_after_zero (htracks.run (htracks.init _ rfl) hfeed _) hprices
      (h _ _ hfeed _ _ _ (hprices ▸ zero_then_ten))
  · have hrun : ((nanoMachine (fun _ => none) .zero).run Feed.start
        [⟨0, 0, gfexCall 0⟩, ⟨0, 0, gfexCall 10⟩]).map (fun feed => (nanoStream feed [0x61, 0x75]).map Prod.fst) =
        some [0, 10] := by decide +kernel
    obtain ⟨feed, hfeed, hprices⟩ := Option.map_eq_some_iff.mp hrun
    have htracks := nanoMachine_tracks (fun _ => none) .zero
    exact wrong_after_zero (htracks.run (htracks.init _ rfl) hfeed _) hprices
      (h _ _ hfeed _ _ _ (hprices ▸ zero_then_ten))
  · have hrun : (NanoGfex.machine.run NanoGfex.Receiver.start [(gfexCall 0, 0), (gfexCall 10, 0)]).map
        (fun r => (apiStream r [0x61, 0x75]).map Prod.fst) = some [0, 10] := by decide +kernel
    obtain ⟨r, hr, hprices⟩ := Option.map_eq_some_iff.mp hrun
    have hz : ZeroThenPositive ((apiStream r [0x61, 0x75]).map Prod.fst) [0] [10] := hprices ▸ zero_then_ten
    have htracks := apiMachine_tracks.run (apiMachine_tracks.init _ rfl) hr [0x61, 0x75]
    have := (daysRight_id_iff htracks hz).mp (h _ _ hr _ _ _ hz)
    simp at this

end MdInfoSet.L4.DayInterval
