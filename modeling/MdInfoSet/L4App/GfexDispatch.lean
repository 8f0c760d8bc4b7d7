import MdInfoSet.L4App.Publish
import MdInfoSet.L4App.Suppression

/-!
# `DispatchMessage` of the GFEX receiver

src/dz_gfex_md/src/dz_gfex_md.cpp:752-938, from a slot of the ring buffer to the
record passed to `on_msg`. `find` is `m_staticinfo_cache.Find`.

A Level-2 slot holds a NaN where `OnData_lv2` had no price within the limits, and
the defaults of `Quota_t` on a side it did not fill. `convertPriceIfVolumeZero`
turns all of them into `DBL_MAX`, so that what is published is legal whatever the
message says (`published_legal`).
-/
namespace MdInfoSet.L4.GfexDispatch

open MdInfoSet.L1.Lv2Quote MdInfoSet.L2.RingBuffer MdInfoSet.L4.GfexHandlers MdInfoSet.L4.Publish

/-- mirrors src/dz_gfex_md/src/dz_gfex_md.h:320-327 -/
structure StaticInfo where
  preOpeninterest : UInt32
  upper : Float
  lower : Float
  preSettle : Float
  preClose : Float

/-- What both branches set before the depth (cpp:764-787, 844-867). -/
def fillCommon (reset : MarketData) (slot : Slot) (info : StaticInfo) : MarketData :=
  let msgdata := slot.data
  { reset with
    localTimestamp := slot.timestamp0
    instrumentId := msgdata.code
    exchangeId := fbExchangeGfex
    updateSec := updateSec msgdata.extime
    updateMsec := updateMsec msgdata.extime
    open' := convertPriceIfZero msgdata.open'
    close := convertPriceIfZero msgdata.close
    highPrice := convertPriceIfZero msgdata.high
    lowPrice := convertPriceIfZero msgdata.low
    lastPrice := convertPriceIfZero msgdata.lastPrice
    upperLimitPrice := convertPriceIfZero info.upper
    downLimitPrice := convertPriceIfZero info.lower
    preOpenInterest := convertPriceIfZero (Float.ofInt info.preOpeninterest.toNat)
    preSettlement := convertPriceIfZero info.preSettle
    preClose := convertPriceIfZero info.preClose
    volume := msgdata.volume.toInt32
    turnOver := msgdata.turnOver
    openInterest := Float.ofInt msgdata.openinterest.toInt }

/-- mirrors src/dz_gfex_md/src/dz_gfex_md.cpp:752-938
The record passed to `on_msg`, if there is one. -/
def dispatchMessage (find : Bytes → Option StaticInfo) (reset : MarketData) (slot : Slot) :
    Option MarketData :=
  let msgdata := slot.data
  if slot.msgType = l1Md then
    (find msgdata.code).map fun info =>
      let fbMd := fillCommon reset slot info
      { fbMd with
        maxDepth := 1
        iopv := iopvTagLv1
        askPrice := Function.update fbMd.askPrice 0 (convertPriceIfVolumeZero (msgdata.ap 0) (msgdata.av 0))
        askVolume := Function.update fbMd.askVolume 0 (msgdata.av 0).toInt32
        bidPrice := Function.update fbMd.bidPrice 0 (convertPriceIfVolumeZero (msgdata.bp 0) (msgdata.bv 0))
        bidVolume := Function.update fbMd.bidVolume 0 (msgdata.bv 0).toInt32 }
  else if slot.msgType = l2Md then
    (find msgdata.code).map fun info =>
      { fillCommon reset slot info with
        maxDepth := 5
        iopv := iopvTagLv2
        askPrice := fun i => convertPriceIfVolumeZero (msgdata.ap i) (msgdata.av i)
        askVolume := fun i => (msgdata.av i).toInt32
        bidPrice := fun i => convertPriceIfVolumeZero (msgdata.bp i) (msgdata.bv i)
        bidVolume := fun i => (msgdata.bv i).toInt32 }
  else none

/-! ## The two sides of a Level-2 record -/

/-- One side of a published book, as its ten values. -/
structure Side where
  price : Fin 5 → Float
  volume : Fin 5 → Int32

/-- A price, or none, within the limits. -/
def Legal (lower upper price : Float) : Prop := price = dblMax ∨ price ≥ lower ∧ price ≤ upper

/-- No price and no volume on any level. -/
def Side.Empty (s : Side) : Prop := ∀ i, s.price i = dblMax ∧ s.volume i = 0

/-- Every price is legal, and there is none where the volume is 0. -/
structure Side.Ok (lower upper : Float) (s : Side) : Prop where
  legal : ∀ i, Legal lower upper (s.price i)
  volume : ∀ i, s.volume i = 0 → s.price i = dblMax

/-- What `DispatchMessage` makes of the prices and volumes of one side of a slot. -/
def publishSide (price : Fin 5 → Float) (volume : Fin 5 → UInt32) : Side :=
  ⟨fun i => convertPriceIfVolumeZero (price i) (volume i), fun i => (volume i).toInt32⟩

def bidOf (fbMd : MarketData) : Side := ⟨fbMd.bidPrice, fbMd.bidVolume⟩
def askOf (fbMd : MarketData) : Side := ⟨fbMd.askPrice, fbMd.askVolume⟩

/-- A NaN has no value, so it is never published. -/
theorem convert_nan (volume : UInt32) : convertPriceIfVolumeZero float64Nan volume = dblMax :=
  if_neg fun h => absurd h.2 (by decide)

/-- The check of `OnData_lv2` followed by the conversion of `DispatchMessage`. -/
theorem convert_illegalPrice_legal (lower upper price : Float) (volume : UInt32) :
    Legal lower upper (convertPriceIfVolumeZero (illegalPrice lower upper price) volume) := by
  unfold illegalPrice
  split
  · rename_i h
    rcases convertPriceIfVolumeZero_cases price volume with hc | ⟨-, hc⟩
    · exact .inl hc
    · exact .inr (by rwa [hc])
  · exact .inl (convert_nan volume)

/-- A side whose prices passed the check. -/
theorem publishSide_ok {lower upper : Float} (price : Fin 5 → Float) (volume : Fin 5 → UInt32) :
    (publishSide (fun i => illegalPrice lower upper (price i)) volume).Ok lower upper where
  legal i := convert_illegalPrice_legal lower upper (price i) (volume i)
  volume i h := by
    have hv : volume i = 0 := toInt32_eq_zero.mp h
    simp only [publishSide, hv, convertPriceIfVolumeZero_zero]

/-- The side `OnData_lv2` leaves at the defaults of `Quota_t`, bid or ask. -/
theorem publishSide_default : (publishSide Quota.init.bp Quota.init.bv).Empty :=
  fun _ => ⟨convert_nan 0, rfl⟩

theorem Side.Empty.ok {lower upper : Float} {s : Side} (h : s.Empty) : s.Ok lower upper where
  legal i := .inl (h i).1
  volume i _ := (h i).1

/-! ## What is published of a message -/

/-- A Level-2 record is published with its two sides converted. -/
theorem dispatchMessage_lv2 {find : Bytes → Option StaticInfo} {reset fbMd : MarketData} {quota : Quota}
    {t0 t1 : UInt64} (h : dispatchMessage find reset (slotL2 quota t0 t1) = some fbMd) :
    bidOf fbMd = publishSide quota.bp quota.bv ∧ askOf fbMd = publishSide quota.ap quota.av := by
  obtain ⟨info, -, rfl⟩ := Option.map_eq_some_iff.mp (show Option.map _ (find quota.code) = some fbMd from h)
  exact ⟨rfl, rfl⟩

/-- The sides of the record of a message, in the three cases of cpp:622-683. -/
theorem lv2Quota_sides (msgdata : Lv2ObQuote) (extime : UInt64) :
    (publishSide (lv2Quota msgdata extime).bp (lv2Quota msgdata extime).bv).Ok
        msgdata.priceFloor msgdata.priceCeil ∧
      (publishSide (lv2Quota msgdata extime).ap (lv2Quota msgdata extime).av).Ok
        msgdata.priceFloor msgdata.priceCeil ∧
      (allIllegal msgdata.priceFloor msgdata.priceCeil msgdata.ask →
        (publishSide (lv2Quota msgdata extime).bp (lv2Quota msgdata extime).bv).Empty) ∧
      (¬ allIllegal msgdata.priceFloor msgdata.priceCeil msgdata.ask →
        allIllegal msgdata.priceFloor msgdata.priceCeil msgdata.bid →
        (publishSide (lv2Quota msgdata extime).ap (lv2Quota msgdata extime).av).Empty) := by
  have hok := fun (side : Fin 5 → Line) (volume : Fin 5 → UInt32) =>
    @publishSide_ok msgdata.priceFloor msgdata.priceCeil (fun i => (side i).price) volume
  by_cases hask : allIllegal msgdata.priceFloor msgdata.priceCeil msgdata.ask
  · -- limit down: the data of the ask side stands on the bid side
    simp only [lv2Quota, if_pos hask]
    exact ⟨publishSide_default.ok, hok msgdata.bid _, fun _ => publishSide_default, fun h => absurd hask h⟩
  · by_cases hbid : allIllegal msgdata.priceFloor msgdata.priceCeil msgdata.bid
    · simp only [lv2Quota, if_neg hask, if_pos hbid]
      exact ⟨hok msgdata.ask _, publishSide_default.ok, fun h => absurd h hask, fun _ _ => publishSide_default⟩
    · simp only [lv2Quota, if_neg hask, if_neg hbid]
      exact ⟨hok msgdata.bid _, hok msgdata.ask _, fun h => absurd h hask, fun _ h => absurd h hbid⟩

/-- The message the checks of `OnData_lv2` let through is the one received. -/
theorem lv2Front_quote {databuffer : Mem} {size : Nat} {msgdata : Lv2ObQuote} {extime : UInt64}
    (h : lv2Front databuffer size = some (.quote msgdata extime)) : msgdata = Lv2ObQuote.ofMem databuffer := by
  unfold lv2Front at h
  split at h
  · obtain ⟨extime', -, hf⟩ := Option.map_eq_some_iff.mp h
    split at hf
    · exact nomatch hf
    · split at hf
      · exact nomatch hf
      · exact (Front.quote.inj hf).1.symm
  · exact nomatch h

/-- The slot a call of `OnData_lv2` pushes is the record of its message. -/
theorem onDataLv2_pushed {e e' : Entry} {databuffer : Mem} {size : Nat} {t0 t1 : UInt64} {slot : Slot}
    (h : onDataLv2 e databuffer size t0 t1 = some e') (hp : e'.pushed = e.pushed ++ [slot]) :
    ∃ extime, slot = slotL2 (lv2Quota (Lv2ObQuote.ofMem databuffer) extime) t0 t1 := by
  obtain ⟨front, hfront, rfl⟩ := Option.map_eq_some_iff.mp h
  have hne : e.pushed ≠ e.pushed ++ [slot] := fun h => by simp at h
  cases front with
  | ignored => exact absurd hp hne
  | noPrice => exact absurd hp hne
  | quote msgdata extime =>
    have hspec := lv2Filter_spec e msgdata extime t0 t1
    rw [show (lv2Filter e msgdata extime t0 t1).pushed = e.pushed ++ [slot] from hp] at hspec
    split at hspec
    · have h1 := List.append_cancel_left hspec.2
      split at h1
      · exact nomatch h1
      · rw [List.singleton_inj.mp h1, lv2Front_quote hfront]
        exact ⟨extime, rfl⟩
    · exact absurd hspec.2.symm hne

/-- **Legal and one-sided.** What is published of a message `OnData_lv2` pushes. -/
theorem published_legal {e e' : Entry} {databuffer : Mem} {t0 t1 : UInt64} {slot : Slot}
    {find : Bytes → Option StaticInfo} {reset fbMd : MarketData}
    (h : onDataLv2 e databuffer lv2ObQuoteSize t0 t1 = some e') (hp : e'.pushed = e.pushed ++ [slot])
    (hd : dispatchMessage find reset slot = some fbMd) :
    let msgdata := Lv2ObQuote.ofMem databuffer
    (bidOf fbMd).Ok msgdata.priceFloor msgdata.priceCeil ∧ (askOf fbMd).Ok msgdata.priceFloor msgdata.priceCeil ∧
      (allIllegal msgdata.priceFloor msgdata.priceCeil msgdata.ask → (bidOf fbMd).Empty) ∧
      (¬ allIllegal msgdata.priceFloor msgdata.priceCeil msgdata.ask →
        allIllegal msgdata.priceFloor msgdata.priceCeil msgdata.bid → (askOf fbMd).Empty) := by
  obtain ⟨extime, rfl⟩ := onDataLv2_pushed h hp
  obtain ⟨hb, ha⟩ := dispatchMessage_lv2 hd
  rw [hb, ha]
  exact lv2Quota_sides _ extime

open MdInfoSet.L4.Suppression in
/-- A book with the limits 10.0 and 20.0, published with its five bids and asks. -/
theorem published_legal_book : ∃ fbMd,
    dispatchMessage (fun _ => some ⟨0, 0, 0, 0, 0⟩) .zero
      (slotL2 (lv2Quota (Lv2ObQuote.ofMem (sampleBook 1)) 32400000) 0 0) = some fbMd ∧
    (bidOf fbMd).Ok (f64 (sampleBook 1) 172) (f64 (sampleBook 1) 164) := by
  have hfront := sampleFront 1 (by decide)
  have hpush : onDataLv2 Entry.start (sampleBook 1) lv2ObQuoteSize 0 0 =
      some (lv2Filter Entry.start (Lv2ObQuote.ofMem (sampleBook 1)) 32400000 0 0) := by
    rw [onDataLv2, hfront, Option.map_some]
  have hspec := lv2Filter_spec Entry.start (Lv2ObQuote.ofMem (sampleBook 1)) 32400000 0 0
  rw [if_pos (by decide +kernel), if_neg (by decide +kernel)] at hspec
  have hpub : ∃ fbMd, dispatchMessage (fun _ => some ⟨0, 0, 0, 0, 0⟩) .zero
      (slotL2 (lv2Quota (Lv2ObQuote.ofMem (sampleBook 1)) 32400000) 0 0) = some fbMd := ⟨_, rfl⟩
  obtain ⟨fbMd, hd⟩ := hpub
  exact ⟨fbMd, hd, (published_legal hpush hspec.2 hd).1⟩

end MdInfoSet.L4.GfexDispatch
