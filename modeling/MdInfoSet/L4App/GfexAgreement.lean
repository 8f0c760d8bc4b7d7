import MdInfoSet.L4App.DceClock
import MdInfoSet.L4App.ExanicSnapshot

/-!
# Two decoders of one order book

`dz_gfex_md` and `gfex_md_exanic` decode the Level-2 message of the exchange by two
copies of one function (src/dz_gfex_md/src/dz_gfex_md.cpp:454-706,
src/gfex_md_exanic/src/exanic_md.cpp:251-535). One takes the limits from the message,
the other writes them to its entry first and takes them from there; one reads the time
digit by digit, the other by position; one passes the book through `Quota_t`, the
other through `DataQuote`.

**Agreement** (`decoders_agree`). On one message and one filter record both push or
both drop it, leave one filter record, and publish the same values. The name is cut by
`gfex_inst_len` before it is looked up for the dispatch, so that both have to know the
cut name, or neither.
-/
namespace MdInfoSet.L4.GfexAgreement

open MdInfoSet.L1.Lv2Quote MdInfoSet.L2.InstMap MdInfoSet.L2.RingBuffer MdInfoSet.L4.GfexHandlers
open MdInfoSet.L4.Filter MdInfoSet.L4.Publish
open MdInfoSet.L1.ExanicMessages (Lv2Message)
open MdInfoSet.L4.DceClock (digitChar digit_digitChar)
open MdInfoSet.L4.ExanicHandlers (lv2Entry fillEntry lv2DataQuote Verdict transU16)
open MdInfoSet.L4.ExanicSnapshot (quoteOf lv2DataQuote_eq lv2Entry_fst)
open MdInfoSet.L4.GfexDispatch (StaticInfo Side bidOf askOf publishSide)

/-! ## The receiver of `dz_gfex_md` -/

/-- What a Level-2 message meets: the two maps, which `subscribe_inst` fills with the
same names, and what `GfexHandlers.Entry` holds besides the filter record. -/
structure DzReceiver where
  quotaCache : List (Nat × GfexFilter.QuotaInfo)
  staticinfoCache : List (Nat × StaticInfo)
  lv1Quota : Quota
  pushed : List Slot
  sums : Sums

/-- mirrors src/dz_gfex_md/src/dz_gfex_md.cpp:454-706 -/
def DzReceiver.onDataLv2 (r : DzReceiver) (databuffer : Mem) (size : Nat) (t0 t1 : UInt64) :
    Option DzReceiver :=
  if size = lv2ObQuoteSize then
    (cstr (Lv2ObQuote.ofMem databuffer).symbol).bind fun symbol =>
      match find r.quotaCache symbol with
      | none => some r
      | some i => (valueAt r.quotaCache i).bind fun cache =>
        (GfexHandlers.onDataLv2 ⟨cache, r.lv1Quota, r.pushed, r.sums⟩ databuffer size t0 t1).map fun e =>
          { r with
            quotaCache := modify r.quotaCache i fun _ => e.cache
            pushed := e.pushed
            sums := e.sums }
  else some r

/-- mirrors src/dz_gfex_md/src/dz_gfex_md.cpp:752-938 -/
def DzReceiver.dispatch (r : DzReceiver) (reset : MarketData) (slot : Slot) : Option MarketData :=
  GfexDispatch.dispatchMessage (fun code => (find r.staticinfoCache code).bind (valueAt r.staticinfoCache))
    reset slot

/-! ## Reading the time -/

/-- `HH:MM:SS.mmm` with the given digits, and the zero behind it. -/
def timeText (d : Fin 9 → Fin 10) : Bytes :=
  let c := fun i => digitChar (d i)
  [c 0, c 1, 0x3a, c 2, c 3, 0x3a, c 4, c 5, 0x2e, c 6, c 7, c 8, 0]

/-- The field begins with such a text. -/
def IsTime (time : Bytes) : Prop := ∃ d, timeText d <+: time

theorem digitChar_spec (d : Fin 10) :
    digitChar d ≠ 0 ∧ (0x30 ≤ digitChar d ∧ digitChar d ≤ 0x39) ∧ (digitChar d).toNat - 0x30 = d := by
  revert d
  decide

theorem timeNums_digit (d : Fin 10) (cs : Bytes) (nums : Fin 4 → Int) {k : Nat} (hk : k < 4) :
    timeNums (digitChar d :: cs) nums k =
      timeNums cs (fun i => if i = ⟨k, hk⟩ then nums i * 10 + (d : Nat) else nums i) k := by
  obtain ⟨-, hdigit, hval⟩ := digitChar_spec d
  rw [timeNums, if_pos hdigit, dif_pos hk, hval]

theorem timeNums_separator {c : UInt8} (hc : c = 0x3a ∨ c = 0x2e) (cs : Bytes) (nums : Fin 4 → Int) (k : Nat) :
    timeNums (c :: cs) nums k = timeNums cs nums (k + 1) := by
  have hno : ¬ (0x30 ≤ c ∧ c ≤ 0x39) := by
    rcases hc with rfl | rfl <;> decide
  rw [timeNums, if_neg hno, if_pos hc]

/-- The four numbers of a text. -/
def timeNumbers (d : Fin 9 → Fin 10) : Fin 4 → Int := fun i =>
  if i = 0 then (d 0 : Nat) * 10 + (d 1 : Nat)
  else if i = 1 then (d 2 : Nat) * 10 + (d 3 : Nat)
  else if i = 2 then (d 4 : Nat) * 10 + (d 5 : Nat)
  else ((d 6 : Nat) * 10 + (d 7 : Nat)) * 10 + (d 8 : Nat)

theorem timeNumbers_lt (d : Fin 9 → Fin 10) (i : Fin 4) : timeNumbers d i < 1000 := by
  have h0 := (d 0).isLt
  have h1 := (d 1).isLt
  have h2 := (d 2).isLt
  have h3 := (d 3).isLt
  have h4 := (d 4).isLt
  have h5 := (d 5).isLt
  have h6 := (d 6).isLt
  have h7 := (d 7).isLt
  have h8 := (d 8).isLt
  unfold timeNumbers
  repeat' split
  all_goals omega

/-- Two digits in a row. -/
theorem timeNums_two (a b : Fin 10) (cs : Bytes) (nums : Fin 4 → Int) {k : Nat} (hk : k < 4) :
    timeNums (digitChar a :: digitChar b :: cs) nums k =
      timeNums cs (Function.update nums ⟨k, hk⟩ ((nums ⟨k, hk⟩ * 10 + (a : Nat)) * 10 + (b : Nat))) k := by
  rw [timeNums_digit a _ nums hk, timeNums_digit b _ _ hk]
  congr 1
  funext i
  by_cases hi : i = ⟨k, hk⟩ <;> simp [hi, Function.update]

theorem timeNums_text (d : Fin 9 → Fin 10) :
    (cstr (timeText d)).bind (timeNums · (fun _ => 0) 0) = some (timeNumbers d) := by
  have hne := fun i => (digitChar_spec (d i)).1
  simp only [timeText, cstr_cons (hne _), cstr_cons (show (0x3a : UInt8) ≠ 0 by decide),
    cstr_cons (show (0x2e : UInt8) ≠ 0 by decide), cstr, Option.map_some, Option.bind_some]
  rw [timeNums_two _ _ _ _ (show 0 < 4 by decide), timeNums_separator (.inl rfl),
    timeNums_two _ _ _ _ (show 1 < 4 by decide), timeNums_separator (.inl rfl),
    timeNums_two _ _ _ _ (show 2 < 4 by decide), timeNums_separator (.inr rfl),
    timeNums_two _ _ _ _ (show 3 < 4 by decide), timeNums_digit _ _ _ (show 3 < 4 by decide), timeNums]
  congr 1
  funext i
  have hi : i = 0 ∨ i = 1 ∨ i = 2 ∨ i = 3 := by
    revert i
    decide
  rcases hi with rfl | rfl | rfl | rfl <;> simp [timeNumbers, Function.update]

/-- The two ways of reading a time give one instant. -/
theorem timeStrToUtcS_text {time : Bytes} (h : IsTime time) :
    timeStrToUtcS time = some (ExanicHandlers.timeStrToUtcS time) := by
  obtain ⟨d, rest, rfl⟩ := h
  obtain ⟨s, hs, hnums⟩ := Option.bind_eq_some_iff.mp (timeNums_text d)
  have hstr : cstr (timeText d ++ rest) = some s := by rw [cstr_append (by rw [hs]; rfl), hs]
  have hlt : ∀ i, timeNumbers d i < 2 ^ 31 := fun i => Int.lt_trans (timeNumbers_lt d i) (by decide)
  have hdigit : ∀ i, DceFilter.digit (digitChar (d i)) = (d i : Nat) := fun i => by
    rw [digit_digitChar, Nat.mod_eq_of_lt (d i).isLt]
  have hpos : ExanicHandlers.timeStrToUtcS (timeText d ++ rest) =
      UInt64.ofInt (((d 0 : Nat) * 10 + (d 1 : Nat)) * 3600000 + ((d 2 : Nat) * 10 + (d 3 : Nat)) * 60000 +
        ((d 4 : Nat) * 10 + (d 5 : Nat)) * 1000 + ((d 6 : Nat) * 100 + (d 7 : Nat) * 10 + (d 8 : Nat))) := by
    simp only [← hdigit]
    rfl
  rw [timeStrToUtcS, hstr, Option.bind_eq_bind, Option.bind_some, hnums, Option.bind_eq_bind, Option.bind_some,
    if_pos hlt, hpos]
  congr 2
  simp only [timeNumbers, if_true, Fin.reduceEq, if_false]
  omega

/-! ## One message in two buffers -/

/-- The message at `databuffer` is the one the frame carries, which passes the checks of
`gfex_md_exanic`. -/
structure SameMessage (level2BelongTo : Nat → Nat → Bool) (databuffer frame : Mem) : Prop where
  bytes : ∀ i, i < lv2ObQuoteSize → frame.shift 42 i = databuffer i
  belongTo : level2BelongTo (frame.u32 30) (frame.u16 36) = true
  dataLen : transU16 frame 38 = 684

/-- Only the 676 bytes of the message are read. -/
theorem ofMem_congr {d d' : Mem} (h : ∀ i, i < lv2ObQuoteSize → d i = d' i) :
    Lv2ObQuote.ofMem d = Lv2ObQuote.ofMem d' := by
  have hf : ∀ off, off + 8 ≤ lv2ObQuoteSize → f64 d off = f64 d' off := fun off ho => by
    rw [f64, f64, Mem.u64_congr h ho]
  have hi : ∀ off, off + 4 ≤ lv2ObQuoteSize → int32 d off = int32 d' off := fun off ho => by
    rw [int32, int32, Mem.u32_congr h ho]
  have hline : ∀ off, off + 16 ≤ lv2ObQuoteSize → Line.ofMem d off = Line.ofMem d' off := fun off ho => by
    rw [Line.ofMem, Line.ofMem, hf off (by omega), hi (off + 8) (by omega), hi (off + 12) (by omega)]
  have hs : ∀ off, off ≤ lv2ObQuoteSize →
      d.slice off (lv2ObQuoteSize - off) = d'.slice off (lv2ObQuoteSize - off) := fun off ho =>
    Mem.slice_congr h (by omega)
  have hside : ∀ off, off + 160 ≤ lv2ObQuoteSize →
      (fun i : Fin 5 => Line.ofMem d (off + 32 * i)) = fun i : Fin 5 => Line.ofMem d' (off + 32 * i) :=
    fun off ho => funext fun i => hline _ (by omega)
  unfold Lv2ObQuote.ofMem
  rw [hs 17 (by decide), hf 88 (by decide), hf 96 (by decide), hf 104 (by decide), hi 116 (by decide),
    hf 120 (by decide), hi 132 (by decide), hf 140 (by decide), hf 164 (by decide), hf 172 (by decide),
    hs 236 (by decide), hf 252 (by decide), hf 260 (by decide), hside 272 (by decide), hside 432 (by decide)]

/-! ## One filter record -/

/-- The work on the entry: both receivers come to one filter record, and push or not. -/
theorem onDataLv2_lv2Entry {databuffer : Mem} {msgdata : Lv2Message} {e : Entry}
    {cache : ExanicHandlers.QuotaInfo}
    (hmsg : msgdata.toLv2ObQuote = Lv2ObQuote.ofMem databuffer) (htime : IsTime msgdata.time)
    (hcache : e.cache = cache.toQuotaInfo) (t0 t1 : UInt64) :
    ∃ e', GfexHandlers.onDataLv2 e databuffer lv2ObQuoteSize t0 t1 = some e' ∧
      e'.cache = (lv2Entry cache msgdata).1.toQuotaInfo ∧
      e'.pushed = e.pushed ++ if (lv2Entry cache msgdata).2 = .pushed then
        [slotL2 (lv2Quota msgdata.toLv2ObQuote (ExanicHandlers.timeStrToUtcS msgdata.time)) t0 t1] else [] := by
  have hfront : lv2Front databuffer lv2ObQuoteSize = some
      (if ExanicHandlers.timeStrToUtcS msgdata.time > 3600 * 15 * 1000 then .ignored
      else if illegal msgdata.priceFloor msgdata.priceCeil (msgdata.ask 0).price ∧
        illegal msgdata.priceFloor msgdata.priceCeil (msgdata.bid 0).price then .noPrice
      else .quote msgdata.toLv2ObQuote (ExanicHandlers.timeStrToUtcS msgdata.time)) := by
    rw [lv2Front, if_pos rfl, ← hmsg]
    dsimp only
    rw [timeStrToUtcS_text htime, Option.map_some]
  rw [GfexHandlers.onDataLv2, hfront, Option.map_some]
  refine ⟨_, rfl, ?_⟩
  unfold lv2Entry
  dsimp only
  by_cases hlate : ExanicHandlers.timeStrToUtcS msgdata.time > 3600 * 15 * 1000
  · simp only [if_pos hlate, hcache]
    exact ⟨rfl, (List.append_nil _).symm⟩
  · simp only [if_neg hlate]
    by_cases hprice : illegal msgdata.priceFloor msgdata.priceCeil (msgdata.ask 0).price ∧
        illegal msgdata.priceFloor msgdata.priceCeil (msgdata.bid 0).price
    · have hprice' :
          illegal (fillEntry cache msgdata).lower (fillEntry cache msgdata).upper (msgdata.ask 0).price ∧
          illegal (fillEntry cache msgdata).lower (fillEntry cache msgdata).upper (msgdata.bid 0).price :=
        hprice
      simp only [if_pos hprice, if_pos hprice', hcache]
      exact ⟨rfl, (List.append_nil _).symm⟩
    · have hprice' :
          ¬ (illegal (fillEntry cache msgdata).lower (fillEntry cache msgdata).upper (msgdata.ask 0).price ∧
          illegal (fillEntry cache msgdata).lower (fillEntry cache msgdata).upper (msgdata.bid 0).price) :=
        hprice
      simp only [if_neg hprice, if_neg hprice']
      -- the filter is asked with the same values
      have hvalid : validLv2 e.cache msgdata.toLv2ObQuote (ExanicHandlers.timeStrToUtcS msgdata.time) =
          GfexFilter.isValidQuota (fillEntry cache msgdata).toQuotaInfo
            (ExanicHandlers.timeStrToUtcS msgdata.time) (int32ToU64 msgdata.volume) 5 (msgdata.ask 0).price (msgdata.bid 0).price
            ((decoded msgdata.toLv2ObQuote).av 0) ((decoded msgdata.toLv2ObQuote).bv 0) := by
        rw [validLv2, hcache]
        rfl
      simp only [lv2Filter, hvalid, ExanicHandlers.isValidQuota]
      repeat' split
      all_goals simp_all

/-! ## One record -/

/-- The fields of a published record that come from the message. -/
structure Snapshot where
  instrumentId : Bytes
  updateSec : Int32
  updateMsec : Int32
  lastPrice : Float
  volume : Int32
  turnOver : Float
  openInterest : Float
  bid : Side
  ask : Side

def snapshot (fbMd : MarketData) : Snapshot where
  instrumentId := fbMd.instrumentId
  updateSec := fbMd.updateSec
  updateMsec := fbMd.updateMsec
  lastPrice := fbMd.lastPrice
  volume := fbMd.volume
  turnOver := fbMd.turnOver
  openInterest := fbMd.openInterest
  bid := bidOf fbMd
  ask := askOf fbMd

/-- The snapshot of a message, under the name it is published with. -/
def snapshotOf (msgdata : Lv2Message) (extime : UInt64) (inst : Bytes) : Snapshot where
  instrumentId := inst
  updateSec := updateSec extime
  updateMsec := updateMsec extime
  lastPrice := convertPriceIfZero msgdata.lastPrice
  volume := msgdata.volume
  turnOver := msgdata.turnover
  openInterest := Float.ofInt msgdata.openInterest.toInt
  bid := publishSide (quoteOf msgdata inst).bp (quoteOf msgdata inst).bv
  ask := publishSide (quoteOf msgdata inst).ap (quoteOf msgdata inst).av

/-- The record of `dz_gfex_md` holds the book of the record of `gfex_md_exanic`. -/
theorem lv2Quota_book (msgdata : Lv2Message) (extime : UInt64) (inst : Bytes) :
    let quota := lv2Quota msgdata.toLv2ObQuote extime
    quota.bp = (quoteOf msgdata inst).bp ∧ quota.bv = (quoteOf msgdata inst).bv ∧
      quota.ap = (quoteOf msgdata inst).ap ∧ quota.av = (quoteOf msgdata inst).av := by
  unfold lv2Quota quoteOf lv2DataQuote
  dsimp only
  have hlimits : (fillEntry .zero msgdata).lower = msgdata.priceFloor ∧
      (fillEntry .zero msgdata).upper = msgdata.priceCeil := ⟨rfl, rfl⟩
  rw [hlimits.1, hlimits.2]
  repeat' split
  all_goals exact ⟨rfl, rfl, rfl, rfl⟩

theorem lv2Quota_fields (msgdata : Lv2ObQuote) (extime : UInt64) :
    let quota := lv2Quota msgdata extime
    quota.code = symbolOf msgdata ∧ quota.extime = extime ∧ quota.lastPrice = msgdata.lastPrice ∧
      quota.volume = msgdata.volume.toUInt32 ∧ quota.turnOver = msgdata.turnover ∧
      quota.openinterest = msgdata.openInterest := by
  unfold lv2Quota
  dsimp only
  repeat' split
  all_goals exact ⟨rfl, rfl, rfl, rfl, rfl, rfl⟩

theorem dispatch_snapshot (find : Bytes → Option StaticInfo) (reset : MarketData) (msgdata : Lv2Message)
    (extime t0 t1 : UInt64) :
    (GfexDispatch.dispatchMessage find reset (slotL2 (lv2Quota msgdata.toLv2ObQuote extime) t0 t1)).map snapshot =
      (find (symbolOf msgdata.toLv2ObQuote)).map fun _ =>
        snapshotOf msgdata extime (symbolOf msgdata.toLv2ObQuote) := by
  obtain ⟨hcode, hextime, hlast, hvolume, hturn, hopen⟩ := lv2Quota_fields msgdata.toLv2ObQuote extime
  obtain ⟨hbp, hbv, hap, hav⟩ := lv2Quota_book msgdata extime (symbolOf msgdata.toLv2ObQuote)
  have hd : GfexDispatch.dispatchMessage find reset (slotL2 (lv2Quota msgdata.toLv2ObQuote extime) t0 t1) =
      (find (lv2Quota msgdata.toLv2ObQuote extime).code).map _ := rfl
  rw [hd, hcode, Option.map_map]
  congr 1
  funext info
  simp only [Function.comp, snapshot, snapshotOf, bidOf, askOf, publishSide, GfexDispatch.fillCommon, slotL2,
    hcode, hextime, hlast, hvolume, hturn, hopen, hbp, hbv, hap, hav, Int32.toInt32_toUInt32]

theorem quoteOf_rest (msgdata : Lv2Message) (inst : Bytes) :
    (quoteOf msgdata inst).turnover = msgdata.turnover ∧
      (quoteOf msgdata inst).openinterest = msgdata.openInterest ∧
      (quoteOf msgdata inst).extime = ExanicHandlers.timeStrToUtcS msgdata.time := by
  unfold quoteOf lv2DataQuote
  dsimp only
  repeat' split
  all_goals exact ⟨rfl, rfl, rfl⟩

/-- The slot `OnData_lv2` of `gfex_md_exanic` pushes. -/
def exanicSlot (msgdata : Lv2Message) (inst : Bytes) (t0 : UInt64) : ExanicHandlers.Slot :=
  ⟨ExanicHandlers.timeStrToUtcS msgdata.time, t0, l2Md, quoteOf msgdata inst⟩

theorem exanic_dispatch_snapshot (reset : MarketData) (x : ExanicHandlers.Receiver) (msgdata : Lv2Message)
    (inst : Bytes) (t0 : UInt64) :
    (ExanicSnapshot.dispatchMessage reset x (exanicSlot msgdata inst t0)).map snapshot =
      (ExanicHandlers.entryOf x inst).map fun _ =>
        snapshotOf msgdata (ExanicHandlers.timeStrToUtcS msgdata.time) inst := by
  obtain ⟨hinst, hlast, hvolume⟩ := ExanicSnapshot.quoteOf_fields msgdata inst
  obtain ⟨hturn, hopen, -⟩ := quoteOf_rest msgdata inst
  have hl1 : l2Md ≠ l1Md := by decide
  simp only [ExanicSnapshot.dispatchMessage, exanicSlot, hinst]
  cases ExanicHandlers.entryOf x inst with
  | none => rfl
  | some cache =>
    simp only [Option.bind_some, if_neg hl1, if_true, Option.map_some, snapshot, snapshotOf, bidOf, askOf,
      publishSide, ExanicSnapshot.fillCommon, hinst, hlast, hvolume, hturn, hopen]

/-! ## Agreement -/

/-- What the two calls leave: one filter record, and a push in both receivers or in
neither; dispatched before anything else comes, the two slots are published alike. -/
structure Agree (reset : MarketData) (r r' : DzReceiver) (x x' : ExanicHandlers.Receiver) (i j : Nat) :
    Prop where
  record : valueAt r'.quotaCache i = (valueAt x'.items j).map (·.toQuotaInfo)
  outcome : (r'.pushed = r.pushed ∧ x'.queue = x.queue) ∨
    ∃ slot q, r'.pushed = r.pushed ++ [slot] ∧ x'.queue = x.queue ++ [q] ∧
      (r'.dispatch reset slot).map snapshot = (ExanicSnapshot.dispatchMessage reset x' q.slot).map snapshot

section Calls

variable {level2BelongTo : Nat → Nat → Bool} {r : DzReceiver} {x x' : ExanicHandlers.Receiver}
  {databuffer frame : Mem} {symbol : Bytes} {i j : Nat} {cache : ExanicHandlers.QuotaInfo} {v : Option Verdict}

theorem gfexInstLen_le (s : Bytes) : gfexInstLen s ≤ s.length := by
  unfold gfexInstLen
  split
  · exact Nat.le_refl _
  · have := List.length_filter_le (fun c : UInt8 => decide (0x30 ≤ c ∧ c ≤ 0x39)) (s.drop 9)
    rw [List.length_drop] at this
    omega

/-- A call of `gfex_md_exanic` on a message of an instrument it knows. -/
theorem exanic_onDataLv2 (hmsg : SameMessage level2BelongTo databuffer frame)
    (hs : cstr (Lv2Message.ofMem (frame.shift 42)).symbol = some symbol) (hshort : symbol.length ≤ 15)
    (hj : find x.items symbol = some j) (hc : valueAt x.items j = some cache) (t0 : UInt64) :
    let msgdata := Lv2Message.ofMem (frame.shift 42)
    let x1 := { x with items := modify x.items j fun _ => (lv2Entry cache msgdata).1 }
    ExanicHandlers.onDataLv2 level2BelongTo x frame t0 =
      if (lv2Entry cache msgdata).2 = .pushed then
        if ExanicHandlers.ringBufferSize ≤ x.queue.length then none
        else some ({ x1 with queue := x.queue ++
          [⟨exanicSlot msgdata (symbol.take (gfexInstLen symbol)) t0, some msgdata⟩] }, some .pushed)
      else some (x1, some (lv2Entry cache msgdata).2) := by
  have hlen : ¬ ExanicHandlers.instSize ≤ gfexInstLen symbol := by
    have := gfexInstLen_le symbol
    unfold ExanicHandlers.instSize
    omega
  rw [ExanicHandlers.onDataLv2, if_pos ⟨hmsg.belongTo, hmsg.dataLen⟩]
  dsimp only
  rw [hs, Option.bind_some, ExanicHandlers.onMessage, hj]
  dsimp only
  rw [hc, Option.bind_some, if_neg hlen]
  cases hv : (lv2Entry cache (Lv2Message.ofMem (frame.shift 42))).2 with
  | pushed =>
    rw [if_neg (by decide), if_neg (by decide), if_pos rfl]
    simp only [lv2DataQuote_eq, (quoteOf_rest _ _).2.2, exanicSlot]
  | noVolume => rw [if_neg (by decide), if_pos rfl, if_neg (by decide)]
  | afterClose | noPrice | timeError | volError | repeatL1 => rw [if_pos (by decide), if_neg (by decide)]

/-- The name both receivers give the record. -/
theorem symbolOf_eq {msgdata : Lv2ObQuote} (hs : cstr msgdata.symbol = some symbol) :
    symbolOf msgdata = symbol.take (gfexInstLen symbol) := by
  rw [symbolOf, hs]
  rfl

/-- Both receivers know the name, or neither does. -/
theorem lookup_agree {T U : Type} {items : List (Nat × T)} {items' : List (Nat × U)} {code : Bytes}
    (h : (find items code).isSome = (find items' code).isSome) {S : Type} (s : S) :
    ((find items code).bind (valueAt items)).map (fun _ => s) =
      ((find items' code).bind (valueAt items')).map fun _ => s := by
  cases hi : find items code with
  | none =>
    rw [hi, Option.isSome_none, eq_comm, Option.isSome_eq_false_iff, Option.isNone_iff_eq_none] at h
    rw [h]
    rfl
  | some k =>
    rw [hi, Option.isSome_some, eq_comm, Option.isSome_iff_exists] at h
    obtain ⟨k', hk'⟩ := h
    obtain ⟨w, hw⟩ := valueAt_isSome hi
    obtain ⟨w', hw'⟩ := valueAt_isSome hk'
    simp only [hk', Option.bind_some, hw, hw', Option.map_some]

/-- **Agreement.** The call of `gfex_md_exanic` waits while its ring is full. -/
theorem decoders_agree (hmsg : SameMessage level2BelongTo databuffer frame)
    (hs : cstr (Lv2ObQuote.ofMem databuffer).symbol = some symbol) (hshort : symbol.length ≤ 15)
    (htime : IsTime (Lv2ObQuote.ofMem databuffer).time) (hi : find r.quotaCache symbol = some i)
    (hj : find x.items symbol = some j) (hc : valueAt x.items j = some cache)
    (hprior : valueAt r.quotaCache i = some cache.toQuotaInfo)
    (hcut : (find r.staticinfoCache (symbol.take (gfexInstLen symbol))).isSome =
      (find x.items (symbol.take (gfexInstLen symbol))).isSome) (reset : MarketData) (t0 t1 t0' : UInt64) :
    (x.queue.length < ExanicHandlers.ringBufferSize →
      (ExanicHandlers.onDataLv2 level2BelongTo x frame t0').isSome) ∧
    ∃ r', r.onDataLv2 databuffer lv2ObQuoteSize t0 t1 = some r' ∧
      ∀ x' v, ExanicHandlers.onDataLv2 level2BelongTo x frame t0' = some (x', v) → Agree reset r r' x x' i j := by
  have hof : (Lv2Message.ofMem (frame.shift 42)).toLv2ObQuote = Lv2ObQuote.ofMem databuffer :=
    ofMem_congr hmsg.bytes
  have hs' : cstr (Lv2Message.ofMem (frame.shift 42)).symbol = some symbol := by rw [hof, hs]
  have hex := exanic_onDataLv2 hmsg hs' hshort hj hc t0'
  obtain ⟨e', he, hcache, hpushed⟩ := @onDataLv2_lv2Entry databuffer _
    ⟨cache.toQuotaInfo, r.lv1Quota, r.pushed, r.sums⟩ cache hof (by rw [hof]; exact htime) rfl t0 t1
  have hsym := symbolOf_eq hs'
  generalize hm : Lv2Message.ofMem (frame.shift 42) = msgdata at *
  dsimp only at hex
  refine ⟨fun hroom => ?_,
    { r with quotaCache := modify r.quotaCache i (fun _ => e'.cache), pushed := e'.pushed, sums := e'.sums },
    ?_, fun x' v h => ?_⟩
  · rw [hex]
    split
    · rw [if_neg (by omega)]
      rfl
    · rfl
  · rw [DzReceiver.onDataLv2, if_pos rfl, hs, Option.bind_some, hi]
    dsimp only
    rw [hprior, Option.bind_some, he, Option.map_some]
  · rw [hex] at h
    have hrec : ∀ x' : ExanicHandlers.Receiver,
        x'.items = modify x.items j (fun _ => (lv2Entry cache msgdata).1) →
        valueAt (modify r.quotaCache i fun _ => e'.cache) i = (valueAt x'.items j).map (·.toQuotaInfo) := by
      intro x' hitems
      rw [hitems, valueAt_modify_self, valueAt_modify_self, hc, hprior, hcache]
      rfl
    split at h
    · rename_i hv
      split at h
      · cases h
      · cases h
        refine ⟨hrec _ rfl, .inr ⟨_, _, by rw [hpushed, if_pos hv], rfl, ?_⟩⟩
        rw [DzReceiver.dispatch, dispatch_snapshot, exanic_dispatch_snapshot, hsym, ExanicHandlers.entryOf]
        exact lookup_agree (by rw [find_modify]; exact hcut) _
    · rename_i hv
      cases h
      exact ⟨hrec _ rfl, .inl ⟨by rw [hpushed, if_neg hv, List.append_nil], rfl⟩⟩

end Calls

/-! ## A name only one of them knows -/

/-- The frame of `ExanicSnapshot.bookFrame` for another instrument, at 09:00:00.000. -/
def frameOf (symbol : Bytes) : Mem := fun i =>
  if 59 ≤ i ∧ i ≤ 59 + symbol.length then (symbol ++ [0]).getD (i - 59) 0
  else if 286 ≤ i ∧ i < 290 then [0x2e, 0x30, 0x30, 0x30].getD (i - 286) 0
  else ExanicSnapshot.bookFrame 0x28 i

/-- `lc2601-C-5000A`, and what `gfex_inst_len` makes of it: `lc2601-C-5000` -/
def longName : Bytes := [0x6c, 0x63, 0x32, 0x36, 0x30, 0x31, 0x2d, 0x43, 0x2d, 0x35, 0x30, 0x30, 0x30, 0x41]
def cutName : Bytes := longName.take (gfexInstLen longName)

/-- The receivers with the given names, and zeroed records. -/
def DzReceiver.subscribed (names : List Bytes) : DzReceiver where
  quotaCache := names.map fun n => (charsToUint128 n, .zero)
  staticinfoCache := names.map fun n => (charsToUint128 n, ⟨0, 0, 0, 0, 0⟩)
  lv1Quota := Quota.init
  pushed := []
  sums := ⟨0, 0, 0, 0, 0, 0⟩

def exanicSubscribed (names : List Bytes) : ExanicHandlers.Receiver :=
  ⟨names.map fun n => (charsToUint128 n, .zero), []⟩

theorem frameOf_isTime : ∀ symbol ∈ [ExanicHandlers.lc2601, longName],
    IsTime (Lv2ObQuote.ofMem ((frameOf symbol).shift 42)).time := by
  have htext : ∀ symbol ∈ [ExanicHandlers.lc2601, longName], timeText ![0, 9, 0, 0, 0, 0, 0, 0, 0] <+:
      (Lv2ObQuote.ofMem ((frameOf symbol).shift 42)).time := by decide +kernel
  exact fun symbol h => ⟨_, htext symbol h⟩

/-- A message of `lc2601` at 09:00:00, the same in both. -/
theorem decoders_agree_book : ∃ r', (DzReceiver.subscribed [ExanicHandlers.lc2601]).onDataLv2
      ((frameOf ExanicHandlers.lc2601).shift 42) lv2ObQuoteSize 0 0 = some r' ∧
    ∀ x' v, ExanicHandlers.onDataLv2 (fun _ _ => true) (exanicSubscribed [ExanicHandlers.lc2601])
      (frameOf ExanicHandlers.lc2601) 0 = some (x', v) →
      Agree .zero (.subscribed [ExanicHandlers.lc2601]) r' (exanicSubscribed [ExanicHandlers.lc2601]) x' 0 0 :=
  (decoders_agree ⟨fun _ _ => rfl, rfl, by decide +kernel⟩ (by decide +kernel) (by decide)
    (frameOf_isTime _ (by simp))
    (find_singleton rfl) (find_singleton rfl) rfl rfl (by decide +kernel) .zero 0 0 0).2

/-- **Counterexample.** `lc2601-C-5000A` is subscribed in both receivers, `lc2601-C-5000` in
one: both push the message, and only that one publishes it. -/
theorem cut_name_of_one : ¬ ∀ (level2BelongTo : Nat → Nat → Bool) (r r' : DzReceiver)
    (x x' : ExanicHandlers.Receiver) (databuffer frame : Mem) (symbol : Bytes) (i j : Nat)
    (cache : ExanicHandlers.QuotaInfo) (v : Option Verdict),
    SameMessage level2BelongTo databuffer frame → cstr (Lv2ObQuote.ofMem databuffer).symbol = some symbol →
    symbol.length ≤ 15 → IsTime (Lv2ObQuote.ofMem databuffer).time → find r.quotaCache symbol = some i →
    find r.staticinfoCache symbol = some i → find x.items symbol = some j → valueAt x.items j = some cache →
    valueAt r.quotaCache i = some cache.toQuotaInfo →
    r.onDataLv2 databuffer lv2ObQuoteSize 0 0 = some r' →
    ExanicHandlers.onDataLv2 level2BelongTo x frame 0 = some (x', v) → Agree .zero r r' x x' i j := by
  intro h
  have hdz : ((DzReceiver.subscribed [longName]).onDataLv2 ((frameOf longName).shift 42) lv2ObQuoteSize 0 0).map
      (fun r' => r'.pushed.map fun slot => (r'.dispatch .zero slot).isSome) = some [false] := by decide +kernel
  have hex : (ExanicHandlers.onDataLv2 (fun _ _ => true) (exanicSubscribed [cutName, longName])
      (frameOf longName) 0).map
      (fun x' => x'.1.queue.map fun q => (ExanicSnapshot.dispatchMessage .zero x'.1 q.slot).isSome) =
        some [true] := by decide +kernel
  obtain ⟨r', hr', hpub⟩ := Option.map_eq_some_iff.mp hdz
  obtain ⟨⟨x', v⟩, hx', hpub'⟩ := Option.map_eq_some_iff.mp hex
  have hagree := h (fun _ _ => true) _ r' _ x' _ (frameOf longName) longName 0 1 .zero v
    ⟨fun _ _ => rfl, rfl, by decide +kernel⟩ (by decide +kernel) (by decide) (frameOf_isTime _ (by simp))
    (find_singleton rfl) (find_singleton rfl) (by decide +kernel) rfl rfl hr' hx'
  rcases hagree.outcome with ⟨hnone, -⟩ | ⟨slot, q, hslot, hq, hsame⟩
  · rw [hnone] at hpub
    cases hpub
  · have hslot' : r'.pushed = [slot] := hslot
    have hq' : x'.queue = [q] := hq
    rw [hslot', List.map_singleton, List.singleton_inj] at hpub
    rw [hq', List.map_singleton, List.singleton_inj] at hpub'
    have hsome := congrArg Option.isSome hsame
    rw [Option.isSome_map, Option.isSome_map, hpub, hpub'] at hsome
    cases hsome

end MdInfoSet.L4.GfexAgreement
