import MdInfoSet.Core.Binary64Normal
import MdInfoSet.L4App.Lv1Increments
import MdInfoSet.L4App.SzseBounds

/-!
# The entries of an SZSE snapshot

What the loop over the entries makes of a snapshot
(src/szse_etf_mdsz/src/qx_sz_md_etf_option.cpp:299-447). The type of an entry is compared as
it stands in memory, the other fields are turned round first, and behind each entry stand
eight bytes for each of its `NoOrders` orders, which are passed over.

Of any snapshot the loop finds each entry where it was put, and the quote is filled from the
last entry of each kind, whatever the orders are. `MdEntryPx` is declared `int64_t` and taken
through `MyTransU64`, and the setters of the volumes take an `int32_t`.

**Exact condition.** What is published are the price and the size the entry gives if and only
if none of the last entries has a negative price or 2^31 lots (`entries_decoded_iff`).

**Counterexample.** A price of -1.0 is published as about 1.8e13 (`price_unsigned`).
-/
namespace MdInfoSet.L4.SzseEntries

open MdInfoSet.L1.SzseSnapshot MdInfoSet.L4.Publish MdInfoSet.L4.SzseBounds MdInfoSet.L4.SzseOption
open MdInfoSet.L1.ZxMessage (le16 u16_of_starts)
open MdInfoSet.L4.Lv1Increments (bigEndian bigEndian_add bigEndian_length)
open MdInfoSet.KeyedWrites (lastValue lastValue_nil lastValue_cons)
open MdInfoSet.Binary64 (IsNormal isNormal_toFloat)

/-! ## Snapshots -/

/-- What an entry says of the quote. -/
structure Quoted where
  mdEntryType : UInt16
  mdEntryPx : UInt64
  mdEntrySize : UInt64
  mdPriceLevel : UInt16

/-- An entry (MdszRecv.h), with the orders behind it. -/
structure Entry extends Quoted where
  numberOfOrders : UInt64
  noOrders : UInt32
  orders : Bytes
  orders_length : orders.length = 8 * noOrders.toNat

/-- A snapshot of any instrument: what stands in front of `NoMDEntries`, and the entries. -/
structure Snapshot where
  head : Bytes
  head_length : head.length = 73
  entries : List Entry

/-- The type is sent as it is compared. -/
def Entry.encode (e : Entry) : Bytes :=
  le16 e.mdEntryType.toNat ++ (bigEndian 8 e.mdEntryPx.toNat ++ (bigEndian 8 e.mdEntrySize.toNat ++
    (bigEndian 2 e.mdPriceLevel.toNat ++ (bigEndian 8 e.numberOfOrders.toNat ++
      (bigEndian 4 e.noOrders.toNat ++ e.orders)))))

def encodeEntries (entries : List Entry) : Bytes := entries.flatMap Entry.encode

def Snapshot.encode (s : Snapshot) : Bytes :=
  s.head ++ (bigEndian 4 s.entries.length ++ encodeEntries s.entries)

/-- The entry as the loop is to read it. -/
def Entry.read (e : Entry) : SzseMDEntry300111 :=
  ⟨e.mdEntryType.toNat, e.mdEntryPx, e.mdEntrySize, e.mdPriceLevel.toNat, e.noOrders.toNat⟩

/-- Where the entries from `o` on are put. -/
def offsets (o : Nat) : List Entry → List Nat
  | [] => []
  | e :: entries => o :: offsets (o + e.encode.length) entries

@[simp] theorem Entry.length_encode (e : Entry) :
    e.encode.length = szseMDEntry300111Size + 8 * e.noOrders.toNat := by
  simp only [Entry.encode, le16, List.length_append, List.length_cons, List.length_nil, bigEndian_length,
    e.orders_length, szseMDEntry300111Size]
  omega

@[simp] theorem encodeEntries_nil : encodeEntries [] = [] := rfl

@[simp] theorem encodeEntries_cons (e : Entry) (entries : List Entry) :
    encodeEntries (e :: entries) = e.encode ++ encodeEntries entries :=
  List.flatMap_cons

theorem Snapshot.length_encode (s : Snapshot) :
    s.encode.length = szseSnapShotSize + (encodeEntries s.entries).length := by
  simp only [Snapshot.encode, List.length_append, bigEndian_length, s.head_length, szseSnapShotSize]
  omega

/-- There are fewer entries than bytes. -/
theorem length_le_encodeEntries (entries : List Entry) : entries.length ≤ (encodeEntries entries).length := by
  induction entries with
  | nil => simp
  | cons e entries ih =>
    rw [encodeEntries_cons, List.length_append, List.length_cons, Entry.length_encode, szseMDEntry300111Size]
    omega

/-! ## The quote -/

/-- The price as it is published. -/
def Quoted.price (q : Quoted) : Float := q.mdEntryPx.toFloat / 1000000

/-- The price that the `int64_t` of an entry stands for. -/
def Quoted.signedPrice (q : Quoted) : Float :=
  if q.mdEntryPx.toNat < 2 ^ 63 then q.mdEntryPx.toFloat / 1000000 else -((-q.mdEntryPx).toFloat / 1000000)

/-- The lots of an entry. -/
def Quoted.lots (q : Quoted) : Int := (q.mdEntrySize.toNat / 100 : Nat)

/-- What the `int32_t` of a setter holds of the size. -/
def Quoted.volume (q : Quoted) : Int32 := Int32.ofNat (q.mdEntrySize.toNat / 100)

def Quoted.openInterest (q : Quoted) : Float := q.mdEntrySize.toFloat / 100

def Quoted.ofType (type : Nat) (q : Quoted) : Bool := q.mdEntryType.toNat = type

def Quoted.ofLevel (side : Nat) (i : Fin 5) (q : Quoted) : Bool :=
  q.mdEntryType.toNat = side ∧ q.mdPriceLevel.toNat = i + 1

/-- The quote with the values of the last entry of each side and level and of each type; all
else is as it was. -/
def filled (fbMd : MarketData) (l : List Quoted) : MarketData :=
  { fbMd with
    bidPrice := fun i => lastValue (Quoted.ofLevel mdEntryType0 i) Quoted.price l (fbMd.bidPrice i)
    bidVolume := fun i => lastValue (Quoted.ofLevel mdEntryType0 i) Quoted.volume l (fbMd.bidVolume i)
    askPrice := fun i => lastValue (Quoted.ofLevel mdEntryType1 i) Quoted.price l (fbMd.askPrice i)
    askVolume := fun i => lastValue (Quoted.ofLevel mdEntryType1 i) Quoted.volume l (fbMd.askVolume i)
    lastPrice := lastValue (Quoted.ofType mdEntryType2) Quoted.price l fbMd.lastPrice
    close := lastValue (Quoted.ofType mdEntryType2) Quoted.price l fbMd.close
    open' := lastValue (Quoted.ofType mdEntryType4) Quoted.price l fbMd.open'
    highPrice := lastValue (Quoted.ofType mdEntryType7) Quoted.price l fbMd.highPrice
    lowPrice := lastValue (Quoted.ofType mdEntryType8) Quoted.price l fbMd.lowPrice
    upperLimitPrice := lastValue (Quoted.ofType mdEntryTypeXe) Quoted.price l fbMd.upperLimitPrice
    downLimitPrice := lastValue (Quoted.ofType mdEntryTypeXf) Quoted.price l fbMd.downLimitPrice
    openInterest := lastValue (Quoted.ofType mdEntryTypeXg) Quoted.openInterest l fbMd.openInterest }

@[simp] theorem filled_nil (fbMd : MarketData) : filled fbMd [] = fbMd := rfl

theorem volume_eq (q : Quoted) : (q.mdEntrySize / 100).toUInt32.toInt32 = q.volume := by
  have hdiv : q.mdEntrySize.toNat / 100 = (q.mdEntrySize / 100).toNat := rfl
  rw [Quoted.volume, hdiv]
  rfl

/-- One of the five levels of a side. -/
theorem update_level {α : Type} {level : Nat} (h : 1 ≤ level ∧ level ≤ 5) (f : Fin 5 → α) (x : α) :
    Function.update f ⟨level - 1, by omega⟩ x = fun i : Fin 5 => if level = i + 1 then x else f i := by
  funext i
  rw [Function.update_apply]
  refine if_congr ?_ rfl rfl
  rw [Fin.ext_iff]
  dsimp only
  omega

/-- A level that is not one of the five. -/
theorem no_level {level : Nat} (h : ¬ (1 ≤ level ∧ level ≤ 5)) (i : Fin 5) : ¬ level = i + 1 := by
  have := i.isLt
  omega

/-- One entry, field by field. -/
theorem setEntry_eq (fbMd : MarketData) (entry : SzseMDEntry300111) :
    setEntry fbMd entry =
      let price := entry.mdEntryPx.toFloat / 1000000
      let size := (entry.mdEntrySize / 100).toUInt32.toInt32
      let type := entry.mdEntryType
      let level := entry.mdPriceLevel
      { fbMd with
        bidPrice := fun i => if type = mdEntryType0 ∧ level = i + 1 then price else fbMd.bidPrice i
        bidVolume := fun i => if type = mdEntryType0 ∧ level = i + 1 then size else fbMd.bidVolume i
        askPrice := fun i => if type = mdEntryType1 ∧ level = i + 1 then price else fbMd.askPrice i
        askVolume := fun i => if type = mdEntryType1 ∧ level = i + 1 then size else fbMd.askVolume i
        lastPrice := if type = mdEntryType2 then price else fbMd.lastPrice
        close := if type = mdEntryType2 then price else fbMd.close
        open' := if type = mdEntryType4 then price else fbMd.open'
        highPrice := if type = mdEntryType7 then price else fbMd.highPrice
        lowPrice := if type = mdEntryType8 then price else fbMd.lowPrice
        upperLimitPrice := if type = mdEntryTypeXe then price else fbMd.upperLimitPrice
        downLimitPrice := if type = mdEntryTypeXf then price else fbMd.downLimitPrice
        openInterest := if type = mdEntryTypeXg then entry.mdEntrySize.toFloat / 100 else fbMd.openInterest } := by
  obtain ⟨type, px, size, level, noOrders⟩ := entry
  dsimp only [setEntry]
  split
  · subst type
    split
    · rename_i hl
      simp only [update_level hl, true_and]
      rfl
    · rename_i hl
      simp only [no_level hl, and_false, if_false]
      rfl
  · rename_i h0
    split
    · subst type
      split
      · rename_i hl
        simp only [update_level hl, true_and]
        rfl
      · rename_i hl
        simp only [no_level hl, and_false, if_false]
        rfl
    · rename_i h1
      simp only [h0, h1, false_and, if_false]
      by_cases h2 : type = mdEntryType2
      · subst type
        rfl
      by_cases h4 : type = mdEntryType4
      · subst type
        rfl
      by_cases h7 : type = mdEntryType7
      · subst type
        rfl
      by_cases h8 : type = mdEntryType8
      · subst type
        rfl
      by_cases hxe : type = mdEntryTypeXe
      · subst type
        rfl
      by_cases hxf : type = mdEntryTypeXf
      · subst type
        rfl
      by_cases hxg : type = mdEntryTypeXg
      · subst type
        rfl
      simp only [h2, h4, h7, h8, hxe, hxf, hxg, if_false]

/-- The first entry is set, then the others are. -/
theorem filled_cons (fbMd : MarketData) (e : Entry) (l : List Quoted) :
    filled fbMd (e.toQuoted :: l) = filled (setEntry fbMd e.read) l := by
  simp only [filled, lastValue_cons, setEntry_eq, Quoted.ofType, Quoted.ofLevel, Quoted.price, Quoted.openInterest,
    decide_eq_true_eq, ← volume_eq, Entry.read]

/-! ## Reading the entries -/

section Read

variable {data : Mem} {off v : Nat}

/-- A number, and what stands behind it. -/
theorem starts_bigEndian {w : Nat} {bs : Bytes} (h : (data.shift off).Starts (bigEndian w v ++ bs)) :
    (data.shift off).Starts (bigEndian w v) ∧ (data.shift (off + w)).Starts bs := by
  have hbehind := h.right
  rw [Mem.shift_shift, bigEndian_length] at hbehind
  exact ⟨h.left, hbehind⟩

theorem myTransU16_bigEndian (h : (data.shift off).Starts (bigEndian 2 v)) : myTransU16 data off = v % 2 ^ 16 := by
  have h0 := h 0 (by simp)
  have h1 := h 1 (by simp)
  simp only [Mem.shift, bigEndian, List.getElem_cons_zero, List.getElem_cons_succ, Nat.add_zero] at h0 h1
  rw [myTransU16, h0, h1]
  simp only [UInt8.toNat_ofNat']
  omega

theorem myTransU32_bigEndian (h : (data.shift off).Starts (bigEndian 4 v)) : myTransU32 data off = v % 2 ^ 32 := by
  rw [bigEndian_add 2 2] at h
  obtain ⟨hhigh, hlow⟩ := starts_bigEndian h
  rw [myTransU32, myTransU16_bigEndian hhigh, myTransU16_bigEndian hlow]
  omega

theorem myTransU64_bigEndian (h : (data.shift off).Starts (bigEndian 8 v)) :
    myTransU64 data off = UInt64.ofNat v := by
  rw [bigEndian_add 4 4] at h
  obtain ⟨hhigh, hlow⟩ := starts_bigEndian h
  rw [myTransU64, myTransU32_bigEndian hhigh, myTransU32_bigEndian hlow]
  apply UInt64.toNat_inj.mp
  simp only [UInt64.toNat_ofNat']
  omega

/-- An entry is read as it was put. -/
theorem ofMem_encode {e : Entry} (h : (data.shift off).Starts e.encode) :
    SzseMDEntry300111.ofMem data off = e.read := by
  have htype := u16_of_starts e.mdEntryType.toNat_lt h
  have hbehind := h.right
  rw [Mem.shift_shift, show (le16 e.mdEntryType.toNat).length = 2 from rfl] at hbehind
  obtain ⟨hpx, hbehind⟩ := starts_bigEndian hbehind
  obtain ⟨hsize, hbehind⟩ := starts_bigEndian hbehind
  obtain ⟨hlevel, hbehind⟩ := starts_bigEndian hbehind
  obtain ⟨-, hbehind⟩ := starts_bigEndian hbehind
  obtain ⟨horders, -⟩ := starts_bigEndian hbehind
  have hlevel_lt := e.mdPriceLevel.toNat_lt
  have horders_lt := e.noOrders.toNat_lt
  rw [SzseMDEntry300111.ofMem, Entry.read, htype, myTransU64_bigEndian hpx, myTransU64_bigEndian hsize,
    myTransU16_bigEndian hlevel, myTransU32_bigEndian horders, Nat.mod_eq_of_lt hlevel_lt,
    Nat.mod_eq_of_lt horders_lt, UInt64.ofNat_toNat, UInt64.ofNat_toNat]

end Read

section Loop

variable {data : Mem} {o : Nat}

theorem toNat_readLen (o readLen : Nat) : ((o : Int) + (readLen : Int)).toNat = o + readLen := by
  omega

/-- As long as it fits an `int`, `readLen` is where the next entry was put. -/
theorem readLen_next {readLen : Nat} {e : Entry} (hfits : readLen + e.encode.length < 2 ^ 31) :
    Int.bmod (readLen + szseMDEntry300111Size + 8 * e.read.noOrders) (2 ^ 32) =
      ((readLen + e.encode.length : Nat) : Int) := by
  rw [Entry.length_encode] at hfits ⊢
  have horders : e.read.noOrders = e.noOrders.toNat := rfl
  rw [horders, Int.bmod_eq_of_le (by omega) (by omega)]
  omega

/-- The loop comes to each entry where it was put. -/
theorem entryOffsets_encode {entries : List Entry} {readLen : Nat}
    (h : (data.shift (o + readLen)).Starts (encodeEntries entries))
    (hfits : readLen + (encodeEntries entries).length < 2 ^ 31) :
    entryOffsets data o entries.length readLen = (offsets (o + readLen) entries).map Nat.cast ∧
      (entryOffsets data o entries.length readLen).map (fun e => SzseMDEntry300111.ofMem data e.toNat) =
        entries.map Entry.read := by
  induction entries generalizing readLen with
  | nil => exact ⟨rfl, rfl⟩
  | cons e entries ih =>
    rw [encodeEntries_cons] at h hfits
    rw [List.length_append] at hfits
    have hread := ofMem_encode h.left
    have hrest := h.right
    rw [Mem.shift_shift, Nat.add_assoc] at hrest
    obtain ⟨hoffsets, hreads⟩ := ih hrest (by omega)
    rw [List.length_cons, entryOffsets, toNat_readLen, hread, readLen_next (by omega), hoffsets, offsets,
      List.map_cons, List.map_cons, List.map_cons, toNat_readLen, hread, ← hreads, hoffsets, Nat.add_assoc]
    exact ⟨rfl, rfl⟩

/-- The loop fills the quote with what is last of each kind. -/
theorem entryLoop_encode {entries : List Entry} {readLen : Nat}
    (h : (data.shift (o + readLen)).Starts (encodeEntries entries))
    (hfits : readLen + (encodeEntries entries).length < 2 ^ 31) (fbMd : MarketData) (countFlag : Bool) :
    (entryLoop data o entries.length readLen fbMd countFlag).1 = filled fbMd (entries.map Entry.toQuoted) := by
  induction entries generalizing readLen fbMd countFlag with
  | nil => rfl
  | cons e entries ih =>
    rw [encodeEntries_cons] at h hfits
    rw [List.length_append] at hfits
    have hrest := h.right
    rw [Mem.shift_shift, Nat.add_assoc] at hrest
    rw [List.length_cons, entryLoop, toNat_readLen, ofMem_encode h.left, List.map_cons, filled_cons]
    rw [readLen_next (by omega), ih hrest (by omega)]

end Loop

/-- Where the parts of a snapshot are. -/
theorem snapshot_parts {data : Mem} {o : Nat} {s : Snapshot} (h : (data.shift o).Starts s.encode)
    (hfits : s.encode.length < 2 ^ 31) :
    (SzseSnapShot.ofMem data o).noMdEntries = s.entries.length ∧
      (data.shift (o + szseSnapShotSize)).Starts (encodeEntries s.entries) := by
  have hbehind := h.right
  rw [Mem.shift_shift, s.head_length] at hbehind
  obtain ⟨hcount, hentries⟩ := starts_bigEndian hbehind
  refine ⟨?_, hentries⟩
  have hle := length_le_encodeEntries s.entries
  rw [s.length_encode] at hfits
  rw [SzseSnapShot.ofMem, myTransU32_bigEndian hcount, Nat.mod_eq_of_lt (by omega)]

theorem quoteAt_encode {data : Mem} {o : Nat} {s : Snapshot} (h : (data.shift o).Starts s.encode)
    (hfits : s.encode.length < 2 ^ 31) (reset : MarketData) (localTimeNsStart : UInt64) :
    (quoteAt reset localTimeNsStart data o).2 =
      filled (snapshotHead reset localTimeNsStart (SzseSnapShot.ofMem data o)) (s.entries.map Entry.toQuoted) := by
  obtain ⟨hcount, hentries⟩ := snapshot_parts h hfits
  rw [s.length_encode] at hfits
  rw [quoteAt, hcount]
  exact entryLoop_encode hentries hfits _ _

/-! ## What the entries say -/

/-- The quote has price and lots of the last entry of each side and level, and the values of
the last one of each type; all else is as in `head`. -/
structure Says (head : MarketData) (l : List Quoted) (quote : MarketData) : Prop where
  bidPrice : ∀ i, quote.bidPrice i = lastValue (Quoted.ofLevel mdEntryType0 i) Quoted.signedPrice l (head.bidPrice i)
  bidVolume : ∀ i, (quote.bidVolume i).toInt =
    lastValue (Quoted.ofLevel mdEntryType0 i) Quoted.lots l (head.bidVolume i).toInt
  askPrice : ∀ i, quote.askPrice i = lastValue (Quoted.ofLevel mdEntryType1 i) Quoted.signedPrice l (head.askPrice i)
  askVolume : ∀ i, (quote.askVolume i).toInt =
    lastValue (Quoted.ofLevel mdEntryType1 i) Quoted.lots l (head.askVolume i).toInt
  lastPrice : quote.lastPrice = lastValue (Quoted.ofType mdEntryType2) Quoted.signedPrice l head.lastPrice
  close : quote.close = lastValue (Quoted.ofType mdEntryType2) Quoted.signedPrice l head.close
  open' : quote.open' = lastValue (Quoted.ofType mdEntryType4) Quoted.signedPrice l head.open'
  highPrice : quote.highPrice = lastValue (Quoted.ofType mdEntryType7) Quoted.signedPrice l head.highPrice
  lowPrice : quote.lowPrice = lastValue (Quoted.ofType mdEntryType8) Quoted.signedPrice l head.lowPrice
  upperLimitPrice :
    quote.upperLimitPrice = lastValue (Quoted.ofType mdEntryTypeXe) Quoted.signedPrice l head.upperLimitPrice
  downLimitPrice :
    quote.downLimitPrice = lastValue (Quoted.ofType mdEntryTypeXf) Quoted.signedPrice l head.downLimitPrice
  openInterest : quote.openInterest = lastValue (Quoted.ofType mdEntryTypeXg) Quoted.openInterest l head.openInterest
  rest : quote = { head with
    bidPrice := quote.bidPrice, bidVolume := quote.bidVolume, askPrice := quote.askPrice, askVolume := quote.askVolume
    lastPrice := quote.lastPrice, close := quote.close, open' := quote.open', highPrice := quote.highPrice
    lowPrice := quote.lowPrice, upperLimitPrice := quote.upperLimitPrice, downLimitPrice := quote.downLimitPrice
    openInterest := quote.openInterest }

def sides : List Nat := [mdEntryType0, mdEntryType1]

/-- The types whose entries set a price. -/
def priceTypes : List Nat :=
  [mdEntryType2, mdEntryType4, mdEntryType7, mdEntryType8, mdEntryTypeXe, mdEntryTypeXf]

/-- No last entry of a side and level or of a type that has a price has a negative one, and
none of a side and level has a size that does not fit the setter. -/
structure Fits (l : List Quoted) : Prop where
  prices : ∀ type ∈ priceTypes, ∀ q ∈ l.reverse.find? (Quoted.ofType type), q.mdEntryPx.toNat < 2 ^ 63
  levels : ∀ side ∈ sides, ∀ i, ∀ q ∈ l.reverse.find? (Quoted.ofLevel side i),
    q.mdEntryPx.toNat < 2 ^ 63 ∧ q.mdEntrySize.toNat / 100 < 2 ^ 31

theorem isNormal_million : IsNormal 1000000 (-33) := ⟨1000000 * 2 ^ 33, by decide, rfl, by decide +kernel⟩

/-- A price of at least 2^63 is published as a positive one. -/
theorem price_eq_iff (q : Quoted) : q.price = q.signedPrice ↔ q.mdEntryPx.toNat < 2 ^ 63 := by
  unfold Quoted.price Quoted.signedPrice
  by_cases h : q.mdEntryPx.toNat < 2 ^ 63
  · rw [if_pos h]
    exact iff_of_true rfl h
  · rw [if_neg h]
    refine iff_of_false (fun he => ?_) h
    have hpos : 0 < q.mdEntryPx := UInt64.lt_iff_toNat_lt.mpr (by rw [UInt64.toNat_zero]; omega)
    have hneg : 0 < -q.mdEntryPx := by
      have hlt := q.mdEntryPx.toNat_lt
      rw [UInt64.lt_iff_toNat_lt, UInt64.toNat_neg, UInt64.toNat_zero, Nat.mod_eq_of_lt (by rw [UInt64.size]; omega),
        UInt64.size]
      omega
    obtain ⟨e, he1, hlo, hhi⟩ := isNormal_toFloat hpos
    obtain ⟨f, hf1, hlo', hhi'⟩ := isNormal_toFloat hneg
    obtain ⟨d, hd, -⟩ := he1.div isNormal_million (by omega) (by omega)
    obtain ⟨c, hc, h1, h2⟩ := hf1.div isNormal_million (by omega) (by omega)
    exact hc.neg_ne (by omega) (by omega) hd he.symm

/-- The `int32_t` of a setter holds less than 2^31 lots. -/
theorem volume_eq_iff (q : Quoted) : q.volume.toInt = q.lots ↔ q.mdEntrySize.toNat / 100 < 2 ^ 31 := by
  rw [Quoted.volume, Quoted.lots, Int32.toInt_ofNat', show Int32.size = 2 ^ 32 from rfl]
  generalize q.mdEntrySize.toNat / 100 = n
  constructor
  · intro h
    have hlt : Int.bmod (n : Int) (2 ^ 32) < 2 ^ 31 := by
      have := Int.bmod_lt (x := (n : Int)) (m := 2 ^ 32) (by decide)
      omega
    rw [h] at hlt
    exact_mod_cast hlt
  · exact fun h => Int.bmod_eq_of_le (by omega) (by omega)

section Fits

variable {l : List Quoted} {p : Quoted → Bool}

theorem price_field_iff {old : Float} : lastValue p Quoted.price l old = lastValue p Quoted.signedPrice l old ↔
    ∀ q ∈ l.reverse.find? p, q.mdEntryPx.toNat < 2 ^ 63 := by
  simp only [KeyedWrites.lastValue_eq_iff, price_eq_iff]

theorem volume_field_iff {old : Int32} : (lastValue p Quoted.volume l old).toInt = lastValue p Quoted.lots l old.toInt ↔
    ∀ q ∈ l.reverse.find? p, q.mdEntrySize.toNat / 100 < 2 ^ 31 := by
  rw [KeyedWrites.map_lastValue Int32.toInt, KeyedWrites.lastValue_eq_iff]
  simp only [volume_eq_iff]

theorem says_filled_iff (head : MarketData) : Says head l (filled head l) ↔ Fits l := by
  constructor
  · intro h
    refine ⟨fun type htype => ?_, fun side hside i => ?_⟩
    · simp only [priceTypes, List.mem_cons, List.not_mem_nil, or_false] at htype
      rcases htype with rfl | rfl | rfl | rfl | rfl | rfl
      · exact price_field_iff.mp h.lastPrice
      · exact price_field_iff.mp h.open'
      · exact price_field_iff.mp h.highPrice
      · exact price_field_iff.mp h.lowPrice
      · exact price_field_iff.mp h.upperLimitPrice
      · exact price_field_iff.mp h.downLimitPrice
    · simp only [sides, List.mem_cons, List.not_mem_nil, or_false] at hside
      rcases hside with rfl | rfl
      · exact fun q hq => ⟨price_field_iff.mp (h.bidPrice i) q hq, volume_field_iff.mp (h.bidVolume i) q hq⟩
      · exact fun q hq => ⟨price_field_iff.mp (h.askPrice i) q hq, volume_field_iff.mp (h.askVolume i) q hq⟩
  · intro h
    have hbid := h.levels mdEntryType0 (by simp [sides])
    have hask := h.levels mdEntryType1 (by simp [sides])
    exact {
      bidPrice := fun i => price_field_iff.mpr fun q hq => (hbid i q hq).1
      bidVolume := fun i => volume_field_iff.mpr fun q hq => (hbid i q hq).2
      askPrice := fun i => price_field_iff.mpr fun q hq => (hask i q hq).1
      askVolume := fun i => volume_field_iff.mpr fun q hq => (hask i q hq).2
      lastPrice := price_field_iff.mpr (h.prices mdEntryType2 (by simp [priceTypes]))
      close := price_field_iff.mpr (h.prices mdEntryType2 (by simp [priceTypes]))
      open' := price_field_iff.mpr (h.prices mdEntryType4 (by simp [priceTypes]))
      highPrice := price_field_iff.mpr (h.prices mdEntryType7 (by simp [priceTypes]))
      lowPrice := price_field_iff.mpr (h.prices mdEntryType8 (by simp [priceTypes]))
      upperLimitPrice := price_field_iff.mpr (h.prices mdEntryTypeXe (by simp [priceTypes]))
      downLimitPrice := price_field_iff.mpr (h.prices mdEntryTypeXf (by simp [priceTypes]))
      openInterest := rfl
      rest := rfl }

end Fits

/-- **Exact condition.** For every snapshot that fits an `int`, and so for every one of a
datagram, the loop reads each entry where it was put; and the quote is what the entries say,
with all else as the members in front of them set it, if and only if the last ones fit. -/
theorem entries_decoded_iff {data : Mem} {o : Nat} {s : Snapshot} (h : (data.shift o).Starts s.encode)
    (hfits : s.encode.length < 2 ^ 31) (reset : MarketData) (localTimeNsStart : UInt64) :
    let md := SzseSnapShot.ofMem data o
    let read := entryOffsets data o md.noMdEntries szseSnapShotSize
    let entries := s.entries.map Entry.toQuoted
    read = (offsets (o + szseSnapShotSize) s.entries).map Nat.cast ∧
      read.map (fun e => SzseMDEntry300111.ofMem data e.toNat) = s.entries.map Entry.read ∧
      (Says (snapshotHead reset localTimeNsStart md) entries (quoteAt reset localTimeNsStart data o).2 ↔
        Fits entries) := by
  obtain ⟨hcount, hentries⟩ := snapshot_parts h hfits
  have hlen := s.length_encode
  obtain ⟨hoffsets, hreads⟩ := entryOffsets_encode hentries (by omega)
  dsimp only
  rw [hcount, quoteAt_encode h hfits]
  exact ⟨hoffsets, hreads, says_filled_iff _⟩

/-- A bid of the first level with one order, and one of `px` and `size` without. -/
def sampleSnapshot (px size : UInt64) : Snapshot where
  head := List.replicate 73 0
  head_length := rfl
  entries :=
    [⟨⟨0x2030, 5000000, 100, 1⟩, 1, 1, List.replicate 8 0, List.length_replicate⟩,
      ⟨⟨0x2030, px, size, 1⟩, 0, 0, [], rfl⟩]

theorem length_sampleSnapshot (px size : UInt64) : (sampleSnapshot px size).encode.length = 149 := by
  simp [Snapshot.length_encode, sampleSnapshot, szseSnapShotSize, szseMDEntry300111Size]

theorem starts_sampleSnapshot (px size : UInt64) :
    ((Mem.ofBytes (sampleSnapshot px size).encode).shift 0).Starts (sampleSnapshot px size).encode := by
  rw [Mem.shift_zero]
  exact Mem.starts_ofBytes _

instance (l : List Quoted) : Decidable (Fits l) :=
  decidable_of_iff ((∀ type ∈ priceTypes, ∀ q ∈ l.reverse.find? (Quoted.ofType type), q.mdEntryPx.toNat < 2 ^ 63) ∧
    ∀ side ∈ sides, ∀ i, ∀ q ∈ l.reverse.find? (Quoted.ofLevel side i),
      q.mdEntryPx.toNat < 2 ^ 63 ∧ q.mdEntrySize.toNat / 100 < 2 ^ 31)
    ⟨fun h => ⟨h.1, h.2⟩, fun h => ⟨h.prices, h.levels⟩⟩

/-- The second bid stands, although the first has an order. -/
theorem entries_decoded_twice :
    entryOffsets (Mem.ofBytes (sampleSnapshot 6000000 700).encode) 0 2 77 = [77, 117] ∧
      ((quoteAt .zero 0 (Mem.ofBytes (sampleSnapshot 6000000 700).encode) 0).2.bidVolume 0).toInt = 7 := by
  have hfits : (sampleSnapshot 6000000 700).encode.length < 2 ^ 31 := by
    rw [length_sampleSnapshot]
    decide
  obtain ⟨hcount, -⟩ := snapshot_parts (starts_sampleSnapshot 6000000 700) hfits
  obtain ⟨hoffsets, -, hquote⟩ := entries_decoded_iff (starts_sampleSnapshot 6000000 700) hfits .zero 0
  rw [hcount] at hoffsets
  exact ⟨hoffsets, (hquote.mpr (by decide)).bidVolume 0⟩

/-- **Counterexample.** A bid at a price of -1.0. -/
theorem price_unsigned : ¬ ∀ (data : Mem) (o : Nat) (s : Snapshot), (data.shift o).Starts s.encode →
    s.encode.length < 2 ^ 16 → ∀ (reset : MarketData) (localTimeNsStart : UInt64),
    Says (snapshotHead reset localTimeNsStart (SzseSnapShot.ofMem data o)) (s.entries.map Entry.toQuoted)
      (quoteAt reset localTimeNsStart data o).2 := by
  intro h
  have hlen := length_sampleSnapshot (-1000000) 700
  have hquote := h _ 0 _ (starts_sampleSnapshot (-1000000) 700) (by omega) .zero 0
  rw [quoteAt_encode (starts_sampleSnapshot _ _) (by omega), says_filled_iff] at hquote
  exact absurd hquote (by decide)

end MdInfoSet.L4.SzseEntries
