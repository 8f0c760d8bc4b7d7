import MdInfoSet.Core.EarlyExit
import MdInfoSet.L1Encoding.SzseSnapshot
import MdInfoSet.L4App.Publish

/-!
# SZSE option snapshots: one loop over a packet

`QxSzMdEtfOption::OnData` (src/szse_etf_mdsz/src/qx_sz_md_etf_option.cpp:191-475).
A frame holds `msgNum` messages; the cursor `data` moves on at the end of the loop
body only. A message of another type or channel is skipped by `continue`, which
leaves the cursor where it is, so that every later round looks at the same message
again; an instrument that is not subscribed ends the call. `count_flag`, set by an
entry, is declared outside the loop and never cleared.

**Exact condition** (`published_iff`). Every subscribed snapshot is published and
nothing else if and only if no such snapshot stands behind a message `OnData` does
not pass, and among the messages before the first of those none without entries
stands behind one with entries.
-/
namespace MdInfoSet.L4.SzseOption

open MdInfoSet.L1.SzseSnapshot MdInfoSet.L4.Publish

/-! ## The record of a message -/

/-- The `MDENTRYTYPE_` values (qx_sz_md_etf_option.h:31-42) that set a field. -/
def mdEntryType0 : Nat := 0x2030
def mdEntryType1 : Nat := 0x2031
def mdEntryType2 : Nat := 0x2032
def mdEntryType4 : Nat := 0x2034
def mdEntryType7 : Nat := 0x2037
def mdEntryType8 : Nat := 0x2038
def mdEntryTypeXe : Nat := 0x6578
def mdEntryTypeXf : Nat := 0x6678
def mdEntryTypeXg : Nat := 0x6778

/-- mirrors src/qx_commom/tradingtime.h:240-245 -/
def hhmmssToUtcSeconds2 (hhmmss : Nat) : Nat :=
  hhmmss / 10000 * 3600 + hhmmss / 100 % 100 * 60 + hhmmss % 100

/-- What is set before the entries (cpp:280-293). -/
def snapshotHead (reset : MarketData) (localTimeNsStart : UInt64) (md : SzseSnapShot) : MarketData :=
  let origtime := (md.origTime % 1000000000).toNat
  { reset with
    localTimestamp := localTimeNsStart
    exchangeId := fbExchangeSzse
    instrumentId := md.securityId.takeWhile (· ≠ 0)
    updateSec := Int32.ofNat (hhmmssToUtcSeconds2 (origtime / 1000))
    updateMsec := Int32.ofNat (origtime / 1000)
    preClose := md.prevClosePx.toFloat / 10000
    volume := (md.totalVolumeTrade / 100).toUInt32.toInt32
    turnOver := md.totalValueTrade.toFloat / 10000 }

/-- One entry (cpp:310-437). A level other than 1 to 5 and any other type is only
logged. -/
def setEntry (fbMd : MarketData) (entry : SzseMDEntry300111) : MarketData :=
  let price := entry.mdEntryPx.toFloat / 1000000
  let size := (entry.mdEntrySize / 100).toUInt32.toInt32
  let level := entry.mdPriceLevel
  if entry.mdEntryType = mdEntryType0 then
    if h : 1 ≤ level ∧ level ≤ 5 then
      { fbMd with
        bidPrice := Function.update fbMd.bidPrice ⟨level - 1, by omega⟩ price
        bidVolume := Function.update fbMd.bidVolume ⟨level - 1, by omega⟩ size }
    else fbMd
  else if entry.mdEntryType = mdEntryType1 then
    if h : 1 ≤ level ∧ level ≤ 5 then
      { fbMd with
        askPrice := Function.update fbMd.askPrice ⟨level - 1, by omega⟩ price
        askVolume := Function.update fbMd.askVolume ⟨level - 1, by omega⟩ size }
    else fbMd
  else if entry.mdEntryType = mdEntryType2 then { fbMd with lastPrice := price, close := price }
  else if entry.mdEntryType = mdEntryType4 then { fbMd with open' := price }
  else if entry.mdEntryType = mdEntryType7 then { fbMd with highPrice := price }
  else if entry.mdEntryType = mdEntryType8 then { fbMd with lowPrice := price }
  else if entry.mdEntryType = mdEntryTypeXe then { fbMd with upperLimitPrice := price }
  else if entry.mdEntryType = mdEntryTypeXf then { fbMd with downLimitPrice := price }
  else if entry.mdEntryType = mdEntryTypeXg then
    { fbMd with openInterest := entry.mdEntrySize.toFloat / 100 }
  else fbMd

/-- The loop over the entries of the message at `o`, with `n` of them left: the
record and `count_flag`. `readLen` is an `int` and wraps. -/
def entryLoop (data : Mem) (o : Nat) : Nat → Int → MarketData → Bool → MarketData × Bool
  | 0, _, fbMd, countFlag => (fbMd, countFlag)
  | n + 1, readLen, fbMd, _ =>
    let entry := SzseMDEntry300111.ofMem data (o + readLen).toNat
    entryLoop data o n (Int.bmod (readLen + szseMDEntry300111Size + 8 * entry.noOrders) (2 ^ 32))
      (setEntry fbMd entry) true

/-! ## The packet -/

section Packet

variable (filter : Bytes → Bool) (reset : MarketData) (localTimeNsStart : UInt64) (data : Mem)

/-- `data += msgLen; data += (8 - msgLen % 8)` (cpp:465-466) -/
def stride (o : Nat) : Nat :=
  let msgLen := (SzseMsgHead.ofMem data o).msgLen
  msgLen + (8 - msgLen % 8)

/-- mirrors src/szse_etf_mdsz/src/qx_sz_md_etf_option.cpp:251-475
The loop with `n` rounds left and the cursor at `o`: what is passed to `on_msg`,
each record with the offset of the message it is published for. -/
def packetLoop (o : Nat) (countFlag : Bool) : Nat → List (Nat × MarketData)
  | 0 => []
  | n + 1 =>
    if (SzseMsgHead.ofMem data o).msgType ≠ 300111 then packetLoop o countFlag n
    else
      let md := SzseSnapShot.ofMem data o
      if md.channelNo / 10 ≠ 105 then packetLoop o countFlag n
      else if filter md.securityId then
        let (fbMd, countFlag) := entryLoop data o md.noMdEntries szseSnapShotSize
          (snapshotHead reset localTimeNsStart md) countFlag
        if countFlag then (o, fbMd) :: packetLoop (o + stride data o) countFlag n
        else packetLoop (o + stride data o) countFlag n
      else []

/-- mirrors src/szse_etf_mdsz/src/qx_sz_md_etf_option.cpp:191-475
`belongTo` is the look-up in `g_multicast_addr`, `filter` that in `g_option_info`. -/
def onData (belongTo : Nat → Nat → Bool) : List (Nat × MarketData) :=
  if belongTo (data.u32 30) (data.u16 36) then
    packetLoop filter reset localTimeNsStart data 48 false (myTransU16 data 46)
  else []

/-! ## The messages of a packet -/

/-- Where the `n` messages laid out from `o` on start. -/
def messageOffsets (o : Nat) : Nat → List Nat
  | 0 => []
  | n + 1 => o :: messageOffsets (o + stride data o) n

/-- The messages of a frame. -/
def messages : List Nat := messageOffsets data 48 (myTransU16 data 46)

/-- A subscribed 300111 message of an option channel. -/
def passes (o : Nat) : Bool :=
  (SzseMsgHead.ofMem data o).msgType = 300111 ∧ (SzseSnapShot.ofMem data o).channelNo / 10 = 105 ∧
    filter (SzseSnapShot.ofMem data o).securityId

def hasEntries (o : Nat) : Bool := (SzseSnapShot.ofMem data o).noMdEntries ≠ 0

/-- A message that is to be published. -/
def wanted (o : Nat) : Bool := passes filter data o && hasEntries data o

/-- The quote of a message. -/
def quoteAt (o : Nat) : Nat × MarketData :=
  let md := SzseSnapShot.ofMem data o
  (o, (entryLoop data o md.noMdEntries szseSnapShotSize (snapshotHead reset localTimeNsStart md) false).1)

end Packet

section Loop

variable {filter : Bytes → Bool} {reset : MarketData} {localTimeNsStart : UInt64} {data : Mem}

/-- The flag is set by an entry; what is read does not depend on it. -/
theorem entryLoop_eq (o n : Nat) (readLen : Int) (fbMd : MarketData) (countFlag : Bool) :
    entryLoop data o n readLen fbMd countFlag =
      ((entryLoop data o n readLen fbMd false).1, countFlag || decide (n ≠ 0)) := by
  cases n with
  | zero => simp [entryLoop]
  | succ n =>
    have hset : ∀ (n : Nat) (readLen : Int) (fbMd : MarketData),
        (entryLoop data o n readLen fbMd true).2 = true := by
      intro n
      induction n with
      | zero => exact fun _ _ => rfl
      | succ n ih => exact fun _ _ => ih _ _
    simp [entryLoop, Prod.ext_iff, hset]

theorem passes_iff {o : Nat} : passes filter data o = true ↔ (SzseMsgHead.ofMem data o).msgType = 300111 ∧
    (SzseSnapShot.ofMem data o).channelNo / 10 = 105 ∧ filter (SzseSnapShot.ofMem data o).securityId = true := by
  simp [passes]

/-- A message that is passed over is looked at again in every round. -/
theorem packetLoop_stuck {o : Nat} (h : passes filter data o = false) (countFlag : Bool) (n : Nat) :
    packetLoop filter reset localTimeNsStart data o countFlag n = [] := by
  induction n with
  | zero => rfl
  | succ n ih =>
    unfold packetLoop
    simp only [ih]
    split
    · rfl
    · split
      · rfl
      · split
        · rename_i h1 h2 h3
          simp [passes, not_not.mp h1, not_not.mp h2, h3] at h
        · rfl

/-- One round on a message that passes. -/
theorem packetLoop_pass {o : Nat} (h : passes filter data o = true) (countFlag : Bool) (n : Nat) :
    packetLoop filter reset localTimeNsStart data o countFlag (n + 1) =
      (if (countFlag || hasEntries data o) = true then [quoteAt reset localTimeNsStart data o] else []) ++
        packetLoop filter reset localTimeNsStart data (o + stride data o)
          (countFlag || hasEntries data o) n := by
  have hp := passes_iff.mp h
  have hflag : (countFlag || decide ((SzseSnapShot.ofMem data o).noMdEntries ≠ 0)) =
      (countFlag || hasEntries data o) := rfl
  rw [packetLoop, if_neg (not_not.mpr hp.1)]
  simp only [hp.2.1, hp.2.2, ne_eq, not_true_eq_false, if_false, if_true]
  rw [entryLoop_eq]
  simp only [ne_eq] at hflag
  rw [hflag]
  cases countFlag || hasEntries data o <;> rfl

/-- What the loop publishes: the messages before the first that is passed over,
from the first with entries on unless the flag was set before. -/
theorem packetLoop_eq (o : Nat) (countFlag : Bool) (n : Nat) :
    packetLoop filter reset localTimeNsStart data o countFlag n =
      (((messageOffsets data o n).takeWhile (passes filter data)).dropWhile
        fun o => !(countFlag || hasEntries data o)).map (quoteAt reset localTimeNsStart data) := by
  induction n generalizing o countFlag with
  | zero => rfl
  | succ n ih =>
    rw [messageOffsets]
    cases hp : passes filter data o with
    | false => rw [packetLoop_stuck hp, List.takeWhile_cons_of_neg (by simp [hp])]; rfl
    | true =>
      rw [packetLoop_pass hp, ih, List.takeWhile_cons_of_pos hp]
      cases hf : countFlag || hasEntries data o with
      | false =>
        obtain ⟨rfl, he⟩ := Bool.or_eq_false_iff.mp hf
        simp [he]
      | true =>
        have hnone : ∀ l : List Nat, l.dropWhile (fun _ => false) = l := by
          intro l
          cases l <;> rfl
        rw [List.dropWhile_cons_of_neg (by rw [hf]; simp)]
        simp [hnone]

/-- The cursor of every later message is ahead. -/
theorem lt_of_mem_messageOffsets {o o' n : Nat} (h : o' ∈ messageOffsets data o n) : o ≤ o' := by
  induction n generalizing o with
  | zero => cases h
  | succ n ih =>
    rcases List.mem_cons.mp h with rfl | h
    · exact Nat.le_refl _
    · have := ih h
      omega

theorem messageOffsets_nodup (o n : Nat) : (messageOffsets data o n).Nodup := by
  induction n generalizing o with
  | zero => exact List.nodup_nil
  | succ n ih =>
    refine List.nodup_cons.mpr ⟨fun h => ?_, ih _⟩
    have := lt_of_mem_messageOffsets h
    have : 0 < stride data o := by
      unfold stride
      have := Nat.mod_lt (SzseMsgHead.ofMem data o).msgLen (show 0 < 8 by decide)
      dsimp only
      omega
    omega

theorem quoteAt_injective : Function.Injective (quoteAt reset localTimeNsStart data) :=
  fun _ _ h => congrArg Prod.fst h

end Loop

/-- **Exact condition.** `OnData` publishes one quote for each snapshot that is
wanted, in packet order, and nothing else. -/
theorem published_iff {belongTo : Nat → Nat → Bool} {filter : Bytes → Bool} {reset : MarketData}
    {localTimeNsStart : UInt64} {data : Mem} (h : belongTo (data.u32 30) (data.u16 36) = true) :
    onData filter reset localTimeNsStart data belongTo =
        ((messages data).filter (wanted filter data)).map (quoteAt reset localTimeNsStart data) ↔
      ((messages data).Pairwise fun o o' => passes filter data o = false → wanted filter data o' = false) ∧
        ((messages data).takeWhile (passes filter data)).Pairwise fun o o' =>
          hasEntries data o = true → hasEntries data o' = true := by
  rw [onData, if_pos h, packetLoop_eq, List.map_inj_right (fun _ _ h => quoteAt_injective h)]
  simp only [Bool.false_or]
  exact EarlyExit.dropWhile_takeWhile_eq_iff (messageOffsets_nodup _ _)

/-- A frame of some messages. -/
def frame (msgs : List Bytes) : Mem :=
  Mem.ofBytes (List.replicate 46 0 ++ [0, UInt8.ofNat msgs.length] ++ msgs.flatten)

/-- The head of a message of type 300112, with nothing behind it. -/
def otherMsg : Bytes := [0, 4, 0x94, 0x50, 0, 0, 0, 0]

/-- A snapshot of `10000001` on channel 1050 with one entry. -/
def snapshotMsg : Bytes :=
  [0, 4, 0x94, 0x4f, 0, 0, 0, 109] ++ List.replicate 8 0 ++ [4, 0x1a, 0, 0, 0] ++
    [0x31, 0x30, 0x30, 0x30, 0x30, 0x30, 0x30, 0x31] ++ List.replicate 44 0 ++ [0, 0, 0, 1] ++
    List.replicate 35 0

/-- The other message behind the snapshot: it is published. -/
theorem published_iff_snapshotFirst :
    onData (fun _ => true) .zero 0 (frame [snapshotMsg, otherMsg]) (fun _ _ => true) =
      ((messages (frame [snapshotMsg, otherMsg])).filter
        (wanted (fun _ => true) (frame [snapshotMsg, otherMsg]))).map
          (quoteAt .zero 0 (frame [snapshotMsg, otherMsg])) :=
  (published_iff rfl).mpr (by decide +kernel)

/-- **Counterexample.** The other message in front: the snapshot is lost. -/
theorem snapshot_lost_behind_other :
    onData (fun _ => true) .zero 0 (frame [otherMsg, snapshotMsg]) (fun _ _ => true) = [] ∧
      (messages (frame [otherMsg, snapshotMsg])).filter
        (wanted (fun _ => true) (frame [otherMsg, snapshotMsg])) = [56] := by
  refine ⟨?_, by decide +kernel⟩
  rw [onData, if_pos rfl, packetLoop_stuck (by decide +kernel)]

end MdInfoSet.L4.SzseOption
