import Mathlib.Data.List.GetD
import MdInfoSet.Core.Binary64Normal
import MdInfoSet.Core.Machine
import MdInfoSet.L4App.SseOption

/-!
# The day range of SSE snapshots

`OnData` keeps the open, high and low of the day in the unit the prices are sent in and
publishes them so, next to a last price in yuan
(src/sse_etf_mdsh_exanic/src/qx_sh_md_etf_exanic.cpp:255-293):

    m_fb_md->set_open(convert_price_if_zero(md_interval.open));
    m_fb_md->set_close(convert_price_if_zero(msgdata->lastPrice/100000.0));

`SseMsg` documents `lastPrice` as "需除以10^5得到实际值" (qx_sh_md_etf_exanic.h:45), and every other
price is divided. The three fields are 100000 times what they should be.

* `quote_inRange_iff`: a quote is between its low and its high exactly if the instrument was
  quoted 100000 times lower before.
* `isolated`: the interval of an instrument is kept apart from those of the others.

**Exact condition.** The first quote of a run is out of range, so a run with positive prices
meets the law exactly if it publishes nothing (`day_range_iff`).

**Counterexample.** One message of an ETF at 2.5 yuan is published with a low of 250000
(`low_above_last`).
-/
namespace MdInfoSet.L4.SseOption

open Binary64 MdInfoSet.L1.SseMessage MdInfoSet.L4.Publish
open MdInfoSet.L4.NanoGfex (MdInterval)

/-! ## Runs -/

section Runs

variable (belongTo : Nat → Nat → Bool) (filter : Bytes → Bool) (reset : MarketData)

/-- The receiver and the records it has passed to `on_msg`. -/
structure Feed where
  receiver : Receiver
  published : List MarketData

def Feed.start : Feed := ⟨Receiver.start, []⟩

/-- The receiver gets a frame; the second of the pair is the clock. -/
def Feed.onData (s : Feed) (frame : Mem × UInt64) : Feed :=
  let (r, fbMd) := SseOption.onData belongTo filter reset s.receiver frame.1 frame.2
  ⟨r, s.published ++ fbMd.toList⟩

def machine : Machine Feed (Mem × UInt64) where
  init s := s = Feed.start
  step s frame := some (s.onData belongTo filter reset frame)

end Runs

/-- The name an instrument is published under. -/
def name (msgdata : SseMsg) : Bytes := (SseMsg.inst msgdata).takeWhile (· ≠ 0)

/-- What a quote says of the day. -/
def InRange (fbMd : MarketData) : Prop :=
  (fbMd.lowPrice ≤ fbMd.lastPrice ∧ fbMd.lastPrice ≤ fbMd.highPrice) ∧
    fbMd.lowPrice ≤ fbMd.open' ∧ fbMd.open' ≤ fbMd.highPrice

/-! ## Prices -/

theorem isNormal_unit : IsNormal 100000 (-36) := ⟨100000 * 2 ^ 36, by decide, rfl, by decide +kernel⟩

/-- The last price in yuan is positive and below the one that was sent. -/
theorem yuan_bounds {p : UInt64} (hp : 0 < p) : 0 < p.toFloat / 100000 ∧ p.toFloat / 100000 < p.toFloat := by
  obtain ⟨e, he, hlo, hhi⟩ := isNormal_toFloat hp
  obtain ⟨d, hd, h1, h2⟩ := he.div isNormal_unit (by omega) (by omega)
  exact ⟨hd.pos, hd.lt he (by omega)⟩

/-- A positive price is published as it is. -/
theorem convertPriceIfZero_pos {x : Float} (hx : 0 < x) : convertPriceIfZero x = x :=
  if_neg (not_beq_of_gt hx)

/-- An interval of positive prices. -/
structure Sound (i : MdInterval) : Prop where
  low_pos : 0 < i.low
  low_le_open : i.low ≤ i.open'
  open_le_high : i.open' ≤ i.high

theorem Sound.open_pos {i : MdInterval} (h : Sound i) : 0 < i.open' := lt_of_lt_of_le h.low_pos h.low_le_open

theorem Sound.high_pos {i : MdInterval} (h : Sound i) : 0 < i.high := lt_of_lt_of_le h.open_pos h.open_le_high

theorem toFloat_pos {p : UInt64} (hp : 0 < p) : 0 < p.toFloat := by
  obtain ⟨e, he, -⟩ := isNormal_toFloat hp
  exact he.pos

theorem isNum_of_pos {x : Float} (hx : 0 < x) : IsNum x := (lt_iff.mp hx).2.1

/-! ## One quote -/

section Quote

variable {entry : Option MdInterval} {p : UInt64}

/-- The interval that a message finds. -/
def found (entry : Option MdInterval) (p : UInt64) : MdInterval := entry.getD ⟨p.toFloat, p.toFloat, p.toFloat⟩

theorem found_sound (hentry : ∀ i, entry = some i → Sound i) (hp : 0 < p) : Sound (found entry p) := by
  cases entry with
  | none =>
    have hpos := toFloat_pos hp
    exact ⟨hpos, Binary64.le_refl (isNum_of_pos hpos), Binary64.le_refl (isNum_of_pos hpos)⟩
  | some i => exact hentry i rfl

/-- An open price that is a number is kept. -/
theorem updateInterval_eq (h : Sound (found entry p)) :
    updateInterval entry p =
      { open' := (found entry p).open'
        high := if p.toFloat > (found entry p).high then p.toFloat else (found entry p).high
        low := if p.toFloat < (found entry p).low then p.toFloat else (found entry p).low } := by
  have hopen : ((found entry p).open' != (found entry p).open') = false := by
    have hnum := isNum_of_pos h.open_pos
    have hself : ((found entry p).open' == (found entry p).open') = true := beq_iff.mpr ⟨hnum, hnum, rfl⟩
    rw [bne, hself]
    rfl
  unfold updateInterval
  rw [← found]
  simp only [hopen, Bool.false_eq_true, false_and, if_false]
  by_cases hhigh : p.toFloat > (found entry p).high
  · by_cases hlow : p.toFloat < (found entry p).low
    · simp [hhigh, hlow]
    · simp [hhigh, hlow]
  · by_cases hlow : p.toFloat < (found entry p).low
    · simp [hhigh, hlow]
    · simp [hhigh, hlow]

/-- The interval takes the price in. -/
theorem updateInterval_sound (hentry : ∀ i, entry = some i → Sound i) (hp : 0 < p) :
    Sound (updateInterval entry p) ∧ p.toFloat ≤ (updateInterval entry p).high := by
  have hi := found_sound hentry hp
  have hpos := toFloat_pos hp
  have hnum := isNum_of_pos hpos
  have hhigh : (found entry p).high ≤ (updateInterval entry p).high ∧ p.toFloat ≤ (updateInterval entry p).high := by
    rw [updateInterval_eq hi]
    dsimp only
    split
    · exact ⟨le_of_lt ‹_›, Binary64.le_refl hnum⟩
    · exact ⟨Binary64.le_refl (isNum_of_pos hi.high_pos), le_of_not_lt (isNum_of_pos hi.high_pos) hnum ‹_›⟩
  have hlow : 0 < (updateInterval entry p).low ∧ (updateInterval entry p).low ≤ (found entry p).low := by
    rw [updateInterval_eq hi]
    dsimp only
    split
    · exact ⟨hpos, le_of_lt ‹_›⟩
    · exact ⟨hi.low_pos, Binary64.le_refl (isNum_of_pos hi.low_pos)⟩
  have hopen : (updateInterval entry p).open' = (found entry p).open' := by rw [updateInterval_eq hi]
  refine ⟨⟨hlow.1, ?_, ?_⟩, hhigh.2⟩
  · rw [hopen]
    exact Binary64.le_trans hlow.2 hi.low_le_open
  · rw [hopen]
    exact Binary64.le_trans hi.open_le_high hhigh.1

/-- The low is the least of the prices. -/
theorem low_le_iff (hentry : ∀ i, entry = some i → Sound i) (hp : 0 < p) (y : Float) :
    (updateInterval entry p).low ≤ y ↔ (∃ i, entry = some i ∧ i.low ≤ y) ∨ p.toFloat ≤ y := by
  have hlow : (updateInterval entry p).low = if p.toFloat < (found entry p).low then p.toFloat else (found entry p).low := by
    rw [updateInterval_eq (found_sound hentry hp)]
  rw [hlow]
  cases entry with
  | none =>
    have hfirst : (found none p).low = p.toFloat := rfl
    rw [hfirst, ite_self]
    simp
  | some i =>
    have hfound : found (some i) p = i := rfl
    rw [hfound]
    by_cases hbelow : p.toFloat < i.low
    · have hor : i.low ≤ y → p.toFloat ≤ y := Binary64.le_trans (le_of_lt hbelow)
      simpa [hbelow] using hor
    · have hpnum := isNum_of_pos (toFloat_pos hp)
      have hilow := le_of_not_lt hpnum (isNum_of_pos (hentry i rfl).low_pos) hbelow
      have hor : p.toFloat ≤ y → i.low ≤ y := Binary64.le_trans hilow
      simpa [hbelow] using hor

theorem fill_fields (reset : MarketData) (t : UInt64) (m : SseMsg) (i : MdInterval) :
    (fill reset t m i).open' = convertPriceIfZero i.open' ∧ (fill reset t m i).highPrice = convertPriceIfZero i.high ∧
      (fill reset t m i).lowPrice = convertPriceIfZero i.low ∧
      (fill reset t m i).lastPrice = convertPriceIfZero (m.lastPrice.toFloat / 100000) := by
  unfold fill
  split
  · exact ⟨rfl, rfl, rfl, rfl⟩
  · exact ⟨rfl, rfl, rfl, rfl⟩

/-- A quote is in range exactly if the low was 100000 times lower before. -/
theorem fill_inRange_iff (reset : MarketData) (t : UInt64) {m : SseMsg} (hp : 0 < m.lastPrice)
    (hentry : ∀ i, entry = some i → Sound i) :
    InRange (fill reset t m (updateInterval entry m.lastPrice)) ↔
      ∃ i, entry = some i ∧ i.low ≤ m.lastPrice.toFloat / 100000 := by
  obtain ⟨hsound, hhigh⟩ := updateInterval_sound hentry hp
  obtain ⟨hyuan, hlt⟩ := yuan_bounds hp
  obtain ⟨ho, hh, hl, hlast⟩ := fill_fields reset t m (updateInterval entry m.lastPrice)
  rw [InRange, ho, hh, hl, hlast, convertPriceIfZero_pos hsound.open_pos, convertPriceIfZero_pos hsound.high_pos,
    convertPriceIfZero_pos hsound.low_pos, convertPriceIfZero_pos hyuan, low_le_iff hentry hp]
  have hown : ¬ m.lastPrice.toFloat ≤ m.lastPrice.toFloat / 100000 := fun h => not_lt_of_ge h hlt
  have hbelow := Binary64.le_trans (le_of_lt hlt) hhigh
  exact ⟨fun h => h.1.1.resolve_right hown,
    fun h => ⟨⟨.inl h, hbelow⟩, hsound.low_le_open, hsound.open_le_high⟩⟩

end Quote

/-! ## Names and keys -/

section Frame

variable {belongTo : Nat → Nat → Bool} {filter : Bytes → Bool} {reset : MarketData} {r : Receiver}
  {frame : Mem × UInt64}

theorem name_ok (m : SseMsg) : 0 ∉ name m := fun h => by
  simpa using List.mem_takeWhile_imp h

/-- The key is that of the name. -/
theorem key_eq (frame : Mem × UInt64) : key frame = instKey (name (message frame)) := by
  rw [key, instKey, instKey, name, List.takeWhile_takeWhile]
  simp

theorem name_length (frame : Mem × UInt64) : (name (message frame)).length ≤ 8 := by
  have hid : (message frame).securityId.length = 8 := Mem.slice_length _ _ _
  have hinst : (SseMsg.inst (message frame)).length ≤ 8 := by
    unfold SseMsg.inst
    split
    · omega
    · simp
  exact (List.takeWhile_sublist _).length_le.trans hinst

/-- Eight bytes hold a name of up to eight, so two names have two keys. -/
theorem instKey_injective {a b : Bytes} (ha : 0 ∉ a) (hb : 0 ∉ b) (hla : a.length ≤ 8) (hlb : b.length ≤ 8)
    (h : instKey a = instKey b) : a = b := by
  have hself {l : Bytes} (hl : 0 ∉ l) : l.takeWhile (· ≠ 0) = l :=
    List.takeWhile_eq_self_iff.mpr fun x hx => decide_eq_true fun h0 => hl (h0 ▸ hx)
  rw [instKey, instKey, hself ha, hself hb] at h
  have hbytes (i : Nat) : a.getD i 0 = b.getD i 0 := by
    by_cases hi : i < 8
    · simpa [Mem.ofBytes] using Mem.byte_of_u64 h i hi
    · rw [List.getD_eq_default _ _ (by omega), List.getD_eq_default _ _ (by omega)]
  -- where one of them ended first, the other would have a zero
  have hnot {l l' : Bytes} (hl : 0 ∉ l) (heq : ∀ i, l.getD i 0 = l'.getD i 0) : l.length ≤ l'.length := by
    by_contra hlt
    have hread := heq l'.length
    rw [List.getD_eq_getElem _ _ (by omega), List.getD_eq_default _ _ (Nat.le_refl _)] at hread
    exact hl (hread ▸ List.getElem_mem _)
  have hlen : a.length = b.length := Nat.le_antisymm (hnot ha hbytes) (hnot hb fun i => (hbytes i).symm)
  refine List.ext_getElem hlen fun i h1 h2 => ?_
  rw [← List.getD_eq_getElem a 0 h1, ← List.getD_eq_getElem b 0 h2]
  exact hbytes i

/-- **Isolation.** A frame leaves the interval of every instrument but its own as it is. -/
theorem isolated {n : Bytes} (hn : 0 ∉ n) (hlen : n.length ≤ 8) (hne : n ≠ name (message frame)) :
    (onData belongTo filter reset r frame.1 frame.2).1.fbMdInterval (instKey n) = r.fbMdInterval (instKey n) := by
  by_cases h : Accepted belongTo filter frame
  · have hkey : instKey n ≠ key frame := by
      rw [key_eq]
      exact fun he => hne (instKey_injective hn (name_ok _) hlen (name_length frame) he)
    rw [onData_accepted h]
    dsimp only
    rw [Function.update_of_ne hkey]
  · rw [onData_ignored h]

end Frame

/-! ## Runs with positive prices -/

section Law

variable {belongTo : Nat → Nat → Bool} {filter : Bytes → Bool} {reset : MarketData}

/-- The intervals hold positive prices, and the low of an instrument is the least price that it
was sent in the frames so far. -/
def Inv (belongTo : Nat → Nat → Bool) (filter : Bytes → Bool) (frames : List (Mem × UInt64)) (s : Feed) : Prop :=
  (∀ k i, s.receiver.fbMdInterval k = some i → Sound i) ∧
  ∀ k y, (∃ i, s.receiver.fbMdInterval k = some i ∧ i.low ≤ y) ↔
    ∃ g ∈ frames, Accepted belongTo filter g ∧ key g = k ∧ (message g).lastPrice.toFloat ≤ y

theorem inv_start : Inv belongTo filter [] Feed.start := by
  refine ⟨fun k i h => ?_, fun k y => ?_⟩
  · cases h
  · simp [Feed.start, Receiver.start]

/-- One frame. -/
theorem inv_step {frames : List (Mem × UInt64)} {s : Feed} (h : Inv belongTo filter frames s) {frame : Mem × UInt64}
    (hp : 0 < (message frame).lastPrice) :
    Inv belongTo filter (frames ++ [frame]) (s.onData belongTo filter reset frame) := by
  obtain ⟨hsound, hlow⟩ := h
  by_cases ha : Accepted belongTo filter frame
  · have hentry := hsound (key frame)
    have hnext : (s.onData belongTo filter reset frame).receiver.fbMdInterval =
        Function.update s.receiver.fbMdInterval (key frame)
          (some (updateInterval (s.receiver.fbMdInterval (key frame)) (message frame).lastPrice)) := by
      rw [Feed.onData, onData_accepted ha]
    refine ⟨fun k i hk => ?_, fun k y => ?_⟩
    · rw [hnext] at hk
      by_cases hkey : k = key frame
      · rw [hkey, Function.update_self, Option.some.injEq] at hk
        exact hk ▸ (updateInterval_sound (hentry ·) hp).1
      · rw [Function.update_of_ne hkey] at hk
        exact hsound k i hk
    · rw [hnext]
      by_cases hkey : k = key frame
      · have hiff := low_le_iff (hentry ·) hp y
        rw [hkey]
        rw [hlow] at hiff
        simp only [Function.update_self, Option.some.injEq, exists_eq_left', hiff, List.mem_append, List.mem_singleton,
          or_and_right, exists_or, exists_eq_left, ha, true_and]
      · simp only [Function.update_of_ne hkey, hlow, List.mem_append, List.mem_singleton, or_and_right, exists_or,
          exists_eq_left, ha, Ne.symm hkey, false_and, and_false, or_false]
  · have hnext : (s.onData belongTo filter reset frame).receiver = s.receiver := by
      rw [Feed.onData, onData_ignored ha]
    refine ⟨hnext ▸ hsound, fun k y => ?_⟩
    simp only [hnext, hlow, List.mem_append, List.mem_singleton, or_and_right, exists_or, exists_eq_left, ha, false_and,
      or_false]

theorem inv_run {frames : List (Mem × UInt64)} (hpos : ∀ f ∈ frames, 0 < (message f).lastPrice) {s : Feed}
    (hr : (machine belongTo filter reset).run Feed.start frames = some s) : Inv belongTo filter frames s := by
  refine Machine.run_history (P := fun pre t => (∀ f ∈ pre, 0 < (message f).lastPrice) → Inv belongTo filter pre t)
    (fun pre t f t' hinv hstep hpos' => ?_) (fun _ => inv_start) hr hpos
  rw [← Option.some.inj hstep]
  exact inv_step (hinv fun g hg => hpos' g (List.mem_append_left _ hg)) (hpos' f (by simp))

/-- A quote is in range exactly if the instrument was quoted 100000 times lower before. -/
theorem quote_inRange_iff {frames : List (Mem × UInt64)} (hpos : ∀ f ∈ frames, 0 < (message f).lastPrice) {s : Feed}
    (hr : (machine belongTo filter reset).run Feed.start frames = some s) {frame : Mem × UInt64}
    (hp : 0 < (message frame).lastPrice) (ha : Accepted belongTo filter frame) :
    (∀ fbMd ∈ (onData belongTo filter reset s.receiver frame.1 frame.2).2, InRange fbMd) ↔
      ∃ g ∈ frames, Accepted belongTo filter g ∧ key g = key frame ∧
        (message g).lastPrice.toFloat ≤ (message frame).lastPrice.toFloat / 100000 := by
  obtain ⟨hsound, hlow⟩ := inv_run hpos hr
  rw [onData_accepted ha, ← hlow, ← fill_inRange_iff reset frame.2 hp (hsound (key frame) ·)]
  simp

/-- The law of a run: the quotes are in range, and instruments do not affect each other. -/
def DayRange (belongTo : Nat → Nat → Bool) (filter : Bytes → Bool) (reset : MarketData)
    (frames : List (Mem × UInt64)) : Prop :=
  ∀ s, (machine belongTo filter reset).run Feed.start frames = some s →
    (∀ fbMd ∈ s.published, InRange fbMd) ∧
    ∀ frame n, 0 ∉ n → n.length ≤ 8 → n ≠ name (message frame) →
      (s.onData belongTo filter reset frame).receiver.fbMdInterval (instKey n) = s.receiver.fbMdInterval (instKey n)

theorem run_snoc {frames : List (Mem × UInt64)} {frame : Mem × UInt64} {t : Feed} :
    (machine belongTo filter reset).run Feed.start (frames ++ [frame]) = some t ↔
      ∃ s, (machine belongTo filter reset).run Feed.start frames = some s ∧
        s.onData belongTo filter reset frame = t := by
  simp [Machine.run_append, Option.bind_eq_some_iff, Machine.run, machine]

theorem run_total (frames : List (Mem × UInt64)) :
    ∃ s, (machine belongTo filter reset).run Feed.start frames = some s := by
  induction frames using List.reverseRecOn with
  | nil => exact ⟨_, rfl⟩
  | append_singleton frames frame ih =>
    obtain ⟨s, hs⟩ := ih
    exact ⟨_, run_snoc.mpr ⟨s, hs, rfl⟩⟩

/-- A run whose quotes are all in range has none. -/
theorem none_accepted {frames : List (Mem × UInt64)} (hpos : ∀ f ∈ frames, 0 < (message f).lastPrice) {s : Feed}
    (hr : (machine belongTo filter reset).run Feed.start frames = some s) (hrange : ∀ d ∈ s.published, InRange d) :
    ∀ f ∈ frames, ¬ Accepted belongTo filter f := by
  induction frames using List.reverseRecOn generalizing s with
  | nil => simp
  | append_singleton frames frame ih =>
    obtain ⟨t, ht, rfl⟩ := run_snoc.mp hr
    have hpos' (f : Mem × UInt64) (hf : f ∈ frames) := hpos f (List.mem_append_left _ hf)
    have hbefore := ih hpos' ht fun d hd => hrange d (List.mem_append_left _ hd)
    have hlast : ¬ Accepted belongTo filter frame := by
      intro ha
      -- its quote would need an earlier one
      obtain ⟨g, hg, hga, -⟩ := (quote_inRange_iff hpos' ht (hpos frame (by simp)) ha).mp fun d hd =>
        hrange d (List.mem_append_right _ (Option.mem_toList.mpr hd))
      exact hbefore g hg hga
    intro f hf
    rcases List.mem_append.mp hf with hf | hf
    · exact hbefore f hf
    · exact List.mem_singleton.mp hf ▸ hlast

theorem published_none {frames : List (Mem × UInt64)} (hno : ∀ f ∈ frames, ¬ Accepted belongTo filter f) {s : Feed}
    (hr : (machine belongTo filter reset).run Feed.start frames = some s) : s.published = [] := by
  induction frames using List.reverseRecOn generalizing s with
  | nil => exact congrArg Feed.published (Option.some.inj hr).symm
  | append_singleton frames frame ih =>
    obtain ⟨t, ht, rfl⟩ := run_snoc.mp hr
    have hbefore := ih (fun f hf => hno f (List.mem_append_left _ hf)) ht
    simp [Feed.onData, onData_ignored (hno frame (by simp)), hbefore]

/-- **Exact condition.** -/
theorem day_range_iff (belongTo : Nat → Nat → Bool) (filter : Bytes → Bool) (reset : MarketData)
    {frames : List (Mem × UInt64)} (hpos : ∀ f ∈ frames, 0 < (message f).lastPrice) :
    DayRange belongTo filter reset frames ↔ ∀ f ∈ frames, ¬ Accepted belongTo filter f := by
  constructor
  · intro h
    obtain ⟨s, hs⟩ : ∃ s, (machine belongTo filter reset).run Feed.start frames = some s := run_total frames
    exact none_accepted hpos hs (h s hs).1
  · intro hno s hs
    have hnone := published_none hno hs
    refine ⟨fun d hd => ?_, fun frame n hn hlen hne => isolated hn hlen hne⟩
    rw [hnone] at hd
    cases hd

end Law

/-- A frame with a quote of the ETF 510050 at 2.5 yuan, sent as 250000. -/
def etfFrame : Mem × UInt64 :=
  ((Mem.ofBytes []).memcpy 46 (Mem.ofBytes [0x44, 0x30, 0x30, 0x34]) 4
    |>.memcpy 62 (Mem.ofBytes [0x35, 0x31, 0x30, 0x30, 0x35, 0x30]) 6
    |>.memcpy 86 (Mem.ofBytes [0x90, 0xd0, 0x03]) 3, 0)

theorem etfFrame_positive : ∀ f ∈ [etfFrame], 0 < (message f).lastPrice := by
  simp only [List.mem_singleton, forall_eq]
  decide

theorem etfFrame_accepted : Accepted (fun _ _ => true) (fun _ => true) etfFrame :=
  ⟨rfl, by decide, .inr rfl⟩

/-- Not subscribed, it is not published. -/
theorem day_range_iff_unsubscribed :
    DayRange (fun _ _ => true) (fun _ => false) .zero [etfFrame] ↔
      ∀ f ∈ [etfFrame], ¬ Accepted (fun _ _ => true) (fun _ => false) f :=
  day_range_iff _ _ _ etfFrame_positive

/-- **Counterexample.** -/
theorem low_above_last :
    (onData (fun _ _ => true) (fun _ => true) .zero Receiver.start etfFrame.1 etfFrame.2).2.map
        (fun fbMd => (fbMd.lowPrice == 250000, fbMd.lastPrice == 2.5)) = some (true, true) ∧
      ¬ DayRange (fun _ _ => true) (fun _ => true) .zero [etfFrame] := by
  refine ⟨by decide +kernel, fun h => ?_⟩
  obtain ⟨s, hs⟩ : ∃ s, (machine (fun _ _ => true) (fun _ => true) .zero).run Feed.start [etfFrame] = some s :=
    run_total _
  exact none_accepted etfFrame_positive hs (h s hs).1 etfFrame (by simp) etfFrame_accepted

end MdInfoSet.L4.SseOption
