import MdInfoSet.L2Machine.InstMapRuns
import MdInfoSet.L4App.GfexReceiver

/-!
# One record for each instrument

`GFEXQuota` (src/dz_gfex_md/src/dz_gfex_md.cpp) keeps the filter record, the saved quote
and the static values of an instrument in three `InstMap`s, whose keys are the first 16
bytes of a code ("注意，最多只拷贝前16字节", src/qx_commom/inst_map.h:99-115). Codes may have up
to 19 (`char code[20]`).

**Isolation** (`codes_isolated`). Two subscribed codes have different entries exactly if
their first 16 bytes differ, zeroes behind a shorter code counted. Then no message of the
one reads or writes the records of the other: whatever is in them, the run is the same and
leaves them alone (`apply_rewriteRecords`, `Machine.run_commute`).

**Counterexample.** `lc2601-P-23400001` and `lc2601-P-23400002` share one entry
(`long_codes_shared`).
-/
namespace MdInfoSet.L4.GfexIsolation

open MdInfoSet.L1.Lv2Quote MdInfoSet.L2.InstMap MdInfoSet.L2.RingBuffer MdInfoSet.L4.GfexReceiver
open MdInfoSet.L4.GfexFilter (QuotaInfo)

/-! ## Messages -/

/-- mirrors src/dz_gfex_md/src/dz_gfex_md.cpp:454-706 -/
def onDataLv2 (mgr : GfexQuota) (databuffer : Mem) (size : Nat) (t0 t1 : UInt64) : Option GfexQuota :=
  if size = lv2ObQuoteSize then
    (cstr (Lv2ObQuote.ofMem databuffer).symbol).bind fun symbol =>
      match find mgr.mQuotaCache.data symbol with
      | none => some mgr
      | some i => (valueAt mgr.mQuotaCache.data i).bind fun cache =>
        (GfexHandlers.onDataLv2 ⟨cache, Quota.init, mgr.pushed, mgr.sums⟩ databuffer size t0 t1).map fun e =>
          { mgr with
            mQuotaCache := mgr.mQuotaCache.modify i fun _ => e.cache
            pushed := e.pushed
            sums := e.sums }
  else some mgr

/-- A Level-2 message, and what the Level-1 handlers go through one by one. -/
inductive Message where
  | lv2 (databuffer : Mem) (size : Nat) (t0 t1 : UInt64)
  | lv1 (row : Row)

def Message.apply (mgr : GfexQuota) : Message → Option GfexQuota
  | .lv2 databuffer size t0 t1 => onDataLv2 mgr databuffer size t0 t1
  | .lv1 row => row.apply mgr

/-- The code a message is about, if it is about one. -/
def Message.code (mgr : GfexQuota) : Message → Option Bytes
  | .lv2 databuffer size _ _ => if size = lv2ObQuoteSize then cstr (Lv2ObQuote.ofMem databuffer).symbol else none
  | .lv1 (.mapping msg) => some msg.code
  | .lv1 (.static msg) => some msg.code
  | .lv1 (.record loaded) => some loaded.code
  | .lv1 (.quote _ data _ _) => quoteCode mgr data

/-- The messages that are not about a code with the first bytes of `b`. -/
def NotAbout (b : Bytes) (mgr : GfexQuota) (msg : Message) : Prop :=
  ∀ a, msg.code mgr = some a → padded a ≠ padded b

/-- The receiver once it is prepared, message by message. -/
def receiver : Machine GfexQuota Message where
  init := machine.init
  step mgr msg := msg.apply mgr

/-! ## Other values in the records of a code -/

/-- What the records of a code are changed to. -/
structure Rewrite where
  staticinfo : StaticInfo → StaticInfo
  quota : QuotaInfo → QuotaInfo
  lv1 : Quota → Quota

def rewriteRecords (b : Bytes) (w : Rewrite) (mgr : GfexQuota) : GfexQuota :=
  { mgr with
    mStaticinfoCache := mgr.mStaticinfoCache.update b w.staticinfo
    mQuotaCache := mgr.mQuotaCache.update b w.quota
    mLv1Quota := mgr.mLv1Quota.update b w.lv1 }

variable {b : Bytes} {w : Rewrite}

theorem saveStatic_rewriteRecords (mgr : GfexQuota) (code : Bytes) (new : Option StaticInfo)
    (update : StaticInfo → StaticInfo) :
    saveStatic (rewriteRecords b w mgr) code new update =
      (saveStatic mgr code new update).map (rewriteRecords b w) := by
  simp only [saveStatic, rewriteRecords]
  split <;> simp [Function.comp_def, rewriteRecords]

theorem mapIndex_rewriteRecords (mgr : GfexQuota) (idx : UInt32) (code : Bytes) :
    mapIndex (rewriteRecords b w mgr) idx code = rewriteRecords b w (mapIndex mgr idx code) := by
  by_cases h : idx ∈ mgr.mLv1CodeIndexSet <;> simp [mapIndex, rewriteRecords, h]

theorem code2Index_rewriteRecords (mgr : GfexQuota) (msg : CodeMappingInfo) :
    code2Index (rewriteRecords b w mgr) msg = (code2Index mgr msg).map (rewriteRecords b w) := by
  simp only [code2Index, saveStatic_rewriteRecords, Option.map_map]
  congr 1
  funext mgr
  show (if msg.code ∈ mgr.mSubscribeInsts then _ else _) = rewriteRecords b w (if _ then _ else _)
  split
  · exact mapIndex_rewriteRecords mgr _ _
  · rfl

theorem staticInfo_rewriteRecords (mgr : GfexQuota) {msg : DailyStaticInfo}
    (h : charsToUint128 msg.code ≠ charsToUint128 b) :
    staticInfo (rewriteRecords b w mgr) msg = (staticInfo mgr msg).map (rewriteRecords b w) := by
  simp only [staticInfo, saveStatic_rewriteRecords, Option.map_map]
  congr 1
  funext mgr
  show (if msg.code ∈ mgr.mSubscribeInsts then
    match find (mgr.mStaticinfoCache.update b w.staticinfo).data msg.code with
    | none => _
    | some i => _ else _) = rewriteRecords b w (if _ then _ else _)
  rw [find_update]
  split
  · cases hi : find mgr.mStaticinfoCache.data msg.code with
    | none => rfl
    | some i => simp only [rewriteRecords, update_modify_ne _ _ hi h]
  · rfl

theorem loadRecord_rewriteRecords (mgr : GfexQuota) {record : Loaded}
    (h : charsToUint128 record.code ≠ charsToUint128 b) :
    loadRecord (rewriteRecords b w mgr) record = (loadRecord mgr record).map (rewriteRecords b w) := by
  rw [loadRecord, saveStatic_rewriteRecords, loadRecord]
  cases saveStatic mgr record.code (some record.info) id with
  | none => rfl
  | some mgr =>
    show (if record.code ∈ mgr.mSubscribeInsts then _ else _) = Option.map _ (if _ then _ else _)
    split
    · simp only [mapIndex_rewriteRecords]
      generalize mapIndex mgr record.info.idx record.code = mgr
      show (find (mgr.mStaticinfoCache.update b w.staticinfo).data record.code).bind _ = _
      rw [find_update]
      cases hi : find mgr.mStaticinfoCache.data record.code with
      | none => rfl
      | some i =>
        simp only [Option.bind_some]
        split
        · simp only [rewriteRecords, update_modify_ne _ _ hi h, Option.map_some]
        · rfl
    · rfl

theorem updateQuote_rewriteRecords (mgr : GfexQuota) {code : Bytes} (h : charsToUint128 code ≠ charsToUint128 b)
    (t0 : UInt64) (data : Mem) (dataLen : Nat) (t1 : UInt64) :
    updateQuote (rewriteRecords b w mgr) code t0 data dataLen t1 =
      (updateQuote mgr code t0 data dataLen t1).map (rewriteRecords b w) := by
  simp only [updateQuote, rewriteRecords, find_update]
  cases hi : find mgr.mLv1Quota.data code with
  | none => rfl
  | some i =>
    simp only [valueAt_update_ne _ hi h]
    cases valueAt mgr.mLv1Quota.data i with
    | none => rfl
    | some quota =>
      simp only [Option.bind_some]
      cases hj : find mgr.mQuotaCache.data code with
      | none => simp only [update_modify_ne _ _ hi h, Option.map_map, Function.comp_def, rewriteRecords]
      | some j =>
        simp only [valueAt_update_ne _ hj h]
        cases valueAt mgr.mQuotaCache.data j with
        | none => rfl
        | some cache =>
          simp only [update_modify_ne _ _ hi h, update_modify_ne _ _ hj h, Option.bind_some, Option.map_map,
            Function.comp_def, rewriteRecords]

theorem onDataLv2_rewriteRecords (mgr : GfexQuota) {databuffer : Mem} {size : Nat}
    (h : ∀ symbol, size = lv2ObQuoteSize → cstr (Lv2ObQuote.ofMem databuffer).symbol = some symbol →
      charsToUint128 symbol ≠ charsToUint128 b) (t0 t1 : UInt64) :
    onDataLv2 (rewriteRecords b w mgr) databuffer size t0 t1 =
      (onDataLv2 mgr databuffer size t0 t1).map (rewriteRecords b w) := by
  unfold onDataLv2
  split
  · rename_i hsize
    cases hsymbol : cstr (Lv2ObQuote.ofMem databuffer).symbol with
    | none => rfl
    | some symbol =>
      have hne := h symbol hsize hsymbol
      simp only [Option.bind_some, rewriteRecords, find_update]
      cases hi : find mgr.mQuotaCache.data symbol with
      | none => rfl
      | some i =>
        simp only [valueAt_update_ne _ hi hne]
        cases valueAt mgr.mQuotaCache.data i with
        | none => rfl
        | some cache =>
          simp only [update_modify_ne _ _ hi hne, Option.bind_some, Option.map_map, Function.comp_def, rewriteRecords]
  · rfl

/-- A message that is not about a code does with other values in its records what it does
with these, and leaves them. -/
theorem apply_rewriteRecords (mgr : GfexQuota) {msg : Message} (h : NotAbout b mgr msg) :
    msg.apply (rewriteRecords b w mgr) = (msg.apply mgr).map (rewriteRecords b w) := by
  have hkey : ∀ {a}, msg.code mgr = some a → charsToUint128 a ≠ charsToUint128 b := fun ha he =>
    h _ ha (charsToUint128_eq_iff.mp he)
  cases msg with
  | lv2 databuffer size t0 t1 =>
    refine onDataLv2_rewriteRecords mgr (fun symbol hsize hsymbol => hkey ?_) t0 t1
    rw [Message.code, if_pos hsize, hsymbol]
  | lv1 row =>
    cases row with
    | mapping msg => exact code2Index_rewriteRecords mgr msg
    | static msg => exact staticInfo_rewriteRecords mgr (hkey rfl)
    | record loaded => exact loadRecord_rewriteRecords mgr (hkey rfl)
    | quote t0 data dataLen t1 =>
      show handleLv1Quota _ _ _ _ _ = (handleLv1Quota _ _ _ _ _).map _
      simp only [handleLv1Quota]
      rw [show quoteCode (rewriteRecords b w mgr) data = quoteCode mgr data from rfl]
      cases hcode : quoteCode mgr data with
      | none => rfl
      | some code => exact updateQuote_rewriteRecords mgr (hkey hcode) t0 data dataLen t1

/-! ## The entries -/

theorem onDataLv2_sameKeys {mgr mgr' : GfexQuota} {databuffer : Mem} {size : Nat} {t0 t1 : UInt64}
    (h : onDataLv2 mgr databuffer size t0 t1 = some mgr') : SameKeys mgr mgr' := by
  unfold onDataLv2 at h
  split at h
  · obtain ⟨symbol, -, h⟩ := Option.bind_eq_some_iff.mp h
    split at h
    · cases h
      exact .refl mgr
    · obtain ⟨cache, -, h⟩ := Option.bind_eq_some_iff.mp h
      obtain ⟨e, -, rfl⟩ := Option.map_eq_some_iff.mp h
      exact ⟨rfl, rfl, Sorted.modify_keys _ _ _, rfl⟩
  · cases h
    exact .refl mgr

theorem run_sameKeys {mgr mgr' : GfexQuota} {msgs : List Message} (h : receiver.run mgr msgs = some mgr') :
    SameKeys mgr mgr' := by
  refine Machine.run_history (P := fun _ m => SameKeys mgr m) (fun _ _ msg _ hs hstep => hs.trans ?_) (.refl mgr) h
  cases msg with
  | lv2 databuffer size t0 t1 => exact onDataLv2_sameKeys hstep
  | lv1 row => exact apply_sameKeys hstep

/-- A code the receiver was given has an entry in each of the maps. -/
theorem subscribed_found {insts requested : List Bytes} {a : Bytes} (ha : a ∈ insts ++ requested) :
    Found (configured insts requested) a := by
  refine (configured_hasKeys insts requested).2.found (List.mem_map_of_mem ?_)
  have hmem : a ∈ configuredInsts insts ↔ a ∈ insts := by
    rw [configuredInsts, DceReceiver.mem_foldl_emplace]
    simp
  by_cases hin : a ∈ configuredInsts insts
  · exact List.mem_append_left _ hin
  · have hreq := (List.mem_append.mp ha).resolve_left (mt hmem.mpr hin)
    exact List.mem_append_right _ (List.mem_filter.mpr ⟨hreq, by simpa using hin⟩)

/-- Both codes have an entry, and it is one entry exactly if they agree in the bytes of the key. -/
def EntriesOf {T : Type} (m : Sorted T) (a b : Bytes) : Prop :=
  ∃ i j, find m.data a = some i ∧ find m.data b = some j ∧ (i = j ↔ padded a = padded b)

theorem entriesOf {T : Type} {m : Sorted T} {a b : Bytes} (ha : ∃ i, find m.data a = some i)
    (hb : ∃ j, find m.data b = some j) : EntriesOf m a b := by
  obtain ⟨i, hi⟩ := ha
  obtain ⟨j, hj⟩ := hb
  refine ⟨i, j, hi, hj, ?_⟩
  rw [← charsToUint128_eq_iff]
  constructor
  · rintro rfl
    exact find_inj hi hj
  · intro h
    rw [find_of_key h, hj] at hi
    exact (Option.some.inj hi).symm

/-- In every state two subscribed codes have different entries exactly if their first bytes
differ, and no run of messages about other codes than the second reads or writes its records. -/
theorem codes_isolated (insts requested : List Bytes) (msgs : List Message) {mgr : GfexQuota}
    (hrun : receiver.run (configured insts requested) msgs = some mgr) {a b : Bytes}
    (ha : a ∈ insts ++ requested) (hb : b ∈ insts ++ requested) :
    EntriesOf mgr.mQuotaCache a b ∧ EntriesOf mgr.mLv1Quota a b ∧ EntriesOf mgr.mStaticinfoCache a b ∧
    (padded a ≠ padded b → ∀ msg : Message, msg.code mgr = some a → NotAbout b mgr msg) ∧
    ∀ (msgs' : List Message) (w : Rewrite), receiver.Along (NotAbout b) mgr msgs' →
      receiver.run (rewriteRecords b w mgr) msgs' = (receiver.run mgr msgs').map (rewriteRecords b w) := by
  have hsame := run_sameKeys hrun
  have hfa := hsame.found (subscribed_found ha)
  have hfb := hsame.found (subscribed_found hb)
  refine ⟨entriesOf hfa.quotaCache hfb.quotaCache, entriesOf hfa.lv1Quota hfb.lv1Quota,
    entriesOf hfa.staticinfoCache hfb.staticinfoCache, ?_, ?_⟩
  · intro hne msg hmsg a' ha'
    rw [hmsg, Option.some.injEq] at ha'
    exact ha' ▸ hne
  · intro msgs' w hother
    exact Machine.run_commute (fun s msg h => apply_rewriteRecords s h) hother

/-- `lc2601-P-2340000` and a last character. -/
def longCode (c : UInt8) : Bytes :=
  [0x6c, 0x63, 0x32, 0x36, 0x30, 0x31, 0x2d, 0x50, 0x2d, 0x32, 0x33, 0x34, 0x30, 0x30, 0x30, 0x30, c]

/-- Messages about it. -/
def longMessages : List Message :=
  [.lv1 (.static ⟨⟨1, 2, 3, 4, 5⟩, longCode 0x31⟩), .lv1 (.mapping ⟨longCode 0x31, 8⟩)]

/-- Whatever stands in the records of its first six characters, which are a code too. -/
theorem codes_isolated_long : ∃ mgr mgr',
    receiver.run (configured [longCode 0x31] [(longCode 0x31).take 6]) [.lv1 (.mapping ⟨longCode 0x31, 7⟩)] =
      some mgr ∧
    receiver.run mgr longMessages = some mgr' ∧ EntriesOf mgr.mQuotaCache (longCode 0x31) ((longCode 0x31).take 6) ∧
    ∀ w, receiver.run (rewriteRecords ((longCode 0x31).take 6) w mgr) longMessages =
      some (rewriteRecords ((longCode 0x31).take 6) w mgr') := by
  obtain ⟨mgr, hmapped⟩ := @code2Index_some (configured [longCode 0x31] [(longCode 0x31).take 6]) ⟨longCode 0x31, 7⟩
    (by decide)
  have hrun : receiver.run (configured [longCode 0x31] [(longCode 0x31).take 6])
      [.lv1 (.mapping ⟨longCode 0x31, 7⟩)] = some mgr := Machine.run_cons.mpr ⟨mgr, hmapped, rfl⟩
  obtain ⟨mgr1, hstatic⟩ := @staticInfo_some mgr ⟨⟨1, 2, 3, 4, 5⟩, longCode 0x31⟩ (by decide)
  obtain ⟨mgr', hmapped'⟩ := @code2Index_some mgr1 ⟨longCode 0x31, 8⟩ (by decide)
  have hrun' : receiver.run mgr longMessages = some mgr' :=
    Machine.run_cons.mpr ⟨mgr1, hstatic, Machine.run_cons.mpr ⟨mgr', hmapped', rfl⟩⟩
  have hapart : padded (longCode 0x31) ≠ padded ((longCode 0x31).take 6) := by decide
  have hother : receiver.Along (NotAbout ((longCode 0x31).take 6)) mgr longMessages := by
    refine ⟨fun a ha => ?_, fun _ _ => ⟨fun a ha => ?_, fun _ _ => trivial⟩⟩
    · exact Option.some.inj ha ▸ hapart
    · exact Option.some.inj ha ▸ hapart
  obtain ⟨hentries, -, -, -, hisolated⟩ :=
    codes_isolated [longCode 0x31] [(longCode 0x31).take 6] _ hrun (a := longCode 0x31) (by simp)
      (List.mem_append_right _ List.mem_cons_self)
  exact ⟨mgr, mgr', hrun, hrun', hentries, fun w => by rw [hisolated longMessages w hother, hrun', Option.map_some]⟩

/-- **Counterexample.** Codes of 17 characters that differ in the last one. -/
theorem long_codes_shared : ¬ ∀ (insts : List Bytes) (a b : Bytes), (∀ c ∈ insts, c.length ≤ 19 ∧ 0 ∉ c) →
    a ∈ insts → b ∈ insts → a ≠ b →
    find (configured insts []).mQuotaCache.data a ≠ find (configured insts []).mQuotaCache.data b := by
  intro h
  exact h [longCode 0x31, longCode 0x32] (longCode 0x31) (longCode 0x32) (by decide) (by simp) (by simp) (by decide)
    (find_of_key rfl)

end MdInfoSet.L4.GfexIsolation
