import MdInfoSet.Core.Machine
import MdInfoSet.L2Machine.InstMap
import MdInfoSet.L4App.DceReceiver
import MdInfoSet.L4App.GfexHandlers

/-!
# The Level-1 tables of the GFEX receiver

`GFEXQuota` (src/dz_gfex_md/src/dz_gfex_md.cpp) with the tables its Level-1 messages fill:
the instruments saved for the mapping file (`m_code_save`, `m_staticinfo_save`), the index
map (`m_lv1_code_index_set`, `m_lv1_code_map`) and the three `InstMap`s of the subscribed
instruments. `LoadJsonCfg` and `subscribe_inst` prepare them; `LoadMaping`,
`HandleLv1Code2Index`, `HandleLv1StaticInfo` and `HandleLv1Quota` come in any order after
that (`machine`).

A handler returns `none` where the C++ is undefined: a code that does not end within the
message or file, or that `strncpy` copies over the end of `StaticInfo::code`, and an
instrument `LoadMaping` does not find. The doubles of a `StaticInfo` are their bits, since
nothing computes with them here.

* `run_rows`: a run is one of single mapping messages, static messages, file records and
  quotes, on which the invariants are proved.
* `configured_hasKeys`: the items of the three maps.
-/
namespace MdInfoSet.L4.GfexReceiver

open MdInfoSet.L1.Lv2Quote MdInfoSet.L2.InstMap MdInfoSet.L2.RingBuffer
open MdInfoSet.L4.GfexFilter (QuotaInfo)
open MdInfoSet.L4.GfexHandlers (Sums strncpy)
open MdInfoSet.L4.DceReceiver (emplace)

/-! ## Records and messages -/

/-- The values of a static message, which a `StaticInfo` holds too. -/
structure StaticValues where
  preOpeninterest : UInt32
  upper : UInt64
  lower : UInt64
  preSettle : UInt64
  preClose : UInt64
  deriving DecidableEq

/-- mirrors src/dz_gfex_md/src/dz_gfex_md.h:320-327 -/
structure StaticInfo extends StaticValues where
  code : Bytes
  idx : UInt32
  deriving DecidableEq

def StaticInfo.zero : StaticInfo := ⟨⟨0, 0, 0, 0, 0⟩, [], 0⟩

/-- The five assignments of the values. -/
def StaticInfo.setValues (info : StaticInfo) (v : StaticValues) : StaticInfo := { info with toStaticValues := v }

@[simp] theorem StaticInfo.setValues_code (info : StaticInfo) (v : StaticValues) :
    (info.setValues v).code = info.code := by
  rw [setValues]

@[simp] theorem StaticInfo.setValues_idx (info : StaticInfo) (v : StaticValues) :
    (info.setValues v).idx = info.idx := by
  rw [setValues]

@[simp] theorem StaticInfo.setValues_values (info : StaticInfo) (v : StaticValues) :
    (info.setValues v).toStaticValues = v := by
  rw [setValues]

/-- `sizeof(StaticInfo)` and `sizeof(StaticInfo::code)` -/
def staticInfoSize : Nat := 60
def codeSize : Nat := 20

/-- mirrors src/dz_gfex_md/src/dz_gfex_md.h:242-250 -/
structure CodeMappingInfo where
  code : Bytes
  idx : UInt32
  deriving DecidableEq

/-- `(code_mapping_info *)data`, with the code as `std::string code(msg->code)` reads it. -/
def CodeMappingInfo.ofMem (data : Mem) (dataLen : Nat) : Option CodeMappingInfo :=
  (cstr (data.slice 6 (dataLen - 6))).map fun code => ⟨code, UInt32.ofNat (data.u32 88)⟩

/-- mirrors src/dz_gfex_md/src/dz_gfex_md.h:252-275 -/
structure DailyStaticInfo extends StaticValues where
  code : Bytes
  deriving DecidableEq

/-- `(daily_static_info *)data` -/
def DailyStaticInfo.ofMem (data : Mem) (dataLen : Nat) : Option DailyStaticInfo :=
  (cstr (data.slice 14 (dataLen - 14))).map fun code =>
    { code := code
      preOpeninterest := UInt32.ofNat (data.u32 118)
      upper := UInt64.ofNat (data.u64 154)
      lower := UInt64.ofNat (data.u64 162)
      preSettle := UInt64.ofNat (data.u64 170)
      preClose := UInt64.ofNat (data.u64 178) }

/-- `__builtin_bswap32` -/
def bswap32 (v : UInt32) : UInt32 :=
  UInt32.ofNat (v.toNat % 2 ^ 8 * 2 ^ 24 + v.toNat / 2 ^ 8 % 2 ^ 8 * 2 ^ 16 + v.toNat / 2 ^ 16 % 2 ^ 8 * 2 ^ 8 +
    v.toNat / 2 ^ 24)

/-- `__builtin_bswap64` -/
def bswap64 (v : UInt64) : UInt64 :=
  (bswap32 v.toUInt32).toUInt64 * 2 ^ 32 + (bswap32 (v / 2 ^ 32).toUInt32).toUInt64

/-- `reverseInt32` and `reverseDouble` of each value (src/dz_gfex_md/src/dz_gfex_md.h:410-423). -/
def StaticValues.reverse (v : StaticValues) : StaticValues :=
  ⟨bswap32 v.preOpeninterest, bswap64 v.upper, bswap64 v.lower, bswap64 v.preSettle, bswap64 v.preClose⟩

/-! ## The tables -/

structure GfexQuota where
  mSubscribeInsts : List Bytes
  mStaticinfoCache : Sorted StaticInfo
  mQuotaCache : Sorted QuotaInfo
  mLv1Quota : Sorted Quota
  mLv1CodeIndexSet : List UInt32
  mLv1CodeMap : List (UInt32 × Bytes)
  mCodeSave : List (Bytes × UInt32)
  mStaticinfoSave : List StaticInfo
  pushed : List Slot
  sums : Sums

def GfexQuota.start : GfexQuota :=
  ⟨[], ⟨[], .nil⟩, ⟨[], .nil⟩, ⟨[], .nil⟩, [], [], [], [], [], ⟨0, 0, 0, 0, 0, 0⟩⟩

/-- `std::map::emplace`: a key that is there keeps its value. -/
def emplaceKey {K V : Type} [BEq K] (m : List (K × V)) (k : K) (v : V) : List (K × V) :=
  if (m.lookup k).isSome then m else m ++ [(k, v)]

/-- mirrors src/dz_gfex_md/src/dz_gfex_md.cpp:265-293
`insts` are the names the configuration and the instrument file give. -/
def loadJsonCfg (mgr : GfexQuota) (insts : List Bytes) : GfexQuota :=
  let subscribeInsts := insts.foldl emplace mgr.mSubscribeInsts
  { mgr with
    mSubscribeInsts := subscribeInsts
    mQuotaCache := sort (subscribeInsts.foldl (initOnce .zero) mgr.mQuotaCache.data)
    mStaticinfoCache := sort (subscribeInsts.foldl (initOnce .zero) mgr.mStaticinfoCache.data)
    mLv1Quota := sort (subscribeInsts.foldl (initOnce .init) mgr.mLv1Quota.data) }

/-- `InitOnce` in `subscribe_inst`, behind its test. -/
def initNew {T : Type} (mgr : GfexQuota) (inst : Bytes) (zero : T) (data : List (Nat × T)) : List (Nat × T) :=
  if inst ∈ mgr.mSubscribeInsts then data else initOnce zero data inst

/-- mirrors src/dz_gfex_md/src/dz_gfex_md.cpp:158-171 -/
def subscribeInst (mgr : GfexQuota) (inst : Bytes) : GfexQuota :=
  { mgr with
    mQuotaCache := sort (initNew mgr inst .zero mgr.mQuotaCache.data)
    mStaticinfoCache := sort (initNew mgr inst .zero mgr.mStaticinfoCache.data)
    mLv1Quota := sort (initNew mgr inst .init mgr.mLv1Quota.data) }

/-! ## Mapping and static messages -/

/-- A code that is not saved yet is saved as `new`, one that is has its record updated. The
position is the size of `m_code_save` before, so it does not matter which of the two is
appended to first. -/
def saveStatic (mgr : GfexQuota) (code : Bytes) (new : Option StaticInfo) (update : StaticInfo → StaticInfo) :
    Option GfexQuota :=
  match mgr.mCodeSave.lookup code with
  | none => new.map fun info =>
    { mgr with
      mStaticinfoSave := mgr.mStaticinfoSave ++ [info]
      mCodeSave := emplaceKey mgr.mCodeSave code (UInt32.ofNat mgr.mCodeSave.length) }
  | some id => some { mgr with mStaticinfoSave := mgr.mStaticinfoSave.modify id.toNat update }

/-- The index map (cpp:1179-1181, 1269-1271). -/
def mapIndex (mgr : GfexQuota) (idx : UInt32) (code : Bytes) : GfexQuota :=
  if idx ∈ mgr.mLv1CodeIndexSet then mgr
  else
    { mgr with
      mLv1CodeIndexSet := mgr.mLv1CodeIndexSet ++ [idx]
      mLv1CodeMap := emplaceKey mgr.mLv1CodeMap idx code }

/-- mirrors src/dz_gfex_md/src/dz_gfex_md.cpp:1159-1187 -/
def code2Index (mgr : GfexQuota) (msg : CodeMappingInfo) : Option GfexQuota :=
  (saveStatic mgr msg.code
    (if msg.code.length ≤ codeSize then
      some { StaticInfo.zero with code := strncpy StaticInfo.zero.code msg.code, idx := msg.idx } else none)
    fun info => { info with idx := msg.idx }).map fun mgr =>
  if msg.code ∈ mgr.mSubscribeInsts then mapIndex mgr msg.idx msg.code else mgr

/-- mirrors src/dz_gfex_md/src/dz_gfex_md.cpp:1190-1231
What is saved has the bytes of the values reversed, what is published does not. -/
def staticInfo (mgr : GfexQuota) (msg : DailyStaticInfo) : Option GfexQuota :=
  (saveStatic mgr msg.code
    (if msg.code.length ≤ codeSize then
      some ({ StaticInfo.zero with code := strncpy StaticInfo.zero.code msg.code }.setValues
        msg.toStaticValues.reverse) else none)
    fun info => info.setValues msg.toStaticValues.reverse).map fun mgr =>
  if msg.code ∈ mgr.mSubscribeInsts then
    match find mgr.mStaticinfoCache.data msg.code with
    | none => mgr
    | some i =>
      { mgr with
        mStaticinfoCache := mgr.mStaticinfoCache.modify i fun info => info.setValues msg.toStaticValues }
  else mgr

/-! ## The mapping file -/

/-- One record of a mapping file: its code as `std::string code(info->code)` reads it, and
its bytes. -/
structure Loaded where
  code : Bytes
  info : StaticInfo

/-- The file of the day: `.idx.bin` if there is one, else `.idx.csv`, whose lines are given
by the values they hold. -/
inductive MappingFile where
  | bin (data : Mem) (size : Nat)
  | csv (lines : List StaticInfo)

/-- The `StaticInfo` at an offset of the file. -/
def Loaded.ofMem (data : Mem) (size off : Nat) : Option Loaded :=
  (cstr (data.slice off (size - off))).map fun code =>
    { code := code
      info :=
        { code := (data.slice off codeSize).takeWhile (· ≠ 0)
          idx := UInt32.ofNat (data.u32 (off + 20))
          preOpeninterest := UInt32.ofNat (data.u32 (off + 24))
          upper := UInt64.ofNat (data.u64 (off + 28))
          lower := UInt64.ofNat (data.u64 (off + 36))
          preSettle := UInt64.ofNat (data.u64 (off + 44))
          preClose := UInt64.ofNat (data.u64 (off + 52)) } }

/-- A line, whose code `strncpy` copies into the record. -/
def Loaded.ofLine (line : StaticInfo) : Option Loaded :=
  if line.code.length ≤ codeSize then
    some ⟨line.code, { line with code := strncpy StaticInfo.zero.code line.code }⟩ else none

def MappingFile.records : MappingFile → Option (List Loaded)
  | .bin data size => (List.range (size / staticInfoSize)).mapM fun i => Loaded.ofMem data size (staticInfoSize * i)
  | .csv lines => lines.mapM Loaded.ofLine

/-- One round of either loop of `LoadMaping` (cpp:1260-1293, 1308-1341). -/
def loadRecord (mgr : GfexQuota) (record : Loaded) : Option GfexQuota :=
  (saveStatic mgr record.code (some record.info) id).bind fun mgr =>
  if record.code ∈ mgr.mSubscribeInsts then
    let mgr := mapIndex mgr record.info.idx record.code
    (find mgr.mStaticinfoCache.data record.code).bind fun i =>
    if record.code.length ≤ codeSize then
      some { mgr with
        mStaticinfoCache := mgr.mStaticinfoCache.modify i fun cacheInfo =>
          { record.info with code := strncpy cacheInfo.code record.code } }
    else none
  else some mgr

/-- mirrors src/dz_gfex_md/src/dz_gfex_md.cpp:1233-1351 -/
def loadMaping (mgr : GfexQuota) (file : MappingFile) : Option GfexQuota :=
  file.records.bind fun records => records.foldlM loadRecord mgr

/-! ## Quotes -/

/-- `HandleLv1Quota` once it has a code (cpp:1398-1525): the entries of that code. -/
def updateQuote (mgr : GfexQuota) (code : Bytes) (t0 : UInt64) (data : Mem) (dataLen : Nat) (t1 : UInt64) :
    Option GfexQuota :=
  match find mgr.mLv1Quota.data code with
  | none => some mgr
  | some i => (valueAt mgr.mLv1Quota.data i).bind fun quota =>
    match find mgr.mQuotaCache.data code with
    | none => (GfexHandlers.lv1Quota quota code data dataLen).map fun quota =>
      { mgr with mLv1Quota := mgr.mLv1Quota.modify i fun _ => quota }
    | some j => (valueAt mgr.mQuotaCache.data j).bind fun cache =>
      (GfexHandlers.handleLv1Quota ⟨cache, quota, mgr.pushed, mgr.sums⟩ code t0 data dataLen t1).map fun e =>
        { mgr with
          mLv1Quota := mgr.mLv1Quota.modify i fun _ => e.lv1Quota
          mQuotaCache := mgr.mQuotaCache.modify j fun _ => e.cache
          pushed := e.pushed
          sums := e.sums }

/-- The `code` of a quote (cpp:1383-1391). -/
def quoteCode (mgr : GfexQuota) (data : Mem) : Option Bytes := mgr.mLv1CodeMap.lookup (UInt32.ofNat (data.u16 8))

/-- mirrors src/dz_gfex_md/src/dz_gfex_md.cpp:1379-1525 -/
def handleLv1Quota (mgr : GfexQuota) (t0 : UInt64) (data : Mem) (dataLen : Nat) (t1 : UInt64) :
    Option GfexQuota :=
  match quoteCode mgr data with
  | none => some mgr
  | some code => updateQuote mgr code t0 data dataLen t1

/-! ## Runs -/

inductive Event where
  | code2Index (data : Mem) (dataLen : Nat)
  | staticInfo (data : Mem) (dataLen : Nat)
  | loadMaping (file : MappingFile)
  | quote (t0 : UInt64) (data : Mem) (dataLen : Nat) (t1 : UInt64)

/-- `HandleLv1Code2Index`, `HandleLv1StaticInfo`, `LoadMaping` and `HandleLv1Quota`. -/
def handle (mgr : GfexQuota) : Event → Option GfexQuota
  | .code2Index data dataLen => (CodeMappingInfo.ofMem data dataLen).bind (code2Index mgr)
  | .staticInfo data dataLen => (DailyStaticInfo.ofMem data dataLen).bind (GfexReceiver.staticInfo mgr)
  | .loadMaping file => GfexReceiver.loadMaping mgr file
  | .quote t0 data dataLen t1 => handleLv1Quota mgr t0 data dataLen t1

/-- The receiver once `LoadJsonCfg` and then `subscribe_inst` have prepared it. -/
def configured (insts requested : List Bytes) : GfexQuota :=
  requested.foldl subscribeInst (loadJsonCfg .start insts)

def machine : Machine GfexQuota Event where
  init mgr := ∃ insts requested, mgr = configured insts requested
  step := handle

/-- What the handlers go through one by one. -/
inductive Row where
  | mapping (msg : CodeMappingInfo)
  | static (msg : DailyStaticInfo)
  | record (loaded : Loaded)
  | quote (t0 : UInt64) (data : Mem) (dataLen : Nat) (t1 : UInt64)

def Row.apply (mgr : GfexQuota) : Row → Option GfexQuota
  | .mapping msg => code2Index mgr msg
  | .static msg => staticInfo mgr msg
  | .record loaded => loadRecord mgr loaded
  | .quote t0 data dataLen t1 => handleLv1Quota mgr t0 data dataLen t1

def Event.rows : Event → List Row
  | .code2Index data dataLen => (CodeMappingInfo.ofMem data dataLen).toList.map .mapping
  | .staticInfo data dataLen => (DailyStaticInfo.ofMem data dataLen).toList.map .static
  | .loadMaping file => (file.records.getD []).map .record
  | .quote t0 data dataLen t1 => [.quote t0 data dataLen t1]

/-- The same receiver, row by row. -/
def rowMachine : Machine GfexQuota Row where
  init := machine.init
  step mgr row := row.apply mgr

theorem foldlM_loadRecord {mgr mgr' : GfexQuota} {records : List Loaded}
    (h : records.foldlM loadRecord mgr = some mgr') :
    rowMachine.run mgr (records.map .record) = some mgr' := by
  induction records generalizing mgr with
  | nil => exact h
  | cons record records ih =>
    obtain ⟨mgr1, hone, hrest⟩ := Option.bind_eq_some_iff.mp h
    exact Machine.run_cons.mpr ⟨mgr1, hone, ih hrest⟩

theorem handle_rows {mgr mgr' : GfexQuota} {e : Event} (h : handle mgr e = some mgr') :
    rowMachine.run mgr e.rows = some mgr' := by
  cases e with
  | code2Index data dataLen =>
    obtain ⟨msg, hmsg, hstep⟩ := Option.bind_eq_some_iff.mp h
    rw [Event.rows, hmsg]
    exact Machine.run_cons.mpr ⟨mgr', hstep, rfl⟩
  | staticInfo data dataLen =>
    obtain ⟨msg, hmsg, hstep⟩ := Option.bind_eq_some_iff.mp h
    rw [Event.rows, hmsg]
    exact Machine.run_cons.mpr ⟨mgr', hstep, rfl⟩
  | loadMaping file =>
    obtain ⟨records, hfile, hload⟩ := Option.bind_eq_some_iff.mp h
    rw [Event.rows, hfile]
    exact foldlM_loadRecord hload
  | quote t0 data dataLen t1 => exact Machine.run_cons.mpr ⟨mgr', h, rfl⟩

/-- The rows of a run. -/
def rowsOf (events : List Event) : List Row := events.flatMap Event.rows

/-- A run of the receiver is one of the rows of its events. -/
theorem run_rows {mgr mgr' : GfexQuota} {events : List Event} (h : machine.run mgr events = some mgr') :
    rowMachine.run mgr (rowsOf events) = some mgr' := by
  induction events generalizing mgr with
  | nil => exact h
  | cons e events ih =>
    obtain ⟨mgr1, hone, hrest⟩ := Machine.run_cons.mp h
    rw [rowsOf, List.flatMap_cons, Machine.run_append, handle_rows hone, Option.bind_some]
    exact ih hrest

/-! ## The keys of the three maps -/

/-- Each of the three maps has one item for each of these keys. -/
structure HasKeys (mgr : GfexQuota) (keys : List Nat) : Prop where
  staticinfoCache : (mgr.mStaticinfoCache.data.map Prod.fst).Perm keys
  quotaCache : (mgr.mQuotaCache.data.map Prod.fst).Perm keys
  lv1Quota : (mgr.mLv1Quota.data.map Prod.fst).Perm keys

/-- The instrument has an entry in each of the three maps. -/
structure Found (mgr : GfexQuota) (code : Bytes) : Prop where
  staticinfoCache : ∃ i, find mgr.mStaticinfoCache.data code = some i
  quotaCache : ∃ i, find mgr.mQuotaCache.data code = some i
  lv1Quota : ∃ i, find mgr.mLv1Quota.data code = some i

theorem HasKeys.found {mgr : GfexQuota} {keys : List Nat} (h : HasKeys mgr keys) {code : Bytes}
    (hcode : charsToUint128 code ∈ keys) : Found mgr code where
  staticinfoCache := (find_isSome_iff _ _).mpr (h.staticinfoCache.mem_iff.mpr hcode)
  quotaCache := (find_isSome_iff _ _).mpr (h.quotaCache.mem_iff.mpr hcode)
  lv1Quota := (find_isSome_iff _ _).mpr (h.lv1Quota.mem_iff.mpr hcode)

theorem sort_keys_perm {T : Type} (data : List (Nat × T)) :
    ((sort data).data.map Prod.fst).Perm (data.map Prod.fst) :=
  (List.mergeSort_perm data _).map Prod.fst

theorem initNew_keys {T : Type} (mgr : GfexQuota) (inst : Bytes) (zero : T) (data : List (Nat × T)) :
    (initNew mgr inst zero data).map Prod.fst =
      data.map Prod.fst ++ if inst ∈ mgr.mSubscribeInsts then [] else [charsToUint128 inst] := by
  unfold initNew
  split
  · rw [List.append_nil]
  · rw [initOnce, List.map_append]
    rfl

/-- The configured instruments, each once. -/
def configuredInsts (insts : List Bytes) : List Bytes := insts.foldl emplace []

theorem loadJsonCfg_hasKeys (insts : List Bytes) :
    HasKeys (loadJsonCfg .start insts) ((configuredInsts insts).map charsToUint128) := by
  have hkeys := fun {T : Type} (zero : T) => DceReceiver.foldl_initOnce_keys zero [] (configuredInsts insts)
  constructor
  case staticinfoCache => exact (sort_keys_perm _).trans (.of_eq (hkeys _))
  case quotaCache => exact (sort_keys_perm _).trans (.of_eq (hkeys _))
  case lv1Quota => exact (sort_keys_perm _).trans (.of_eq (hkeys _))

/-- `subscribe_inst` adds an item to each map, unless the instrument is configured. -/
theorem subscribeInst_hasKeys {mgr : GfexQuota} {keys : List Nat} (h : HasKeys mgr keys) (inst : Bytes) :
    HasKeys (subscribeInst mgr inst)
      (keys ++ if inst ∈ mgr.mSubscribeInsts then [] else [charsToUint128 inst]) := by
  constructor
  case staticinfoCache =>
    refine (sort_keys_perm _).trans ?_
    rw [initNew_keys]
    exact h.staticinfoCache.append_right _
  case quotaCache =>
    refine (sort_keys_perm _).trans ?_
    rw [initNew_keys]
    exact h.quotaCache.append_right _
  case lv1Quota =>
    refine (sort_keys_perm _).trans ?_
    rw [initNew_keys]
    exact h.lv1Quota.append_right _

/-- The items of the maps: one for each configured instrument, and one for each call that
asks for another. -/
theorem configured_hasKeys (insts requested : List Bytes) :
    (configured insts requested).mSubscribeInsts = configuredInsts insts ∧
      HasKeys (configured insts requested)
        ((configuredInsts insts ++ requested.filter (· ∉ configuredInsts insts)).map charsToUint128) := by
  induction requested using List.reverseRecOn with
  | nil =>
    refine ⟨rfl, ?_⟩
    rw [List.filter_nil, List.append_nil]
    exact loadJsonCfg_hasKeys insts
  | append_singleton requested inst ih =>
    obtain ⟨hinsts, hkeys⟩ := ih
    have hstep : configured insts (requested ++ [inst]) = subscribeInst (configured insts requested) inst := by
      simp [configured]
    rw [hstep]
    refine ⟨hinsts, ?_⟩
    have hsub := subscribeInst_hasKeys hkeys inst
    rw [hinsts] at hsub
    by_cases hin : inst ∈ configuredInsts insts
    · simpa [hin, List.filter_append] using hsub
    · simpa [hin, List.filter_append] using hsub

/-- A subscribed instrument is found. -/
theorem init_found {mgr : GfexQuota} (h : machine.init mgr) {code : Bytes} (hcode : code ∈ mgr.mSubscribeInsts) :
    Found mgr code := by
  obtain ⟨insts, requested, rfl⟩ := h
  obtain ⟨hinsts, hkeys⟩ := configured_hasKeys insts requested
  rw [hinsts] at hcode
  exact hkeys.found (List.mem_map_of_mem (List.mem_append_left _ hcode))

/-! ## What a row changes -/

/-- The instruments, and the keys of the three maps. -/
structure SameKeys (mgr mgr' : GfexQuota) : Prop where
  insts : mgr'.mSubscribeInsts = mgr.mSubscribeInsts
  staticinfoCache : mgr'.mStaticinfoCache.data.map Prod.fst = mgr.mStaticinfoCache.data.map Prod.fst
  quotaCache : mgr'.mQuotaCache.data.map Prod.fst = mgr.mQuotaCache.data.map Prod.fst
  lv1Quota : mgr'.mLv1Quota.data.map Prod.fst = mgr.mLv1Quota.data.map Prod.fst

theorem SameKeys.refl (mgr : GfexQuota) : SameKeys mgr mgr := ⟨rfl, rfl, rfl, rfl⟩

theorem SameKeys.trans {mgr mgr' mgr'' : GfexQuota} (h : SameKeys mgr mgr') (h' : SameKeys mgr' mgr'') :
    SameKeys mgr mgr'' :=
  ⟨h'.insts.trans h.insts, h'.staticinfoCache.trans h.staticinfoCache, h'.quotaCache.trans h.quotaCache,
    h'.lv1Quota.trans h.lv1Quota⟩

theorem SameKeys.found {mgr mgr' : GfexQuota} (h : SameKeys mgr mgr') {code : Bytes} (hf : Found mgr code) :
    Found mgr' code where
  staticinfoCache := by
    rw [find_congr h.staticinfoCache]
    exact hf.staticinfoCache
  quotaCache := by
    rw [find_congr h.quotaCache]
    exact hf.quotaCache
  lv1Quota := by
    rw [find_congr h.lv1Quota]
    exact hf.lv1Quota

/-- What a row may change of the saved records; the rest is as before. -/
theorem saveStatic_eq {mgr mgr' : GfexQuota} {code : Bytes} {new : Option StaticInfo}
    {update : StaticInfo → StaticInfo} (h : saveStatic mgr code new update = some mgr') :
    mgr' = { mgr with mCodeSave := mgr'.mCodeSave, mStaticinfoSave := mgr'.mStaticinfoSave } := by
  unfold saveStatic at h
  split at h
  · obtain ⟨info, -, rfl⟩ := Option.map_eq_some_iff.mp h
    rfl
  · cases h
    rfl

theorem mapIndex_eq (mgr : GfexQuota) (idx : UInt32) (code : Bytes) :
    mapIndex mgr idx code =
      { mgr with
        mLv1CodeIndexSet := (mapIndex mgr idx code).mLv1CodeIndexSet
        mLv1CodeMap := (mapIndex mgr idx code).mLv1CodeMap } := by
  unfold mapIndex
  split
  · rfl
  · rfl

theorem saveStatic_sameKeys {mgr mgr' : GfexQuota} {code : Bytes} {new : Option StaticInfo}
    {update : StaticInfo → StaticInfo} (h : saveStatic mgr code new update = some mgr') : SameKeys mgr mgr' := by
  rw [saveStatic_eq h]
  exact ⟨rfl, rfl, rfl, rfl⟩

theorem mapIndex_sameKeys (mgr : GfexQuota) (idx : UInt32) (code : Bytes) :
    SameKeys mgr (mapIndex mgr idx code) := by
  rw [mapIndex_eq]
  exact ⟨rfl, rfl, rfl, rfl⟩

/-- What a quote may change. -/
theorem updateQuote_eq {mgr mgr' : GfexQuota} {code : Bytes} {t0 t1 : UInt64} {data : Mem} {dataLen : Nat}
    (h : updateQuote mgr code t0 data dataLen t1 = some mgr') :
    ∃ lv1Quota quotaCache pushed sums,
      mgr' = { mgr with mLv1Quota := lv1Quota, mQuotaCache := quotaCache, pushed := pushed, sums := sums } ∧
      lv1Quota.data.map Prod.fst = mgr.mLv1Quota.data.map Prod.fst ∧
      quotaCache.data.map Prod.fst = mgr.mQuotaCache.data.map Prod.fst := by
  unfold updateQuote at h
  split at h
  · cases h
    exact ⟨mgr.mLv1Quota, mgr.mQuotaCache, mgr.pushed, mgr.sums, rfl, rfl, rfl⟩
  · obtain ⟨quota, -, h⟩ := Option.bind_eq_some_iff.mp h
    split at h
    · obtain ⟨quota', -, rfl⟩ := Option.map_eq_some_iff.mp h
      exact ⟨_, _, _, _, rfl, Sorted.modify_keys _ _ _, rfl⟩
    · obtain ⟨cache, -, h⟩ := Option.bind_eq_some_iff.mp h
      obtain ⟨e, -, rfl⟩ := Option.map_eq_some_iff.mp h
      exact ⟨_, _, _, _, rfl, Sorted.modify_keys _ _ _, Sorted.modify_keys _ _ _⟩

/-- The record of the code after a quote that could be read. -/
theorem updateQuote_quota {mgr : GfexQuota} {code : Bytes} {i : Nat} {quota quota' : Quota} {data : Mem}
    {dataLen : Nat} (hi : find mgr.mLv1Quota.data code = some i) (hquota : valueAt mgr.mLv1Quota.data i = some quota)
    (hread : GfexHandlers.lv1Quota quota code data dataLen = some quota') (t0 t1 : UInt64) :
    ∃ mgr', updateQuote mgr code t0 data dataLen t1 = some mgr' ∧
      mgr'.mLv1Quota = mgr.mLv1Quota.modify i fun _ => quota' := by
  unfold updateQuote
  rw [hi]
  dsimp only
  rw [hquota, Option.bind_some]
  split
  · rw [hread]
    exact ⟨_, rfl, rfl⟩
  · rename_i j hj
    obtain ⟨cache, hcache⟩ := valueAt_isSome hj
    rw [hcache, Option.bind_some]
    cases he : GfexHandlers.handleLv1Quota ⟨cache, quota, mgr.pushed, mgr.sums⟩ code t0 data dataLen t1 with
    | none =>
      rw [GfexHandlers.handleLv1Quota, hread] at he
      cases he
    | some e =>
      obtain ⟨quota'', hread', heq, -⟩ := GfexHandlers.handleLv1Quota_spec he
      rw [hread, Option.some.injEq] at hread'
      refine ⟨_, rfl, ?_⟩
      rw [hread', ← heq]

theorem handleLv1Quota_eq {mgr mgr' : GfexQuota} {t0 t1 : UInt64} {data : Mem} {dataLen : Nat}
    (h : handleLv1Quota mgr t0 data dataLen t1 = some mgr') :
    ∃ lv1Quota quotaCache pushed sums,
      mgr' = { mgr with mLv1Quota := lv1Quota, mQuotaCache := quotaCache, pushed := pushed, sums := sums } ∧
      lv1Quota.data.map Prod.fst = mgr.mLv1Quota.data.map Prod.fst ∧
      quotaCache.data.map Prod.fst = mgr.mQuotaCache.data.map Prod.fst := by
  unfold handleLv1Quota at h
  split at h
  · cases h
    exact ⟨mgr.mLv1Quota, mgr.mQuotaCache, mgr.pushed, mgr.sums, rfl, rfl, rfl⟩
  · exact updateQuote_eq h

/-- No row changes the instruments or the keys. -/
theorem apply_sameKeys {mgr mgr' : GfexQuota} {row : Row} (h : row.apply mgr = some mgr') :
    SameKeys mgr mgr' := by
  cases row with
  | mapping msg =>
    obtain ⟨mgr1, hsave, rfl⟩ := Option.map_eq_some_iff.mp h
    refine (saveStatic_sameKeys hsave).trans ?_
    split
    · exact mapIndex_sameKeys mgr1 _ _
    · exact .refl mgr1
  | static msg =>
    obtain ⟨mgr1, hsave, rfl⟩ := Option.map_eq_some_iff.mp h
    refine (saveStatic_sameKeys hsave).trans ?_
    split
    · split
      · exact .refl mgr1
      · exact ⟨rfl, Sorted.modify_keys _ _ _, rfl, rfl⟩
    · exact .refl mgr1
  | record loaded =>
    obtain ⟨mgr1, hsave, hrest⟩ := Option.bind_eq_some_iff.mp h
    refine (saveStatic_sameKeys hsave).trans ?_
    split at hrest
    · refine (mapIndex_sameKeys mgr1 loaded.info.idx loaded.code).trans ?_
      obtain ⟨i, -, hrest⟩ := Option.bind_eq_some_iff.mp hrest
      split at hrest
      · cases hrest
        exact ⟨rfl, Sorted.modify_keys _ _ _, rfl, rfl⟩
      · cases hrest
    · cases hrest
      exact .refl _
  | quote t0 data dataLen t1 =>
    obtain ⟨lv1Quota, quotaCache, pushed, sums, rfl, hquota, hcache⟩ := handleLv1Quota_eq h
    exact ⟨rfl, rfl, hcache, hquota⟩

theorem run_sameKeys {mgr mgr' : GfexQuota} {rows : List Row} (h : rowMachine.run mgr rows = some mgr') :
    SameKeys mgr mgr' :=
  Machine.run_history (P := fun _ m => SameKeys mgr m) (fun _ _ _ _ hs hstep => hs.trans (apply_sameKeys hstep))
    (.refl mgr) h

/-! ## Codes that fit -/

theorem saveStatic_some (mgr : GfexQuota) (code : Bytes) (info : StaticInfo) (update : StaticInfo → StaticInfo) :
    ∃ mgr', saveStatic mgr code (some info) update = some mgr' := by
  unfold saveStatic
  split
  · exact ⟨_, rfl⟩
  · exact ⟨_, rfl⟩

theorem code2Index_some {mgr : GfexQuota} {msg : CodeMappingInfo} (h : msg.code.length ≤ codeSize) :
    ∃ mgr', code2Index mgr msg = some mgr' := by
  rw [code2Index, if_pos h]
  obtain ⟨mgr1, hsave⟩ := saveStatic_some mgr msg.code
    { StaticInfo.zero with code := strncpy StaticInfo.zero.code msg.code, idx := msg.idx }
    fun info => { info with idx := msg.idx }
  rw [hsave]
  exact ⟨_, rfl⟩

theorem staticInfo_some {mgr : GfexQuota} {msg : DailyStaticInfo} (h : msg.code.length ≤ codeSize) :
    ∃ mgr', staticInfo mgr msg = some mgr' := by
  rw [staticInfo, if_pos h]
  obtain ⟨mgr1, hsave⟩ := saveStatic_some mgr msg.code
    ({ StaticInfo.zero with code := strncpy StaticInfo.zero.code msg.code }.setValues msg.toStaticValues.reverse)
    fun info => info.setValues msg.toStaticValues.reverse
  rw [hsave]
  exact ⟨_, rfl⟩

theorem loadRecord_some {mgr : GfexQuota} {record : Loaded} (hfound : Found mgr record.code)
    (h : record.code.length ≤ codeSize) : ∃ mgr', loadRecord mgr record = some mgr' := by
  obtain ⟨mgr1, hsave⟩ := saveStatic_some mgr record.code record.info id
  have hsame := (saveStatic_sameKeys hsave).trans (mapIndex_sameKeys mgr1 record.info.idx record.code)
  obtain ⟨i, hi⟩ := (hsame.found hfound).staticinfoCache
  rw [loadRecord, hsave, Option.bind_some]
  by_cases hsub : record.code ∈ mgr1.mSubscribeInsts
  · rw [if_pos hsub]
    dsimp only
    rw [hi, Option.bind_some, if_pos h]
    exact ⟨_, rfl⟩
  · rw [if_neg hsub]
    exact ⟨_, rfl⟩

/-- The records of a file of lines, as they are when none is too long. -/
theorem records_csv {lines : List StaticInfo} (h : ∀ line ∈ lines, line.code.length ≤ codeSize) :
    (MappingFile.csv lines).records = some (lines.map fun line => ⟨line.code, line⟩) := by
  show lines.mapM Loaded.ofLine = _
  induction lines with
  | nil => rfl
  | cons line lines ih =>
    obtain ⟨hline, hrest⟩ := List.forall_mem_cons.mp h
    have hone : Loaded.ofLine line = some ⟨line.code, line⟩ := by
      simp [Loaded.ofLine, hline, strncpy, StaticInfo.zero]
    simp [List.mapM_cons, hone, ih hrest]

/-- A file of one line. -/
theorem loadMaping_line {mgr : GfexQuota} {line : StaticInfo} (hfound : Found mgr line.code)
    (h : line.code.length ≤ codeSize) : ∃ mgr', loadMaping mgr (.csv [line]) = some mgr' := by
  obtain ⟨mgr', hmgr'⟩ := @loadRecord_some mgr ⟨line.code, line⟩ hfound h
  refine ⟨mgr', ?_⟩
  rw [loadMaping, records_csv (by simpa using h), Option.bind_some, List.map_singleton, List.foldlM_cons, hmgr']
  rfl

end MdInfoSet.L4.GfexReceiver
