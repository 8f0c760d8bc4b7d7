import Mathlib.Data.List.Dedup
import MdInfoSet.L4App.GfexReceiver

/-!
# The index map of the GFEX receiver

A Level-1 quote names its instrument by an index, which `m_lv1_code_map` turns into a code
(src/dz_gfex_md/src/dz_gfex_md.cpp:1384-1391). Mapping messages and the mapping file fill
the map, for instruments of `m_subscribe_insts` only, and `m_lv1_code_index_set` keeps an
index that is mapped from being mapped again (cpp:1175-1187, 1268-1276).

* `run_lookup`: over every run an index has the code it was mapped to first.
* **Exact condition.** The quotes of an index go to the code of a mapping message if and
  only if it was not mapped to another one before (`attributed_iff`).
* **Exact condition.** `subscribe_inst` keeps one item for each instrument if and only if
  none that is not configured is requested twice, and makes an instrument receivable if and
  only if it is configured (`subscribed_iff`).
-/
namespace MdInfoSet.L4.GfexIndex

open MdInfoSet.L1.Lv2Quote MdInfoSet.L2.InstMap MdInfoSet.L2.RingBuffer MdInfoSet.L4.GfexReceiver
open MdInfoSet.L4.DceReceiver (emplace mem_foldl_emplace)

/-! ## What the rows map -/

/-- The index and the code a row maps, if the instrument is subscribed. -/
def mapped (insts : List Bytes) : Row → Option (UInt32 × Bytes)
  | .mapping msg => if msg.code ∈ insts then some (msg.idx, msg.code) else none
  | .record loaded => if loaded.code ∈ insts then some (loaded.info.idx, loaded.code) else none
  | .static _ | .quote .. => none

/-- What the events of a run map, in their order. -/
def mappings (insts : List Bytes) (events : List Event) : List (UInt32 × Bytes) :=
  (rowsOf events).filterMap (mapped insts)

/-- The set guards the map: it has the indices the map has. -/
def Guarded (mgr : GfexQuota) : Prop :=
  ∀ idx, idx ∈ mgr.mLv1CodeIndexSet ↔ ∃ code, mgr.mLv1CodeMap.lookup idx = some code

theorem lookup_one (idx i : UInt32) (code : Bytes) :
    [(idx, code)].lookup i = if i = idx then some code else none := by
  by_cases h : i = idx
  · simp [h]
  · have hne : (i == idx) = false := beq_false_of_ne h
    simp [List.lookup_cons, hne, h]

theorem mapIndex_lookup {mgr : GfexQuota} (h : Guarded mgr) (idx : UInt32) (code : Bytes) :
    Guarded (mapIndex mgr idx code) ∧ ∀ i, (mapIndex mgr idx code).mLv1CodeMap.lookup i =
      (mgr.mLv1CodeMap.lookup i).or ([(idx, code)].lookup i) := by
  unfold mapIndex
  split
  · rename_i hin
    refine ⟨h, fun i => ?_⟩
    by_cases hi : i = idx
    · subst hi
      obtain ⟨c, hc⟩ := (h i).mp hin
      rw [hc, Option.some_or]
    · rw [lookup_one, if_neg hi, Option.or_none]
  · rename_i hout
    have hnone : mgr.mLv1CodeMap.lookup idx = none := by
      rw [Option.eq_none_iff_forall_ne_some]
      exact fun c hc => hout ((h idx).mpr ⟨c, hc⟩)
    have hmap : emplaceKey mgr.mLv1CodeMap idx code = mgr.mLv1CodeMap ++ [(idx, code)] := by
      simp [emplaceKey, hnone]
    dsimp only
    rw [hmap]
    refine ⟨fun i => ?_, fun i => List.lookup_append⟩
    dsimp only
    rw [List.mem_append, h i, List.lookup_append, List.mem_singleton, lookup_one]
    by_cases hi : i = idx
    · subst hi
      simp [hnone]
    · simp [hi]

/-- The index tables of two states are the same. -/
def SameIndex (mgr mgr' : GfexQuota) : Prop :=
  mgr'.mLv1CodeIndexSet = mgr.mLv1CodeIndexSet ∧ mgr'.mLv1CodeMap = mgr.mLv1CodeMap

theorem SameIndex.guarded {mgr mgr' : GfexQuota} (h : SameIndex mgr mgr') (hg : Guarded mgr) : Guarded mgr' := by
  intro idx
  rw [h.1, h.2]
  exact hg idx

theorem saveStatic_sameIndex {mgr mgr' : GfexQuota} {code : Bytes} {new : Option StaticInfo}
    {update : StaticInfo → StaticInfo} (h : saveStatic mgr code new update = some mgr') : SameIndex mgr mgr' := by
  rw [saveStatic_eq h]
  exact ⟨rfl, rfl⟩

/-- A row adds what it maps behind what is there. -/
theorem apply_lookup {mgr mgr' : GfexQuota} {row : Row} (h : row.apply mgr = some mgr') (hg : Guarded mgr) :
    Guarded mgr' ∧ ∀ i, mgr'.mLv1CodeMap.lookup i =
      (mgr.mLv1CodeMap.lookup i).or ((mapped mgr.mSubscribeInsts row).toList.lookup i) := by
  cases row with
  | mapping msg =>
    obtain ⟨mgr1, hsave, rfl⟩ := Option.map_eq_some_iff.mp h
    have hsame := saveStatic_sameIndex hsave
    rw [mapped, ← (saveStatic_sameKeys hsave).insts, ← hsame.2]
    split
    · exact mapIndex_lookup (hsame.guarded hg) _ _
    · exact ⟨hsame.guarded hg, fun i => by simp⟩
  | static msg =>
    obtain ⟨mgr1, hsave, rfl⟩ := Option.map_eq_some_iff.mp h
    have hsame := saveStatic_sameIndex hsave
    rw [← hsame.2]
    have hg1 := hsame.guarded hg
    split
    · split
      · exact ⟨hg1, fun i => by simp [mapped]⟩
      · exact ⟨hg1, fun i => by simp [mapped]⟩
    · exact ⟨hg1, fun i => by simp [mapped]⟩
  | record loaded =>
    obtain ⟨mgr1, hsave, hrest⟩ := Option.bind_eq_some_iff.mp h
    have hsame := saveStatic_sameIndex hsave
    rw [mapped, ← (saveStatic_sameKeys hsave).insts, ← hsame.2]
    split at hrest
    · rename_i hsub
      obtain ⟨i, -, hrest⟩ := Option.bind_eq_some_iff.mp hrest
      split at hrest
      · cases hrest
        rw [if_pos hsub]
        exact mapIndex_lookup (hsame.guarded hg) _ _
      · cases hrest
    · rename_i hsub
      cases hrest
      rw [if_neg hsub]
      exact ⟨hsame.guarded hg, fun i => by simp⟩
  | quote t0 data dataLen t1 =>
    obtain ⟨lv1Quota, quotaCache, pushed, sums, rfl, -, -⟩ := handleLv1Quota_eq h
    exact ⟨hg, fun i => by simp [mapped]⟩

theorem init_index {mgr : GfexQuota} (h : machine.init mgr) :
    mgr.mLv1CodeIndexSet = [] ∧ mgr.mLv1CodeMap = [] := by
  obtain ⟨insts, requested, rfl⟩ := h
  unfold configured
  generalize hstart : loadJsonCfg .start insts = mgr
  have hindex : mgr.mLv1CodeIndexSet = [] ∧ mgr.mLv1CodeMap = [] := by
    rw [← hstart]
    exact ⟨rfl, rfl⟩
  clear hstart
  induction requested generalizing mgr with
  | nil => exact hindex
  | cons inst requested ih => exact ih _ hindex

/-- Over a run an index has the code it was mapped to first. -/
theorem run_lookup {mgr₀ mgr : GfexQuota} {events : List Event} (h0 : machine.init mgr₀)
    (hr : machine.run mgr₀ events = some mgr) (idx : UInt32) :
    mgr.mLv1CodeMap.lookup idx = (mappings mgr₀.mSubscribeInsts events).lookup idx := by
  obtain ⟨hset, hmap⟩ := init_index h0
  have hstart : Guarded mgr₀ := by
    intro i
    simp [hset, hmap]
  refine (Machine.run_history (P := fun rows m => SameKeys mgr₀ m ∧ Guarded m ∧ ∀ i,
    m.mLv1CodeMap.lookup i = (rows.filterMap (mapped mgr₀.mSubscribeInsts)).lookup i) ?_
    ⟨.refl mgr₀, hstart, fun i => by rw [hmap]; rfl⟩ (run_rows hr)).2.2 idx
  rintro rows m row m' ⟨hsame, hg, hm⟩ hstep
  obtain ⟨hg', hm'⟩ := apply_lookup hstep hg
  refine ⟨hsame.trans (apply_sameKeys hstep), hg', fun i => ?_⟩
  have hone : [row].filterMap (mapped mgr₀.mSubscribeInsts) = (mapped mgr₀.mSubscribeInsts row).toList := by
    cases h : mapped mgr₀.mSubscribeInsts row <;> simp [h]
  rw [hm', hm, hsame.insts, List.filterMap_append, List.lookup_append, hone]

/-- Only subscribed instruments are mapped. -/
theorem mem_mappings {insts : List Bytes} {events : List Event} {idx : UInt32} {code : Bytes}
    (h : (mappings insts events).lookup idx = some code) : code ∈ insts := by
  obtain ⟨before, after, heq, -⟩ := List.lookup_eq_some_iff.mp h
  have hmem : (idx, code) ∈ mappings insts events := by simp [heq]
  obtain ⟨row, -, hrow⟩ := List.mem_filterMap.mp hmem
  cases row with
  | mapping msg =>
    by_cases hin : msg.code ∈ insts
    · simp only [mapped, if_pos hin, Option.some.injEq, Prod.mk.injEq] at hrow
      exact hrow.2 ▸ hin
    · simp [mapped, hin] at hrow
  | record loaded =>
    by_cases hin : loaded.code ∈ insts
    · simp only [mapped, if_pos hin, Option.some.injEq, Prod.mk.injEq] at hrow
      exact hrow.2 ▸ hin
    · simp [mapped, hin] at hrow
  | static | quote => cases hrow

/-! ## Whose quote it is -/

/-- The quotes of an index are taken for quotes of the code. -/
def Attributed (mgr : GfexQuota) (idx : UInt32) (code : Bytes) : Prop :=
  ∀ data : Mem, data.u16 8 = idx.toNat → quoteCode mgr data = some code

/-- They are handled as such. -/
theorem Attributed.handle {mgr : GfexQuota} {idx : UInt32} {code : Bytes} (h : Attributed mgr idx code) {data : Mem}
    (hdata : data.u16 8 = idx.toNat) (t0 t1 : UInt64) (dataLen : Nat) :
    handleLv1Quota mgr t0 data dataLen t1 = updateQuote mgr code t0 data dataLen t1 := by
  rw [handleLv1Quota, h data hdata]

/-- An index that a quote can have is attributed to what the map has for it. -/
theorem attributed_iff_lookup {mgr : GfexQuota} {idx : UInt32} {code : Bytes} :
    Attributed mgr idx code ↔ 2 ^ 16 ≤ idx.toNat ∨ mgr.mLv1CodeMap.lookup idx = some code := by
  have hlookup : ∀ data : Mem, data.u16 8 = idx.toNat → quoteCode mgr data = mgr.mLv1CodeMap.lookup idx := by
    intro data hdata
    rw [quoteCode, hdata, UInt32.ofNat_toNat]
  constructor
  · intro h
    by_cases hidx : idx.toNat < 2 ^ 16
    · let data : Mem := fun i => UInt8.ofNat (idx.toNat / 2 ^ (8 * (i - 8)))
      have hdata : data.u16 8 = idx.toNat := by
        simp only [data, Mem.u16, UInt8.toNat_ofNat', Nat.reduceAdd, Nat.reduceSub, Nat.reduceMul, Nat.reducePow]
        omega
      exact .inr ((hlookup data hdata).symm.trans (h data hdata))
    · exact .inl (by omega)
  · rintro (hlarge | hmap) data hdata
    · have h8 := (data 8).toNat_lt
      have h9 := (data 9).toNat_lt
      simp only [Mem.u16, Nat.reduceAdd] at hdata
      omega
    · rw [hlookup data hdata, hmap]

theorem mappings_append (insts : List Bytes) (pre post : List Event) :
    mappings insts (pre ++ post) = mappings insts pre ++ mappings insts post := by
  simp [mappings, rowsOf]

/-- The quotes of an index are taken for quotes of the code, and update its entries. -/
structure Accepted (mgr : GfexQuota) (idx : UInt32) (code : Bytes) : Prop where
  attributed : Attributed mgr idx code
  found : Found mgr code

/-- After a mapping message for an instrument that is found, whatever comes before and
after it. -/
theorem run_accepted {mgr₀ mgr : GfexQuota} {pre post : List Event} {data : Mem} {dataLen : Nat}
    {msg : CodeMappingInfo} (h0 : machine.init mgr₀) (hmsg : CodeMappingInfo.ofMem data dataLen = some msg)
    (hfound : Found mgr₀ msg.code) (hr : machine.run mgr₀ (pre ++ .code2Index data dataLen :: post) = some mgr) :
    Accepted mgr msg.idx msg.code ↔ 2 ^ 16 ≤ msg.idx.toNat ∨ msg.code ∈ mgr₀.mSubscribeInsts ∧
      ∀ code, (mappings mgr₀.mSubscribeInsts pre).lookup msg.idx = some code → code = msg.code := by
  have hfound' := (run_sameKeys (run_rows hr)).found hfound
  have haccepted : Accepted mgr msg.idx msg.code ↔ Attributed mgr msg.idx msg.code :=
    ⟨Accepted.attributed, fun h => ⟨h, hfound'⟩⟩
  rw [haccepted, attributed_iff_lookup, run_lookup h0 hr]
  refine or_congr_right ?_
  by_cases hcode : msg.code ∈ mgr₀.mSubscribeInsts
  · have hone : mappings mgr₀.mSubscribeInsts (.code2Index data dataLen :: post) =
        (msg.idx, msg.code) :: mappings mgr₀.mSubscribeInsts post := by
      simp [mappings, rowsOf, Event.rows, hmsg, mapped, hcode]
    rw [mappings_append, hone, List.lookup_append, List.lookup_cons_self, and_iff_right hcode]
    cases (mappings mgr₀.mSubscribeInsts pre).lookup msg.idx <;> simp
  · exact iff_of_false (fun h => hcode (mem_mappings h)) fun h => hcode h.1

/-- **Exact condition.** After a mapping message for a subscribed instrument, and whatever
comes after it, the quotes of its index update that instrument if and only if the first
mapping of the index before it, if there is one, is to that instrument too. -/
theorem attributed_iff {mgr₀ mgr : GfexQuota} {pre post : List Event} {data : Mem} {dataLen : Nat}
    {msg : CodeMappingInfo} (h0 : machine.init mgr₀) (hmsg : CodeMappingInfo.ofMem data dataLen = some msg)
    (hcode : msg.code ∈ mgr₀.mSubscribeInsts)
    (hr : machine.run mgr₀ (pre ++ .code2Index data dataLen :: post) = some mgr) :
    Accepted mgr msg.idx msg.code ↔ 2 ^ 16 ≤ msg.idx.toNat ∨
      ∀ code, (mappings mgr₀.mSubscribeInsts pre).lookup msg.idx = some code → code = msg.code := by
  rw [run_accepted h0 hmsg (init_found h0 hcode) hr, and_iff_right hcode]

/-- Two instruments, `lc` and `si`. -/
def lc : Bytes := [0x6c, 0x63]
def si : Bytes := [0x73, 0x69]

/-- A mapping message of index 7 for `lc`. -/
def sampleMapping : Mem := Mem.ofBytes (List.replicate 6 0 ++ lc ++ List.replicate 80 0 ++ [7])

theorem sampleMapping_ofMem : CodeMappingInfo.ofMem sampleMapping 94 = some ⟨lc, 7⟩ := by decide +kernel

/-- Handled in any state. -/
theorem sampleMapping_run {mgr₀ mgr : GfexQuota} {pre : List Event} (hr : machine.run mgr₀ pre = some mgr) :
    ∃ mgr', machine.run mgr₀ (pre ++ [.code2Index sampleMapping 94]) = some mgr' := by
  obtain ⟨mgr', hmgr'⟩ := @code2Index_some mgr ⟨lc, 7⟩ (by decide)
  refine ⟨mgr', ?_⟩
  rw [Machine.run_append, hr, Option.bind_some]
  refine Machine.run_cons.mpr ⟨mgr', ?_, rfl⟩
  show (CodeMappingInfo.ofMem sampleMapping 94).bind (code2Index mgr) = some mgr'
  rw [sampleMapping_ofMem]
  exact hmgr'

/-- Two files, of `si` and then of `lc` with the index of the message, which comes twice. -/
theorem attributed_iff_file :
    let other : StaticInfo := { StaticInfo.zero with code := si, idx := 8 }
    let same : StaticInfo := { StaticInfo.zero with code := lc, idx := 7 }
    ∃ mgr, machine.run (configured [lc, si] []) ([.loadMaping (.csv [other]), .loadMaping (.csv [same])] ++
        .code2Index sampleMapping 94 :: [.code2Index sampleMapping 94]) = some mgr ∧ Accepted mgr 7 lc := by
  intro other same
  have hinit : machine.init (configured [lc, si] []) := ⟨_, _, rfl⟩
  obtain ⟨mgr1, hother⟩ := @loadMaping_line _ other (init_found hinit (List.mem_cons_of_mem _ List.mem_cons_self))
    (by decide)
  have hone : machine.run (configured [lc, si] []) [.loadMaping (.csv [other])] = some mgr1 :=
    Machine.run_cons.mpr ⟨mgr1, hother, rfl⟩
  have hfound := (run_sameKeys (run_rows hone)).found (init_found hinit List.mem_cons_self)
  obtain ⟨mgr2, hsame⟩ := @loadMaping_line mgr1 same hfound (by decide)
  have htwo : machine.run (configured [lc, si] []) [.loadMaping (.csv [other]), .loadMaping (.csv [same])] =
      some mgr2 := Machine.run_cons.mpr ⟨mgr1, hother, Machine.run_cons.mpr ⟨mgr2, hsame, rfl⟩⟩
  obtain ⟨mgr3, hthree⟩ := sampleMapping_run htwo
  obtain ⟨mgr, hr⟩ := sampleMapping_run hthree
  rw [List.append_assoc] at hr
  have hfirst : ∀ code, (mappings (configured [lc, si] []).mSubscribeInsts
      [.loadMaping (.csv [other]), .loadMaping (.csv [same])]).lookup 7 = some code → code = lc :=
    fun code h => (Option.some.inj h).symm
  exact ⟨mgr, hr, (attributed_iff hinit sampleMapping_ofMem List.mem_cons_self hr).mpr (.inr hfirst)⟩

/-- **Counterexample.** A mapping file that still has the index for another instrument. -/
theorem stale_file_wins :
    ¬ ∀ (mgr₀ mgr : GfexQuota) (pre post : List Event) (data : Mem) (dataLen : Nat) (msg : CodeMappingInfo),
      machine.init mgr₀ → CodeMappingInfo.ofMem data dataLen = some msg → msg.code ∈ mgr₀.mSubscribeInsts →
      machine.run mgr₀ (pre ++ .code2Index data dataLen :: post) = some mgr → Accepted mgr msg.idx msg.code := by
  intro h
  have hinit : machine.init (configured [lc, si] []) := ⟨_, _, rfl⟩
  have hlc : lc ∈ (configured [lc, si] []).mSubscribeInsts := List.mem_cons_self
  have hsi : si ∈ (configured [lc, si] []).mSubscribeInsts := List.mem_cons_of_mem _ List.mem_cons_self
  let stale : StaticInfo := { StaticInfo.zero with code := si, idx := 7 }
  obtain ⟨mgr1, hone⟩ := @loadMaping_line _ stale (init_found hinit hsi) (by decide)
  have hfile : machine.run (configured [lc, si] []) [.loadMaping (.csv [stale])] = some mgr1 :=
    Machine.run_cons.mpr ⟨mgr1, hone, rfl⟩
  obtain ⟨mgr, hr⟩ := sampleMapping_run hfile
  have haccepted := h _ mgr _ [] _ 94 _ hinit sampleMapping_ofMem hlc hr
  rcases (run_accepted hinit sampleMapping_ofMem (init_found hinit hlc) hr).mp haccepted with hlarge | ⟨-, hfirst⟩
  · revert hlarge
    decide
  · exact absurd (hfirst si rfl) (by decide)

/-! ## Subscriptions -/

theorem nodup_foldl_emplace {insts insts' : List Bytes} (h : insts.Nodup) : (insts'.foldl emplace insts).Nodup := by
  induction insts' generalizing insts with
  | nil => exact h
  | cons inst insts' ih =>
    apply ih
    unfold emplace
    split
    · exact h
    · rename_i hnot
      exact h.append (List.nodup_singleton inst) (by simpa using hnot)

theorem mem_configuredInsts {insts : List Bytes} {inst : Bytes} : inst ∈ configuredInsts insts ↔ inst ∈ insts := by
  rw [configuredInsts, mem_foldl_emplace]
  simp

/-- The distinct instruments: the configured ones, and the others that are requested. -/
theorem distinct_perm (insts requested : List Bytes) :
    (insts ++ requested).dedup.Perm (configuredInsts insts ++ (requested.filter (· ∉ insts)).dedup) := by
  refine (List.perm_ext_iff_of_nodup (List.nodup_dedup _) ?_).mpr fun inst => ?_
  · refine (nodup_foldl_emplace .nil).append (List.nodup_dedup _) ?_
    intro inst hin hout
    rw [List.mem_dedup, List.mem_filter] at hout
    simp [mem_configuredInsts.mp hin] at hout
  · simp only [List.mem_dedup, List.mem_append, mem_configuredInsts, List.mem_filter, decide_eq_true_eq]
    by_cases hin : inst ∈ insts <;> simp [hin]

theorem filter_configured (insts requested : List Bytes) :
    requested.filter (· ∉ configuredInsts insts) = requested.filter (· ∉ insts) := by
  simp only [mem_configuredInsts]

/-- The maps have one item for each distinct instrument if and only if no instrument that is
not configured is requested twice. -/
theorem hasKeys_iff (insts requested : List Bytes) :
    HasKeys (configured insts requested) ((insts ++ requested).dedup.map charsToUint128) ↔
      (requested.filter (· ∉ insts)).Nodup := by
  have hkeys := (configured_hasKeys insts requested).2
  rw [filter_configured] at hkeys
  have hdistinct := (distinct_perm insts requested).map charsToUint128
  constructor
  · intro h
    have hlen := (hkeys.quotaCache.symm.trans (h.quotaCache.trans hdistinct)).length_eq
    simp only [List.length_map, List.length_append] at hlen
    have hsub := List.dedup_sublist (requested.filter (· ∉ insts))
    rw [← hsub.eq_of_length (by omega)]
    exact List.nodup_dedup _
  · intro h
    rw [h.dedup] at hdistinct
    exact ⟨hkeys.staticinfoCache.trans hdistinct.symm, hkeys.quotaCache.trans hdistinct.symm,
      hkeys.lv1Quota.trans hdistinct.symm⟩

/-- A requested or configured instrument is found. -/
theorem configured_found {insts requested : List Bytes} {inst : Bytes} (h : inst ∈ insts ++ requested) :
    Found (configured insts requested) inst := by
  refine (configured_hasKeys insts requested).2.found (List.mem_map_of_mem ?_)
  rw [List.mem_append, filter_configured, mem_configuredInsts, List.mem_filter]
  by_cases hin : inst ∈ insts
  · exact .inl hin
  · exact .inr ⟨(List.mem_append.mp h).resolve_left hin, by simpa using hin⟩

/-- **Exact condition.** After `LoadJsonCfg` and any calls of `subscribe_inst`: each map has
one item for each distinct instrument if and only if none that is not configured was
requested twice; and a mapping message for one of them makes its quotes accepted if and only
if it is configured and the index is not another's. -/
theorem subscribed_iff (insts requested : List Bytes) :
    (HasKeys (configured insts requested) ((insts ++ requested).dedup.map charsToUint128) ↔
      (requested.filter (· ∉ insts)).Nodup) ∧
    ∀ (pre post : List Event) (data : Mem) (dataLen : Nat) (msg : CodeMappingInfo) (mgr : GfexQuota),
      CodeMappingInfo.ofMem data dataLen = some msg → msg.code ∈ insts ++ requested →
      machine.run (configured insts requested) (pre ++ .code2Index data dataLen :: post) = some mgr →
      (Accepted mgr msg.idx msg.code ↔ 2 ^ 16 ≤ msg.idx.toNat ∨ msg.code ∈ insts ∧
        ∀ code, (mappings (configuredInsts insts) pre).lookup msg.idx = some code → code = msg.code) := by
  refine ⟨hasKeys_iff insts requested, ?_⟩
  intro pre post data dataLen msg mgr hmsg hcode hr
  rw [run_accepted ⟨_, _, rfl⟩ hmsg (configured_found hcode) hr, (configured_hasKeys insts requested).1,
    mem_configuredInsts]

/-- A configured instrument, requested twice. -/
theorem subscribed_iff_configured :
    HasKeys (configured [lc] [lc, lc]) (([lc] ++ [lc, lc]).dedup.map charsToUint128) ∧
    ∃ mgr, machine.run (configured [lc] [lc, lc]) ([] ++ [.code2Index sampleMapping 94]) = some mgr ∧
      Accepted mgr 7 lc := by
  obtain ⟨hkeys, haccepted⟩ := subscribed_iff [lc] [lc, lc]
  refine ⟨hkeys.mpr (by decide), ?_⟩
  obtain ⟨mgr, hr⟩ := @sampleMapping_run (configured [lc] [lc, lc]) _ [] rfl
  exact ⟨mgr, hr, (haccepted [] [] _ 94 _ mgr sampleMapping_ofMem (by decide) hr).mpr
    (.inr ⟨List.mem_cons_self, nofun⟩)⟩

/-- **Counterexample.** An instrument that is requested twice has two items, and no quote of
one that is only requested is accepted. -/
theorem requested_twice_kept_twice :
    (¬ ∀ insts requested : List Bytes,
      HasKeys (configured insts requested) ((insts ++ requested).dedup.map charsToUint128)) ∧
    ¬ ∀ (insts requested : List Bytes) (data : Mem) (dataLen : Nat) (msg : CodeMappingInfo) (mgr : GfexQuota),
      CodeMappingInfo.ofMem data dataLen = some msg → msg.code ∈ insts ++ requested →
      machine.run (configured insts requested) [.code2Index data dataLen] = some mgr →
      Accepted mgr msg.idx msg.code := by
  refine ⟨fun h => ?_, fun h => ?_⟩
  · exact absurd ((hasKeys_iff [] [lc, lc]).mp (h [] [lc, lc])) (by decide)
  · obtain ⟨mgr, hr⟩ := @sampleMapping_run (configured [] [lc]) _ [] rfl
    have hin : lc ∈ [] ++ [lc] := List.mem_cons_self
    have haccepted := h [] [lc] _ 94 _ mgr sampleMapping_ofMem hin hr
    have hinit : machine.init (configured [] [lc]) := ⟨_, _, rfl⟩
    rcases (run_accepted hinit sampleMapping_ofMem (configured_found hin) hr).mp haccepted with hlarge | ⟨hsub, -⟩
    · revert hlarge
      decide
    · cases hsub

end MdInfoSet.L4.GfexIndex
