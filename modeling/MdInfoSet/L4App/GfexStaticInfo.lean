import MdInfoSet.L4App.GfexSaved

/-!
# The saved and the live static info

`HandleLv1StaticInfo` (src/dz_gfex_md/src/dz_gfex_md.cpp:1190-1231) decodes a message
twice: what it saves in `m_staticinfo_save` has the bytes of each value reversed, as the
big-endian message needs, what it writes to `m_staticinfo_cache`, from which is published,
has not. The entry of the cache is that of the first 16 bytes of the code.

* `run_cached`: over every run an entry of the cache has the values last written under its
  key, by a static message as they stand there, or by a record of the mapping file.
* **Exact condition.** It agrees with the saved record if and only if those values are the
  ones the last static message of the code has byte by byte reversed (`static_agree_iff`).
-/
namespace MdInfoSet.L4.GfexStaticInfo

open MdInfoSet.L2.InstMap MdInfoSet.L4.GfexReceiver MdInfoSet.L4.GfexSaved

/-! ## The live values -/

/-- The values a row writes to the entry the code is published from: those of a subscribed
instrument of its key. -/
def live (insts : List Bytes) (code : Bytes) : Row → Option StaticValues
  | .static msg =>
    if msg.code ∈ insts ∧ charsToUint128 msg.code = charsToUint128 code then some msg.toStaticValues else none
  | .record loaded =>
    if loaded.code ∈ insts ∧ charsToUint128 loaded.code = charsToUint128 code then
      some loaded.info.toStaticValues else none
  | .mapping _ | .quote .. => none

def lastLive (insts : List Bytes) (code : Bytes) (rows : List Row) : Option StaticValues :=
  (rows.filterMap (live insts code)).getLast?

/-- The values in the entry of the code. -/
def cached (mgr : GfexQuota) (code : Bytes) : Option StaticValues :=
  ((find mgr.mStaticinfoCache.data code).bind (valueAt mgr.mStaticinfoCache.data)).map StaticInfo.toStaticValues

theorem lastLive_append (insts : List Bytes) (code : Bytes) (rows : List Row) (row : Row) :
    lastLive insts code (rows ++ [row]) = (live insts code row).or (lastLive insts code rows) := by
  unfold lastLive
  cases h : live insts code row <;> simp [List.filterMap_append, h]

/-- Writing to the entry of a code: what is written there if the code looked at has its key,
and no change else. -/
theorem cached_modify {mgr : GfexQuota} {code code' : Bytes} {i : Nat} {f : StaticInfo → StaticInfo}
    {v : StaticValues} (hfound : ∃ j, find mgr.mStaticinfoCache.data code = some j)
    (hi : find mgr.mStaticinfoCache.data code' = some i) (hf : ∀ info, (f info).toStaticValues = v) :
    cached { mgr with mStaticinfoCache := mgr.mStaticinfoCache.modify i f } code =
      if charsToUint128 code' = charsToUint128 code then some v else cached mgr code := by
  obtain ⟨j, hj⟩ := hfound
  have hfind : find (mgr.mStaticinfoCache.modify i f).data code = some j :=
    (find_modify mgr.mStaticinfoCache.data i f code).trans hj
  unfold cached
  rw [hfind, hj, Option.bind_some, Option.bind_some]
  split
  · rename_i hkey
    rw [find_of_key hkey, hj, Option.some.injEq] at hi
    subst hi
    obtain ⟨info, hinfo⟩ := valueAt_isSome hj
    rw [Sorted.valueAt_modify_self, hinfo, Option.map_some, Option.map_some, hf]
  · rename_i hkey
    have hne : i ≠ j := by
      rintro rfl
      exact hkey (find_inj hi hj)
    rw [Sorted.valueAt_modify_ne _ f hne]

theorem cached_congr {mgr mgr' : GfexQuota} (h : mgr'.mStaticinfoCache = mgr.mStaticinfoCache) (code : Bytes) :
    cached mgr' code = cached mgr code := by
  rw [cached, h]
  rfl

/-- What a row does to the entry of a code. -/
theorem apply_cached {mgr mgr' : GfexQuota} {row : Row} (h : row.apply mgr = some mgr') {code : Bytes}
    (hfound : ∃ i, find mgr.mStaticinfoCache.data code = some i) :
    cached mgr' code = (live mgr.mSubscribeInsts code row).or (cached mgr code) := by
  cases row with
  | mapping msg =>
    obtain ⟨mgr1, hsave, rfl⟩ := Option.map_eq_some_iff.mp h
    rw [live, Option.none_or]
    apply cached_congr
    rw [saveStatic_eq hsave]
    split
    · rw [mapIndex_eq]
    · rfl
  | static msg =>
    obtain ⟨mgr1, hsave, rfl⟩ := Option.map_eq_some_iff.mp h
    have hsame : mgr1.mStaticinfoCache = mgr.mStaticinfoCache := by rw [saveStatic_eq hsave]
    rw [live, ← cached_congr hsame, ← (saveStatic_sameKeys hsave).insts]
    rw [← hsame] at hfound
    by_cases hsub : msg.code ∈ mgr1.mSubscribeInsts
    case neg => rw [if_neg hsub, if_neg fun hc => hsub hc.1, Option.none_or]
    rw [if_pos hsub]
    cases hi : find mgr1.mStaticinfoCache.data msg.code with
    | none =>
      have hkey : charsToUint128 msg.code ≠ charsToUint128 code := by
        intro hkey
        obtain ⟨j, hj⟩ := hfound
        rw [find_of_key hkey, hj] at hi
        cases hi
      simp [hkey]
    | some i =>
      dsimp only
      rw [cached_modify hfound hi fun info => info.setValues_values _]
      by_cases hkey : charsToUint128 msg.code = charsToUint128 code <;> simp [hsub, hkey]
  | record loaded =>
    obtain ⟨mgr1, hsave, hrest⟩ := Option.bind_eq_some_iff.mp h
    have hsame : mgr1.mStaticinfoCache = mgr.mStaticinfoCache := by rw [saveStatic_eq hsave]
    rw [live, ← cached_congr hsame, ← (saveStatic_sameKeys hsave).insts]
    rw [← hsame] at hfound
    split at hrest
    · rename_i hsub
      obtain ⟨i, hi, hrest⟩ := Option.bind_eq_some_iff.mp hrest
      split at hrest
      · cases hrest
        have hmap : (mapIndex mgr1 loaded.info.idx loaded.code).mStaticinfoCache = mgr1.mStaticinfoCache := by
          rw [mapIndex_eq]
        refine (cached_modify (v := loaded.info.toStaticValues) (by rwa [hmap]) hi ?_).trans ?_
        · intro cacheInfo
          rfl
        · rw [cached_congr hmap]
          by_cases hkey : charsToUint128 loaded.code = charsToUint128 code <;> simp [hsub, hkey]
      · cases hrest
    · rename_i hsub
      cases hrest
      rw [if_neg fun hc => hsub hc.1, Option.none_or]
  | quote t0 data dataLen t1 =>
    obtain ⟨lv1Quota, quotaCache, pushed, sums, rfl, -, -⟩ := handleLv1Quota_eq h
    rfl

/-- Over a run the entry of a subscribed code has the values last written under its key. -/
theorem run_cached {mgr₀ mgr : GfexQuota} {rows : List Row} (h0 : machine.init mgr₀)
    (hr : rowMachine.run mgr₀ rows = some mgr) {code : Bytes} (hcode : code ∈ mgr.mSubscribeInsts) :
    cached mgr code = (lastLive mgr.mSubscribeInsts code rows).or (cached mgr₀ code) := by
  have hinsts := (run_sameKeys hr).insts
  rw [hinsts] at hcode ⊢
  refine (Machine.run_history (P := fun rows m => SameKeys mgr₀ m ∧
    cached m code = (lastLive mgr₀.mSubscribeInsts code rows).or (cached mgr₀ code)) ?_ ⟨.refl mgr₀, rfl⟩ hr).2
  rintro rows m row m' ⟨hsame, hm⟩ hstep
  have hfound := (hsame.found (init_found h0 hcode)).staticinfoCache
  refine ⟨hsame.trans (apply_sameKeys hstep), ?_⟩
  rw [apply_cached hstep hfound, hsame.insts, hm, lastLive_append, Option.or_assoc]

/-! ## Agreement -/

/-- The entry of the code in `m_staticinfo_cache` and its record in `m_staticinfo_save` hold
the same values. -/
def Agree (mgr : GfexQuota) (code : Bytes) : Prop :=
  ∃ id info, mgr.mCodeSave.lookup code = some id ∧ mgr.mStaticinfoSave[id.toNat]? = some info ∧
    cached mgr code = some info.toStaticValues

/-- The saved record of a code has the values of its last static message, reversed. -/
theorem run_saved {mgr₀ mgr : GfexQuota} {rows : List Row} (h0 : machine.init mgr₀)
    (hr : rowMachine.run mgr₀ rows = some mgr) (hsize : mgr.mStaticinfoSave.length ≤ 2 ^ 32) {code : Bytes}
    {msg : DailyStaticInfo} (hmsg : lastStatic code rows = some msg) :
    ∃ id info, mgr.mCodeSave.lookup code = some id ∧ mgr.mStaticinfoSave[id.toNat]? = some info ∧
      info.toStaticValues = msg.toStaticValues.reverse := by
  have hrefines := saved_refines (init_saved h0) hr
  obtain ⟨info, hinfo, hvalues⟩ := savedContents_values hmsg
  cases hid : mgr.mCodeSave.lookup code with
  | none =>
    have hnone := hrefines.lookup_none.mp hid
    rw [hnone] at hinfo
    cases hinfo
  | some id =>
    have hrow : mgr.mStaticinfoSave[id.toNat]? = _ := hrefines.row_of_lookup hsize hid
    exact ⟨id, info, rfl, hrow.trans hinfo, hvalues⟩

theorem agree_iff_cached {mgr₀ mgr : GfexQuota} {rows : List Row} (h0 : machine.init mgr₀)
    (hr : rowMachine.run mgr₀ rows = some mgr) (hsize : mgr.mStaticinfoSave.length ≤ 2 ^ 32) {code : Bytes}
    {msg : DailyStaticInfo} (hmsg : lastStatic code rows = some msg) :
    Agree mgr code ↔ cached mgr code = some msg.toStaticValues.reverse := by
  obtain ⟨id, info, hid, hinfo, hvalues⟩ := run_saved h0 hr hsize hmsg
  constructor
  · intro ⟨id', info', hid', hinfo', hcached⟩
    rw [hid, Option.some.injEq] at hid'
    subst hid'
    rw [hinfo, Option.some.injEq] at hinfo'
    subst hinfo'
    rw [hcached, hvalues]
  · intro hcached
    exact ⟨id, info, hid, hinfo, by rw [hcached, hvalues]⟩

/-- A static message of a subscribed code is written to its entry. -/
theorem lastLive_of_lastStatic {insts : List Bytes} {code : Bytes} (hcode : code ∈ insts) {rows : List Row}
    {msg : DailyStaticInfo} (h : lastStatic code rows = some msg) : ∃ v, lastLive insts code rows = some v := by
  obtain ⟨row, hrow, hmsg⟩ := List.mem_filterMap.mp (List.mem_of_getLast? h)
  cases row with
  | static msg' =>
    have hmsg' : msg'.code = code := by
      by_contra hne
      rw [staticFor, if_neg hne] at hmsg
      cases hmsg
    subst hmsg'
    cases hlast : lastLive insts msg'.code rows with
    | some v => exact ⟨v, rfl⟩
    | none =>
      rw [lastLive, List.getLast?_eq_none_iff, List.filterMap_eq_nil_iff] at hlast
      have := hlast _ hrow
      simp [live, hcode] at this
  | mapping | record | quote => cases hmsg

/-- **Exact condition.** Over every run that saves no more codes than `uint32_t` can number:
the two agree on a subscribed code if and only if the values last written under its key are
those of its last static message with their bytes reversed. -/
theorem static_agree_iff {mgr₀ mgr : GfexQuota} {events : List Event} (h0 : machine.init mgr₀)
    (hr : machine.run mgr₀ events = some mgr) (hsize : mgr.mStaticinfoSave.length ≤ 2 ^ 32) {code : Bytes}
    (hcode : code ∈ mgr.mSubscribeInsts) {msg : DailyStaticInfo} (hmsg : lastStatic code (rowsOf events) = some msg) :
    Agree mgr code ↔ lastLive mgr.mSubscribeInsts code (rowsOf events) = some msg.toStaticValues.reverse := by
  rw [agree_iff_cached h0 (run_rows hr) hsize hmsg, run_cached h0 (run_rows hr) hcode]
  obtain ⟨v, hv⟩ := lastLive_of_lastStatic hcode hmsg
  rw [hv, Option.some_or]

/-- `lc`, the only instrument here. -/
def lc : Bytes := [0x6c, 0x63]

/-- A static message for it, zero but for `pre_settle`. -/
def sampleStatic (preSettle : Bytes) : Mem :=
  Mem.ofBytes (List.replicate 14 0 ++ lc ++ List.replicate 154 0 ++ preSettle)

/-- After one message for the instrument. -/
theorem one_static {data : Mem} {msg : DailyStaticInfo} (hmsg : DailyStaticInfo.ofMem data 254 = some msg)
    (hcode : msg.code = lc) :
    ∃ mgr, machine.run (configured [lc] []) [.staticInfo data 254] = some mgr ∧ lc ∈ mgr.mSubscribeInsts ∧
      mgr.mStaticinfoSave.length = 1 ∧ rowsOf [.staticInfo data 254] = [.static msg] := by
  have hlen : msg.code.length ≤ codeSize := by rw [hcode]; decide
  obtain ⟨mgr, hmgr⟩ := @staticInfo_some (configured [lc] []) msg hlen
  have hr : machine.run (configured [lc] []) [.staticInfo data 254] = some mgr := by
    refine Machine.run_cons.mpr ⟨mgr, ?_, rfl⟩
    show (DailyStaticInfo.ofMem data 254).bind _ = _
    rw [hmsg]
    exact hmgr
  have hsame := @apply_sameKeys _ _ (.static msg) hmgr
  have hsaved := congrArg (fun t => t.rows.length) (@apply_saved _ _ (.static msg) hmgr)
  refine ⟨mgr, hr, ?_, hsaved, ?_⟩
  · rw [hsame.insts]
    exact List.mem_cons_self
  · simp [rowsOf, Event.rows, hmsg]

theorem lastLive_one {insts : List Bytes} {msg : DailyStaticInfo} (h : msg.code ∈ insts) :
    lastLive insts msg.code [.static msg] = some msg.toStaticValues := by
  simp [lastLive, live, h]

/-- A `pre_settle` of a little over 10, whose bytes read the same both ways. -/
def samePrice : Bytes := [0x40, 0x24, 0, 0, 0, 0, 0x24, 0x40]

theorem static_agree_iff_samePrice : ∃ mgr,
    machine.run (configured [lc] []) [.staticInfo (sampleStatic samePrice) 254] = some mgr ∧ Agree mgr lc := by
  have hmsg : DailyStaticInfo.ofMem (sampleStatic samePrice) 254 =
      some ⟨⟨0, 0, 0, 0x4024000000002440, 0⟩, lc⟩ := by decide +kernel
  obtain ⟨mgr, hr, hin, hlen, hrows⟩ := one_static hmsg rfl
  have hlast : lastStatic lc (rowsOf [.staticInfo (sampleStatic samePrice) 254]) =
      some ⟨⟨0, 0, 0, 0x4024000000002440, 0⟩, lc⟩ := by
    rw [hrows]
    rfl
  refine ⟨mgr, hr, (static_agree_iff ⟨[lc], [], rfl⟩ hr (by omega) hin hlast).mpr ?_⟩
  rw [hrows]
  refine (lastLive_one hin).trans ?_
  decide

/-- **Counterexample.** A `pre_settle` of 10, whose bytes are `40 24 00 00 00 00 00 00`. -/
theorem settle_disagrees :
    ¬ ∀ (mgr₀ mgr : GfexQuota) (events : List Event) (code : Bytes) (msg : DailyStaticInfo), machine.init mgr₀ →
      machine.run mgr₀ events = some mgr → code ∈ mgr.mSubscribeInsts →
      lastStatic code (rowsOf events) = some msg → Agree mgr code := by
  intro h
  have hmsg : DailyStaticInfo.ofMem (sampleStatic [0x40, 0x24]) 254 = some ⟨⟨0, 0, 0, 0x2440, 0⟩, lc⟩ := by
    decide +kernel
  obtain ⟨mgr, hr, hin, hlen, hrows⟩ := one_static hmsg rfl
  have hlast : lastStatic lc [.static ⟨⟨0, 0, 0, 0x2440, 0⟩, lc⟩] = some ⟨⟨0, 0, 0, 0x2440, 0⟩, lc⟩ := rfl
  have hrun := run_rows hr
  rw [hrows] at hrun
  have hagree := h _ mgr _ lc _ ⟨[lc], [], rfl⟩ hr hin (by rw [hrows]; exact hlast)
  have hlive : lastLive mgr.mSubscribeInsts lc [.static ⟨⟨0, 0, 0, 0x2440, 0⟩, lc⟩] = _ := lastLive_one hin
  rw [agree_iff_cached ⟨[lc], [], rfl⟩ hrun (by omega) hlast, run_cached ⟨[lc], [], rfl⟩ hrun hin, hlive,
    Option.some_or] at hagree
  revert hagree
  decide

end MdInfoSet.L4.GfexStaticInfo
