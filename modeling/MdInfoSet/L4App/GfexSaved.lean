import MdInfoSet.Core.IndexedTable
import MdInfoSet.L4App.GfexReceiver

/-!
# The saved instruments of the GFEX receiver

`m_staticinfo_save` and its index `m_code_save`
(src/dz_gfex_md/src/dz_gfex_md.cpp:1159-1173, 1190-1214, 1233-1351). Over every run the two
hold the records that the rows of the run give to each code (`saved_refines`), as long as
there are no more than the `uint32_t` of the index can number.

* `saved_table_indexed`: the index is a bijection onto the positions then, and the record at
  a code's position is its own.
-/
namespace MdInfoSet.L4.GfexSaved

open MdInfoSet.L1.Lv2Quote MdInfoSet.L2.InstMap MdInfoSet.L4.GfexReceiver
open MdInfoSet.L4.GfexHandlers (strncpy)
open MdInfoSet.IndexedTable (Positions Table Contents Refines)

/-! ## What the rows save -/

/-- A `size_t` as the `uint32_t` of `m_code_save`. -/
def positions : Positions UInt32 where
  store := UInt32.ofNat
  load := UInt32.toNat
  bound := 2 ^ 32
  load_store n h := by rw [UInt32.toNat_ofNat', Nat.mod_eq_of_lt h]

/-- A call of `saveStatic`: a code, its record if it is new, and what is done to it else. -/
structure Save where
  code : Bytes
  new : StaticInfo
  update : StaticInfo → StaticInfo

def save : Row → Option Save
  | .mapping msg =>
    some ⟨msg.code, { StaticInfo.zero with code := msg.code, idx := msg.idx },
      fun info => { info with idx := msg.idx }⟩
  | .static msg =>
    some ⟨msg.code, { StaticInfo.zero with code := msg.code }.setValues msg.toStaticValues.reverse,
      fun info => info.setValues msg.toStaticValues.reverse⟩
  | .record loaded => some ⟨loaded.code, loaded.info, id⟩
  | .quote .. => none

/-- The two tables of the receiver. -/
def saved (mgr : GfexQuota) : Table Bytes StaticInfo UInt32 := ⟨mgr.mCodeSave, mgr.mStaticinfoSave⟩

/-- The record each code has after some rows. -/
def savedContents (rows : List Row) : Contents Bytes StaticInfo :=
  (rows.filterMap save).foldl (fun m s => m.put s.code s.new s.update) fun _ => none

theorem saveStatic_saved {mgr mgr' : GfexQuota} {code : Bytes} {new : Option StaticInfo}
    {update : StaticInfo → StaticInfo} (info : StaticInfo) (h : saveStatic mgr code new update = some mgr')
    (hnew : ∀ x, new = some x → x = info) : saved mgr' = (saved mgr).put positions code info update := by
  unfold saveStatic at h
  split at h
  · rename_i hnone
    obtain ⟨x, hx, rfl⟩ := Option.map_eq_some_iff.mp h
    rw [hnew x hx, IndexedTable.put_new (t := saved mgr) hnone]
    simp [saved, emplaceKey, hnone, positions]
  · rename_i id hid
    cases h
    rw [IndexedTable.put_known (t := saved mgr) hid]
    rfl

theorem mapIndex_saved (mgr : GfexQuota) (idx : UInt32) (code : Bytes) :
    saved (mapIndex mgr idx code) = saved mgr := by
  rw [mapIndex_eq]
  rfl

/-- Every row saves what `save` says. -/
theorem apply_saved {mgr mgr' : GfexQuota} {row : Row} (h : row.apply mgr = some mgr') :
    saved mgr' = (save row).elim (saved mgr) fun s => (saved mgr).put positions s.code s.new s.update := by
  cases row with
  | mapping msg =>
    obtain ⟨mgr1, hsave, rfl⟩ := Option.map_eq_some_iff.mp h
    have hput := saveStatic_saved { StaticInfo.zero with code := msg.code, idx := msg.idx } hsave <| by
      intro x hx
      split at hx
      · simpa [strncpy, StaticInfo.zero] using hx.symm
      · cases hx
    simp only [save, Option.elim_some, ← hput]
    split
    · exact mapIndex_saved mgr1 _ _
    · rfl
  | static msg =>
    obtain ⟨mgr1, hsave, rfl⟩ := Option.map_eq_some_iff.mp h
    have hput := saveStatic_saved
      ({ StaticInfo.zero with code := msg.code }.setValues msg.toStaticValues.reverse) hsave <| by
      intro x hx
      split at hx
      · simpa [strncpy, StaticInfo.zero] using hx.symm
      · cases hx
    simp only [save, Option.elim_some, ← hput]
    split
    · split
      · rfl
      · rfl
    · rfl
  | record loaded =>
    obtain ⟨mgr1, hsave, hrest⟩ := Option.bind_eq_some_iff.mp h
    have hput := saveStatic_saved loaded.info hsave fun x hx => (Option.some.inj hx).symm
    simp only [save, Option.elim_some, ← hput]
    split at hrest
    · obtain ⟨i, -, hrest⟩ := Option.bind_eq_some_iff.mp hrest
      split at hrest
      · cases hrest
        exact mapIndex_saved mgr1 _ _
      · cases hrest
    · cases hrest
      rfl
  | quote t0 data dataLen t1 =>
    obtain ⟨lv1Quota, quotaCache, pushed, sums, rfl, -, -⟩ := handleLv1Quota_eq h
    rfl

theorem savedContents_append (rows : List Row) (row : Row) :
    savedContents (rows ++ [row]) =
      (save row).elim (savedContents rows) fun s => (savedContents rows).put s.code s.new s.update := by
  unfold savedContents
  cases hs : save row with
  | none => simp [List.filterMap_append, hs]
  | some s => simp [List.filterMap_append, hs]

/-- The tables hold the records of the rows. -/
theorem saved_refines {mgr₀ mgr : GfexQuota} {rows : List Row} (h0 : saved mgr₀ = ⟨[], []⟩)
    (hr : rowMachine.run mgr₀ rows = some mgr) : Refines positions (saved mgr) (savedContents rows) := by
  refine Machine.run_history (P := fun rows mgr => Refines positions (saved mgr) (savedContents rows)) ?_ ?_ hr
  · intro rows mgr row mgr' hrefines hstep
    rw [apply_saved hstep, savedContents_append]
    cases save row with
    | none => exact hrefines
    | some s => exact hrefines.put s.code s.new s.update
  · rw [h0]
    exact IndexedTable.refines_empty

/-! ## The record of a code -/

/-- The idx of a mapping message for the code. -/
def mappedIdx (code : Bytes) : Row → Option UInt32
  | .mapping msg => if msg.code = code then some msg.idx else none
  | _ => none

/-- The idx a row for the code brings with it; a static message has none. -/
def firstIdx (code : Bytes) : Row → Option UInt32
  | .mapping msg => if msg.code = code then some msg.idx else none
  | .static msg => if msg.code = code then some 0 else none
  | .record loaded => if loaded.code = code then some loaded.info.idx else none
  | .quote .. => none

/-- The idx of the last mapping message for the code; if there is none, that of the file
record, or the zero of the static message, by which the code was first met. -/
def savedIdx (code : Bytes) (rows : List Row) : Option UInt32 :=
  (rows.filterMap (mappedIdx code)).getLast?.or (rows.filterMap (firstIdx code)).head?

def staticFor (code : Bytes) : Row → Option DailyStaticInfo
  | .static msg => if msg.code = code then some msg else none
  | _ => none

/-- The last static message for the code. -/
def lastStatic (code : Bytes) (rows : List Row) : Option DailyStaticInfo :=
  (rows.filterMap (staticFor code)).getLast?

theorem savedIdx_append (code : Bytes) (rows : List Row) (row : Row) :
    savedIdx code (rows ++ [row]) = (mappedIdx code row).or ((savedIdx code rows).or (firstIdx code row)) := by
  unfold savedIdx
  cases hm : mappedIdx code row <;> cases hf : firstIdx code row <;>
    simp [List.filterMap_append, hm, hf]

/-- What a row saves under another code does not count. -/
theorem savedContents_other {rows : List Row} {row : Row} {code : Bytes}
    (h : ∀ s, save row = some s → s.code ≠ code) :
    savedContents (rows ++ [row]) code = savedContents rows code := by
  rw [savedContents_append]
  cases hs : save row with
  | none => rfl
  | some s => exact Function.update_of_ne (h s hs).symm _ _

theorem savedContents_same {rows : List Row} {row : Row} {s : Save} (h : save row = some s) :
    savedContents (rows ++ [row]) s.code = some ((savedContents rows s.code).elim s.new s.update) := by
  rw [savedContents_append, h]
  exact Function.update_self _ _ _

theorem firstIdx_other {row : Row} {code : Bytes} (h : ∀ s, save row = some s → s.code ≠ code) :
    mappedIdx code row = none ∧ firstIdx code row = none := by
  cases row with
  | mapping msg => exact ⟨if_neg (h _ rfl), if_neg (h _ rfl)⟩
  | static msg => exact ⟨rfl, if_neg (h _ rfl)⟩
  | record loaded => exact ⟨rfl, if_neg (h _ rfl)⟩
  | quote => exact ⟨rfl, rfl⟩

theorem staticFor_other {row : Row} {code : Bytes} (h : ∀ s, save row = some s → s.code ≠ code) :
    staticFor code row = none := by
  cases row with
  | static msg => exact if_neg (h _ rfl)
  | mapping | record | quote => rfl

theorem zero_idx : StaticInfo.zero.idx = 0 := rfl

/-- The idx a row leaves in the record of its code. -/
theorem save_idx {row : Row} {s : Save} (h : save row = some s) (old : Option StaticInfo) :
    some (old.elim s.new s.update).idx =
      (mappedIdx s.code row).or ((old.map StaticInfo.idx).or (firstIdx s.code row)) := by
  cases row with
  | mapping msg =>
    obtain rfl := Option.some.inj h
    cases old <;> simp [mappedIdx]
  | static msg =>
    obtain rfl := Option.some.inj h
    cases old <;> simp [mappedIdx, firstIdx, zero_idx]
  | record loaded =>
    obtain rfl := Option.some.inj h
    cases old <;> simp [mappedIdx, firstIdx]
  | quote => cases h

/-- The rows give a code the idx of its last mapping message, or the first one. -/
theorem savedContents_idx (rows : List Row) (code : Bytes) :
    (savedContents rows code).map StaticInfo.idx = savedIdx code rows := by
  induction rows using List.reverseRecOn with
  | nil => rfl
  | append_singleton rows row ih =>
    rw [savedIdx_append, ← ih]
    by_cases h : ∀ s, save row = some s → s.code ≠ code
    · obtain ⟨hm, hf⟩ := firstIdx_other h
      rw [savedContents_other h, hm, hf, Option.none_or, Option.or_none]
    · push Not at h
      obtain ⟨s, hs, rfl⟩ := h
      rw [savedContents_same hs, Option.map_some]
      exact save_idx hs _

/-- A file record whose code its `StaticInfo` holds whole. -/
def WholeCode : Row → Prop
  | .record loaded => loaded.info.code = loaded.code
  | _ => True

/-- A row saves the code it is for, and an update keeps it. -/
theorem save_code {row : Row} {s : Save} (hwhole : WholeCode row) (h : save row = some s) :
    s.new.code = s.code ∧ ∀ info, (s.update info).code = info.code := by
  cases row with
  | mapping msg =>
    obtain rfl := Option.some.inj h
    exact ⟨rfl, fun _ => rfl⟩
  | static msg =>
    obtain rfl := Option.some.inj h
    exact ⟨StaticInfo.setValues_code _ _, fun info => info.setValues_code _⟩
  | record loaded =>
    obtain rfl := Option.some.inj h
    exact ⟨hwhole, fun _ => rfl⟩
  | quote => cases h

theorem savedContents_code {rows : List Row} (hwhole : ∀ row ∈ rows, WholeCode row) {code : Bytes}
    {info : StaticInfo} (h : savedContents rows code = some info) : info.code = code := by
  induction rows using List.reverseRecOn generalizing info with
  | nil => cases h
  | append_singleton rows row ih =>
    have hrest := fun r hr => hwhole r (List.mem_append_left [row] hr)
    have hrow := hwhole row (List.mem_append_right rows List.mem_cons_self)
    by_cases hother : ∀ s, save row = some s → s.code ≠ code
    · rw [savedContents_other hother] at h
      exact ih hrest h
    · push Not at hother
      obtain ⟨s, hs, rfl⟩ := hother
      obtain ⟨hnew, hupdate⟩ := save_code hrow hs
      rw [savedContents_same hs, Option.some.injEq] at h
      subst h
      cases hc : savedContents rows s.code with
      | none => exact hnew
      | some old => exact (hupdate old).trans (ih hrest hc)

theorem lastStatic_append (code : Bytes) (rows : List Row) (row : Row) :
    lastStatic code (rows ++ [row]) = (staticFor code row).or (lastStatic code rows) := by
  unfold lastStatic
  cases h : staticFor code row <;> simp [List.filterMap_append, h]

/-- The values of a code's record are those of its last static message, reversed. -/
theorem savedContents_values {rows : List Row} {code : Bytes} {msg : DailyStaticInfo}
    (h : lastStatic code rows = some msg) :
    ∃ info, savedContents rows code = some info ∧ info.toStaticValues = msg.toStaticValues.reverse := by
  induction rows using List.reverseRecOn with
  | nil => cases h
  | append_singleton rows row ih =>
    rw [lastStatic_append] at h
    by_cases hother : ∀ s, save row = some s → s.code ≠ code
    · rw [savedContents_other hother]
      refine ih ?_
      rwa [staticFor_other hother, Option.none_or] at h
    · push Not at hother
      obtain ⟨s, hs, rfl⟩ := hother
      refine ⟨_, savedContents_same hs, ?_⟩
      cases row with
      | static msg' =>
        obtain rfl := Option.some.inj hs
        simp only [staticFor, if_pos, Option.some_or, Option.some.injEq] at h
        subst h
        cases savedContents rows msg'.code with
        | none => exact StaticInfo.setValues_values _ _
        | some old => exact old.setValues_values _
      | mapping msg' =>
        obtain rfl := Option.some.inj hs
        obtain ⟨info, hinfo, hvalues⟩ := ih h
        rw [hinfo]
        exact hvalues
      | record loaded =>
        obtain rfl := Option.some.inj hs
        obtain ⟨info, hinfo, hvalues⟩ := ih h
        rw [hinfo]
        exact hvalues
      | quote => cases hs

/-! ## The saved table -/

/-- The codes an event is for are shorter than `StaticInfo::code`. -/
def ShortCodes (e : Event) : Prop := ∀ row ∈ e.rows, ∀ s, save row = some s → s.code.length < codeSize

instance : DecidablePred ShortCodes := fun e =>
  inferInstanceAs (Decidable (∀ row ∈ e.rows, ∀ s ∈ save row, s.code.length < codeSize))

/-- A string that ends in the first `n` bytes is what stands before their first zero. -/
theorem takeWhile_slice {data : Mem} {off len n : Nat} {s : Bytes} (h : cstr (data.slice off len) = some s)
    (hs : s.length < n) : (data.slice off n).takeWhile (· ≠ 0) = s := by
  obtain ⟨rest, heq, hne⟩ := eq_of_cstr h
  have hlen := congrArg List.length heq
  rw [Mem.slice_length, List.length_append, List.length_cons] at hlen
  obtain ⟨k, rfl⟩ : ∃ k, len = s.length + 1 + k := ⟨rest.length, by omega⟩
  obtain ⟨j, rfl⟩ : ∃ j, n = s.length + 1 + j := ⟨n - (s.length + 1), by omega⟩
  rw [Mem.slice_add, List.append_cons] at heq
  obtain ⟨hfront, -⟩ := List.append_inj heq (by simp)
  rw [Mem.slice_add, hfront, List.append_assoc, List.takeWhile_append_of_pos (by simpa using hne)]
  simp

theorem ofMem_whole {data : Mem} {size off : Nat} {loaded : Loaded} (h : Loaded.ofMem data size off = some loaded)
    (hshort : loaded.code.length < codeSize) : loaded.info.code = loaded.code := by
  obtain ⟨code, hcode, rfl⟩ := Option.map_eq_some_iff.mp h
  exact takeWhile_slice hcode hshort

theorem ofLine_whole {line : StaticInfo} {loaded : Loaded} (h : Loaded.ofLine line = some loaded) :
    loaded.info.code = loaded.code := by
  unfold Loaded.ofLine at h
  split at h
  · obtain rfl := Option.some.inj h
    simp [strncpy, StaticInfo.zero]
  · cases h

theorem mem_of_mapM {A B : Type} {f : A → Option B} {l : List A} {l' : List B} (h : l.mapM f = some l') {b : B}
    (hb : b ∈ l') : ∃ a ∈ l, f a = some b := by
  induction l generalizing l' with
  | nil =>
    obtain rfl := Option.some.inj h
    cases hb
  | cons a l ih =>
    simp only [List.mapM_cons, Option.bind_eq_bind, Option.bind_eq_some_iff] at h
    obtain ⟨b', hb', l'', hl'', hcons⟩ := h
    obtain rfl := Option.some.inj hcons
    rcases List.mem_cons.mp hb with rfl | hb
    · exact ⟨a, List.mem_cons_self, hb'⟩
    · obtain ⟨x, hx, hfx⟩ := ih hl'' hb
      exact ⟨x, List.mem_cons_of_mem a hx, hfx⟩

theorem ShortCodes.whole {e : Event} (h : ShortCodes e) : ∀ row ∈ e.rows, WholeCode row := by
  intro row hrow
  cases row with
  | record loaded =>
    have hshort := h _ hrow _ rfl
    cases e with
    | loadMaping file =>
      obtain ⟨loaded', hmem, he⟩ := List.mem_map.mp hrow
      obtain rfl := Row.record.inj he
      cases hfile : file.records with
      | none =>
        rw [hfile] at hmem
        cases hmem
      | some records =>
        rw [hfile] at hmem
        cases file with
        | bin data size =>
          obtain ⟨i, -, hi⟩ := mem_of_mapM hfile hmem
          exact ofMem_whole hi hshort
        | csv lines =>
          obtain ⟨line, -, hline⟩ := mem_of_mapM hfile hmem
          exact ofLine_whole hline
    | code2Index | staticInfo => simp [Event.rows] at hrow
    | quote => simp [Event.rows] at hrow
  | mapping | static | quote => trivial

theorem rowsOf_whole {events : List Event} (h : ∀ e ∈ events, ShortCodes e) : ∀ row ∈ rowsOf events, WholeCode row := by
  intro row hrow
  obtain ⟨e, he, hmem⟩ := List.mem_flatMap.mp hrow
  exact (h e he).whole row hmem

/-- Nothing is saved when the messages begin. -/
theorem init_saved {mgr : GfexQuota} (h : machine.init mgr) : saved mgr = ⟨[], []⟩ := by
  obtain ⟨insts, requested, rfl⟩ := h
  unfold configured
  generalize hstart : loadJsonCfg .start insts = mgr
  have hsaved : saved mgr = ⟨[], []⟩ := by rw [← hstart]; rfl
  clear hstart
  induction requested generalizing mgr with
  | nil => exact hsaved
  | cons inst requested ih => exact ih _ hsaved

/-- Over every run on codes shorter than 20 characters the two tables are of one size, and
while `uint32_t` can number the records, the index is a bijection onto their positions, and
the record of a code has this code and the idx it should have. -/
theorem saved_table_indexed {mgr₀ mgr : GfexQuota} {events : List Event} (h0 : machine.init mgr₀)
    (hr : machine.run mgr₀ events = some mgr) (hshort : ∀ e ∈ events, ShortCodes e) :
    mgr.mCodeSave.length = mgr.mStaticinfoSave.length ∧
    (mgr.mStaticinfoSave.length ≤ 2 ^ 32 →
      (∀ i < mgr.mStaticinfoSave.length, ∃! code, ∃ id, mgr.mCodeSave.lookup code = some id ∧ id.toNat = i) ∧
      ∀ code id, mgr.mCodeSave.lookup code = some id →
        ∃ info, mgr.mStaticinfoSave[id.toNat]? = some info ∧ info.code = code ∧
          some info.idx = savedIdx code (rowsOf events)) := by
  have hrefines := saved_refines (init_saved h0) (run_rows hr)
  refine ⟨hrefines.sizes, fun hsize => ⟨fun i hi => hrefines.unique_key hsize hi, ?_⟩⟩
  intro code id hid
  have hrow : mgr.mStaticinfoSave[id.toNat]? = _ := hrefines.row_of_lookup hsize hid
  have hlt : id.toNat < mgr.mStaticinfoSave.length := hrefines.load_lt hsize hid
  obtain ⟨info, hinfo⟩ : ∃ info, mgr.mStaticinfoSave[id.toNat]? = some info := ⟨_, List.getElem?_eq_getElem hlt⟩
  rw [hinfo] at hrow
  refine ⟨info, hinfo, savedContents_code (rowsOf_whole hshort) hrow.symm, ?_⟩
  rw [← savedContents_idx]
  exact congrArg (Option.map StaticInfo.idx) hrow

/-- `lc` and `si` from the file, a new index for `lc`, and a static message for `ps`. -/
def sampleEvents : List Event :=
  [.loadMaping (.csv [{ StaticInfo.zero with code := [0x6c, 0x63], idx := 7 },
      { StaticInfo.zero with code := [0x73, 0x69], idx := 8 }]),
    .code2Index (Mem.ofBytes (List.replicate 6 0 ++ [0x6c, 0x63] ++ List.replicate 80 0 ++ [9])) 94,
    .staticInfo (Mem.ofBytes (List.replicate 14 0 ++ [0x70, 0x73])) 254]

theorem saved_table_indexed_three : ∃ mgr, machine.run (configured [] []) sampleEvents = some mgr ∧
    mgr.mStaticinfoSave.length = 3 ∧
    (∀ i < mgr.mStaticinfoSave.length, ∃! code, ∃ id, mgr.mCodeSave.lookup code = some id ∧ id.toNat = i) ∧
    ∀ code id, mgr.mCodeSave.lookup code = some id →
      ∃ info, mgr.mStaticinfoSave[id.toNat]? = some info ∧ info.code = code ∧
        some info.idx = savedIdx code (rowsOf sampleEvents) := by
  have hrun : (machine.run (configured [] []) sampleEvents).map (·.mStaticinfoSave.length) = some 3 := by
    decide +kernel
  obtain ⟨mgr, hr, hlen⟩ := Option.map_eq_some_iff.mp hrun
  have hindexed := (saved_table_indexed ⟨[], [], rfl⟩ hr (by decide +kernel)).2 (by omega)
  exact ⟨mgr, hr, hlen, hindexed⟩

example : savedIdx [0x6c, 0x63] (rowsOf sampleEvents) = some 9 := by decide +kernel

/-- Lines of new codes, none of them subscribed: each is saved. -/
theorem load_new {lines : List StaticInfo} {mgr : GfexQuota} (hsub : mgr.mSubscribeInsts = [])
    (hnodup : (lines.map StaticInfo.code).Nodup) (hnew : ∀ line ∈ lines, mgr.mCodeSave.lookup line.code = none) :
    ∃ mgr', (lines.map fun line => (⟨line.code, line⟩ : Loaded)).foldlM loadRecord mgr = some mgr' ∧
      mgr'.mStaticinfoSave.length = mgr.mStaticinfoSave.length + lines.length := by
  induction lines generalizing mgr with
  | nil => exact ⟨mgr, rfl, rfl⟩
  | cons line lines ih =>
    obtain ⟨hline, hrest⟩ := List.forall_mem_cons.mp hnew
    obtain ⟨hnot, hnodup⟩ := List.nodup_cons.mp hnodup
    have hone : loadRecord mgr ⟨line.code, line⟩ =
        some { mgr with
          mStaticinfoSave := mgr.mStaticinfoSave ++ [line]
          mCodeSave := emplaceKey mgr.mCodeSave line.code (UInt32.ofNat mgr.mCodeSave.length) } := by
      simp [loadRecord, saveStatic, hline, hsub]
    obtain ⟨mgr', hfold, hlen⟩ := @ih { mgr with
      mStaticinfoSave := mgr.mStaticinfoSave ++ [line]
      mCodeSave := emplaceKey mgr.mCodeSave line.code (UInt32.ofNat mgr.mCodeSave.length) } hsub hnodup <| by
        intro x hx
        have hne : x.code ≠ line.code := fun he => hnot (List.mem_map.mpr ⟨x, hx, he⟩)
        simp [emplaceKey, hline, List.lookup_append, hrest x hx, hne]
    refine ⟨mgr', ?_, ?_⟩
    · rw [List.map_cons, List.foldlM_cons, hone]
      exact hfold
    · rw [hlen]
      simp only [List.length_append, List.length_cons, List.length_nil]
      omega

/-- The codes of five characters, numbered. -/
def codeOf (n : Nat) : Bytes :=
  [UInt8.ofNat (1 + n % 255), UInt8.ofNat (1 + n / 255 % 255), UInt8.ofNat (1 + n / 255 ^ 2 % 255),
    UInt8.ofNat (1 + n / 255 ^ 3 % 255), UInt8.ofNat (1 + n / 255 ^ 4 % 255)]

theorem codeOf_inj {m n : Nat} (hm : m < 255 ^ 5) (hn : n < 255 ^ 5) (h : codeOf m = codeOf n) : m = n := by
  have hdigit : ∀ a b : Nat, UInt8.ofNat (1 + a % 255) = UInt8.ofNat (1 + b % 255) → a % 255 = b % 255 := by
    intro a b hab
    have := congrArg UInt8.toNat hab
    simp only [UInt8.toNat_ofNat'] at this
    omega
  simp only [codeOf, List.cons.injEq, and_true] at h
  obtain ⟨h0, h1, h2, h3, h4⟩ := h
  have d0 := hdigit _ _ h0
  have d1 := hdigit _ _ h1
  have d2 := hdigit _ _ h2
  have d3 := hdigit _ _ h3
  have d4 := hdigit _ _ h4
  omega

def lines (n : Nat) : List StaticInfo := (List.range n).map fun i => { StaticInfo.zero with code := codeOf i }

theorem lines_code {n : Nat} : ∀ line ∈ lines n, line.code.length = 5 := by
  intro line hline
  obtain ⟨i, -, rfl⟩ := List.mem_map.mp hline
  rfl

/-- A file of `n` codes fills the tables with them. -/
theorem lines_loaded {n : Nat} (hn : n ≤ 255 ^ 5) :
    ∃ mgr, machine.run (configured [] []) [.loadMaping (.csv (lines n))] = some mgr ∧
      mgr.mStaticinfoSave.length = n := by
  have hnodup : ((lines n).map StaticInfo.code).Nodup := by
    rw [lines, List.map_map]
    refine List.Nodup.map_on ?_ List.nodup_range
    intro i hi j hj hij
    have hi' := List.mem_range.mp hi
    have hj' := List.mem_range.mp hj
    exact codeOf_inj (by omega) (by omega) hij
  obtain ⟨mgr, hload, hlen⟩ := @load_new _ (configured [] []) rfl hnodup fun _ _ => rfl
  refine ⟨mgr, Machine.run_cons.mpr ⟨mgr, ?_, rfl⟩, ?_⟩
  · show (MappingFile.records _).bind _ = _
    rw [records_csv fun line hline => by rw [lines_code line hline]; decide, Option.bind_some]
    exact hload
  · rw [hlen, lines, List.length_map, List.length_range]
    exact Nat.zero_add n

/-- **Counterexample.** A file of `2 ^ 32 + 1` codes has a record whose position is that of
no code. -/
theorem position_not_stored :
    ¬ ∀ (mgr₀ mgr : GfexQuota) (events : List Event), machine.init mgr₀ → machine.run mgr₀ events = some mgr →
      (∀ e ∈ events, ShortCodes e) →
        ∀ i < mgr.mStaticinfoSave.length, ∃! code, ∃ id, mgr.mCodeSave.lookup code = some id ∧ id.toNat = i := by
  intro h
  obtain ⟨n, hn⟩ : ∃ n : Nat, n = 2 ^ 32 := ⟨_, rfl⟩
  obtain ⟨mgr, hr, hlen⟩ := lines_loaded (n := n + 1) (by omega)
  have hshort : ∀ e ∈ [Event.loadMaping (.csv (lines (n + 1)))], ShortCodes e := by
    intro e he row hrow s hs
    obtain rfl := List.mem_singleton.mp he
    rw [Event.rows, records_csv fun line hline => by rw [lines_code line hline]; decide] at hrow
    obtain ⟨loaded, hloaded, rfl⟩ := List.mem_map.mp hrow
    obtain ⟨line, hline, rfl⟩ := List.mem_map.mp hloaded
    obtain rfl := Option.some.inj hs
    show line.code.length < codeSize
    rw [lines_code line hline]
    decide
  obtain ⟨code, ⟨id, -, hid⟩, -⟩ := h _ mgr _ ⟨[], [], rfl⟩ hr hshort n (by omega)
  have := id.toNat_lt
  omega

end MdInfoSet.L4.GfexSaved
