import MdInfoSet.L2Machine.InstMapRuns
import MdInfoSet.L4App.DceReceiver

/-!
# Loading the configured instruments

`GFEXExanicQuota` (src/gfex_md_exanic/src/exanic_md.cpp:149-157, 203-216) and `SSEQuota`
(src/sse_option_md_xele/src/sse_md_option.cpp:82-86, 127-137) keep the configured codes in a
`std::set<std::string>` and call `InitOnce` for each of them in its order; only
`subscribe_inst` calls `Sort`, after an `InitOnce` if the code is not in the set.
`dz_gfex_md` and `gz_dce_udp` sort when they load.

**Exact condition** (`configured_found_iff`). Every configured code is found, and has one
entry, if and only if `subscribe_inst` was called or the keys are ascending in the order of
the set, and no two of the loaded codes have the key of a configured one. The keys compare
the last bytes first, the set compares the first.

**Counterexample.** `lc2602` and `si2601`: the first is not found (`configured_not_found`).
-/
namespace MdInfoSet.L4.InstrumentLoading

open MdInfoSet.L2.InstMap

/-- A `std::set<std::string>`. -/
structure InstSet where
  codes : List Bytes
  sorted : codes.Pairwise (· < ·)

section Caches

variable {T : Type} (zero : T) (s : StdSort T)

/-- What the two classes have of the instruments. -/
structure Quota (T : Type) where
  instSet : InstSet
  mQuotaCache : List (Nat × T)

/-- `InitOnce` for each configured code. -/
def load (insts : InstSet) : Quota T := ⟨insts, insts.codes.foldl (initOnce zero) []⟩

/-- `InitOnce` for a code that is not configured, and `Sort`. -/
def subscribe (q : Quota T) (instrumentId : Bytes) : Quota T :=
  { q with
    mQuotaCache :=
      s.sort (if instrumentId ∈ q.instSet.codes then q.mQuotaCache else initOnce zero q.mQuotaCache instrumentId) }

/-- mirrors src/gfex_md_exanic/src/exanic_md.cpp:203-216 -/
def GFEXExanicQuota.loadJsonCfg (insts : InstSet) : Quota T := load zero insts

/-- mirrors src/gfex_md_exanic/src/exanic_md.cpp:149-157 -/
def GFEXExanicQuota.subscribeInst (q : Quota T) (instrumentId : Bytes) : Quota T := subscribe zero s q instrumentId

/-- mirrors src/sse_option_md_xele/src/sse_md_option.cpp:82-86 -/
def SSEQuota.init (insts : InstSet) : Quota T := load zero insts

/-- mirrors src/sse_option_md_xele/src/sse_md_option.cpp:127-137 -/
def SSEQuota.subscribeInst (q : Quota T) (instrumentId : Bytes) : Quota T := subscribe zero s q instrumentId

/-- After the configuration was loaded and the codes of `requested` were subscribed to. -/
def prepared (insts : InstSet) (requested : List Bytes) : Quota T :=
  requested.foldl (subscribe zero s) (load zero insts)

def GFEXExanicQuota.prepared (insts : InstSet) (requested : List Bytes) : Quota T :=
  requested.foldl (GFEXExanicQuota.subscribeInst zero s) (GFEXExanicQuota.loadJsonCfg zero insts)

def SSEQuota.prepared (insts : InstSet) (requested : List Bytes) : Quota T :=
  requested.foldl (SSEQuota.subscribeInst zero s) (SSEQuota.init zero insts)

end Caches

/-- The codes `InitOnce` was called for. -/
def loaded (insts : InstSet) (requested : List Bytes) : List Bytes :=
  insts.codes ++ requested.filter (· ∉ insts.codes)

/-- `Find` returns an entry, and no other has the key of the code. -/
def FoundOnce {T : Type} (data : List (Nat × T)) (code : Bytes) : Prop :=
  (∃ i, find data code = some i) ∧ (data.map Prod.fst).count (charsToUint128 code) = 1

/-! ## What is loaded -/

section Prepared

variable {T : Type} {zero : T} {s : StdSort T}

theorem prepared_append (insts : InstSet) (requested : List Bytes) (code : Bytes) :
    prepared zero s insts (requested ++ [code]) = subscribe zero s (prepared zero s insts requested) code := by
  simp [prepared]

theorem prepared_instSet (insts : InstSet) (requested : List Bytes) :
    (prepared zero s insts requested).instSet = insts := by
  induction requested using List.reverseRecOn with
  | nil => rfl
  | append_singleton requested code ih => rw [prepared_append, subscribe, ih]

theorem load_keys (insts : InstSet) : (load zero insts).mQuotaCache.map Prod.fst = insts.codes.map charsToUint128 := by
  simp [load, DceReceiver.foldl_initOnce_keys]

theorem prepared_keys (insts : InstSet) (requested : List Bytes) :
    ((prepared zero s insts requested).mQuotaCache.map Prod.fst).Perm
      ((loaded insts requested).map charsToUint128) := by
  induction requested using List.reverseRecOn with
  | nil =>
    rw [loaded, List.filter_nil, List.append_nil]
    exact .of_eq (load_keys insts)
  | append_singleton requested code ih =>
    rw [prepared_append, subscribe]
    refine ((s.perm _).map Prod.fst).trans ?_
    rw [prepared_instSet]
    by_cases hin : code ∈ insts.codes
    · simpa [loaded, List.filter_append, hin] using ih
    · simpa [loaded, List.filter_append, hin, initOnce] using ih.append_right [charsToUint128 code]

/-- Once `subscribe_inst` was called the entries are sorted. -/
theorem prepared_sorted (insts : InstSet) {requested : List Bytes} (h : requested ≠ []) :
    (prepared zero s insts requested).mQuotaCache.Pairwise fun a b => a.1 ≤ b.1 := by
  cases requested using List.reverseRecOn with
  | nil => exact absurd rfl h
  | append_singleton requested code =>
    rw [prepared_append]
    exact s.sorted _

theorem prepared_count (insts : InstSet) (requested : List Bytes) (code : Bytes) :
    ((prepared zero s insts requested).mQuotaCache.map Prod.fst).count (charsToUint128 code) =
      (loaded insts requested).countP fun c => padded c = padded code := by
  rw [(prepared_keys insts requested).count_eq, List.count, List.countP_map]
  congr 1
  funext c
  simp only [Function.comp, ← charsToUint128_eq_iff]
  rfl

end Prepared

/-! ## What is found -/

/-- Where the search of `Find` ended. -/
theorem lowerBound_of_find {T : Type} {data : List (Nat × T)} {code : Bytes} {i : Nat} (h : find data code = some i) :
    lowerBound (below data (charsToUint128 code)) 0 data.length = i := by
  unfold find at h
  dsimp only at h
  split at h
  · exact Option.some.inj h
  · cases h

/-- Entries each of which is found by its key, and that have keys of their own, are in the
order of the keys. -/
theorem ascending_of_find {T : Type} {data : List (Nat × T)} {codes : List Bytes}
    (hkeys : data.map Prod.fst = codes.map charsToUint128) (h : ∀ code ∈ codes, FoundOnce data code) :
    (codes.map charsToUint128).Pairwise (· < ·) := by
  have hlen : data.length = codes.length := by simpa using congrArg List.length hkeys
  have hnodup : (data.map Prod.fst).Nodup := by
    rw [List.nodup_iff_count_eq_one]
    intro k hk
    rw [hkeys] at hk
    obtain ⟨code, hcode, rfl⟩ := List.mem_map.mp hk
    exact (h code hcode).2
  let value := fun p => (data.map Prod.fst).getD p 0
  have hvalue : ∀ p, p < data.length → (data.map Prod.fst)[p]? = some (value p) := by
    intro p hp
    simp [value, hp]
  have hbelow : ∀ k p, p < data.length → below data k p = decide (value p < k) := by
    intro k p hp
    simp [below, value, hp]
  have hfound : ∀ i, 0 ≤ i → i < 0 + data.length →
      lowerBound (fun p => decide (value p < value i)) 0 data.length = i := by
    intro i _ hi
    have hcode : i < codes.length := by omega
    have hkey : value i = charsToUint128 codes[i] := by
      have := hvalue i (by omega)
      rw [hkeys] at this
      simpa [hcode] using this.symm
    obtain ⟨j, hj⟩ := (h codes[i] (List.getElem_mem _)).1
    have hsame : (data.map Prod.fst)[i]? = (data.map Prod.fst)[j]? := by
      rw [hvalue i (by omega), List.getElem?_map, find_eq_some hj, hkey]
    -- the entry found has the key of the one at `i`, and no other has it
    obtain rfl : i = j := (List.getElem?_inj (by simpa using hlen ▸ hcode) hnodup).mp hsame
    refine (lowerBound_congr fun p _ hp => ?_).trans (lowerBound_of_find hj)
    rw [hbelow _ p (by omega), hkey]
  rw [← hkeys, List.pairwise_iff_getElem]
  intro i j hi hj hij
  rw [List.length_map] at hi hj
  have hlt := ascending_of_lowerBound hfound i j (by omega) hij (by omega)
  simpa [value, hi, hj] using hlt

/-- Sorted entries are found. -/
theorem find_of_sorted {T : Type} {data : List (Nat × T)} (hsorted : data.Pairwise fun a b => a.1 ≤ b.1)
    {code : Bytes} (h : charsToUint128 code ∈ data.map Prod.fst) : ∃ i, find data code = some i :=
  (find_isSome_iff ⟨data, hsorted⟩ code).mpr h

theorem mem_loaded {insts : InstSet} {requested : List Bytes} {code : Bytes} :
    code ∈ loaded insts requested ↔ code ∈ insts.codes ++ requested := by
  simp only [loaded, List.mem_append, List.mem_filter, decide_eq_true_eq]
  by_cases h : code ∈ insts.codes <;> simp [h]

/-- Once the codes are sorted, or if they are loaded in the order of their keys, those with a
key of their own are found. -/
theorem prepared_foundOnce_iff {T : Type} {zero : T} {s : StdSort T} {insts : InstSet} {requested : List Bytes}
    (h : requested = [] → (insts.codes.map charsToUint128).Pairwise (· < ·)) {code : Bytes}
    (hcode : code ∈ insts.codes ++ requested) :
    FoundOnce (prepared zero s insts requested).mQuotaCache code ↔
      (loaded insts requested).countP (fun c => padded c = padded code) = 1 := by
  rw [FoundOnce, prepared_count, and_iff_right_iff_imp]
  intro _
  have hmem : charsToUint128 code ∈ (prepared zero s insts requested).mQuotaCache.map Prod.fst :=
    (prepared_keys insts requested).mem_iff.mpr (List.mem_map_of_mem (mem_loaded.mpr hcode))
  by_cases hreq : requested = []
  · subst hreq
    refine find_of_sorted ?_ hmem
    have hkeys : ((load zero insts).mQuotaCache.map Prod.fst).Pairwise (· < ·) := by
      rw [load_keys]
      exact h rfl
    exact (List.pairwise_map.mp hkeys).imp Nat.le_of_lt
  · exact find_of_sorted (prepared_sorted insts hreq) hmem

/-- `subscribe_inst` was called, or the set has the codes in the order of their keys. -/
def InOrder (insts : InstSet) (requested : List Bytes) : Prop :=
  requested = [] → (insts.codes.map charsToUint128).Pairwise (· < ·)

theorem all_foundOnce_iff {T : Type} {zero : T} {s : StdSort T} {insts : InstSet} {requested codes : List Bytes}
    (hcodes : codes = insts.codes ∨ codes = insts.codes ++ requested) :
    (∀ code ∈ codes, FoundOnce (prepared zero s insts requested).mQuotaCache code) ↔
      InOrder insts requested ∧
        ∀ code ∈ codes, (loaded insts requested).countP (fun c => padded c = padded code) = 1 := by
  have hsub : ∀ code ∈ codes, code ∈ insts.codes ++ requested := by
    rcases hcodes with rfl | rfl
    · exact fun code h => List.mem_append_left _ h
    · exact fun code h => h
  have hsup : ∀ code ∈ insts.codes, code ∈ codes := by
    rcases hcodes with rfl | rfl
    · exact fun code h => h
    · exact fun code h => List.mem_append_left _ h
  constructor
  · intro h
    have horder : InOrder insts requested := by
      rintro rfl
      exact ascending_of_find (load_keys insts) fun code hcode => h code (hsup code hcode)
    exact ⟨horder, fun code hcode => (prepared_foundOnce_iff horder (hsub code hcode)).mp (h code hcode)⟩
  · intro ⟨horder, h⟩ code hcode
    exact (prepared_foundOnce_iff horder (hsub code hcode)).mpr (h code hcode)

/-- **Exact condition**, in both programs, for the configured codes and for these and the
subscribed ones: every code is found and has one entry if and only if `subscribe_inst` was
called or the set has the codes in the order of their keys, and one loaded code has the key
of each of them. -/
theorem configured_found_iff {T : Type} (zero : T) (s : StdSort T) (insts : InstSet) (requested : List Bytes) :
    ∀ q ∈ [GFEXExanicQuota.prepared zero s insts requested, SSEQuota.prepared zero s insts requested],
    ∀ codes ∈ [insts.codes, insts.codes ++ requested],
      (∀ code ∈ codes, FoundOnce q.mQuotaCache code) ↔
        InOrder insts requested ∧
          ∀ code ∈ codes, (loaded insts requested).countP (fun c => padded c = padded code) = 1 := by
  intro q hq codes hcodes
  obtain rfl : q = prepared zero s insts requested := by
    simp only [List.mem_cons, List.not_mem_nil, or_false] at hq
    exact hq.elim id id
  exact all_foundOnce_iff (by simpa using hcodes)

def lc2602 : Bytes := [0x6c, 0x63, 0x32, 0x36, 0x30, 0x32]

def si2601 : Bytes := [0x73, 0x69, 0x32, 0x36, 0x30, 0x31]

def sampleSet : InstSet := ⟨[lc2602, si2601], by decide⟩

def sampleSort : StdSort Nat := insertionSort id fun _ => .refl _

/-- A call of `subscribe_inst` puts them in order. -/
theorem configured_found_subscribed :
    FoundOnce (GFEXExanicQuota.prepared 0 sampleSort sampleSet [lc2602]).mQuotaCache lc2602 ∧
      FoundOnce (GFEXExanicQuota.prepared 0 sampleSort sampleSet [lc2602]).mQuotaCache si2601 := by
  have hfound := (configured_found_iff 0 sampleSort sampleSet [lc2602] _ List.mem_cons_self _
    List.mem_cons_self).mpr ⟨nofun, by decide +kernel⟩
  exact ⟨hfound lc2602 (by simp [sampleSet]), hfound si2601 (by simp [sampleSet])⟩

/-- **Counterexample.** In both programs a configured code is not found before `subscribe_inst` is
called. -/
theorem configured_not_found :
    ¬ ∀ insts : InstSet, ∀ code ∈ insts.codes,
      (∃ i, find (GFEXExanicQuota.loadJsonCfg 0 insts).mQuotaCache code = some i) ∨
      ∃ i, find (SSEQuota.init 0 insts).mQuotaCache code = some i := by
  intro h
  have hnone : find (load 0 sampleSet).mQuotaCache lc2602 = none := by decide +kernel
  rcases h sampleSet lc2602 (by simp [sampleSet]) with ⟨i, hi⟩ | ⟨i, hi⟩
  · cases hnone.symm.trans hi
  · cases hnone.symm.trans hi

end MdInfoSet.L4.InstrumentLoading
