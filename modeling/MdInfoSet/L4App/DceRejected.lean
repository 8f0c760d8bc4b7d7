import MdInfoSet.Core.Binary64Normal
import MdInfoSet.L4App.DceFilter

/-!
# Rejected DCE quotes

What `OnNanoDceL1Md` and `OnNanoDceL2ContractBestPriceMd`
(src/nano_febao_dce/src/dce_nano.cpp:597-646, 648-703) do to the entry of the instrument when
`IsValidQuota` returns TIME_ERROR or VOL_ERROR. The filter leaves the entry alone, and both
handlers return before they write to it, except for the line

    if (unlikely((!(cache->open > 0)) && msgdata.last_price != DBL_MAX && msgdata.last_price >0)){

which the first handler has before the call of the filter and the second before it looks at
the verdict.

**Exact condition.** The whole entry is as before exactly if that line does not fire
(`rejected_keeps_entry_iff`).

**Counterexample.** A quote without a price is accepted, and the older one behind it is
rejected and opens the day (`rejected_opens`).
-/
namespace MdInfoSet.L4.DceFilter

open MdInfoSet.Binary64 MdInfoSet.L4.Filter

/-! ## The line before the check -/

/-- The entry has no open price and the message has a price. -/
def Msg.SetsOpen (cache : QuotaInfo) : Msg → Prop
  | .l1 m => ¬ (cache.open' > 0) ∧ (Float.ofInt m.lastPrice.toInt != dblMax) = true ∧ m.lastPrice > 0
  | .l2 m => ¬ (cache.open' > 0) ∧ (m.lastPrice != dblMax) = true ∧ m.lastPrice > 0

instance (cache : QuotaInfo) : ∀ m : Msg, Decidable (m.SetsOpen cache)
  | .l1 _ => inferInstanceAs (Decidable (_ ∧ _ ∧ _))
  | .l2 _ => inferInstanceAs (Decidable (_ ∧ _ ∧ _))

/-- The open price that the line writes. -/
def Msg.openPrice : Msg → Float
  | .l1 m => price m.lastPrice
  | .l2 m => m.lastPrice

/-- The message is rejected. -/
def Msg.Rejected (cache : QuotaInfo) (m : Msg) : Prop :=
  m.verdict cache = .timeError ∨ m.verdict cache = .volError

theorem isNormal_tenThousand : IsNormal 10000.0 (-39) := ⟨10000 * 2 ^ 39, by decide, rfl, by decide +kernel⟩

/-- A positive price is still positive in the unit of the entry. -/
theorem price_pos {p : Int64} (hp : p > 0) : 0 < price p := by
  have hpos : 0 < p.toInt := Int64.lt_iff_toInt_lt.mp hp
  have hlt : p.toInt < 2 ^ 63 := p.toInt_lt
  obtain ⟨n, hn⟩ : ∃ n : Nat, p.toInt = n := ⟨p.toInt.toNat, by omega⟩
  obtain ⟨e, he, hlo, hhi⟩ := isNormal_ofNat (show n ≠ 0 by omega) (show n < 2 ^ 64 by omega)
  obtain ⟨d, hd, -⟩ := he.div isNormal_tenThousand (by omega) (by omega)
  have hprice : price p = Float.ofNat n / 10000.0 := by
    rw [price, hn]
    rfl
  exact hprice ▸ hd.pos

theorem openPrice_pos {cache : QuotaInfo} {m : Msg} (h : m.SetsOpen cache) : 0 < m.openPrice := by
  cases m with
  | l1 m => exact price_pos h.2.2
  | l2 m => exact h.2.2

/-! ## One rejected message -/

/-- The two rejections that come before the comparison of the prices touch nothing. -/
theorem isValidQuota_errors {cache : QuotaInfo} {extime vol : UInt64} {level : UInt32} {ap1 bp1 : Float}
    {av1 bv1 : UInt32} (h : (isValidQuota cache extime vol level ap1 bp1 av1 bv1).1 = .timeError ∨
      (isValidQuota cache extime vol level ap1 bp1 av1 bv1).1 = .volError) :
    (isValidQuota cache extime vol level ap1 bp1 av1 bv1).2 = cache := by
  unfold isValidQuota at h ⊢
  dsimp only at h ⊢
  by_cases hl : cache.level ≠ 0
  · rw [if_pos hl] at h ⊢
    by_cases ht : extime < cache.time
    · rw [if_pos ht]
    · by_cases hv : vol < cache.volume
      · rw [if_neg ht, if_pos hv]
      · by_cases hb : SameBest cache vol ap1 bp1 av1 bv1
        · by_cases h5 : level = 5
          · simp [ht, hv, hb, h5] at h
          · simp [ht, hv, hb, h5] at h
        · simp [ht, hv, hb] at h
  · rw [if_neg hl] at h
    simp at h

/-- What a rejected message leaves in the entry. -/
theorem handle_rejected_cache {r : Receiver} {m : Msg} (h : m.Rejected r.cache) :
    (handle r m).cache = if m.SetsOpen r.cache then { r.cache with open' := m.openPrice } else r.cache := by
  cases m with
  | l1 m =>
    rw [handle, onNanoDceL1Md_cache, validL1, isValidQuota_errors h, fillOpenL1]
    rfl
  | l2 m =>
    have hvalid : (validL2 r.cache m).2 = r.cache := isValidQuota_errors h
    have hcache : (onNanoDceL2ContractBestPriceMd r m).cache = fillOpenL2 r.cache m := by
      rw [onNanoDceL2ContractBestPriceMd_cache, hvalid]
      rcases h with hv | hv
      · rw [show (validL2 r.cache m).1 = .timeError from hv]
      · rw [show (validL2 r.cache m).1 = .volError from hv]
    rw [handle, hcache, fillOpenL2]
    rfl

/-- **Exact condition.** -/
theorem rejected_keeps_entry_iff {r : Receiver} {m : Msg} (h : m.Rejected r.cache) :
    (handle r m).cache = r.cache ↔ ¬ m.SetsOpen r.cache := by
  rw [handle_rejected_cache h]
  by_cases hset : m.SetsOpen r.cache
  · rw [if_pos hset]
    refine iff_of_false (fun he => ?_) (not_not_intro hset)
    -- the price written is positive, and the one before was not
    have hopen : m.openPrice = r.cache.open' := congrArg QuotaInfo.open' he
    have hunset : ¬ r.cache.open' > 0 := by
      cases m with
      | l1 m => exact hset.1
      | l2 m => exact hset.1
    exact hunset (hopen ▸ openPrice_pos hset)
  · rw [if_neg hset]
    exact iff_of_true rfl hset

/-- The receiver after a level-1 quote of 2 s that has no price yet. -/
def unpriced : Receiver := onNanoDceL1Md Receiver.start ⟨2000000000, 0, 10, 1220000, 3, 1240000, 4⟩

/-- A quote of 1 s with a price. -/
def older : Msg := .l1 ⟨1000000000, 1230000, 9, 1220000, 3, 1240000, 4⟩

/-- With the open price there already, the older quote leaves no trace. -/
theorem rejected_keeps_entry_iff_opened :
    (handle { unpriced with cache := { unpriced.cache with open' := 122.0 } } older).cache =
        { unpriced.cache with open' := 122.0 } ↔
      ¬ older.SetsOpen { unpriced.cache with open' := 122.0 } :=
  rejected_keeps_entry_iff (r := { unpriced with cache := { unpriced.cache with open' := 122.0 } }) (m := older)
    (.inl (by decide +kernel))

/-- **Counterexample.** -/
theorem rejected_opens : older.verdict unpriced.cache = .timeError ∧ (unpriced.cache.open' == 0) = true ∧
    ((handle unpriced older).cache.open' == 123) = true ∧ (handle unpriced older).cache ≠ unpriced.cache := by
  have hverdict : older.verdict unpriced.cache = .timeError := by decide +kernel
  have hbefore : (unpriced.cache.open' == 0) = true := by decide +kernel
  have hafter : ((handle unpriced older).cache.open' == 123) = true := by decide +kernel
  refine ⟨hverdict, hbefore, hafter, fun he => ?_⟩
  rw [he] at hafter
  revert hafter
  decide +kernel

end MdInfoSet.L4.DceFilter
