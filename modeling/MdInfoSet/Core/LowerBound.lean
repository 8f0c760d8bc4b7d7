import Mathlib.Data.List.Basic
import Mathlib.Data.UInt

/-!
# Binary search over a range

`lowerBound below first len` is `std::lower_bound` on the positions from `first` on,
`below i` saying that the element at `i` is ordered before the value looked for. On a
range that is partitioned (nothing below behind something that is not) it returns the
end of the part that is below (`lowerBound_spec`). Values each of which is found at its
own position are ascending (`ascending_of_lowerBound`).
-/
namespace MdInfoSet

/-- The loop of `std::lower_bound`. -/
def lowerBound (below : Nat → Bool) (first len : Nat) : Nat :=
  if len = 0 then first
  else
    let half := len / 2
    if below (first + half) then lowerBound below (first + half + 1) (len - half - 1)
    else lowerBound below first half
termination_by len
decreasing_by all_goals omega

/-- The positions `first`, …, `first + len - 1` that are below come first. -/
def Partitioned (below : Nat → Bool) (first len : Nat) : Prop :=
  ∀ i j, first ≤ i → i ≤ j → j < first + len → below j = true → below i = true

theorem Partitioned.mono {below : Nat → Bool} {first len first' len' : Nat}
    (h : Partitioned below first len) (h1 : first ≤ first') (h2 : first' + len' ≤ first + len) :
    Partitioned below first' len' :=
  fun i j hi hij hj => h i j (by omega) hij (by omega)

theorem lowerBound_right {below : Nat → Bool} {first len : Nat} (hlen : len ≠ 0)
    (h : below (first + len / 2) = true) :
    lowerBound below first len = lowerBound below (first + len / 2 + 1) (len - len / 2 - 1) := by
  rw [lowerBound, if_neg hlen]
  exact if_pos h

theorem lowerBound_left {below : Nat → Bool} {first len : Nat} (hlen : len ≠ 0)
    (h : ¬ below (first + len / 2) = true) :
    lowerBound below first len = lowerBound below first (len / 2) := by
  rw [lowerBound, if_neg hlen]
  exact if_neg h

/-- Below are exactly the positions before the one returned. -/
theorem lowerBound_spec {below : Nat → Bool} {first len : Nat} (h : Partitioned below first len) :
    first ≤ lowerBound below first len ∧ lowerBound below first len ≤ first + len ∧
      ∀ i, first ≤ i → i < first + len → (below i = true ↔ i < lowerBound below first len) := by
  induction first, len using lowerBound.induct below with
  | case1 first =>
    rw [lowerBound, if_pos rfl]
    exact ⟨Nat.le_refl _, Nat.le_refl _, fun i h1 h2 => absurd h2 (by omega)⟩
  | case2 first len hlen half hmid ih =>
    have hhalf : half = len / 2 := rfl
    obtain ⟨hl, hu, hspec⟩ := ih (h.mono (by omega) (by omega))
    rw [lowerBound_right hlen hmid, ← hhalf]
    refine ⟨by omega, by omega, fun i h1 h2 => ?_⟩
    by_cases hi : i ≤ first + half
    · exact ⟨fun _ => by omega, fun _ => h i _ h1 hi (by omega) hmid⟩
    · exact hspec i (by omega) (by omega)
  | case3 first len hlen half hmid ih =>
    have hhalf : half = len / 2 := rfl
    obtain ⟨hl, hu, hspec⟩ := ih (h.mono (by omega) (by omega))
    rw [lowerBound_left hlen hmid, ← hhalf]
    refine ⟨hl, by omega, fun i h1 h2 => ?_⟩
    by_cases hi : i < first + half
    · exact hspec i h1 hi
    · exact ⟨fun hb => absurd (h _ i (by omega) (by omega) h2 hb) hmid, fun hlt => by omega⟩

/-- The search asks about the positions of the range only. -/
theorem lowerBound_congr {below below' : Nat → Bool} {first len : Nat}
    (h : ∀ i, first ≤ i → i < first + len → below i = below' i) :
    lowerBound below first len = lowerBound below' first len := by
  induction first, len using lowerBound.induct below with
  | case1 first => rw [lowerBound, lowerBound, if_pos rfl, if_pos rfl]
  | case2 first len hlen half hmid ih =>
    have hhalf : half = len / 2 := rfl
    have hmid' : below' (first + len / 2) = true := h (first + len / 2) (by omega) (by omega) ▸ hmid
    rw [lowerBound_right hlen hmid, lowerBound_right hlen hmid']
    exact ih fun i h1 h2 => h i (by omega) (by omega)
  | case3 first len hlen half hmid ih =>
    have hhalf : half = len / 2 := rfl
    have hmid' : ¬ below' (first + len / 2) = true := h (first + len / 2) (by omega) (by omega) ▸ hmid
    rw [lowerBound_left hlen hmid, lowerBound_left hlen hmid']
    exact ih fun i h1 h2 => h i (by omega) (by omega)

/-- The search stays in the range, sorted or not. -/
theorem lowerBound_bounds (below : Nat → Bool) (first len : Nat) :
    first ≤ lowerBound below first len ∧ lowerBound below first len ≤ first + len := by
  induction first, len using lowerBound.induct below with
  | case1 first =>
    rw [lowerBound, if_pos rfl]
    exact ⟨Nat.le_refl _, Nat.le_refl _⟩
  | case2 first len hlen half hmid ih =>
    have hhalf : half = len / 2 := rfl
    rw [lowerBound_right hlen hmid, ← hhalf]
    omega
  | case3 first len hlen half hmid ih =>
    have hhalf : half = len / 2 := rfl
    rw [lowerBound_left hlen hmid, ← hhalf]
    omega

/-- The searches for the values of a range, each of which ends at the position of its value:
they part at the middle, so that what stands before it is not greater and what stands
behind it is greater. -/
theorem ascending_of_lowerBound {value : Nat → Nat} {first len : Nat}
    (h : ∀ i, first ≤ i → i < first + len → lowerBound (fun p => value p < value i) first len = i) :
    ∀ i j, first ≤ i → i < j → j < first + len → value i < value j := by
  induction len using Nat.strongRecOn generalizing first with
  | ind len ih =>
    intro i j hi hij hj
    have hlen : len ≠ 0 := by omega
    have hright : ∀ k, first + len / 2 < k → k < first + len → value (first + len / 2) < value k ∧
        lowerBound (fun p => value p < value k) (first + len / 2 + 1) (len - len / 2 - 1) = k := by
      intro k hk hk'
      have hfound := h k (by omega) hk'
      by_cases hmid : value (first + len / 2) < value k
      · exact ⟨hmid, by rw [← lowerBound_right hlen (by simpa using hmid), hfound]⟩
      · rw [lowerBound_left hlen (by simpa using hmid)] at hfound
        have := (lowerBound_bounds (fun p => value p < value k) first (len / 2)).2
        omega
    have hleft : ∀ k, first ≤ k → k < first + len / 2 → value k ≤ value (first + len / 2) ∧
        lowerBound (fun p => value p < value k) first (len / 2) = k := by
      intro k hk hk'
      have hfound := h k hk (by omega)
      by_cases hmid : value (first + len / 2) < value k
      · rw [lowerBound_right hlen (by simpa using hmid)] at hfound
        have := (lowerBound_bounds (fun p => value p < value k) (first + len / 2 + 1) (len - len / 2 - 1)).1
        omega
      · exact ⟨Nat.le_of_not_lt hmid, by rw [← lowerBound_left hlen (by simpa using hmid), hfound]⟩
    -- values of two positions are different, since one search has one end
    have hne : value i ≠ value j := by
      intro he
      have hi' := h i hi (by omega)
      rw [he, h j (by omega) hj] at hi'
      omega
    by_cases hjm : j < first + len / 2
    · exact ih (len / 2) (by omega) (fun k hk hk' => (hleft k hk hk').2) i j hi hij hjm
    · by_cases him : first + len / 2 < i
      · exact ih (len - len / 2 - 1) (by omega) (fun k hk hk' => (hright k (by omega) (by omega)).2) i j (by omega) hij
          (by omega)
      · have hlow : value i ≤ value (first + len / 2) := by
          rcases Nat.lt_or_eq_of_le (Nat.le_of_not_lt him) with hlt | rfl
          · exact (hleft i hi hlt).1
          · exact Nat.le_refl _
        rcases Nat.lt_or_eq_of_le (Nat.le_of_not_lt hjm) with hlt | heq
        · exact Nat.lt_of_le_of_lt hlow (hright j hlt hj).1
        · rw [← heq] at hne ⊢
          exact Nat.lt_of_le_of_ne hlow hne

end MdInfoSet
