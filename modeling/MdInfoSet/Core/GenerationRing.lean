import Mathlib.Data.UInt
import Mathlib.Order.Monotone.Defs

/-!
# A ring that one writer fills lap after lap, with a generation on each slot

The writer never waits. The item it writes as number `p` (its *position*) goes to slot
`p % n` and carries the generation `p / n`, of which a byte is kept. Once it has written the
positions below `w`, slot `i` holds the position `newest n w i`: the last one below `w` that
belongs there.

A reader sees a slot and its generation only. It tells positions of one slot apart as long
as they are less than 256 laps from each other (`generation_inj`), and so knows, from the
generation in the slot of the position `p` it waits for, whether `p` is there
(`Behind.here`), not yet there (`Behind.not_yet`), or already gone. That position `s` still
stands says that nothing behind it has been touched (`Behind.stands`).
-/
namespace MdInfoSet.GenerationRing

variable {n w i p q : Nat}

/-- The position that slot `i` holds when the positions below `w` are written. -/
def newest (n w i : Nat) : Nat := i + n * ((w - 1 - i) / n)

/-- The generation the item at position `p` carries. -/
def generation (n p : Nat) : UInt8 := UInt8.ofNat (p / n)

theorem newest_mod (hi : i < n) : newest n w i % n = i := by
  rw [newest, Nat.add_mul_mod_self_left, Nat.mod_eq_of_lt hi]

theorem newest_lt (hi : i < w) : newest n w i < w := by
  have := Nat.mul_div_le (w - 1 - i) n
  rw [newest]
  omega

/-- Nothing in the ring is more than a lap old. -/
theorem le_newest_add (hi : i < n) : w ≤ newest n w i + n := by
  have := Nat.lt_mul_div_succ (w - 1 - i) (show 0 < n by omega)
  rw [Nat.mul_succ] at this
  rw [newest]
  omega

/-- What is written stays until it is written over. -/
theorem le_newest (hp : p < w) : p ≤ newest n w (p % n) := by
  have hdiv := Nat.div_add_mod p n
  have hle : n * (p / n) ≤ n * ((w - 1 - p % n) / n) := by
    rcases Nat.eq_zero_or_pos n with rfl | hn
    · simp
    · refine Nat.mul_le_mul_left n ((Nat.le_div_iff_mul_le hn).mpr ?_)
      rw [Nat.mul_comm]
      omega
  rw [newest]
  omega

/-- Two positions of one slot are a whole number of laps apart. -/
theorem exists_laps (hmod : p % n = q % n) (hle : p ≤ q) : ∃ j, q = p + n * j := by
  obtain ⟨j, hj⟩ := (Nat.modEq_iff_dvd' hle).mp hmod
  exact ⟨j, by omega⟩

/-- A position is in its slot from when it is written until the one a lap later is. -/
theorem newest_eq (hn : 0 < n) (hp : p < w) (hw : w ≤ p + n) : newest n w (p % n) = p := by
  have hi := Nat.mod_lt p hn
  have hle := le_newest (n := n) hp
  obtain ⟨j, hj⟩ := exists_laps (newest_mod (w := w) hi).symm hle
  rcases j with _ | j
  · omega
  · have hlt := newest_lt (n := n) (Nat.lt_of_le_of_lt (Nat.mod_le p n) hp)
    rw [Nat.mul_succ] at hj
    omega

/-- The slot the writer is at is that of no position still in the ring. -/
theorem mod_ne (hp : p < w) (hw : w < p + n) : p % n ≠ w % n := by
  intro hmod
  obtain ⟨j, rfl⟩ := exists_laps hmod (Nat.le_of_lt hp)
  rcases j with _ | j
  · omega
  · rw [Nat.mul_succ] at hw
    omega

/-! ## Generations -/

theorem generation_add (hn : 0 < n) (p j : Nat) : generation n (p + n * j) = generation n p + UInt8.ofNat j := by
  rw [generation, generation, Nat.add_mul_div_left _ _ hn, UInt8.ofNat_add]

theorem generation_inj (hn : 0 < n) (hmod : p % n = q % n) (hle : p ≤ q) (hlt : q < p + 256 * n)
    (hg : generation n p = generation n q) : p = q := by
  obtain ⟨j, rfl⟩ := exists_laps hmod hle
  have hj : j < 256 := by
    by_contra h
    have := Nat.mul_le_mul_left n (show 256 ≤ j by omega)
    omega
  rw [generation_add hn, left_eq_add] at hg
  have h0 : j % 256 = 0 := by simpa using congrArg UInt8.toNat hg
  obtain rfl : j = 0 := by omega
  simp

/-- The step from a position to the one after it: a new generation where the slots start over. -/
theorem generation_succ (hn : 0 < n) :
    ((p + 1) % n = if p % n + 1 = n then 0 else p % n + 1) ∧
      generation n (p + 1) = if p % n + 1 = n then generation n p + 1 else generation n p := by
  have hdiv := Nat.div_add_mod p n
  have hi := Nat.mod_lt p hn
  split
  · rename_i hend
    have hp : p + 1 = n * (p / n + 1) := by rw [Nat.mul_succ]; omega
    refine ⟨by rw [hp, Nat.mul_mod_right], ?_⟩
    rw [generation, hp, Nat.mul_div_cancel_left _ hn, UInt8.ofNat_add]
    rfl
  · rename_i hend
    have hp : p + 1 = p % n + 1 + n * (p / n) := by omega
    refine ⟨by rw [hp, Nat.add_mul_mod_self_left, Nat.mod_eq_of_lt (by omega)], ?_⟩
    rw [generation, generation, hp, Nat.add_mul_div_left _ _ hn, Nat.div_eq_of_lt (by omega), Nat.zero_add]

/-! ## What a generation tells the reader -/

/-- Position `p` is next for a reader: all before it is written, and the writer is not 255 laps ahead. -/
structure Behind (n w p : Nat) : Prop where
  pos : 0 < n
  lap : n ≤ p
  le : p ≤ w
  lt : w < p + 255 * n

section Behind

variable (h : Behind n w p)

include h

theorem Behind.newest_ge : p ≤ newest n w (p % n) + n := by
  have := le_newest_add (w := w) (Nat.mod_lt p h.pos)
  have := h.le
  omega

theorem Behind.newest_lt : newest n w (p % n) < p + 255 * n := by
  have hi := Nat.mod_lt p h.pos
  have := GenerationRing.newest_lt (n := n) (Nat.lt_of_lt_of_le hi (Nat.le_trans h.lap h.le))
  have := h.lt
  omega

/-- The generation of `p` in its slot: `p` is there. -/
theorem Behind.here (hg : generation n (newest n w (p % n)) = generation n p) :
    newest n w (p % n) = p ∧ p < w := by
  have hi := Nat.mod_lt p h.pos
  have hge := h.newest_ge
  have hlt := h.newest_lt
  have hmod := newest_mod (w := w) hi
  have heq : newest n w (p % n) = p := by
    rcases Nat.le_total p (newest n w (p % n)) with hle | hle
    · exact (generation_inj h.pos hmod.symm hle (by omega) hg.symm).symm
    · exact generation_inj h.pos hmod hle (by have := h.pos; omega) hg
  refine ⟨heq, ?_⟩
  have := GenerationRing.newest_lt (n := n) (Nat.lt_of_lt_of_le hi (Nat.le_trans h.lap h.le))
  omega

/-- The generation before that: nothing has been written at or after `p`. -/
theorem Behind.not_yet (hg : generation n (newest n w (p % n)) = generation n p - 1) : w = p := by
  have hi := Nat.mod_lt p h.pos
  have hge := h.newest_ge
  have hlt := h.newest_lt
  have hmod := newest_mod (w := w) hi
  have hp : generation n p = generation n (p - n) + 1 := by
    have := generation_add h.pos (p - n) 1
    rwa [Nat.mul_one, Nat.sub_add_cancel h.lap] at this
  have hmod' : (p - n) % n = p % n := by
    have := Nat.add_mod_right (p - n) n
    rwa [Nat.sub_add_cancel h.lap, eq_comm] at this
  have heq : p - n = newest n w (p % n) := by
    refine generation_inj h.pos (hmod'.trans hmod.symm) (by omega) (by have := h.lap; omega) ?_
    rw [hg, hp]
    simp
  have := le_newest_add (w := w) hi
  have := h.lap
  have := h.le
  omega

/-- Neither: `p` is written over. -/
theorem Behind.gone (hne : generation n (newest n w (p % n)) ≠ generation n p)
    (hne' : generation n (newest n w (p % n)) ≠ generation n p - 1) : p + n < w := by
  by_contra hle
  rcases Nat.lt_or_ge p w with hlt | hge
  · exact hne (by rw [newest_eq h.pos hlt (by omega)])
  · have hw : w = p := Nat.le_antisymm hge h.le
    have heq : newest n w (p % n) = p - n := by
      have hmod' : (p - n) % n = p % n := by
        have := Nat.add_mod_right (p - n) n
        rwa [Nat.sub_add_cancel h.lap, eq_comm] at this
      have := h.pos
      have := h.lap
      rw [← hmod']
      exact newest_eq h.pos (by omega) (by omega)
    apply hne'
    have := generation_add h.pos (p - n) 1
    rw [Nat.mul_one, Nat.sub_add_cancel h.lap] at this
    rw [heq, this]
    simp

end Behind

/-- A written position whose generation its slot still shows is still there. -/
theorem stands (hn : 0 < n) (hp : p < w) (hw : w ≤ p + 256 * n)
    (hg : generation n (newest n w (p % n)) = generation n p) : w ≤ p + n := by
  have hi := Nat.mod_lt p hn
  have hle := le_newest (n := n) hp
  have hlt := newest_lt (n := n) (Nat.lt_of_le_of_lt (Nat.mod_le p n) hp)
  have heq := generation_inj hn (newest_mod (w := w) hi).symm hle (by omega) hg.symm
  have := le_newest_add (w := w) hi
  omega

end MdInfoSet.GenerationRing
