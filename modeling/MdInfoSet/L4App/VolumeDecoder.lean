import MdInfoSet.L1Encoding.Lv2Quote

/-!
# The volume decoder of `OnData_lv2`

src/dz_gfex_md/src/dz_gfex_md.cpp:493-584. The exchange obfuscates the ten
volumes of a book by one of five schemes
(src/gfex_md_exanic/src/exanic_md.h:391-416) and says which one in `PacketId`;
this decoder does not look at `PacketId` but tries five guards in a fixed order.

* `decodeVolumes_chain`: on a book of ten positive volumes the guards are
  conditions on natural numbers.
* **Exact condition.** For each scheme, `decodeVolumes_iff` says for which true
  volumes the decoder finds them.
-/
namespace MdInfoSet.L4.VolumeDecoder

open MdInfoSet.L1.Lv2Quote

/-- The decoded volumes of both sides. -/
structure Volumes where
  bv : Fin 5 → UInt32
  av : Fin 5 → UInt32
  deriving DecidableEq

/-- `bid_vol_mask` and its three siblings. -/
def volMask (v : Fin 5 → Int32) : Nat :=
  (if v 0 > 0 then 1 else 0) + (if v 1 > 0 then 1 else 0) + (if v 2 > 0 then 1 else 0) +
    (if v 3 > 0 then 1 else 0) + (if v 4 > 0 then 1 else 0)

/-- The sum of remainders the divisibility guards compare with 0. -/
def remSum (v : Fin 5 → Int32) (n : Int32) : Int32 :=
  v 0 % n + v 1 % n + v 2 % n + v 3 % n + v 4 % n

/-- `Volume > k` on all five levels. -/
def allAbove (v : Fin 5 → Int32) (k : Int32) : Prop :=
  v 0 > k ∧ v 1 > k ∧ v 2 > k ∧ v 3 > k ∧ v 4 > k

instance (v : Fin 5 → Int32) (k : Int32) : Decidable (allAbove v k) := by
  unfold allAbove; infer_instance

/-- mirrors src/dz_gfex_md/src/dz_gfex_md.cpp:493-584 -/
def decodeVolumes (bid ask : Fin 5 → Line) : Volumes :=
  let bidVol i := (bid i).volume
  let askVol i := (ask i).volume
  let bidImp i := (bid i).volumeImpl
  let askImp i := (ask i).volumeImpl
  if volMask bidVol < 5 ∧ volMask askVol < 5 then
    { av := if volMask askImp = 5 then fun i => (askImp i).toUInt32 else fun _ => 0
      bv := if volMask bidImp = 5 then fun i => (bidImp i).toUInt32 else fun _ => 0 }
  else if remSum bidVol 3 = 0 ∧ remSum askVol 3 = 0 ∧ volMask bidImp < 5 ∧ volMask askImp < 5 then
    { bv := fun i => (bidVol i / 3).toUInt32, av := fun i => (askVol i / 3).toUInt32 }
  else if allAbove bidVol 376 ∧ allAbove askVol 376 ∧ volMask bidImp < 5 ∧ volMask askImp < 5 then
    { bv := fun i => (bidVol i - 377).toUInt32, av := fun i => (askVol i - 377).toUInt32 }
  else if allAbove bidVol 196 ∧ allAbove askVol 196 ∧ volMask bidImp < 5 ∧ volMask askImp < 5 then
    { bv := fun i => (bidVol i - 197).toUInt32, av := fun i => (askVol i - 197).toUInt32 }
  else if remSum bidVol 2 = 0 ∧ remSum askVol 2 = 0 ∧ volMask bidImp < 5 ∧ volMask askImp < 5 then
    { bv := fun i => (bidVol i / 2).toUInt32, av := fun i => (askVol i / 2).toUInt32 }
  else { bv := fun _ => 0, av := fun _ => 0 }

/-! ## Volumes as natural numbers -/

/-- A positive `int32_t`. -/
structure IsVol (x : Int32) (n : Nat) : Prop where
  toInt : x.toInt = n
  pos : 0 < n

theorem isVol_ofNat {n : Nat} (h0 : 0 < n) (h : n < 2 ^ 31) : IsVol (Int32.ofNat n) n :=
  ⟨Int32.toInt_ofNat_of_lt h, h0⟩

theorem IsVol.lt {x : Int32} {n : Nat} (h : IsVol x n) : n < 2 ^ 31 := by
  have := Int32.toInt_lt x
  rw [h.toInt] at this; omega

theorem IsVol.gt_iff {x : Int32} {n k : Nat} (h : IsVol x n) (hk : k < 2 ^ 31) :
    x > Int32.ofNat k ↔ k < n := by
  rw [gt_iff_lt, Int32.lt_iff_toInt_lt, h.toInt, Int32.toInt_ofNat_of_lt hk]; omega

theorem IsVol.mod {x : Int32} {n k : Nat} (h : IsVol x n) (hk : k < 2 ^ 31) :
    (x % Int32.ofNat k).toInt = ((n % k : Nat) : Int) := by
  rw [Int32.toInt_mod, h.toInt, Int32.toInt_ofNat_of_lt hk]; rfl

theorem IsVol.div {x : Int32} {n k : Nat} (h : IsVol x n) (hk : k < 2 ^ 31) :
    (x / Int32.ofNat k).toUInt32 = UInt32.ofNat (n / k) := by
  have hlt := h.lt
  have hle := Nat.div_le_self n k
  have : x / Int32.ofNat k = Int32.ofNat (n / k) := by
    apply Int32.toInt_inj.mp
    rw [Int32.toInt_div_of_ne_left, h.toInt, Int32.toInt_ofNat_of_lt hk, Int32.toInt_ofNat_of_lt (by omega)]
    · rfl
    · rintro rfl
      have := h.toInt
      simp at this
  rw [this, Int32.toUInt32_ofNat']

theorem IsVol.sub {x : Int32} {n k : Nat} (h : IsVol x n) (hk : k ≤ n) :
    (x - Int32.ofNat k).toUInt32 = UInt32.ofNat (n - k) := by
  have hlt := h.lt
  have : x - Int32.ofNat k = Int32.ofNat (n - k) := by
    apply Int32.toInt_inj.mp
    rw [Int32.toInt_sub_of_le, h.toInt, Int32.toInt_ofNat_of_lt (by omega),
      Int32.toInt_ofNat_of_lt (by omega)]
    · omega
    · rw [Int32.le_iff_toInt_le, Int32.toInt_ofNat_of_lt (by omega)]; simp
    · rw [Int32.le_iff_toInt_le, Int32.toInt_ofNat_of_lt (by omega), h.toInt]; omega
  rw [this, Int32.toUInt32_ofNat']

theorem toInt_add_small {x y : Int32} {m n : Nat} (hx : x.toInt = m) (hy : y.toInt = n)
    (h : m + n < 2 ^ 31) : (x + y).toInt = ((m + n : Nat) : Int) := by
  rw [Int32.toInt_add, hx, hy, Int.bmod_eq_of_le (by omega) (by omega)]
  rfl

theorem volMask_eq_five (v : Fin 5 → Int32) (h : ∀ i, v i > 0) : volMask v = 5 := by
  simp [volMask, h]

/-! ## The chain on positive volumes -/

section Chain

variable {v : Fin 5 → Int32} {n : Fin 5 → Nat}

theorem IsVol.volMask (h : ∀ i, IsVol (v i) (n i)) : volMask v = 5 :=
  volMask_eq_five v fun i => ((h i).gt_iff (k := 0) (by decide)).mpr (h i).pos

theorem IsVol.allAbove_iff (h : ∀ i, IsVol (v i) (n i)) {k : Nat} (hk : k < 2 ^ 31) :
    allAbove v (Int32.ofNat k) ↔ ∀ i, k < n i := by
  simp only [allAbove, (h _).gt_iff hk, Fin.forall_fin_succ, Fin.forall_fin_zero, and_true]
  rfl

/-- Remainders of positive volumes do not cancel. -/
theorem IsVol.remSum_iff (h : ∀ i, IsVol (v i) (n i)) {k : Nat} (h0 : 0 < k) (hk : k ≤ 3) :
    remSum v (Int32.ofNat k) = 0 ↔ ∀ i, n i % k = 0 := by
  have hr : ∀ i, (v i % Int32.ofNat k).toInt = ((n i % k : Nat) : Int) := fun i => (h i).mod (by omega)
  have hlt : ∀ i, n i % k < 3 := fun i => Nat.lt_of_lt_of_le (Nat.mod_lt _ h0) hk
  have l0 := hlt 0; have l1 := hlt 1; have l2 := hlt 2; have l3 := hlt 3; have l4 := hlt 4
  have hsum : (remSum v (Int32.ofNat k)).toInt =
      ((n 0 % k + n 1 % k + n 2 % k + n 3 % k + n 4 % k : Nat) : Int) :=
    toInt_add_small (toInt_add_small (toInt_add_small (toInt_add_small (hr 0) (hr 1) (by omega)) (hr 2)
      (by omega)) (hr 3) (by omega)) (hr 4) (by omega)
  rw [← Int32.toInt_inj, hsum, Int32.toInt_zero, Int.natCast_eq_zero]
  simp only [Fin.forall_fin_succ, Fin.forall_fin_zero, and_true, Nat.add_eq_zero_iff, and_assoc]
  rfl

/-- The decoder on ten positive volumes, in natural numbers. -/
def chain (b a : Fin 5 → Nat) : (Fin 5 → Nat) × (Fin 5 → Nat) :=
  if (∀ i, b i % 3 = 0) ∧ ∀ i, a i % 3 = 0 then (fun i => b i / 3, fun i => a i / 3)
  else if (∀ i, 376 < b i) ∧ ∀ i, 376 < a i then (fun i => b i - 377, fun i => a i - 377)
  else if (∀ i, 196 < b i) ∧ ∀ i, 196 < a i then (fun i => b i - 197, fun i => a i - 197)
  else if (∀ i, b i % 2 = 0) ∧ ∀ i, a i % 2 = 0 then (fun i => b i / 2, fun i => a i / 2)
  else (fun _ => 0, fun _ => 0)

theorem decodeVolumes_chain {bid ask : Fin 5 → Line} {b a : Fin 5 → Nat}
    (hb : ∀ i, IsVol (bid i).volume (b i)) (ha : ∀ i, IsVol (ask i).volume (a i))
    (hbi : volMask (fun i => (bid i).volumeImpl) < 5) (hai : volMask (fun i => (ask i).volumeImpl) < 5) :
    decodeVolumes bid ask =
      ⟨fun i => UInt32.ofNat ((chain b a).1 i), fun i => UInt32.ofNat ((chain b a).2 i)⟩ := by
  have r3b : remSum (fun i => (bid i).volume) 3 = 0 ↔ _ := IsVol.remSum_iff hb (by decide) (by decide)
  have r3a : remSum (fun i => (ask i).volume) 3 = 0 ↔ _ := IsVol.remSum_iff ha (by decide) (by decide)
  have r2b : remSum (fun i => (bid i).volume) 2 = 0 ↔ _ := IsVol.remSum_iff hb (by decide) (by decide)
  have r2a : remSum (fun i => (ask i).volume) 2 = 0 ↔ _ := IsVol.remSum_iff ha (by decide) (by decide)
  have a376b : allAbove (fun i => (bid i).volume) 376 ↔ _ := IsVol.allAbove_iff hb (by decide)
  have a376a : allAbove (fun i => (ask i).volume) 376 ↔ _ := IsVol.allAbove_iff ha (by decide)
  have a196b : allAbove (fun i => (bid i).volume) 196 ↔ _ := IsVol.allAbove_iff hb (by decide)
  have a196a : allAbove (fun i => (ask i).volume) 196 ↔ _ := IsVol.allAbove_iff ha (by decide)
  unfold decodeVolumes chain
  simp only [IsVol.volMask hb, IsVol.volMask ha, Nat.lt_irrefl, and_self, if_false, hbi, hai, and_true,
    r3b, r3a, r2b, r2a, a376b, a376a, a196b, a196a]
  split
  · exact congrArg₂ Volumes.mk (funext fun i => (hb i).div (k := 3) (by decide))
      (funext fun i => (ha i).div (k := 3) (by decide))
  · split
    · rename_i h
      exact congrArg₂ Volumes.mk (funext fun i => (hb i).sub (k := 377) (h.1 i))
        (funext fun i => (ha i).sub (k := 377) (h.2 i))
    · split
      · rename_i h
        exact congrArg₂ Volumes.mk (funext fun i => (hb i).sub (k := 197) (h.1 i))
          (funext fun i => (ha i).sub (k := 197) (h.2 i))
      · split
        · exact congrArg₂ Volumes.mk (funext fun i => (hb i).div (k := 2) (by decide))
            (funext fun i => (ha i).div (k := 2) (by decide))
        · rfl

end Chain

/-! ## The exchange's schemes -/

/-- How the exchange hides ten true volumes. -/
inductive Scheme where
  /-- Moved to `_VolumeImpl`. -/
  | moved
  | triple
  | plus377
  | plus197
  | double
  deriving DecidableEq

/-- What stands in `Volume` for the true volume `n`, except under `moved`. -/
def Scheme.hide : Scheme → Nat → Nat
  | .moved, n => n
  | .triple, n => 3 * n
  | .plus377, n => n + 377
  | .plus197, n => n + 197
  | .double, n => 2 * n

/-- The lines of one side of the book carry the true volumes `v` under the scheme. -/
def Scheme.Hides : Scheme → (Fin 5 → Line) → (Fin 5 → Nat) → Prop
  | .moved, side, v =>
    (∀ i, (side i).volumeImpl = Int32.ofNat (v i)) ∧ volMask (fun i => (side i).volume) < 5
  | s, side, v =>
    (∀ i, (side i).volume = Int32.ofNat (s.hide (v i))) ∧ volMask (fun i => (side i).volumeImpl) < 5

/-- The ten true volumes are told apart from those of the schemes tried before. -/
def Scheme.Separated (b a : Fin 5 → Nat) : Scheme → Prop
  | .moved | .triple => True
  | .plus377 => ∃ i, b i % 3 ≠ 1 ∨ a i % 3 ≠ 1
  | .plus197 => (∃ i, b i % 3 ≠ 1 ∨ a i % 3 ≠ 1) ∧ ∃ i, b i < 180 ∨ a i < 180
  | .double =>
    (∃ i, b i % 3 ≠ 0 ∨ a i % 3 ≠ 0) ∧ ((∀ i, b i = 377 ∧ a i = 377) ∨ ∃ i, b i < 99 ∨ a i < 99)

/-- The true volumes of one side. -/
def TrueVols (v : Fin 5 → Nat) : Prop := ∀ i, 0 < v i ∧ v i < 2 ^ 29

/-! ## Which guard takes a hidden book -/

theorem chain_le (b a : Fin 5 → Nat) (i : Fin 5) : (chain b a).1 i ≤ b i ∧ (chain b a).2 i ≤ a i := by
  unfold chain
  repeat' split
  all_goals exact ⟨by dsimp only; omega, by dsimp only; omega⟩

theorem chain_triple (b a : Fin 5 → Nat) : chain (fun i => 3 * b i) (fun i => 3 * a i) = (b, a) := by
  simp only [chain]
  rw [if_pos ⟨fun i => by omega, fun i => by omega⟩]
  simp

/-- A guard asks all ten volumes; where it fails, one of them is to blame. -/
theorem exists_of_not_guard {p q : Fin 5 → Prop} (h : ¬ ((∀ i, p i) ∧ ∀ i, q i)) : ∃ i, ¬ p i ∨ ¬ q i := by
  by_contra hn
  push Not at hn
  exact h ⟨fun i => (hn i).1, fun i => (hn i).2⟩

/-- `n + 377` is divisible by 3 when `n` leaves the remainder 1, and its third is never `n`. -/
theorem chain_plus377 (b a : Fin 5 → Nat) :
    chain (fun i => b i + 377) (fun i => a i + 377) = (b, a) ↔ ∃ i, b i % 3 ≠ 1 ∨ a i % 3 ≠ 1 := by
  simp only [chain]
  split
  · rename_i h3
    constructor
    · intro he
      have := congrFun (congrArg Prod.fst he) 0
      have := h3.1 0
      dsimp only at *; omega
    · intro ⟨i, hi⟩
      have := h3.1 i; have := h3.2 i; omega
  · rename_i h3
    rw [if_pos ⟨fun i => by omega, fun i => by omega⟩]
    refine ⟨fun _ => ?_, fun _ => by simp⟩
    obtain ⟨i, hi⟩ := exists_of_not_guard h3
    exact ⟨i, by omega⟩

/-- `n + 197` is above 376 from `n = 180` on. -/
theorem chain_plus197 (b a : Fin 5 → Nat) :
    chain (fun i => b i + 197) (fun i => a i + 197) = (b, a) ↔
      (∃ i, b i % 3 ≠ 1 ∨ a i % 3 ≠ 1) ∧ ∃ i, b i < 180 ∨ a i < 180 := by
  simp only [chain]
  split
  · rename_i h3
    constructor
    · intro he
      have := congrFun (congrArg Prod.fst he) 0
      have := h3.1 0
      dsimp only at *; omega
    · rintro ⟨⟨i, hi⟩, -⟩
      have := h3.1 i; have := h3.2 i; omega
  · rename_i h3
    split
    · rename_i h376
      constructor
      · intro he
        have := congrFun (congrArg Prod.fst he) 0
        have := h376.1 0
        dsimp only at *; omega
      · rintro ⟨-, i, hi⟩
        have := h376.1 i; have := h376.2 i; omega
    · rename_i h376
      rw [if_pos ⟨fun i => by omega, fun i => by omega⟩]
      refine ⟨fun _ => ⟨?_, ?_⟩, fun _ => by simp⟩
      · obtain ⟨i, hi⟩ := exists_of_not_guard h3
        exact ⟨i, by omega⟩
      · obtain ⟨i, hi⟩ := exists_of_not_guard h376
        exact ⟨i, by omega⟩

/-- `2 * n` is taken by an earlier guard when all are divisible by 3, above 376 or
above 196; the one earlier guard that gives `n` back does it for 377. -/
theorem chain_double {b a : Fin 5 → Nat} (hb : ∀ i, 0 < b i) :
    chain (fun i => 2 * b i) (fun i => 2 * a i) = (b, a) ↔
      (∃ i, b i % 3 ≠ 0 ∨ a i % 3 ≠ 0) ∧
        ((∀ i, b i = 377 ∧ a i = 377) ∨ ∃ i, b i < 99 ∨ a i < 99) := by
  simp only [chain]
  split
  · rename_i h3
    constructor
    · intro he
      have := congrFun (congrArg Prod.fst he) 0
      have := hb 0
      dsimp only at *; omega
    · rintro ⟨⟨i, hi⟩, -⟩
      have := h3.1 i; have := h3.2 i; omega
  · rename_i h3
    have hn3 : ∃ i, b i % 3 ≠ 0 ∨ a i % 3 ≠ 0 := by
      obtain ⟨i, hi⟩ := exists_of_not_guard h3
      exact ⟨i, by omega⟩
    split
    · rename_i h376
      constructor
      · intro he
        refine ⟨hn3, Or.inl fun i => ?_⟩
        have h1 := congrFun (congrArg Prod.fst he) i
        have h2 := congrFun (congrArg Prod.snd he) i
        have := h376.1 i; have := h376.2 i
        dsimp only at h1 h2; omega
      · rintro ⟨-, h | ⟨i, hi⟩⟩
        · exact Prod.ext (funext fun i => by have := (h i).1; dsimp only; omega)
            (funext fun i => by have := (h i).2; dsimp only; omega)
        · have := h376.1 i; have := h376.2 i; omega
    · rename_i h376
      -- not every volume is 377, or they would all be above 376
      have hn377 : ¬ ∀ i, b i = 377 ∧ a i = 377 := fun h =>
        h376 ⟨fun i => by have := (h i).1; omega, fun i => by have := (h i).2; omega⟩
      split
      · rename_i h196
        constructor
        · intro he
          exfalso
          refine h376 ⟨fun i => ?_, fun i => ?_⟩
          · have h1 := congrFun (congrArg Prod.fst he) i
            have := h196.1 i
            dsimp only at h1; omega
          · have h2 := congrFun (congrArg Prod.snd he) i
            have := h196.2 i
            dsimp only at h2; omega
        · rintro ⟨-, h | ⟨i, hi⟩⟩
          · exact absurd h hn377
          · have := h196.1 i; have := h196.2 i; omega
      · rename_i h196
        rw [if_pos ⟨fun i => by omega, fun i => by omega⟩]
        refine ⟨fun _ => ⟨hn3, Or.inr ?_⟩, fun _ => by simp⟩
        obtain ⟨i, hi⟩ := exists_of_not_guard h196
        exact ⟨i, by omega⟩

/-! ## The decoder against the schemes -/

theorem ofNat_inj {m n : Nat} (hm : m < 2 ^ 32) (hn : n < 2 ^ 32) : UInt32.ofNat m = UInt32.ofNat n ↔ m = n := by
  rw [← UInt32.toNat_inj, UInt32.toNat_ofNat_of_lt' hm, UInt32.toNat_ofNat_of_lt' hn]

/-- Under a scheme that hides `Volume`, decoding is the chain on what is in `Volume`. -/
theorem decode_hidden {bid ask : Fin 5 → Line} {b a hb ha : Fin 5 → Nat}
    (hbv : ∀ i, (bid i).volume = Int32.ofNat (hb i)) (hav : ∀ i, (ask i).volume = Int32.ofNat (ha i))
    (hbi : volMask (fun i => (bid i).volumeImpl) < 5) (hai : volMask (fun i => (ask i).volumeImpl) < 5)
    (hbl : ∀ i, 0 < hb i ∧ hb i < 2 ^ 31) (hal : ∀ i, 0 < ha i ∧ ha i < 2 ^ 31)
    (htb : TrueVols b) (hta : TrueVols a) :
    decodeVolumes bid ask = ⟨fun i => UInt32.ofNat (b i), fun i => UInt32.ofNat (a i)⟩ ↔
      chain hb ha = (b, a) := by
  rw [decodeVolumes_chain (fun i => hbv i ▸ isVol_ofNat (hbl i).1 (hbl i).2)
    (fun i => hav i ▸ isVol_ofNat (hal i).1 (hal i).2) hbi hai, Volumes.mk.injEq, Prod.ext_iff]
  have hlt := fun i => chain_le hb ha i
  constructor
  · intro ⟨h1, h2⟩
    refine ⟨funext fun i => ?_, funext fun i => ?_⟩
    · show (chain hb ha).1 i = b i
      have := (hlt i).1; have := hbl i; have := htb i
      exact (ofNat_inj (by omega) (by omega)).mp (congrFun h1 i)
    · show (chain hb ha).2 i = a i
      have := (hlt i).2; have := hal i; have := hta i
      exact (ofNat_inj (by omega) (by omega)).mp (congrFun h2 i)
  · intro ⟨h1, h2⟩
    simp only at h1 h2
    rw [h1, h2]
    exact ⟨rfl, rfl⟩

/-- Volumes moved to `_VolumeImpl` are taken from there. -/
theorem decode_moved {bid ask : Fin 5 → Line} {b a : Fin 5 → Nat} (htb : TrueVols b) (hta : TrueVols a)
    (hbid : Scheme.moved.Hides bid b) (hask : Scheme.moved.Hides ask a) :
    decodeVolumes bid ask = ⟨fun i => UInt32.ofNat (b i), fun i => UInt32.ofNat (a i)⟩ := by
  have himp : ∀ {v : Fin 5 → Nat}, TrueVols v → volMask (fun i => Int32.ofNat (v i)) = 5 :=
    fun {v} ht => IsVol.volMask (n := v) fun i => by
      have := ht i
      exact isVol_ofNat this.1 (by omega)
  simp only [decodeVolumes, if_pos (And.intro hbid.2 hask.2), hbid.1, hask.1, himp htb, himp hta, if_true,
    Int32.toUInt32_ofNat']

/-- **Exact condition.** The decoder finds the ten true volumes if and only if
they are separated from the schemes whose guards are tried first. -/
theorem decodeVolumes_iff {s : Scheme} {bid ask : Fin 5 → Line} {b a : Fin 5 → Nat}
    (htb : TrueVols b) (hta : TrueVols a) (hbid : s.Hides bid b) (hask : s.Hides ask a) :
    decodeVolumes bid ask = ⟨fun i => UInt32.ofNat (b i), fun i => UInt32.ofNat (a i)⟩ ↔
      s.Separated b a := by
  have hidden : ∀ f : Nat → Nat, (∀ n, 0 < n → n < 2 ^ 29 → 0 < f n ∧ f n < 2 ^ 31) →
      (∀ i, (bid i).volume = Int32.ofNat (f (b i))) → (∀ i, (ask i).volume = Int32.ofNat (f (a i))) →
      volMask (fun i => (bid i).volumeImpl) < 5 → volMask (fun i => (ask i).volumeImpl) < 5 →
      (decodeVolumes bid ask = ⟨fun i => UInt32.ofNat (b i), fun i => UInt32.ofNat (a i)⟩ ↔
        chain (fun i => f (b i)) (fun i => f (a i)) = (b, a)) := fun f hf hbv hav hbi hai =>
    decode_hidden hbv hav hbi hai (fun i => hf _ (htb i).1 (htb i).2) (fun i => hf _ (hta i).1 (hta i).2)
      htb hta
  cases s with
  | moved => exact iff_of_true (decode_moved htb hta hbid hask) trivial
  | triple =>
    rw [hidden (fun n => 3 * n) (fun n _ _ => by omega) hbid.1 hask.1 hbid.2 hask.2]
    exact iff_of_true (chain_triple b a) trivial
  | plus377 =>
    rw [hidden (fun n => n + 377) (fun n _ _ => by omega) hbid.1 hask.1 hbid.2 hask.2]
    exact chain_plus377 b a
  | plus197 =>
    rw [hidden (fun n => n + 197) (fun n _ _ => by omega) hbid.1 hask.1 hbid.2 hask.2]
    exact chain_plus197 b a
  | double =>
    rw [hidden (fun n => 2 * n) (fun n _ _ => by omega) hbid.1 hask.1 hbid.2 hask.2]
    exact chain_double fun i => (htb i).1

/-- A side of the book with the volume `n` on every level, 377 added. -/
def plus377Side (n : Nat) : Fin 5 → Line := fun _ => ⟨0, Int32.ofNat (n + 377), 0⟩

theorem decodeVolumes_iff_two :
    decodeVolumes (plus377Side 2) (plus377Side 2) = ⟨fun _ => 2, fun _ => 2⟩ :=
  (decodeVolumes_iff (s := .plus377) (b := fun _ => 2) (a := fun _ => 2) (by simp [TrueVols])
    (by simp [TrueVols]) ⟨fun _ => rfl, by decide⟩ ⟨fun _ => rfl, by decide⟩).mpr ⟨0, by decide⟩

/-- Ten volumes of 1, sent as 378, are decoded as 126. -/
theorem plus377_read_as_triple :
    ¬ ∀ (s : Scheme) (bid ask : Fin 5 → Line) (b a : Fin 5 → Nat), TrueVols b → TrueVols a →
      s.Hides bid b → s.Hides ask a →
      decodeVolumes bid ask = ⟨fun i => UInt32.ofNat (b i), fun i => UInt32.ofNat (a i)⟩ := by
  intro h
  have := h .plus377 (plus377Side 1) (plus377Side 1) (fun _ => 1) (fun _ => 1) (by simp [TrueVols])
    (by simp [TrueVols]) ⟨fun _ => rfl, by decide⟩ ⟨fun _ => rfl, by decide⟩
  revert this
  decide

end MdInfoSet.L4.VolumeDecoder
