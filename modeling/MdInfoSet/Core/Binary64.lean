import Mathlib.Data.Prod.Lex
import Mathlib.Data.UInt

/-!
# Order facts about binary64 numbers

`Float` computes with IEEE 754 binary64. Comparison is not total: a NaN is
neither below nor above anything, stays one and is close to nothing (`nan_sub`,
`not_close_nan`). The others compare as keys of a linear order do (`lt_iff`, `le_iff`,
`beq_iff`), the two zeros having one key, so what is known of an order holds of the
numbers.
-/
namespace MdInfoSet.Binary64

/-- `std::numeric_limits<double>::quiet_NaN()` -/
def nan : Float := Float.ofBits 0x7ff8000000000000

theorem nan_sub (x : Float) : nan - x = nan := rfl

/-- No bound holds for the distance from a NaN. -/
theorem not_close_nan (x bound : Float) : ¬ (nan - x).abs < bound := by
  rw [nan_sub]
  exact nofun

/-! ## The order of the numbers -/

/-- What comparison sees of a number: the kind of value, then the exponent, then the
mantissa. -/
def unpackedKey : Float.Model.UnpackedFloat → ℤ ×ₗ ℤ ×ₗ ℤ
  | .infinity .positive => toLex (2, toLex (0, 0))
  | .infinity .negative => toLex (-2, toLex (0, 0))
  | .zero _ | .notANumber => toLex (0, toLex (0, 0))
  | .finite .positive m e _ => toLex (1, toLex (e, (m : ℤ)))
  | .finite .negative m e _ => toLex (-1, toLex (-e, -(m : ℤ)))

/-- Exponents first, then mantissas. -/
theorem then_compares (e e' : ℤ) (m m' : ℕ) :
    ((compare e e').then (compare m m')).Compares (toLex (e, (m : ℤ))) (toLex (e', (m' : ℤ))) := by
  cases ho : (compare e e').then (compare m m') with
  | lt =>
    rw [Ordering.then_eq_lt, compare_lt_iff_lt, compare_eq_iff_eq, compare_lt_iff_lt] at ho
    simpa [Ordering.Compares, Prod.Lex.toLex_lt_toLex] using ho
  | eq =>
    rw [Ordering.then_eq_eq, compare_eq_iff_eq, compare_eq_iff_eq] at ho
    rw [ho.1, ho.2]
    exact rfl
  | gt =>
    rw [Ordering.then_eq_gt, compare_gt_iff_gt, compare_eq_iff_eq, compare_gt_iff_gt] at ho
    simpa [Ordering.Compares, Prod.Lex.toLex_lt_toLex, eq_comm] using ho

/-- Negating both turns the order around. -/
theorem neg_compares {o : Ordering} {e e' m m' : ℤ} (h : o.Compares (toLex (e, m)) (toLex (e', m'))) :
    o.swap.Compares (toLex (-e, -m)) (toLex (-e', -m')) := by
  cases o <;> simp [Ordering.Compares, Prod.Lex.toLex_lt_toLex] at h ⊢ <;> omega

theorem cons_compares {o : Ordering} (c : ℤ) {p q : ℤ ×ₗ ℤ} (h : o.Compares p q) :
    o.Compares (toLex (c, p)) (toLex (c, q)) := by
  cases o <;> simpa [Ordering.Compares, Prod.Lex.toLex_lt_toLex] using h

open Float.Model UnpackedFloat in
/-- Numbers compare as their keys do. -/
theorem compare_key {a b : UnpackedFloat} (ha : a ≠ .notANumber) (hb : b ≠ .notANumber) :
    ∃ o, UnpackedFloat.compare a b = some o ∧ o.Compares (unpackedKey a) (unpackedKey b) := by
  rcases a with (_ | _) | _ | (_ | _) | ⟨_ | _, m, e, h⟩ <;>
    rcases b with (_ | _) | _ | (_ | _) | ⟨_ | _, m', e', h'⟩ <;>
    first
    | exact absurd rfl ha
    | exact absurd rfl hb
    | exact ⟨.eq, rfl, rfl⟩
    | exact ⟨.lt, rfl, by dsimp only [unpackedKey]; simp [Ordering.Compares, Prod.Lex.toLex_lt_toLex]⟩
    | exact ⟨.gt, rfl, by dsimp only [unpackedKey]; simp [Ordering.Compares, Prod.Lex.toLex_lt_toLex]⟩
    | skip
  · exact ⟨_, rfl, cons_compares _ (neg_compares (then_compares e e' m m'))⟩
  · exact ⟨_, rfl, cons_compares _ (then_compares e e' m m')⟩

theorem compare_nan (u : Float.Model.UnpackedFloat) :
    Float.Model.UnpackedFloat.compare u .notANumber = none := by
  rcases u with (_ | _) | _ | (_ | _) | ⟨_ | _, m, e, h⟩ <;> rfl

/-- Not a NaN. -/
def IsNum (x : Float) : Prop := x.toModel.unpack ≠ .notANumber

def key (x : Float) : ℤ ×ₗ ℤ ×ₗ ℤ := unpackedKey x.toModel.unpack

theorem compares_iff {a b : Float} (o : Ordering) :
    a.toModel.unpack.compare b.toModel.unpack = some o ↔ IsNum a ∧ IsNum b ∧ o.Compares (key a) (key b) := by
  constructor
  · intro h
    have ha : IsNum a := fun hn => by
      rw [hn] at h
      cases h
    have hb : IsNum b := fun hn => by
      rw [hn, compare_nan] at h
      cases h
    obtain ⟨o', ho', hc⟩ := compare_key ha hb
    rw [ho', Option.some.injEq] at h
    exact ⟨ha, hb, h ▸ hc⟩
  · intro ⟨ha, hb, hc⟩
    obtain ⟨o', ho', hc'⟩ := compare_key ha hb
    rw [ho']
    exact congrArg some (hc'.inj hc)

theorem lt_iff {a b : Float} : a < b ↔ IsNum a ∧ IsNum b ∧ key a < key b := by
  refine Iff.trans ?_ (compares_iff .lt)
  show decide (a.toModel.unpack.lt b.toModel.unpack = true) = true ↔ _
  rw [decide_eq_true_iff, Float.Model.UnpackedFloat.lt, beq_iff_eq]

theorem beq_iff {a b : Float} : (a == b) = true ↔ IsNum a ∧ IsNum b ∧ key a = key b := by
  refine Iff.trans ?_ (compares_iff .eq)
  show (a.toModel.unpack.compare b.toModel.unpack == some .eq) = true ↔ _
  rw [beq_iff_eq]

theorem le_iff {a b : Float} : a ≤ b ↔ IsNum a ∧ IsNum b ∧ key a ≤ key b := by
  have hle : a ≤ b ↔ a.toModel.unpack.compare b.toModel.unpack = some .lt ∨
      a.toModel.unpack.compare b.toModel.unpack = some .eq := by
    show decide (a.toModel.unpack.le b.toModel.unpack = true) = true ↔ _
    rw [decide_eq_true_iff, Float.Model.UnpackedFloat.le]
    cases a.toModel.unpack.compare b.toModel.unpack with
    | none => simp
    | some o => cases o <;> simp
  rw [hle, compares_iff, compares_iff, le_iff_lt_or_eq, ← and_or_left, ← and_or_left]
  rfl

/-- `a ≤ b` excludes `b < a`. -/
theorem not_lt_of_ge {a b : Float} (h : b ≥ a) : ¬ b < a := fun hlt =>
  absurd (lt_iff.mp hlt).2.2 (le_iff.mp h).2.2.not_gt

/-- `a > b` excludes `a == b`. -/
theorem not_beq_of_gt {a b : Float} (h : a > b) : ¬ (a == b) = true := fun hbeq =>
  absurd (beq_iff.mp hbeq).2.2 (lt_iff.mp h).2.2.ne'

/-- Of two numbers one is at most the other. -/
theorem le_of_not_lt {a b : Float} (ha : IsNum a) (hb : IsNum b) (h : ¬ a < b) : b ≤ a :=
  le_iff.mpr ⟨hb, ha, le_of_not_gt fun hk => h (lt_iff.mpr ⟨ha, hb, hk⟩)⟩

theorem le_of_lt {a b : Float} (h : a < b) : a ≤ b :=
  le_iff.mpr ⟨(lt_iff.mp h).1, (lt_iff.mp h).2.1, (lt_iff.mp h).2.2.le⟩

theorem le_refl {a : Float} (ha : IsNum a) : a ≤ a := le_iff.mpr ⟨ha, ha, Std.le_refl _⟩

theorem le_trans {a b c : Float} (hab : a ≤ b) (hbc : b ≤ c) : a ≤ c :=
  le_iff.mpr ⟨(le_iff.mp hab).1, (le_iff.mp hbc).2.1, (le_iff.mp hab).2.2.trans (le_iff.mp hbc).2.2⟩

theorem lt_of_lt_of_le {a b c : Float} (hab : a < b) (hbc : b ≤ c) : a < c :=
  lt_iff.mpr ⟨(lt_iff.mp hab).1, (le_iff.mp hbc).2.1, (lt_iff.mp hab).2.2.trans_le (le_iff.mp hbc).2.2⟩

/-- What equals zero is below what is positive. -/
theorem lt_of_beq_zero {z p : Float} (hz : (z == 0) = true) (hp : 0 < p) : z < p :=
  lt_iff.mpr ⟨(beq_iff.mp hz).1, (lt_iff.mp hp).2.1, (beq_iff.mp hz).2.2 ▸ (lt_iff.mp hp).2.2⟩

end MdInfoSet.Binary64
