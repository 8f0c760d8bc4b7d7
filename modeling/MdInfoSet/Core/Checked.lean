import MdInfoSet.Core.WhileLoop

/-!
# Functions that index arrays and loop

A function that may read an array out of its range gives a value or a `Fault`. Its loops
take a bound on their rounds; `Returns` says what comes out once the bound is large enough.

* `Returns.unique`: there is at most one such outcome.
* `returns_whileLoop`: a loop that ends returns what it ends with.
* `Returns.bind`: a function made of two parts.
-/
namespace MdInfoSet

/-- Why there is no value. -/
inductive Fault where
  | outOfRange
  | outOfRounds
  deriving DecidableEq

namespace Checked

open MdInfoSet.WhileLoop (Round Ends run)

variable {S R α β : Type}

/-- Element `i`, counted from 0. -/
def read (xs : List α) (i : Nat) : Except Fault α :=
  match xs[i]? with
  | some x => .ok x
  | none => .error .outOfRange

def whileLoop (round : S → Round S (Except Fault R)) (fuel : Nat) (s : S) : Except Fault R :=
  (run round fuel s).getD (.error .outOfRounds)

/-- What a function comes out with, however many more rounds its loops may take. -/
def Returns (f : Nat → Except Fault α) (r : Except Fault α) : Prop := ∃ n, ∀ fuel, n ≤ fuel → f fuel = r

theorem read_of_some {xs : List α} {i : Nat} {x : α} (h : xs[i]? = some x) : read xs i = .ok x := by
  rw [read, h]

variable {round : S → Round S (Except Fault R)} {s : S} {r r' : Except Fault R}

theorem run_mono {fuel more : Nat} (hle : fuel ≤ more) :
    ∀ {s : S}, run round fuel s = some r → run round more s = some r := by
  induction fuel generalizing more with
  | zero => intro s h; cases h
  | succ fuel ih =>
    intro s h
    obtain ⟨more, rfl⟩ : ∃ k, more = k + 1 := ⟨more - 1, by omega⟩
    unfold run at h ⊢
    cases hr : round s with
    | next s' =>
      simp only [hr] at h ⊢
      exact ih (by omega) h
    | leave r' => simpa only [hr] using h

theorem returns_whileLoop (h : Ends round s r) : Returns (fun fuel => whileLoop round fuel s) r := by
  obtain ⟨n, hn⟩ := h
  exact ⟨n, fun fuel hle => by simp [whileLoop, run_mono hle hn]⟩

theorem Returns.unique {f : Nat → Except Fault α} {r r' : Except Fault α} (h : Returns f r)
    (h' : Returns f r') : r = r' := by
  obtain ⟨n, hn⟩ := h
  obtain ⟨n', hn'⟩ := h'
  rw [← hn (n + n') (Nat.le_add_right n n'), hn' (n + n') (Nat.le_add_left n' n)]

theorem returns_const (r : Except Fault α) : Returns (fun _ => r) r := ⟨0, fun _ _ => rfl⟩

theorem Returns.bind {f : Nat → Except Fault α} {g : α → Nat → Except Fault β} {a : α}
    {r : Except Fault β} (hf : Returns f (.ok a)) (hg : Returns (g a) r) :
    Returns (fun fuel => f fuel >>= fun a => g a fuel) r := by
  obtain ⟨n, hn⟩ := hf
  obtain ⟨n', hn'⟩ := hg
  refine ⟨n + n', fun fuel hle => ?_⟩
  have hfuel := hn fuel (by omega)
  have hfuel' := hn' fuel (by omega)
  simp only [hfuel, ← hfuel']
  rfl

end Checked
end MdInfoSet
