import MdInfoSet.Core.Mem

/-!
# What a statement reads

A `Span` is what one statement reads of the memory behind a pointer: a number of bytes from
an offset on, which may lie before the pointer, or a C string up to its zero. `Within` says
that all of it lies in an object of the given size.
-/
namespace MdInfoSet

inductive Span where
  | bytes (off : Int) (len : Nat)
  | cstr (off : Nat)

namespace Span

/-- The offsets read; a string that does not end is read on and on. -/
def Reads (data : Mem) : Span → Int → Prop
  | .bytes off len, o => off ≤ o ∧ o < off + len
  | .cstr off, o => (off : Int) ≤ o ∧ ∀ j : Nat, off ≤ j → (j : Int) < o → data j ≠ 0

def Within (data : Mem) (size : Nat) (s : Span) : Prop := ∀ o, s.Reads data o → 0 ≤ o ∧ o < size

variable {data : Mem} {size : Nat}

theorem within_bytes_iff {off : Int} {len : Nat} :
    (Span.bytes off len).Within data size ↔ len = 0 ∨ 0 ≤ off ∧ off + len ≤ size := by
  constructor
  · intro h
    by_cases hlen : len = 0
    · exact .inl hlen
    · have hfirst := h off ⟨Int.le_refl _, by omega⟩
      have hlast := h (off + len - 1) ⟨by omega, by omega⟩
      exact .inr ⟨hfirst.1, by omega⟩
  · intro h o ⟨hle, hlt⟩
    omega

/-- A string lies in the object exactly if its zero does. -/
theorem within_cstr_iff {off : Nat} :
    (Span.cstr off).Within data size ↔ ∃ z, off ≤ z ∧ z < size ∧ data z = 0 := by
  constructor
  · intro h
    by_contra hno
    have hread := h (max off size : Nat) ⟨by omega, fun j hj hlt he => hno ⟨j, hj, ?_, he⟩⟩
    · omega
    · rcases Nat.lt_or_ge j size with hs | hs
      · exact hs
      · omega
  · intro ⟨z, hz, hsize, hzero⟩ o ⟨hle, hall⟩
    have hoz : o ≤ z := by
      by_contra hlt
      exact hall z hz (by omega) hzero
    omega

end Span

end MdInfoSet
