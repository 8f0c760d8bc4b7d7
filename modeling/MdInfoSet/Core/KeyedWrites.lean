import Mathlib.Data.List.Basic
import Mathlib.Data.UInt

/-!
# Writes under keys

A list of writes, each of a value under a key, applied to a state one after the other.
When a write overwrites what was written under its key, and those under different keys
commute (`Keyed`), only the last write of each key counts: `writeAll_eq_self_iff` says
when the whole list changes nothing. `lastValue` is what the list leaves in one field of a
record.
-/
namespace MdInfoSet.KeyedWrites

variable {S K V : Type}

structure Keyed (write : S → K → V → S) : Prop where
  overwrite : ∀ s k v v', write (write s k v) k v' = write s k v'
  comm : ∀ s k k' v v', k ≠ k' → write (write s k v) k' v' = write (write s k' v') k v

def writeAll (write : S → K → V → S) (s : S) (l : List (K × V)) : S := l.foldl (fun s p => write s p.1 p.2) s

/-- `p` is in the list, and nothing behind it has its key. -/
def IsLast (p : K × V) (l : List (K × V)) : Prop :=
  ∃ before after, l = before ++ p :: after ∧ ∀ q ∈ after, q.1 ≠ p.1

variable {write : S → K → V → S} {s : S} {k : K} {v : V} {p : K × V} {l : List (K × V)}

@[simp] theorem writeAll_nil : writeAll write s [] = s := rfl

@[simp] theorem writeAll_cons : writeAll write s (p :: l) = writeAll write (write s p.1 p.2) l := rfl

theorem writeAll_append {l' : List (K × V)} : writeAll write s (l ++ l') = writeAll write (writeAll write s l) l' :=
  List.foldl_append

theorem IsLast.cons {q : K × V} (h : IsLast p l) : IsLast p (q :: l) := by
  obtain ⟨before, after, rfl, hafter⟩ := h
  exact ⟨q :: before, after, rfl, hafter⟩

namespace Keyed

variable (h : Keyed write)

include h

theorem writeAll_comm (hk : ∀ q ∈ l, q.1 ≠ k) : writeAll write (write s k v) l = write (writeAll write s l) k v := by
  induction l generalizing s with
  | nil => rfl
  | cons q l ih =>
    have hq : q.1 ≠ k := hk q List.mem_cons_self
    rw [writeAll_cons, h.comm s k q.1 v q.2 hq.symm, ih fun x hx => hk x (List.mem_cons_of_mem q hx), writeAll_cons]

/-- A write whose key is written again does not count. -/
theorem writeAll_overwritten (hk : ∃ q ∈ l, q.1 = k) : writeAll write (write s k v) l = writeAll write s l := by
  induction l generalizing s with
  | nil =>
    obtain ⟨q, hq, -⟩ := hk
    cases hq
  | cons q l ih =>
    rw [writeAll_cons, writeAll_cons]
    by_cases hq : q.1 = k
    · rw [hq, h.overwrite]
    · obtain ⟨x, hx, hxk⟩ := hk
      rcases List.mem_cons.mp hx with rfl | hx
      · exact absurd hxk hq
      · rw [h.comm s k q.1 v q.2 fun he => hq he.symm]
        exact ih ⟨x, hx, hxk⟩

/-- The last write of a key is still there in the end. -/
theorem write_last (hp : IsLast p l) : write (writeAll write s l) p.1 p.2 = writeAll write s l := by
  obtain ⟨before, after, rfl, hafter⟩ := hp
  rw [writeAll_append, writeAll_cons, h.writeAll_comm hafter, h.overwrite]

/-- The writes change nothing if and only if none of the last ones does. -/
theorem writeAll_eq_self_iff : writeAll write s l = s ↔ ∀ p, IsLast p l → write s p.1 p.2 = s := by
  constructor
  · intro hs p hp
    have hlast := h.write_last (s := s) hp
    rwa [hs] at hlast
  · intro hlast
    induction l with
    | nil => rfl
    | cons p l ih =>
      have hrest := ih fun q hq => hlast q hq.cons
      rw [writeAll_cons]
      by_cases hk : ∃ q ∈ l, q.1 = p.1
      · rw [h.writeAll_overwritten hk, hrest]
      · rw [hlast p ⟨[], l, rfl, fun q hq he => hk ⟨q, hq, he⟩⟩, hrest]

end Keyed

/-! ## The value written last -/

section LastValue

variable {A B : Type}

/-- The value of the last of the list that `p` holds of, or the old one. -/
def lastValue (p : A → Bool) (read : A → B) (l : List A) (old : B) : B := ((l.reverse.find? p).map read).getD old

variable {p : A → Bool} {read : A → B} {l : List A} {old : B}

@[simp] theorem lastValue_nil : lastValue p read [] old = old := rfl

/-- What the first writes is what the others find. -/
@[simp] theorem lastValue_cons {a : A} :
    lastValue p read (a :: l) old = lastValue p read l (if p a then read a else old) := by
  rw [lastValue, lastValue, List.reverse_cons, List.find?_append]
  cases l.reverse.find? p with
  | some b => rfl
  | none =>
    cases h : p a with
    | true => simp [h]
    | false => simp [h]

/-- Two readings agree if they do of the last one. -/
theorem lastValue_eq_iff {read' : A → B} :
    lastValue p read l old = lastValue p read' l old ↔ ∀ a ∈ l.reverse.find? p, read a = read' a := by
  unfold lastValue
  cases l.reverse.find? p with
  | none => simp
  | some a => simp

theorem map_lastValue {C : Type} (f : B → C) :
    f (lastValue p read l old) = lastValue p (fun a => f (read a)) l (f old) := by
  unfold lastValue
  cases l.reverse.find? p with
  | none => rfl
  | some a => rfl

end LastValue

end MdInfoSet.KeyedWrites
