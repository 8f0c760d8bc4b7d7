import Mathlib.Data.List.Basic
import Mathlib.Data.UInt
import Mathlib.Logic.Function.Basic

/-!
# A repeated XOR key and how known plaintext gives it away

A key of `n` bytes is XORed over a message position by position, starting over
after `n` bytes (`crypt`). Each ciphertext byte whose plaintext byte is known
determines one byte of the key, at its offset modulo `n`. `recover` writes these
bytes one after the other, as a receiver that knows parts of one message does.

* `crypt_crypt`: the same key decrypts.
* `recover_at`, `recover_eq`: known bytes that stand in the message give the
  key back at every position they cover, whatever was there before.
-/
namespace MdInfoSet.XorStream

variable {n : Nat} [NeZero n]

abbrev Key (n : Nat) := Fin n → UInt8

/-- The key byte for offset `i`. -/
def byteAt (key : Key n) (i : Nat) : UInt8 := key (Fin.ofNat n i)

/-- The loop over the message, from offset `i` on. -/
def cryptFrom (key : Key n) : Nat → List UInt8 → List UInt8
  | _, [] => []
  | i, b :: bs => (b ^^^ byteAt key i) :: cryptFrom key (i + 1) bs

def crypt (key : Key n) (bs : List UInt8) : List UInt8 := cryptFrom key 0 bs

theorem cryptFrom_length (key : Key n) (i : Nat) (bs : List UInt8) :
    (cryptFrom key i bs).length = bs.length := by
  induction bs generalizing i with
  | nil => rfl
  | cons b bs ih => rw [cryptFrom, List.length_cons, List.length_cons, ih]

theorem crypt_length (key : Key n) (bs : List UInt8) : (crypt key bs).length = bs.length :=
  cryptFrom_length key 0 bs

theorem cryptFrom_getElem? (key : Key n) (i j : Nat) (bs : List UInt8) :
    (cryptFrom key i bs)[j]? = bs[j]?.map (· ^^^ byteAt key (i + j)) := by
  induction bs generalizing i j with
  | nil => rfl
  | cons b bs ih =>
    cases j with
    | zero => rfl
    | succ j =>
      rw [cryptFrom, List.getElem?_cons_succ, List.getElem?_cons_succ, ih (i + 1) j, Nat.add_assoc,
        Nat.add_comm 1]

theorem crypt_getElem? (key : Key n) (bs : List UInt8) (i : Nat) :
    (crypt key bs)[i]? = bs[i]?.map (· ^^^ byteAt key i) := by
  have := cryptFrom_getElem? key 0 i bs
  rwa [Nat.zero_add] at this

theorem xor_cancel (a b : UInt8) : a ^^^ b ^^^ b = a := by
  rw [UInt8.xor_assoc, UInt8.xor_self, UInt8.xor_zero]

theorem crypt_crypt (key : Key n) (bs : List UInt8) : crypt key (crypt key bs) = bs := by
  apply List.ext_getElem?
  intro i
  rw [crypt_getElem?, crypt_getElem?, Option.map_map]
  cases h : bs[i]? with
  | none => rfl
  | some b => exact congrArg some (xor_cancel b _)

/-- Only the same key decrypts. -/
theorem byteAt_eq_of_crypt {K K' : Key n} {bs : List UInt8} (h : crypt K' (crypt K bs) = bs) {i : Nat}
    (hi : i < bs.length) : byteAt K' i = byteAt K i := by
  have hx := congrArg (fun l : List UInt8 => l[i]?) h
  simp only [crypt_getElem?, List.getElem?_eq_getElem hi, Option.map_some, Option.some.injEq] at hx
  have := congrArg (fun b => bs[i] ^^^ byteAt K i ^^^ b) hx
  simp only [← UInt8.xor_assoc, UInt8.xor_self, UInt8.zero_xor] at this
  rw [this, UInt8.xor_comm bs[i], xor_cancel]

/-- One assignment: the ciphertext byte at `off`, XORed with the known plaintext byte. -/
def learn (msg : Nat → UInt8) (key : Key n) (known : Nat × UInt8) : Key n :=
  Function.update key (Fin.ofNat n known.1) (msg known.1 ^^^ known.2)

def recover (known : List (Nat × UInt8)) (msg : Nat → UInt8) (key : Key n) : Key n :=
  known.foldl (learn msg) key

section Known

variable {known : List (Nat × UInt8)} {plain msg : Nat → UInt8} {K : Key n}

/-- Once right, a position stays right. -/
theorem recover_keeps (hp : ∀ x ∈ known, plain x.1 = x.2)
    (hm : ∀ x ∈ known, msg x.1 = plain x.1 ^^^ byteAt K x.1) {key : Key n} {j : Fin n} (hj : key j = K j) :
    recover known msg key j = K j := by
  induction known generalizing key with
  | nil => exact hj
  | cons x known ih =>
    refine ih (fun y hy => hp y (List.mem_cons_of_mem _ hy)) (fun y hy => hm y (List.mem_cons_of_mem _ hy)) ?_
    by_cases h : j = Fin.ofNat n x.1
    · subst h
      rw [learn, Function.update_self, hm x List.mem_cons_self, hp x List.mem_cons_self,
        UInt8.xor_comm x.2, xor_cancel, byteAt]
    · rw [learn, Function.update_of_ne h]
      exact hj

/-- A covered position holds the key's byte. -/
theorem recover_at (hp : ∀ x ∈ known, plain x.1 = x.2)
    (hm : ∀ x ∈ known, msg x.1 = plain x.1 ^^^ byteAt K x.1) {j : Fin n} (key : Key n)
    (hj : ∃ x ∈ known, Fin.ofNat n x.1 = j) : recover known msg key j = K j := by
  induction known generalizing key with
  | nil => obtain ⟨x, hx, -⟩ := hj; cases hx
  | cons x known ih =>
    have hp' := fun y hy => hp y (List.mem_cons_of_mem x hy)
    have hm' := fun y hy => hm y (List.mem_cons_of_mem x hy)
    obtain ⟨y, hy, he⟩ := hj
    rcases List.mem_cons.mp hy with rfl | hy
    · refine recover_keeps hp' hm' ?_
      rw [learn, ← he, Function.update_self, hm y List.mem_cons_self, hp y List.mem_cons_self,
        UInt8.xor_comm y.2, xor_cancel, byteAt]
    · exact ih hp' hm' _ ⟨y, hy, he⟩

theorem recover_eq (hp : ∀ x ∈ known, plain x.1 = x.2)
    (hm : ∀ x ∈ known, msg x.1 = plain x.1 ^^^ byteAt K x.1) (key : Key n)
    (hcover : ∀ j : Fin n, ∃ x ∈ known, Fin.ofNat n x.1 = j) : recover known msg key = K :=
  funext fun j => recover_at hp hm key (hcover j)

end Known

end MdInfoSet.XorStream
