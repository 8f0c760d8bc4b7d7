import Mathlib.Data.List.Basic
import Mathlib.Data.UInt

/-!
# Cutting a stream of messages at a byte position

A stream is the concatenation of a list of messages `ms` (over any alphabet).
After its first `n` symbols have arrived

* `complete n ms` are the messages that have arrived whole,
* `todo n ms` are the others, and
* `pending n ms` is the number of symbols of the first of these that are there.

The ideal reassembler keeps `(h, ms)`, the messages still to be handed on and
the number `h` of symbols of the first one it holds; a segment of `n` symbols
makes it hand on `complete (h + n) ms`. `ideal_eq` is what every reassembler is
compared with: however the stream is cut, the messages come out whole and in
order.
-/
namespace MdInfoSet.Framing

variable {α : Type}

def complete : Nat → List (List α) → List (List α)
  | _, [] => []
  | n, m :: ms => if m.length ≤ n then m :: complete (n - m.length) ms else []

def todo : Nat → List (List α) → List (List α)
  | _, [] => []
  | n, m :: ms => if m.length ≤ n then todo (n - m.length) ms else m :: ms

def pending : Nat → List (List α) → Nat
  | n, [] => n
  | n, m :: ms => if m.length ≤ n then pending (n - m.length) ms else n

theorem complete_append_todo (n : Nat) (ms : List (List α)) : complete n ms ++ todo n ms = ms := by
  induction ms generalizing n with
  | nil => rfl
  | cons m ms ih =>
    simp only [complete, todo]
    split
    · rw [List.cons_append, ih]
    · rfl

theorem mem_of_mem_todo {n : Nat} {m : List α} {ms : List (List α)} (h : m ∈ todo n ms) : m ∈ ms := by
  rw [← complete_append_todo n ms]
  exact List.mem_append_right _ h

theorem length_eq (n : Nat) (ms : List (List α)) :
    (complete n ms).flatten.length + pending n ms = n := by
  induction ms generalizing n with
  | nil => simp [complete, pending]
  | cons m ms ih =>
    simp only [complete, pending]
    split
    · have := ih (n - m.length)
      simp only [List.flatten_cons, List.length_append]; omega
    · simp

theorem pending_lt {n : Nat} {m : List α} {ms ms' : List (List α)} (h : todo n ms = m :: ms') :
    pending n ms < m.length := by
  induction ms generalizing n with
  | nil => simp [todo] at h
  | cons x ms ih =>
    simp only [todo] at h
    simp only [pending]
    split at h
    · rename_i hx; rw [if_pos hx]; exact ih h
    · rename_i hx
      simp only [List.cons.injEq] at h
      rw [if_neg hx, ← h.1]; omega

/-- What is left of the stream after `n` symbols. -/
theorem flatten_drop (n : Nat) (ms : List (List α)) :
    ms.flatten.drop n = (todo n ms).flatten.drop (pending n ms) := by
  induction ms generalizing n with
  | nil => simp [todo]
  | cons m ms ih =>
    simp only [todo, pending]
    split
    · rename_i h
      rw [← ih, List.flatten_cons, List.drop_append, List.drop_eq_nil_of_le h, List.nil_append]
    · rfl

theorem flatten_drop_add (h n : Nat) (ms : List (List α)) :
    (ms.flatten.drop h).drop n = (todo (h + n) ms).flatten.drop (pending (h + n) ms) := by
  rw [List.drop_drop, flatten_drop]

theorem complete_zero {ms : List (List α)} (hne : ∀ m ∈ ms, m ≠ []) :
    complete 0 ms = [] ∧ todo 0 ms = ms ∧ pending 0 ms = 0 := by
  cases ms with
  | nil => exact ⟨rfl, rfl, rfl⟩
  | cons m ms =>
    have hz : ¬ m.length ≤ 0 := fun hle =>
      hne m List.mem_cons_self (List.eq_nil_of_length_eq_zero (Nat.le_zero.mp hle))
    simp only [complete, todo, pending, if_neg hz, and_self]

/-! ## Pieces of the stream -/

section Piece

variable {m t r : List α} {rest : List (List α)}

/-- A piece at least as long as the first message begins with it. -/
theorem piece_whole (h : t ++ r = (m :: rest).flatten) (hle : m.length ≤ t.length) :
    t = m ++ t.drop m.length ∧ t.drop m.length ++ r = rest.flatten := by
  have hm : t.take m.length = m := by
    have := congrArg (List.take m.length) h
    rwa [List.take_append_of_le_length hle, List.flatten_cons, List.take_left] at this
  have hs : t = m ++ t.drop m.length := by
    conv => lhs; rw [← List.take_append_drop m.length t, hm]
  refine ⟨hs, ?_⟩
  rw [hs, List.append_assoc, List.flatten_cons] at h
  exact List.append_cancel_left h

/-- A shorter piece is the beginning of it. -/
theorem piece_cut (h : t ++ r = (m :: rest).flatten) (hlt : t.length < m.length) : t = m.take t.length := by
  have := congrArg (List.take t.length) h
  rwa [List.take_left, List.flatten_cons, List.take_append_of_le_length (Nat.le_of_lt hlt)] at this

/-- The first symbols of a piece are those of its first message. -/
theorem piece_take {k : Nat} (h : t ++ r = (m :: rest).flatten) (ht : k ≤ t.length) (hm : k ≤ m.length) :
    t.take k = m.take k := by
  have := congrArg (List.take k) h
  rwa [List.take_append_of_le_length ht, List.flatten_cons, List.take_append_of_le_length hm] at this

/-- A piece that starts behind the first `h` symbols of a message and closes it. -/
theorem piece_close {h : Nat} (hlt : h < m.length) (hcut : t ++ r = (m :: rest).flatten.drop h)
    (hle : m.length ≤ h + t.length) :
    t = m.drop h ++ t.drop (m.length - h) ∧ t.drop (m.length - h) ++ r = rest.flatten := by
  have hdrop : t ++ r = (m.drop h :: rest).flatten := by
    rw [hcut, List.flatten_cons, List.drop_append_of_le_length (Nat.le_of_lt hlt), List.flatten_cons]
  have hs := piece_whole hdrop (by rw [List.length_drop]; omega)
  rwa [List.length_drop] at hs

end Piece

/-! ## The ideal reassembler -/

/-- What the ideal reassembler hands on for the segments `ss`, holding `h`
symbols of the first message of `ms`. -/
def ideal : Nat → List (List α) → List (List α) → List (List α)
  | _, _, [] => []
  | h, ms, s :: ss =>
    complete (h + s.length) ms ++ ideal (pending (h + s.length) ms) (todo (h + s.length) ms) ss

/-- However the stream is cut, the ideal reassembler hands on its messages. -/
theorem ideal_eq {ms : List (List α)} (hne : ∀ m ∈ ms, m ≠ []) (ss : List (List α)) (h : Nat)
    (hcut : ss.flatten = ms.flatten.drop h) (hh : ms = [] → h = 0)
    (hlt : ∀ m ms', ms = m :: ms' → h < m.length) : ideal h ms ss = ms := by
  induction ss generalizing h ms with
  | nil =>
    cases ms with
    | nil => rfl
    | cons m ms' =>
      have := hlt m ms' rfl
      have := congrArg List.length hcut
      simp only [List.flatten_nil, List.flatten_cons, List.length_nil, List.length_drop,
        List.length_append] at this
      omega
  | cons s ss ih =>
    have hss : ss.flatten = (todo (h + s.length) ms).flatten.drop (pending (h + s.length) ms) := by
      rw [← flatten_drop_add, ← hcut, List.flatten_cons, List.drop_left]
    have hmem : ∀ m ∈ todo (h + s.length) ms, m ≠ [] := fun m hm => hne m (mem_of_mem_todo hm)
    have hlen := congrArg List.length hcut
    simp only [List.flatten_cons, List.length_append, List.length_drop] at hlen
    rw [ideal, ih hmem _ hss ?_ fun m ms' e => pending_lt e, complete_append_todo]
    intro e
    have h1 := complete_append_todo (h + s.length) ms
    have h2 := length_eq (h + s.length) ms
    rw [e, List.append_nil] at h1
    rw [h1] at h2
    cases ms with
    | nil =>
      have := hh rfl
      simp only [List.flatten_nil, List.length_nil] at hlen h2
      omega
    | cons m ms' =>
      have := hlt m ms' rfl
      simp only [List.flatten_cons, List.length_append] at hlen h2
      omega

theorem ideal_zero {ms ss : List (List α)} (hne : ∀ m ∈ ms, m ≠ []) (hcut : ss.flatten = ms.flatten) :
    ideal 0 ms ss = ms := by
  refine ideal_eq hne ss 0 hcut (fun _ => rfl) fun m ms' e => ?_
  exact List.length_pos_of_ne_nil (hne m (by rw [e]; exact List.mem_cons_self))

end MdInfoSet.Framing
