import MdInfoSet.L2Machine.RingBuffer

/-!
# `LockFreeRingBuffer` with several producers

The Level-2 and the Level-1 receiver push into one `LockFreeRingBuffer`
(src/dz_gfex_md/src/dz_gfex_md.cpp:134-156). A producer fills the slot before it
claims the index, so two producers that loaded the same `write_idx` write the
same slot. A schedule is `Undisturbed` when

* no producer fills a slot that holds a published record the consumer has not
  copied yet, and
* a compare-exchange succeeds only while the slot was last filled by the same
  producer.

**Delivery.** On such schedules the popped records are a prefix of the pushed
ones, each with exactly what its push wrote (`popped_prefix_pushed`). The code
does nothing to keep other schedules out (`unclaimed_fill_is_delivered`).
-/
namespace MdInfoSet.L5.RingMpsc

open MdInfoSet.L2.RingBuffer

variable {ι : Type}

/-! ## Positions -/

theorem getIndex_toNat (x : UInt64) : (getIndex x).toNat = x.toNat % 4096 := by
  unfold getIndex indexMask ringBufferSize
  rw [UInt64.toNat_and]
  exact Nat.and_two_pow_sub_one_eq_mod x.toNat 12

theorem ofNat_toNat {k : Nat} (h : k ≤ 4096) : (UInt64.ofNat k).toNat = k := by
  rw [UInt64.toNat_ofNat']; omega

/-- Fewer than 4096 steps apart, two positions are equal only for equal indices. -/
theorem getIndex_add_inj {b : UInt64} {j k : Nat} (hj : j < 4096) (hk : k < 4096)
    (h : getIndex (b + UInt64.ofNat j) = getIndex (b + UInt64.ofNat k)) : j = k := by
  have := congrArg UInt64.toNat h
  rw [getIndex_toNat, getIndex_toNat, UInt64.toNat_add, UInt64.toNat_add,
    ofNat_toNat (by omega), ofNat_toNat (by omega)] at this
  omega

theorem getIndex_add_size (b : UInt64) : getIndex (b + UInt64.ofNat 4096) = getIndex b := by
  apply UInt64.toNat_inj.mp
  rw [getIndex_toNat, getIndex_toNat, UInt64.toNat_add, ofNat_toNat (by omega)]
  omega

theorem add_ofNat_succ (b : UInt64) (k : Nat) :
    b + UInt64.ofNat (k + 1) = b + 1 + UInt64.ofNat k := by
  rw [UInt64.ofNat_add, UInt64.add_assoc, UInt64.add_comm 1]
  rfl

theorem add_ofNat_sub {b w : UInt64} {n : Nat} (hw : w = b + UInt64.ofNat n) (hn : n ≤ 4096) :
    (w - b).toNat = n := by
  rw [hw, UInt64.add_comm, UInt64.add_sub_cancel, ofNat_toNat hn]

/-! ## The records between the producers and the consumer -/

/-- The record the consumer has copied but not yet given up the slot of. -/
def copied : PopPc → List Slot
  | .storeRead _ slot => [slot]
  | _ => []

/-- The index of the next record the consumer will copy. -/
def base (s : Sys ι) : UInt64 := s.ring.readIdx + UInt64.ofNat (copied s.cons).length

/-- The slot at position `p` holds a published record that is not copied yet. -/
def Unread (s : Sys ι) (p : UInt64) : Prop :=
  ∃ k, k < (s.ring.writeIdx - base s).toNat ∧ getIndex (base s + UInt64.ofNat k) = p

/-- The condition on the step of producer `i` from a program point. -/
def UndisturbedAt (s : Sys ι) (i : ι) (spurious : Bool) : PushPc → Prop
  | .fill _ currentWrite currentRead =>
    isFull currentRead currentWrite = false → ¬ Unread s (getIndex currentWrite)
  | .cas _ currentWrite =>
    s.ring.writeIdx = currentWrite → spurious = false → s.writer (getIndex currentWrite) = some i
  | .idle | .loadWrite _ | .loadRead _ _ => True

/-- The condition on a step, given the state before it. -/
def Undisturbed (s : Sys ι) : Label ι → Prop
  | .prod i spurious => UndisturbedAt s i spurious (s.prod i)
  | .pushL1 .. | .pushL2 .. | .tryPop => True

instance (s : Sys ι) (p : UInt64) : Decidable (Unread s p) :=
  inferInstanceAs (Decidable (∃ k, k < _ ∧ _))

instance [DecidableEq ι] (s : Sys ι) (i : ι) (spurious : Bool) :
    ∀ pc, Decidable (UndisturbedAt s i spurious pc)
  | .fill _ currentWrite currentRead =>
    inferInstanceAs (Decidable (isFull currentRead currentWrite = false → ¬ Unread s (getIndex _)))
  | .cas _ currentWrite =>
    inferInstanceAs (Decidable (s.ring.writeIdx = currentWrite → spurious = false → s.writer _ = _))
  | .idle | .loadWrite _ | .loadRead _ _ => .isTrue trivial

instance [DecidableEq ι] (s : Sys ι) : ∀ l, Decidable (Undisturbed s l)
  | .prod i spurious => inferInstanceAs (Decidable (UndisturbedAt s i spurious (s.prod i)))
  | .pushL1 .. | .pushL2 .. | .tryPop => .isTrue trivial

/-- What the consumer's program point says about `read_idx` and the records `q` left. -/
def ConsOk (s : Sys ι) (q : List Slot) : Prop :=
  match s.cons with
  | .idle => True
  | .loadWrite currentRead | .storeRead currentRead _ => currentRead = s.ring.readIdx
  | .copy currentRead => currentRead = s.ring.readIdx ∧ q ≠ []

/-- The invariant: `q` are the published records the consumer has not copied. -/
structure Pending (s : Sys ι) (q : List Slot) : Prop where
  log : s.pushed = s.popped ++ copied s.cons ++ q
  idx : s.ring.writeIdx = base s + UInt64.ofNat q.length
  le : q.length ≤ 4096
  slots : ∀ k (h : k < q.length), s.ring.slots (getIndex (base s + UInt64.ofNat k)) = q[k]
  cons : ConsOk s q
  /-- A slot filled and not claimed, as long as nobody else fills it. -/
  fills : ∀ i x currentWrite, s.prod i = .cas x currentWrite →
    s.writer (getIndex currentWrite) = some i → s.ring.slots (getIndex currentWrite) = x ∧
      ∀ k, k < q.length → getIndex (base s + UInt64.ofNat k) ≠ getIndex currentWrite

theorem init_pending {s : Sys ι} (h : Init s) : Pending s [] := by
  refine ⟨by simp [h.pushed, h.popped, copied, h.cons], ?_, by decide, nofun, by simp [ConsOk, h.cons], ?_⟩
  · simp [base, copied, h.cons, h.idx]
  · intro i x cw hi
    rw [h.prod i] at hi; cases hi

theorem Pending.unread {s : Sys ι} {q : List Slot} (h : Pending s q) {p : UInt64} :
    Unread s p ↔ ∃ k, k < q.length ∧ getIndex (base s + UInt64.ofNat k) = p := by
  unfold Unread
  rw [add_ofNat_sub h.idx h.le]

/-- The position about to be claimed is free, so the queue is not full. -/
theorem Pending.length_lt {s : Sys ι} {q : List Slot} (h : Pending s q) {i : ι} {x : Slot}
    (hi : s.prod i = .cas x s.ring.writeIdx)
    (hown : s.writer (getIndex s.ring.writeIdx) = some i) : q.length < 4096 := by
  obtain ⟨-, hne⟩ := h.fills i x _ hi hown
  rcases Nat.lt_or_eq_of_le h.le with hlt | he
  · exact hlt
  · have h0 := hne 0 (by omega)
    rw [h.idx, he, getIndex_add_size] at h0
    simp at h0

/-! ## The steps of the consumer -/

/-- The consumer copies the oldest unread record. -/
theorem Pending.copy {s : Sys ι} {q : List Slot} (h : Pending s q) {cr : UInt64}
    (hc : s.cons = .copy cr) : ∃ y q', q = y :: q' ∧ s.ring.slots (getIndex cr) = y ∧
      popStep s = { s with cons := .storeRead cr y } ∧ Pending (popStep s) q' := by
  obtain ⟨hcr, hne⟩ : cr = s.ring.readIdx ∧ q ≠ [] := by simpa only [ConsOk, hc] using h.cons
  obtain ⟨y, q', rfl⟩ := List.exists_cons_of_ne_nil hne
  have hb : base s = s.ring.readIdx := by simp [base, hc, copied]
  have hy : s.ring.slots (getIndex cr) = y := by
    have := h.slots 0 (by simp)
    simpa [hb, hcr] using this
  have hp : popStep s = { s with cons := .storeRead cr y } := by simp only [popStep, hc, hy]
  have hb' : ∀ k, base { s with cons := .storeRead cr y } + UInt64.ofNat k =
      base s + UInt64.ofNat (k + 1) := fun k => by rw [hb, add_ofNat_succ]; rfl
  refine ⟨y, q', rfl, hy, hp, hp ▸ ⟨?_, ?_, ?_, fun k hk => ?_, hcr, fun i x cw hi hw => ?_⟩⟩
  · simpa [copied, hc] using h.log
  · rw [hb']; exact h.idx
  · have := h.le
    rw [List.length_cons] at this; omega
  · rw [hb']; exact h.slots (k + 1) (by simpa using hk)
  · obtain ⟨hx, hf⟩ := h.fills i x cw hi hw
    refine ⟨hx, fun k hk => ?_⟩
    rw [hb']; exact hf (k + 1) (by simpa using hk)

/-- The consumer gives up the slot it has copied. -/
theorem Pending.store {s : Sys ι} {q : List Slot} (h : Pending s q) {cr : UInt64} {y : Slot}
    (hc : s.cons = .storeRead cr y) : Pending (popStep s) q := by
  have hcr : cr = s.ring.readIdx := by simpa only [ConsOk, hc] using h.cons
  have hp : popStep s = { s with ring.readIdx := cr + 1, cons := .idle, popped := s.popped ++ [y] } := by
    simp only [popStep, hc]
  have hb : base (popStep s) = base s := by
    simp [hp, base, hc, copied, hcr]
  refine ⟨?_, ?_, h.le, ?_, by simp [ConsOk, hp], ?_⟩
  · simp [hp, copied, h.log, hc]
  · rw [hb, hp]; exact h.idx
  · rw [hb, hp]; exact h.slots
  · rw [hb, hp]; exact h.fills

/-- The loads of `try_pop`. -/
theorem Pending.load {s : Sys ι} {q : List Slot} (h : Pending s q)
    (hc : s.cons = .idle ∨ ∃ cr, s.cons = .loadWrite cr) : Pending (popStep s) q := by
  have keep : ∀ pc, copied pc = copied s.cons → ConsOk { s with cons := pc } q →
      Pending { s with cons := pc } q := fun pc he hok => by
    refine ⟨?_, ?_, h.le, ?_, hok, ?_⟩ <;> simp only [base, he]
    exacts [h.log, h.idx, h.slots, h.fills]
  rcases hc with hc | ⟨cr, hc⟩
  · simp only [popStep, hc]
    exact keep _ (by simp [copied, hc]) rfl
  · have hcr : cr = s.ring.readIdx := by simpa only [ConsOk, hc] using h.cons
    simp only [popStep, hc]
    split
    · rename_i hne
      refine keep _ (by simp [copied, hc]) ⟨hcr, ?_⟩
      rintro rfl
      have hw : s.ring.writeIdx = s.ring.readIdx := by simpa [base, hc, copied] using h.idx
      exact hne (hcr.trans hw.symm)
    · exact keep _ (by simp [copied, hc]) trivial

theorem Pending.tryPop {s : Sys ι} {q : List Slot} (h : Pending s q) : ∃ q', Pending (popStep s) q' := by
  cases hc : s.cons with
  | idle => exact ⟨q, h.load (.inl hc)⟩
  | loadWrite cr => exact ⟨q, h.load (.inr ⟨cr, hc⟩)⟩
  | copy cr =>
    obtain ⟨-, q', -, -, -, h'⟩ := h.copy hc
    exact ⟨q', h'⟩
  | storeRead cr y => exact ⟨q, h.store hc⟩

/-! ## The steps of the producers -/

variable [DecidableEq ι]

/-- A producer moves on without touching the buffer and without filling a slot. -/
theorem Pending.setProd {s : Sys ι} {q : List Slot} (h : Pending s q) (i : ι) {pc : PushPc}
    (hpc : ∀ x cw, pc ≠ .cas x cw) : Pending (s.setProd i pc) q := by
  refine ⟨h.log, h.idx, h.le, h.slots, h.cons, fun j x cw hj hw => ?_⟩
  simp only [Sys.setProd] at hj
  by_cases hji : j = i
  · subst hji
    rw [Function.update_self] at hj
    exact absurd hj (hpc x cw)
  · rw [Function.update_of_ne hji] at hj
    exact h.fills j x cw hj hw

theorem Pending.enter {s s' : Sys ι} {q : List Slot} (h : Pending s q) {i : ι} {x : Slot}
    (hs : enter s i x = some s') : Pending s' q := by
  simp only [L2.RingBuffer.enter, Option.ite_none_right_eq_some, Option.some.injEq] at hs
  obtain ⟨-, rfl⟩ := hs
  exact Pending.setProd (s := { s with ring.sequence := s.ring.sequence + 1 })
    ⟨h.log, h.idx, h.le, h.slots, h.cons, h.fills⟩ i nofun

/-- Filling a slot that holds no unread record. -/
theorem Pending.fill {s : Sys ι} {q : List Slot} (h : Pending s q) {i : ι} (x : Slot) {cw : UInt64}
    (hfree : ¬ Unread s (getIndex cw)) :
    Pending ((writeSlot s i x cw).setProd i (.cas x cw)) q := by
  have hne : ∀ k, k < q.length → getIndex (base s + UInt64.ofNat k) ≠ getIndex cw :=
    fun k hk he => hfree (h.unread.mpr ⟨k, hk, he⟩)
  refine ⟨h.log, h.idx, h.le, fun k hk => ?_, h.cons, fun j y cw' hj hw => ?_⟩
  · show Function.update s.ring.slots (getIndex cw) x (getIndex (base s + UInt64.ofNat k)) = q[k]
    rw [Function.update_of_ne (hne k hk)]
    exact h.slots k hk
  · simp only [Sys.setProd, writeSlot, base] at hj hw ⊢
    by_cases hp : getIndex cw' = getIndex cw
    · -- the slot just filled: only `i` can have been the one
      rw [hp, Function.update_self, Option.some.injEq] at hw
      subst hw
      rw [Function.update_self, PushPc.cas.injEq] at hj
      rw [hp, Function.update_self]
      exact ⟨hj.1, hne⟩
    · rw [Function.update_of_ne hp] at hw ⊢
      have hji : j ≠ i := by
        rintro rfl
        rw [Function.update_self, PushPc.cas.injEq] at hj
        exact hp (by rw [hj.2])
      rw [Function.update_of_ne hji] at hj
      exact h.fills j y cw' hj hw

/-- A successful compare-exchange publishes the slot its producer filled. -/
theorem Pending.claim {s : Sys ι} {q : List Slot} (h : Pending s q) {i : ι} {x : Slot}
    (hi : s.prod i = .cas x s.ring.writeIdx)
    (hown : s.writer (getIndex s.ring.writeIdx) = some i) :
    Pending ((claim s x).setProd i .idle) (q ++ [x]) := by
  have hlt := h.length_lt hi hown
  obtain ⟨hx, hne⟩ := h.fills i x _ hi hown
  have hlen : (q ++ [x]).length = q.length + 1 := by simp
  refine ⟨?_, ?_, by omega, fun k hk => ?_, ?_, fun j y cw' hj hw => ?_⟩
  · simp only [Sys.setProd, L2.RingBuffer.claim]
    rw [h.log, List.append_assoc]
  · simp only [Sys.setProd, L2.RingBuffer.claim, base]
    rw [hlen, UInt64.ofNat_add, ← UInt64.add_assoc]
    congr 1
    exact h.idx
  · simp only [Sys.setProd, L2.RingBuffer.claim, base]
    rcases Nat.lt_or_eq_of_le (Nat.le_of_lt_succ (hlen ▸ hk)) with hk' | rfl
    · rw [List.getElem_append_left hk']
      exact h.slots k hk'
    · rw [List.getElem_concat_length rfl, ← hx, h.idx]
      rfl
  · have := h.cons
    simp only [ConsOk, Sys.setProd, L2.RingBuffer.claim] at this ⊢
    split <;> simp_all
  · simp only [Sys.setProd, L2.RingBuffer.claim, base] at hj hw ⊢
    by_cases hji : j = i
    · subst hji
      rw [Function.update_self] at hj; cases hj
    · rw [Function.update_of_ne hji] at hj
      obtain ⟨hy, hne'⟩ := h.fills j y cw' hj hw
      refine ⟨hy, fun k hk => ?_⟩
      rcases Nat.lt_or_eq_of_le (Nat.le_of_lt_succ (hlen ▸ hk)) with hk' | rfl
      · exact hne' k hk'
      · intro he
        have he' : getIndex s.ring.writeIdx = getIndex cw' := by rw [h.idx]; exact he
        rw [← he', hown, Option.some.injEq] at hw
        exact hji hw.symm

/-- Every step of a producer that meets the condition keeps the invariant. -/
theorem Pending.push {s s' : Sys ι} {q : List Slot} (h : Pending s q) {i : ι} {spurious : Bool}
    (hok : Undisturbed s (.prod i spurious)) (hs : pushStep s i spurious = some s') :
    ∃ q', Pending s' q' := by
  cases hi : s.prod i with
  | idle => simp [pushStep, hi] at hs
  | loadWrite x =>
    simp only [pushStep, hi, Option.some.injEq] at hs
    exact ⟨q, hs ▸ h.setProd i nofun⟩
  | loadRead x cw =>
    simp only [pushStep, hi, Option.some.injEq] at hs
    exact ⟨q, hs ▸ h.setProd i nofun⟩
  | fill x cw cr =>
    simp only [pushStep, hi] at hs
    simp only [Undisturbed, UndisturbedAt, hi] at hok
    split at hs
    · simp only [Option.some.injEq] at hs
      exact ⟨q, hs ▸ h.setProd i nofun⟩
    · rename_i hfull
      simp only [Option.some.injEq] at hs
      exact ⟨q, hs ▸ h.fill x (hok (by simpa using hfull))⟩
  | cas x cw =>
    simp only [pushStep, hi] at hs
    simp only [Undisturbed, UndisturbedAt, hi] at hok
    split at hs
    · rename_i hcas
      obtain ⟨rfl, hsp⟩ := hcas
      simp only [Option.some.injEq] at hs
      exact ⟨q ++ [x], hs ▸ h.claim hi (hok rfl hsp)⟩
    · simp only [Option.some.injEq] at hs
      exact ⟨q, hs ▸ h.setProd i nofun⟩

theorem pending_step {s s' : Sys ι} {l : Label ι} (h : ∃ q, Pending s q) (hok : Undisturbed s l)
    (hs : step s l = some s') : ∃ q, Pending s' q := by
  obtain ⟨q, h⟩ := h
  cases l with
  | pushL1 i m t0 t1 => exact ⟨q, h.enter hs⟩
  | pushL2 i m t0 t1 => exact ⟨q, h.enter hs⟩
  | prod i spurious => exact h.push hok hs
  | tryPop =>
    simp only [step, Option.some.injEq] at hs
    exact hs ▸ h.tryPop

/-- **Delivery under contention.** On an undisturbed schedule the popped records
are, at every moment, a prefix of the completed pushes in the order of their
successful compare-exchange. -/
theorem popped_prefix_pushed {s₀ s : Sys ι} {ls : List (Label ι)} (h0 : Init s₀)
    (hok : (machine ι).Along Undisturbed s₀ ls) (hr : (machine ι).run s₀ ls = some s) :
    s.popped <+: s.pushed := by
  obtain ⟨q, hq⟩ := Machine.run_along (P := fun s => ∃ q, Pending s q)
    (fun _ _ _ => pending_step) ⟨[], init_pending h0⟩ hok hr
  exact ⟨copied s.cons ++ q, by rw [← List.append_assoc, ← hq.log]⟩

/-! ## The two receivers -/

/-- The producers of the program (`Lv2Handler`'s thread and `Lv1Handler`'s). -/
inductive Receiver where
  | lv2
  | lv1
  deriving DecidableEq

/-- The Level-2 receiver pushes `a`, then the Level-1 receiver pushes `b`; one pop. -/
def takingTurns (a b : Quota) : List (Label Receiver) :=
  [.pushL2 .lv2 a 1 2, .prod .lv2 false, .prod .lv2 false, .prod .lv2 false, .prod .lv2 false,
    .pushL1 .lv1 b 3 4, .prod .lv1 false, .prod .lv1 false, .prod .lv1 false, .prod .lv1 false,
    .tryPop, .tryPop, .tryPop, .tryPop]

theorem popped_prefix_pushed_takingTurns :
    ∃ s, (machine Receiver).run (start Receiver 0) (takingTurns Quota.init Quota.init) = some s ∧
      s.popped = [slotL2 Quota.init 1 2] ∧ s.popped <+: s.pushed := by
  have h : ((machine Receiver).run (start Receiver 0) (takingTurns Quota.init Quota.init)).isSome := by
    decide
  obtain ⟨s, hs⟩ := Option.isSome_iff_exists.mp h
  refine ⟨s, hs, ?_, popped_prefix_pushed (start_init Receiver 0) (by decide) hs⟩
  have : ((machine Receiver).run (start Receiver 0) (takingTurns Quota.init Quota.init)).map
      Sys.popped = some [slotL2 Quota.init 1 2] := by decide
  rw [hs] at this
  simpa using this

/-- Both receivers load `write_idx = 0` and fill slot 0, the Level-1 one last;
then the Level-2 one claims the index. -/
def bothFill (a b : Quota) : List (Label Receiver) :=
  [.pushL2 .lv2 a 1 2, .pushL1 .lv1 b 3 4,
    .prod .lv2 false, .prod .lv2 false, .prod .lv2 false,
    .prod .lv1 false, .prod .lv1 false, .prod .lv1 false,
    .prod .lv2 false, .tryPop, .tryPop, .tryPop, .tryPop]

/-- The record the consumer gets is not the one that was pushed. -/
theorem unclaimed_fill_is_delivered :
    ¬ ∀ (s₀ s : Sys Receiver) (ls : List (Label Receiver)), Init s₀ →
      (machine Receiver).run s₀ ls = some s → s.popped <+: s.pushed := by
  intro h
  have hrun : ((machine Receiver).run (start Receiver 0) (bothFill Quota.init Quota.init)).map
      (fun s => (s.popped, s.pushed)) =
      some ([slotL1 Quota.init 3 4], [slotL2 Quota.init 1 2]) := by decide
  obtain ⟨s, hs, he⟩ := Option.map_eq_some_iff.mp hrun
  have hpre := h _ _ _ (start_init Receiver 0) hs
  simp only [Prod.mk.injEq] at he
  rw [he.1, he.2] at hpre
  revert hpre
  decide

end MdInfoSet.L5.RingMpsc
