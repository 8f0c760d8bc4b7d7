import MdInfoSet.Core.Mem

/-!
# Level-1 message heads (`dz_gfex_md`)

A Level-1 message is recognised in one of two ways
(src/dz_gfex_md/src/dz_gfex_md.h:147-187, 242-250, 347, 473-519):

* by its 24-byte `common_head` of fixed marks, from which
  `get_common_head_type` reads the type and the length of the body, or
* as a `code_mapping_info` record of 94 bytes, by `MARK_INFO` at offset 2.

No bytes show both (`HasMark.not_head`). `WellFormed` are the messages of the
stream, `visible` the bytes it takes to recognise one.
-/
namespace MdInfoSet.L1.Lv1Head

/-- `sizeof(common_head)`, `sizeof(code_mapping_info)` and `sizeof(static_info_mark)`,
which are packed. -/
def sizeofCommonHead : Nat := 24
def sizeofCodeMappingInfo : Nat := 94
def sizeofStaticInfoMark : Nat := 6

/-- The fields of `common_head` that are read. -/
structure CommonHead where
  mark1 : Nat
  msgType : Nat
  mark2 : Nat
  mark3 : Nat
  mark4 : Nat
  mark5 : Nat
  mark6 : Nat
  mark7 : Nat
  mark9 : Nat
  res1 : Nat
  qLen : Nat

/-- `(common_head *)msg` -/
def CommonHead.ofMem (msg : Mem) : CommonHead where
  mark1 := msg.u16 0
  msgType := (msg 2).toNat
  mark2 := msg.u32 4
  mark3 := msg.u16 8
  mark4 := msg.u16 10
  mark5 := msg.u16 12
  mark6 := msg.u16 14
  mark7 := (msg 16).toNat
  mark9 := (msg 20).toNat
  res1 := (msg 22).toNat
  qLen := (msg 23).toNat

/-- `TYPE_INDEX`, `TYPE_TIME`, `TYPE_QUOTA` and `TYPE_ARBITRAGE`. -/
inductive HeadType where
  | index
  | time
  | quota
  | arbitrage
  deriving DecidableEq

/-- mirrors src/dz_gfex_md/src/dz_gfex_md.h:473-519
The type and `q_len`; `none` where the C++ returns 0 and leaves `q_len` alone. -/
def getCommonHeadType (msg : Mem) (len : Nat) : Option (HeadType × Nat) :=
  if len < sizeofCommonHead then none
  else
    let header := CommonHead.ofMem msg
    if header.mark1 ≠ 0x0001 ∨ header.mark2 ≠ 0 ∨ header.mark3 ≠ 0x0001 ∨
        (header.mark4 ≠ 0x0200 ∧ header.mark4 ≠ 0x0800) ∨ header.mark6 ≠ 0x0400 ∨ header.mark7 ≠ 0 then none
    else if (header.msgType = 0x07 ∨ header.msgType = 0x0f ∨ header.msgType = 0x0e ∨ header.msgType = 0x05) ∧
        (header.mark5 = 0x4313 ∨ header.mark5 = 0x4613 ∨ header.mark5 = 0x4c13) then
      some (.index, header.qLen)
    else if header.msgType = 0x01 ∧ header.res1 = 0x01 ∧ header.mark5 = 0x5333 ∧ header.mark9 = 0 then
      some (.arbitrage, header.qLen + 0x100)
    else if (header.msgType = 0x01 ∧ header.mark5 = 0x5333) ∨ (header.msgType = 0x00 ∧ header.mark5 = 0x5343) then
      some (.time, header.qLen)
    else if header.msgType = 0x00 ∧ header.mark5 = 0x5303 then some (.quota, header.qLen)
    else none

/-- Except for an arbitrage message the length returned is that of the head. -/
theorem getCommonHeadType_qLen {d : Mem} {len qLen : Nat} {type : HeadType}
    (h : getCommonHeadType d len = some (type, qLen)) (ht : type ≠ .arbitrage) :
    (CommonHead.ofMem d).qLen = qLen := by
  unfold getCommonHeadType at h
  dsimp only at h
  repeat' split at h
  all_goals simp only [Option.some.injEq, Prod.mk.injEq, reduceCtorEq] at h
  all_goals first | exact h.2 | exact absurd h.1.symm ht

def markInfo : Nat := 0x58007900

/-- `MARK_INFO == ((static_info_mark *)start)->mark` -/
def HasMark (start : Mem) : Prop := start.u32 2 = markInfo

instance (start : Mem) : Decidable (HasMark start) := by unfold HasMark; infer_instance

theorem getCommonHeadType_short {msg : Mem} {len : Nat} (h : len < sizeofCommonHead) :
    getCommonHeadType msg len = none := if_pos h

/-- From 24 bytes on the length does not matter. -/
theorem getCommonHeadType_len {msg : Mem} {len : Nat} (h : sizeofCommonHead ≤ len) :
    getCommonHeadType msg len = getCommonHeadType msg sizeofCommonHead := by
  unfold getCommonHeadType
  rw [if_neg (Nat.not_lt.mpr h), if_neg (Nat.lt_irrefl _)]

/-- Only the 24 bytes of the head are read. -/
theorem getCommonHeadType_congr {d d' : Mem} (h : ∀ i, i < sizeofCommonHead → d i = d' i) (len : Nat) :
    getCommonHeadType d len = getCommonHeadType d' len := by
  have hhead : CommonHead.ofMem d = CommonHead.ofMem d' := by
    unfold sizeofCommonHead at h
    simp only [CommonHead.ofMem, Mem.u32, Mem.u16, Nat.reduceAdd, h 0 (by decide), h 1 (by decide),
      h 2 (by decide), h 4 (by decide), h 5 (by decide), h 6 (by decide), h 7 (by decide), h 8 (by decide),
      h 9 (by decide), h 10 (by decide), h 11 (by decide), h 12 (by decide), h 13 (by decide),
      h 14 (by decide), h 15 (by decide), h 16 (by decide), h 20 (by decide), h 22 (by decide),
      h 23 (by decide)]
  unfold getCommonHeadType
  rw [hhead]

theorem hasMark_congr {d d' : Mem} (h : ∀ i, i < sizeofStaticInfoMark → d i = d' i) :
    HasMark d ↔ HasMark d' := by
  unfold sizeofStaticInfoMark at h
  simp only [HasMark, Mem.u32, Mem.u16, Nat.reduceAdd, h 2 (by decide), h 3 (by decide), h 4 (by decide),
    h 5 (by decide)]

/-- The last byte of the mark lies in `mark2`, which is 0 in a head. -/
theorem HasMark.not_head {d : Mem} (h : HasMark d) (len : Nat) : getCommonHeadType d len = none := by
  have h2 : (CommonHead.ofMem d).mark2 ≠ 0 := by
    have h2 := (d 2).toNat_lt
    have h3 := (d 3).toNat_lt
    have h4 := (d 4).toNat_lt
    simp only [HasMark, markInfo, Mem.u32, Mem.u16, Nat.reduceAdd] at h
    simp only [CommonHead.ofMem, Mem.u32, Mem.u16, Nat.reduceAdd]
    omega
  unfold getCommonHeadType
  split
  · rfl
  · dsimp only
    rw [if_pos (.inr (.inl h2))]

theorem not_hasMark {d : Mem} {len : Nat} {x : HeadType × Nat} (h : getCommonHeadType d len = some x) :
    ¬ HasMark d := by
  intro hm
  rw [hm.not_head] at h
  cases h

/-! ## The messages of the stream -/

/-- A message of the Level-1 stream, of heads with `head` bytes. -/
inductive WellFormed (head : Nat) (m : Bytes) : Prop where
  | index (qLen : Nat) (type : getCommonHeadType (Mem.ofBytes m) sizeofCommonHead = some (.index, qLen))
      (len : m.length = head)
  | mapping (mark : HasMark (Mem.ofBytes m)) (len : m.length = sizeofCodeMappingInfo)
  | time (qLen : Nat) (type : getCommonHeadType (Mem.ofBytes m) sizeofCommonHead = some (.time, qLen))
      (len : m.length = qLen + head)
  | quota (qLen : Nat) (type : getCommonHeadType (Mem.ofBytes m) sizeofCommonHead = some (.quota, qLen))
      (len : m.length = qLen + head)

def IsMapping (m : Bytes) : Prop := HasMark (Mem.ofBytes m)

instance (m : Bytes) : Decidable (IsMapping m) := by unfold IsMapping; infer_instance

def IsIndex (m : Bytes) : Prop :=
  (getCommonHeadType (Mem.ofBytes m) sizeofCommonHead).map Prod.fst = some .index

instance (m : Bytes) : Decidable (IsIndex m) := by unfold IsIndex; infer_instance

/-- How many bytes of a message it takes to recognise it. -/
def visible (m : Bytes) : Nat := if IsMapping m then sizeofStaticInfoMark else sizeofCommonHead

theorem visible_of_head {m : Bytes} {x : HeadType × Nat}
    (h : getCommonHeadType (Mem.ofBytes m) sizeofCommonHead = some x) : visible m = sizeofCommonHead :=
  if_neg (not_hasMark h)

theorem visible_le (m : Bytes) : visible m ≤ sizeofCommonHead := by
  unfold visible
  split
  · decide
  · exact Nat.le_refl _

theorem WellFormed.visible_le_length {m : Bytes} (h : WellFormed sizeofCommonHead m) : visible m ≤ m.length := by
  cases h with
  | index qLen type len => rw [len]; exact visible_le m
  | mapping mark len => rw [len]; exact Nat.le_trans (visible_le m) (by decide)
  | time qLen type len | quota qLen type len =>
    rw [len]; exact Nat.le_trans (visible_le m) (Nat.le_add_left _ _)

theorem WellFormed.ne_nil {m : Bytes} (h : WellFormed sizeofCommonHead m) : m ≠ [] := by
  have hlen := h.visible_le_length
  intro hm
  rw [hm, List.length_nil] at hlen
  unfold visible at hlen
  split at hlen
  · exact absurd hlen (by decide)
  · exact absurd hlen (by decide)

theorem WellFormed.mapping_length {head : Nat} {m : Bytes} (h : WellFormed head m) (hm : IsMapping m) :
    m.length = sizeofCodeMappingInfo := by
  cases h with
  | mapping mark len => exact len
  | index qLen type len | time qLen type len | quota qLen type len =>
    rw [hm.not_head] at type; cases type

/-- An index head is nothing but the head. -/
theorem WellFormed.of_index {head : Nat} {m : Bytes} (h : WellFormed head m) (hm : IsIndex m) :
    ∃ qLen, getCommonHeadType (Mem.ofBytes m) sizeofCommonHead = some (.index, qLen) ∧ m.length = head := by
  cases h with
  | index qLen type len => exact ⟨qLen, type, len⟩
  | mapping mark len => rw [IsIndex, HasMark.not_head mark] at hm; cases hm
  | time qLen type len | quota qLen type len => rw [IsIndex, type] at hm; cases hm

section Shown

variable {m : Bytes} {d : Mem}

/-- A message shows what it is by its first bytes: a mapping record. -/
theorem shows_mapping (hm : IsMapping m) (hlen : sizeofStaticInfoMark ≤ m.length)
    (hd : d.Starts (m.take (visible m))) : HasMark d := by
  rw [visible, if_pos hm] at hd
  refine (hasMark_congr fun i hi => ?_).mpr hm
  have hi' : i < (m.take sizeofStaticInfoMark).length := by rw [List.length_take]; omega
  rw [hd i hi', Mem.starts_ofBytes m i (by omega), List.getElem_take]

/-- And a message with a head. -/
theorem shows_head {x : HeadType × Nat} (hm : getCommonHeadType (Mem.ofBytes m) sizeofCommonHead = some x)
    (hlen : sizeofCommonHead ≤ m.length) (hd : d.Starts (m.take (visible m))) {len : Nat}
    (hle : sizeofCommonHead ≤ len) : getCommonHeadType d len = some x := by
  rw [visible_of_head hm] at hd
  rw [getCommonHeadType_len hle, ← hm]
  refine getCommonHeadType_congr (fun i hi => ?_) _
  have hi' : i < (m.take sizeofCommonHead).length := by rw [List.length_take]; omega
  rw [hd i hi', Mem.starts_ofBytes m i (by omega), List.getElem_take]

/-- Every message can be recognised by its first bytes. -/
theorem WellFormed.recognised (hm : WellFormed sizeofCommonHead m) (hd : d.Starts (m.take (visible m)))
    {len : Nat} (hle : visible m ≤ len) :
    (sizeofStaticInfoMark ≤ len ∧ HasMark d) ∨
      (sizeofCommonHead ≤ len ∧ (getCommonHeadType d len).isSome) := by
  by_cases hmap : IsMapping m
  · rw [visible, if_pos hmap] at hle
    exact .inl ⟨hle, shows_mapping hmap (by rw [hm.mapping_length hmap]; decide) hd⟩
  · rw [visible, if_neg hmap] at hle
    refine .inr ⟨hle, ?_⟩
    cases hm with
    | mapping mark len => exact absurd mark hmap
    | index qLen type len | time qLen type len | quota qLen type len =>
      rw [shows_head type (by omega) hd hle]
      rfl

end Shown

end MdInfoSet.L1.Lv1Head
