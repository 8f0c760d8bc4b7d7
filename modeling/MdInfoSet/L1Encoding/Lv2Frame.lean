import MdInfoSet.Core.Mem

/-!
# Level-2 message lengths (`dz_gfex_md`)

The Level-2 TCP stream has no length prefix. `GFEXQuota::GetCurReadMsgLength`
(src/dz_gfex_md/src/dz_gfex_md.cpp:415-451) looks at the 8 bytes under the
read pointer: a little-endian `PacketLen` of 676 at offset 4 wins, otherwise
the first byte selects a fixed length, and 0 means "not a message head".

* `Shows bs n`: every memory that begins with the bytes `bs` is read as a
  message of length `n`, whatever stands behind them.
* `Complete m`: `m` is a whole message, shown by its own bytes.
-/
namespace MdInfoSet.L1.Lv2Frame

/-- `LV2_OB_QUOTE_LEN`.
mirrors src/dz_gfex_md/src/dz_gfex_md.h:41 -/
def lv2ObQuoteLen : Nat := 676

/-- mirrors src/dz_gfex_md/src/dz_gfex_md.cpp:415-451
`std::string product({data,data+1})` is the iterator range `[data, data+1)`,
one character, so it never equals a two-letter product and `'l'`, `'p'`, `'s'`
fall through to `default`. -/
def getCurReadMsgLength (data : Mem) : Nat :=
  if data.i32 4 = lv2ObQuoteLen then lv2ObQuoteLen
  else
    let type := data 0
    let product : Bytes := [data 0]
    if type = 0x32 then 536
    else if type = 0x34 then 204
    else if type = 0x35 then 104
    else if type = 0x36 then 120
    else if type = 0x37 then 216
    else if type = 0x61 then 6
    else if type = 0x6c ∨ type = 0x70 ∨ type = 0x73 then
      if product = [0x6c, 0x63] ∨ product = [0x73, 0x69] ∨ product = [0x70, 0x64] ∨
          product = [0x70, 0x73] ∨ product = [0x70, 0x74] then 200
      else 0
    else 0

/-- The lengths the framer can return. -/
theorem getCurReadMsgLength_mem (data : Mem) :
    getCurReadMsgLength data ∈ [0, 6, 104, 120, 204, 216, 536, 676] := by
  unfold getCurReadMsgLength lv2ObQuoteLen
  dsimp only
  split
  · simp
  repeat' split
  all_goals simp_all

theorem getCurReadMsgLength_le (data : Mem) : getCurReadMsgLength data ≤ 676 := by
  have := getCurReadMsgLength_mem data
  simp only [List.mem_cons, List.not_mem_nil, or_false] at this
  omega

/-- The framer reads the first 8 bytes only. -/
theorem getCurReadMsgLength_congr {d d' : Mem} (h : ∀ i, i < 8 → d i = d' i) :
    getCurReadMsgLength d = getCurReadMsgLength d' := by
  have h32 : d.u32 4 = d'.u32 4 := by
    simp only [Mem.u32, Mem.u16, h 4 (by decide), h (4 + 1) (by decide), h (4 + 2) (by decide),
      h (4 + 2 + 1) (by decide)]
  unfold getCurReadMsgLength Mem.i32
  rw [h32, h 0 (by decide)]

/-- The eighth byte, the top of `PacketLen`, matters only by being 0. -/
theorem getCurReadMsgLength_congr_top {d d' : Mem} (h : ∀ i, i < 7 → d i = d' i) (h7 : d 7 ≠ 0)
    (h7' : d' 7 ≠ 0) : getCurReadMsgLength d = getCurReadMsgLength d' := by
  have big : ∀ e : Mem, e 7 ≠ 0 → e.i32 4 ≠ lv2ObQuoteLen := by
    intro e he heq
    have hpos : 0 < (e 7).toNat := Nat.pos_of_ne_zero fun h0 => he (UInt8.toNat_inj.mp h0)
    have hbig : 2 ^ 24 ≤ e.u32 4 := by
      simp only [Mem.u32, Mem.u16, Nat.reduceAdd]; omega
    have hlt : e.u32 4 < 2 ^ 32 := by
      have h4 := (e 4).toNat_lt
      have h5 := (e 5).toNat_lt
      have h6 := (e 6).toNat_lt
      have h7 := (e 7).toNat_lt
      simp only [Mem.u32, Mem.u16, Nat.reduceAdd]; omega
    unfold Mem.i32 lv2ObQuoteLen at heq
    split at heq
    · omega
    · omega
  unfold getCurReadMsgLength
  rw [if_neg (big d h7), if_neg (big d' h7'), h 0 (by decide)]

/-- Every memory that begins with `bs` shows a message of length `n`. -/
def Shows (bs : Bytes) (n : Nat) : Prop := ∀ d : Mem, d.Starts bs → getCurReadMsgLength d = n

/-- A whole Level-2 message: not empty, and its own bytes show its length. -/
def Complete (m : Bytes) : Prop := m ≠ [] ∧ Shows m m.length

/-- Eight bytes of a message are enough to know it. -/
theorem Shows.take {m : Bytes} {n k : Nat} (h : Shows m n) (hk : 8 ≤ k) : Shows (m.take k) n := by
  intro d hd
  by_cases hm : m.length ≤ k
  · rw [List.take_of_length_le hm] at hd
    exact h d hd
  · -- write the rest of `m` behind the bytes `d` starts with
    have hw := hd.memcpy (Mem.starts_ofBytes (m.drop k))
    rw [List.length_take, Nat.min_eq_left (by omega), List.take_append_drop] at hw
    rw [← h _ hw]
    apply getCurReadMsgLength_congr
    intro i hi
    rw [Mem.memcpy_below (by omega)]

/-- The concrete check behind `Shows` when at least 8 bytes are there. -/
theorem shows_of_length {bs : Bytes} (h : 8 ≤ bs.length) {n : Nat}
    (hn : getCurReadMsgLength (Mem.ofBytes bs) = n) : Shows bs n := by
  intro d hd
  rw [← hn]
  apply getCurReadMsgLength_congr
  intro i hi
  rw [hd i (by omega), Mem.starts_ofBytes bs i (by omega)]

/-- A message of type `'a'`, if its last byte keeps it from showing a `PacketLen`. -/
theorem shows_typeA (a b c d : UInt8) {e : UInt8} (h : e ≠ 2) : Shows [0x61, a, b, c, d, e] 6 := by
  intro mem hd
  have h0 : mem 0 = 0x61 := hd.head
  have h5 : mem 5 = e := hd 5 (by simp)
  have hne : mem.i32 4 ≠ lv2ObQuoteLen := by
    have he : (mem 5).toNat ≠ 2 := fun h2 => h (by rw [← h5]; exact UInt8.toNat_inj.mp h2)
    have h4 := (mem 4).toNat_lt
    have h5 := (mem 5).toNat_lt
    have hu : mem.u32 4 % 2 ^ 16 ≠ 676 := by
      simp only [Mem.u32, Mem.u16, Nat.reduceAdd]; omega
    intro heq
    unfold Mem.i32 lv2ObQuoteLen at heq
    split at heq
    · omega
    · omega
  unfold getCurReadMsgLength
  rw [if_neg hne, h0]
  rfl

end MdInfoSet.L1.Lv2Frame
