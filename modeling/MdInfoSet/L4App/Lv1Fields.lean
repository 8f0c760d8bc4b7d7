import MdInfoSet.Core.KeyedWrites
import MdInfoSet.Core.WhileLoop
import MdInfoSet.L4App.GfexHandlers

/-!
# The fields of a Level-1 quote message

Behind its `QuotaBase` the payload of a Level-1 quote is a list of fields: a `quota_head`
of a tag and a `d_type`, and a value of 8 or 4 bytes. The loop of
`GFEXQuota::HandleLv1Quota` (src/dz_gfex_md/src/dz_gfex_md.cpp:1407-1467) sets the record's
member for 13 of the 20 tags of the table at cpp:1357-1376 and skips the others. What it
reads of a value depends on the tag, how far it moves on `d_type` alone.

* `fieldLoop_eq`: the loop writes the fields the payload is cut into, one after the other.
* **Exact condition.** It ends and reads the payload only if and only if the payload is cut
  into fields all of which end in it (`field_loop_inside_iff`).
-/
namespace MdInfoSet.L4.Lv1Fields

open MdInfoSet.L2.RingBuffer MdInfoSet.L4.GfexHandlers
open MdInfoSet.WhileLoop (Round Ends Throughout)
open MdInfoSet.KeyedWrites (Keyed writeAll IsLast)

/-! ## Tags -/

/-- The tags of the table, in its order. -/
inductive Tag where
  | lastPrice | high | low | lastMatchVol | volume | turnOver | openInterest | openInterestChg | settle
  | tag84 | tag85 | bvImp | bp1 | bv1 | ap1 | av1 | avImp | avgPrice | open' | close
  deriving DecidableEq

/-- The first byte of the table's entry, the last one on an x86. -/
def Tag.byte : Tag → UInt8
  | lastPrice => 0x7b
  | high => 0x7c
  | low => 0x7d
  | lastMatchVol => 0x7e
  | volume => 0x7f
  | turnOver => 0x80
  | openInterest => 0x81
  | openInterestChg => 0x82
  | settle => 0x83
  | tag84 => 0x84
  | tag85 => 0x85
  | bvImp => 0x88
  | bp1 => 0x86
  | bv1 => 0x87
  | ap1 => 0x89
  | av1 => 0x9a
  | avImp => 0x9b
  | avgPrice => 0x9c
  | open' => 0x9d
  | close => 0x9e

/-- `qh->type` -/
def Tag.type (tag : Tag) : Nat := tag.byte.toNat * 2 ^ 24

/-- The member of the record a tag stands for; `x` and `v` are the value read as a price
and as a volume. -/
def Tag.set (tag : Tag) (quota : Quota) (x : Float) (v : UInt32) : Quota :=
  match tag with
  | lastPrice => { quota with lastPrice := x }
  | high => { quota with high := x }
  | low => { quota with low := x }
  | volume => { quota with volume := v }
  | turnOver => { quota with turnOver := x }
  | openInterest => { quota with openinterest := v.toInt32 }
  | settle => { quota with settle := x }
  | bp1 => { quota with bp := Function.update quota.bp 0 x }
  | bv1 => { quota with bv := Function.update quota.bv 0 v }
  | ap1 => { quota with ap := Function.update quota.ap 0 x }
  | av1 => { quota with av := Function.update quota.av 0 v }
  | open' => { quota with open' := x }
  | close => { quota with close := x }
  | lastMatchVol | openInterestChg | tag84 | tag85 | bvImp | avImp | avgPrice => quota

/-- The record has the value already, or no member for it. -/
def Tag.Holds (tag : Tag) (quota : Quota) (x : Float) (v : UInt32) : Prop :=
  match tag with
  | lastPrice => quota.lastPrice = x
  | high => quota.high = x
  | low => quota.low = x
  | volume => quota.volume = v
  | turnOver => quota.turnOver = x
  | openInterest => quota.openinterest = v.toInt32
  | settle => quota.settle = x
  | bp1 => quota.bp 0 = x
  | bv1 => quota.bv 0 = v
  | ap1 => quota.ap 0 = x
  | av1 => quota.av 0 = v
  | open' => quota.open' = x
  | close => quota.close = x
  | lastMatchVol | openInterestChg | tag84 | tag85 | bvImp | avImp | avgPrice => True

theorem Tag.set_eq_self_iff (tag : Tag) (quota : Quota) (x : Float) (v : UInt32) :
    tag.set quota x v = quota ↔ tag.Holds quota x v := by
  obtain ⟨code, extime, open', high, low, lastPrice, settle, close, oi, volume, turnOver, bp, ap, bv, av⟩ := quota
  cases tag <;> simp [Tag.set, Tag.Holds, eq_comm]

theorem Tag.set_set (tag : Tag) (quota : Quota) (x x' : Float) (v v' : UInt32) :
    tag.set (tag.set quota x v) x' v' = tag.set quota x' v' := by
  cases tag <;> simp [Tag.set]

theorem Tag.set_comm {a b : Tag} (h : a ≠ b) (quota : Quota) (x x' : Float) (v v' : UInt32) :
    b.set (a.set quota x v) x' v' = a.set (b.set quota x' v') x v := by
  cases a <;> cases b <;> first | rfl | exact absurd rfl h

/-- The members the loop leaves alone. -/
theorem Tag.set_rest (tag : Tag) (quota : Quota) (x : Float) (v : UInt32) :
    (tag.set quota x v).code = quota.code ∧ (tag.set quota x v).extime = quota.extime := by
  cases tag <;> exact ⟨rfl, rfl⟩

theorem setField_tag (tag : Tag) (quota : Quota) (d : Mem) (off : Nat) :
    setField quota tag.type d off = tag.set quota (reverseDouble d off) (reverseU32 d off) := by
  cases tag <;> simp [setField, Tag.type, Tag.byte, Tag.set]

theorem setField_other {type : Nat} (h : ∀ tag : Tag, tag.type ≠ type) (quota : Quota) (d : Mem) (off : Nat) :
    setField quota type d off = quota := by
  have h1 := h .lastPrice
  have h2 := h .volume
  have h3 := h .turnOver
  have h4 := h .openInterest
  have h5 := h .bp1
  have h6 := h .bv1
  have h7 := h .ap1
  have h8 := h .av1
  have h9 := h .high
  have h10 := h .low
  have h11 := h .open'
  have h12 := h .close
  have h13 := h .settle
  simp only [Tag.type, Tag.byte, ne_eq, UInt8.reduceToNat, Nat.reducePow, Nat.reduceMul, eq_comm] at *
  simp only [setField, *, if_false]

/-- The types of the table, and the others. -/
theorem type_cases (type : Nat) : (∃ tag : Tag, tag.type = type) ∨ ∀ tag : Tag, tag.type ≠ type := by
  by_cases h : ∃ tag : Tag, tag.type = type
  · exact .inl h
  · exact .inr fun tag ht => h ⟨tag, ht⟩

/-- The write of the field whose value is at an offset of the payload. -/
def writeField (data : Mem) (quota : Quota) (type off : Nat) : Quota := setField quota type data off

theorem keyed_writeField (data : Mem) : Keyed (writeField data) where
  overwrite quota type off off' := by
    rcases type_cases type with ⟨tag, rfl⟩ | h
    · simp only [writeField, setField_tag, Tag.set_set]
    · simp only [writeField, setField_other h]
  comm quota type type' off off' hne := by
    rcases type_cases type with ⟨tag, rfl⟩ | h
    · rcases type_cases type' with ⟨tag', rfl⟩ | h'
      · simp only [writeField, setField_tag]
        exact Tag.set_comm (fun he => hne (congrArg Tag.type he)) _ _ _ _ _
      · simp only [writeField, setField_other h']
    · simp only [writeField, setField_other h]

theorem writeAll_rest (data : Mem) (quota : Quota) (fields : List (Nat × Nat)) :
    (writeAll (writeField data) quota fields).code = quota.code ∧
      (writeAll (writeField data) quota fields).extime = quota.extime := by
  induction fields generalizing quota with
  | nil => exact ⟨rfl, rfl⟩
  | cons f fields ih =>
    obtain ⟨hcode, hextime⟩ := ih (writeField data quota f.1 f.2)
    have hone : (writeField data quota f.1 f.2).code = quota.code ∧
        (writeField data quota f.1 f.2).extime = quota.extime := by
      rcases type_cases f.1 with ⟨tag, ht⟩ | h
      · rw [writeField, ← ht, setField_tag]
        exact tag.set_rest _ _ _
      · rw [writeField, setField_other h]
        exact ⟨rfl, rfl⟩
    exact ⟨hcode.trans hone.1, hextime.trans hone.2⟩

/-! ## The fields of a payload -/

/-- The types of the fields and where their values are, as the `d_type`s cut the payload
from `ptr` on; `none` when one of them is neither of the two. -/
def fieldsAt (data : Mem) (ptr : Nat) (remain : Int) : Option (List (Nat × Nat)) :=
  if 0 < remain then
    if data.u16 (ptr + 4) = 0x0800 then
      (fieldsAt data (ptr + (quotaHeadSize + 8)) (remain - (quotaHeadSize + 8 : Nat))).map
        ((data.u32 ptr, ptr + quotaHeadSize) :: ·)
    else if data.u16 (ptr + 4) = 0x0400 then
      (fieldsAt data (ptr + (quotaHeadSize + 4)) (remain - (quotaHeadSize + 4 : Nat))).map
        ((data.u32 ptr, ptr + quotaHeadSize) :: ·)
    else none
  else some []
termination_by remain.toNat
decreasing_by all_goals simp only [quotaHeadSize]; omega

section Fields

variable {data : Mem} {ptr w : Nat} {remain : Int}

/-- A `d_type` that is known, and the bytes of its field. -/
def HasWidth (data : Mem) (ptr w : Nat) : Prop :=
  data.u16 (ptr + 4) = 0x0800 ∧ w = quotaHeadSize + 8 ∨ data.u16 (ptr + 4) = 0x0400 ∧ w = quotaHeadSize + 4

theorem fieldsAt_end (h : remain ≤ 0) : fieldsAt data ptr remain = some [] := by
  rw [fieldsAt, if_neg (by omega)]

theorem fieldsAt_cons (h : 0 < remain) (hd : HasWidth data ptr w) :
    fieldsAt data ptr remain =
      (fieldsAt data (ptr + w) (remain - w)).map ((data.u32 ptr, ptr + quotaHeadSize) :: ·) := by
  rw [fieldsAt, if_pos h]
  rcases hd with ⟨hd, rfl⟩ | ⟨hd, rfl⟩
  · rw [if_pos hd]
  · rw [if_neg (by omega), if_pos hd]

theorem fieldsAt_unknown (h : 0 < remain) (hd : ∀ w, ¬ HasWidth data ptr w) : fieldsAt data ptr remain = none := by
  rw [fieldsAt, if_pos h, if_neg fun he => hd _ (.inl ⟨he, rfl⟩), if_neg fun he => hd _ (.inr ⟨he, rfl⟩)]

theorem fieldLoop_unknown {quota : Quota} (h : 0 < remain) (hd : ∀ w, ¬ HasWidth data ptr w) :
    fieldLoop data quota ptr remain = none := by
  rw [fieldLoop, if_pos h]
  dsimp only
  rw [if_neg fun he => hd _ (.inl ⟨he, rfl⟩), if_neg fun he => hd _ (.inr ⟨he, rfl⟩)]

theorem HasWidth.pos (h : HasWidth data ptr w) : 0 < w := by
  unfold HasWidth quotaHeadSize at h
  omega

/-- The loop writes the fields in their order. -/
theorem fieldLoop_eq (data : Mem) (quota : Quota) (ptr : Nat) (remain : Int) :
    fieldLoop data quota ptr remain = (fieldsAt data ptr remain).map (writeAll (writeField data) quota) := by
  induction hn : remain.toNat using Nat.strongRecOn generalizing quota ptr remain with
  | _ n ih =>
    subst hn
    by_cases hpos : 0 < remain
    case neg => simp [fieldLoop_end (Int.not_lt.mp hpos), fieldsAt_end (Int.not_lt.mp hpos)]
    by_cases hd : ∃ w, HasWidth data ptr w
    · obtain ⟨w, hw⟩ := hd
      have hwpos := hw.pos
      rw [fieldLoop_cons hpos hw, fieldsAt_cons hpos hw, ih _ (by omega) _ _ _ rfl, Option.map_map]
      rfl
    · have hno := not_exists.mp hd
      rw [fieldLoop_unknown hpos hno, fieldsAt_unknown hpos hno, Option.map_none]

end Fields

/-! ## Rounds -/

structure LoopState where
  quota : Quota
  ptr : Nat
  remain : Int

/-- The condition of the loop and its body (cpp:1407-1467). -/
def fieldRound (data : Mem) (s : LoopState) : Round LoopState Quota :=
  if 0 < s.remain then
    let quota := setField s.quota (data.u32 s.ptr) data (s.ptr + quotaHeadSize)
    if data.u16 (s.ptr + 4) = 0x0800 then
      .next ⟨quota, s.ptr + (quotaHeadSize + 8), s.remain - (quotaHeadSize + 8 : Nat)⟩
    else if data.u16 (s.ptr + 4) = 0x0400 then
      .next ⟨quota, s.ptr + (quotaHeadSize + 4), s.remain - (quotaHeadSize + 4 : Nat)⟩
    else .next { s with quota := quota }
  else .leave s.quota

/-- How many bytes of a value are read. -/
def Tag.readSize : Tag → Nat
  | lastPrice | high | low | turnOver | settle | bp1 | ap1 | open' | close => 8
  | volume | openInterest | bv1 | av1 => 4
  | lastMatchVol | openInterestChg | tag84 | tag85 | bvImp | avImp | avgPrice => 0

def tags : List Tag :=
  [.lastPrice, .high, .low, .lastMatchVol, .volume, .turnOver, .openInterest, .openInterestChg, .settle, .tag84,
    .tag85, .bvImp, .bp1, .bv1, .ap1, .av1, .avImp, .avgPrice, .open', .close]

def readSize (type : Nat) : Nat := (tags.find? (·.type = type)).elim 0 Tag.readSize

/-- What a round reads of the payload, as offsets and lengths: the tag, its value if the
tag has a member in the record, and the `d_type`. -/
def roundReads (data : Mem) (s : LoopState) : List (Nat × Nat) :=
  if 0 < s.remain then
    [(s.ptr, 4), (s.ptr + quotaHeadSize, readSize (data.u32 s.ptr)), (s.ptr + 4, 2)]
  else []

section Rounds

variable {data : Mem} {s : LoopState} {w : Nat}

theorem fieldRound_leave (h : s.remain ≤ 0) : fieldRound data s = .leave s.quota := by
  rw [fieldRound, if_neg (by omega)]

theorem fieldRound_next (h : 0 < s.remain) (hd : HasWidth data s.ptr w) :
    fieldRound data s =
      .next ⟨setField s.quota (data.u32 s.ptr) data (s.ptr + quotaHeadSize), s.ptr + w, s.remain - w⟩ := by
  rw [fieldRound, if_pos h]
  rcases hd with ⟨hd, rfl⟩ | ⟨hd, rfl⟩
  · exact if_pos hd
  · dsimp only
    rw [if_neg (by omega), if_pos hd]

/-- Neither `d_type`: `ptr` and `remain` stay. -/
theorem fieldRound_unknown (h : 0 < s.remain) (hd : ∀ w, ¬ HasWidth data s.ptr w) :
    ∃ quota, fieldRound data s = .next { s with quota := quota } := by
  rw [fieldRound, if_pos h]
  dsimp only
  rw [if_neg fun he => hd _ (.inl ⟨he, rfl⟩), if_neg fun he => hd _ (.inr ⟨he, rfl⟩)]
  exact ⟨_, rfl⟩

end Rounds

/-- `fieldLoop` is the loop of these rounds. -/
theorem fieldLoop_ends {data : Mem} (s : LoopState) (quota : Quota) :
    Ends (fieldRound data) s quota ↔ fieldLoop data s.quota s.ptr s.remain = some quota := by
  induction hn : s.remain.toNat using Nat.strongRecOn generalizing s with
  | _ n ih =>
    subst hn
    by_cases hpos : 0 < s.remain
    case neg =>
      have hend := Int.not_lt.mp hpos
      rw [WhileLoop.ends_leave (fieldRound_leave hend), fieldLoop_end hend, Option.some.injEq, eq_comm]
    by_cases hd : ∃ w, HasWidth data s.ptr w
    · obtain ⟨w, hw⟩ := hd
      have hwpos := hw.pos
      rw [WhileLoop.ends_next (fieldRound_next hpos hw), fieldLoop_cons hpos hw]
      refine ih _ ?_ _ rfl
      dsimp only
      omega
    · have hno := not_exists.mp hd
      rw [fieldLoop_unknown hpos hno]
      refine iff_of_false ?_ nofun
      refine WhileLoop.not_ends_of_next (fun t => t.ptr = s.ptr ∧ 0 < t.remain) ?_ ⟨rfl, hpos⟩
      intro t ⟨hptr, ht⟩
      obtain ⟨quota, hround⟩ := fieldRound_unknown (s := t) ht (by rwa [hptr])
      exact ⟨_, hround, hptr, ht⟩

theorem ends_iff {data : Mem} (s : LoopState) :
    (∃ quota, Ends (fieldRound data) s quota) ↔ ∃ fields, fieldsAt data s.ptr s.remain = some fields := by
  simp only [fieldLoop_ends, fieldLoop_eq, Option.map_eq_some_iff]
  exact ⟨fun ⟨_, fields, h, _⟩ => ⟨fields, h⟩, fun ⟨fields, h⟩ => ⟨_, fields, h, rfl⟩⟩

/-- A round reads the payload only. -/
def ReadsInside (data : Mem) (size : Nat) (s : LoopState) : Prop := ∀ r ∈ roundReads data s, r.1 + r.2 ≤ size

theorem readsInside_iff {data : Mem} {size : Nat} {s : LoopState} (h : 0 < s.remain) :
    ReadsInside data size s ↔ s.ptr + quotaHeadSize + readSize (data.u32 s.ptr) ≤ size := by
  simp only [ReadsInside, roundReads, if_pos h, List.forall_mem_cons, List.not_mem_nil, false_imp_iff,
    implies_true, and_true, quotaHeadSize]
  omega

/-- Where the payload is cut into fields, those are what the loop reads. -/
theorem throughout_readsInside_iff {data : Mem} {size : Nat} (s : LoopState) {fields : List (Nat × Nat)}
    (h : fieldsAt data s.ptr s.remain = some fields) :
    Throughout (fieldRound data) (ReadsInside data size) s ↔ ∀ f ∈ fields, f.2 + readSize f.1 ≤ size := by
  induction hn : s.remain.toNat using Nat.strongRecOn generalizing s fields with
  | _ n ih =>
    subst hn
    by_cases hpos : 0 < s.remain
    case neg =>
      have hend := Int.not_lt.mp hpos
      rw [fieldsAt_end hend, Option.some.injEq] at h
      rw [WhileLoop.throughout_leave (fieldRound_leave hend), ← h]
      simp [ReadsInside, roundReads, hpos]
    by_cases hd : ∃ w, HasWidth data s.ptr w
    · obtain ⟨w, hw⟩ := hd
      have hwpos := hw.pos
      rw [fieldsAt_cons hpos hw] at h
      obtain ⟨fields', hrest, rfl⟩ := Option.map_eq_some_iff.mp h
      have hnext := ih (s.remain - w).toNat (by omega)
        ⟨setField s.quota (data.u32 s.ptr) data (s.ptr + quotaHeadSize), s.ptr + w, s.remain - w⟩ hrest rfl
      rw [WhileLoop.throughout_next (fieldRound_next hpos hw), hnext, readsInside_iff hpos, List.forall_mem_cons]
    · rw [fieldsAt_unknown hpos (not_exists.mp hd)] at h
      cases h

/-- The state in which `HandleLv1Quota` enters the loop. -/
def LoopState.enter (quota : Quota) (dataLen : Nat) : LoopState :=
  ⟨quota, quotaBaseSize, Int.bmod (dataLen - quotaBaseSize) (2 ^ 32)⟩

/-- **Exact condition.** For every payload: the loop ends and reads it only, if and only if
its `d_type`s cut it into fields that end in it, as far as they are read. -/
theorem field_loop_inside_iff (data : Mem) (quota : Quota) (dataLen : Nat) :
    ((∃ r, Ends (fieldRound data) (.enter quota dataLen) r) ∧
      Throughout (fieldRound data) (ReadsInside data dataLen) (.enter quota dataLen)) ↔
    ∃ fields, fieldsAt data quotaBaseSize (Int.bmod (dataLen - quotaBaseSize) (2 ^ 32)) = some fields ∧
      ∀ f ∈ fields, f.2 + readSize f.1 ≤ dataLen := by
  rw [ends_iff]
  constructor
  · intro ⟨⟨fields, h⟩, hreads⟩
    exact ⟨fields, h, (throughout_readsInside_iff (.enter quota dataLen) h).mp hreads⟩
  · intro ⟨fields, h, hin⟩
    exact ⟨⟨fields, h⟩, (throughout_readsInside_iff (.enter quota dataLen) h).mpr hin⟩

/-- **Counterexample.** On a field of `d_type` 0 the loop does not end, and of a field of
which one byte is there it reads six. -/
theorem zero_fields_outside :
    (¬ ∀ (data : Mem) (quota : Quota) (dataLen : Nat), ∃ r, Ends (fieldRound data) (.enter quota dataLen) r) ∧
      ¬ ∀ (data : Mem) (quota : Quota) (dataLen : Nat),
        Throughout (fieldRound data) (ReadsInside data dataLen) (.enter quota dataLen) := by
  constructor
  · intro h
    obtain ⟨fields, hfields⟩ := (ends_iff _).mp (h (fun _ => 0) .init 28)
    have hno : ∀ w, ¬ HasWidth (fun _ => 0) quotaBaseSize w := by
      rintro w (⟨hd, -⟩ | ⟨hd, -⟩)
      · exact absurd hd (by decide)
      · exact absurd hd (by decide)
    rw [LoopState.enter, fieldsAt_unknown (by decide) hno] at hfields
    cases hfields
  · intro h
    have hone := (readsInside_iff (by decide)).mp (h (fun _ => 0) .init 23 _ (.here _))
    simp only [LoopState.enter, quotaBaseSize, quotaHeadSize] at hone
    omega

end MdInfoSet.L4.Lv1Fields
