import MdInfoSet.Core.Machine
import MdInfoSet.L1Encoding.DceKey

/-!
# `QxMdMgr::DecodeMsg`

`src/gz_dce_udp/src/gz_dce_md.cpp:734-752`. The first 290-byte packet sets the
key and latches `m_key_gen_finished`; later ones are not looked at again, and
366- and 370-byte packets are decrypted with the key that was set.

**Latch.** If the first 290-byte packet has the bytes `GenKey_290` assumes, every
later 366- and 370-byte packet comes out as it was before encryption, whatever
later 290-byte packets hold (`decodes_after_first_sample`). A later good packet
does not repair a first one without these bytes (`latched_key_stays`).
-/
namespace MdInfoSet.L3.DceDecode

open MdInfoSet.XorStream MdInfoSet.L1.DceKey

structure Decoder where
  mCalcKey : CalcKey
  mKeyGenFinished : Bool

def Decoder.start : Decoder := ⟨fun _ => 0, false⟩

/-- A received packet, and what `getsysdate2()` returns while it is handled. -/
structure Packet where
  date : UInt32
  msg : Bytes

/-- The lengths of the market data packets. -/
def IsMd (msg : Bytes) : Prop := msg.length = 366 ∨ msg.length = 370

instance (msg : Bytes) : Decidable (IsMd msg) := by unfold IsMd; infer_instance

/-- mirrors src/gz_dce_udp/src/gz_dce_md.cpp:734-752
Returns the buffer that is handed on, if one is. -/
def decodeMsg (s : Decoder) (p : Packet) : Decoder × Option Bytes :=
  if p.msg.length = 290 ∧ s.mKeyGenFinished = false then
    (⟨genKey290 s.mCalcKey p.msg p.date, true⟩, none)
  else if s.mKeyGenFinished = false then (s, none)
  else if IsMd p.msg then (s, some (decrypt s.mCalcKey p.msg))
  else (s, none)

def machine : Machine Decoder Packet where
  init s := s = Decoder.start
  step s p := some (decodeMsg s p).1

/-- The packets handed on. -/
def obs (s : Decoder) (p : Packet) : Option Bytes := (decodeMsg s p).2

/-- A packet as the exchange sends it. -/
def sent (K : CalcKey) (p : Packet) : Packet := ⟨p.date, crypt K p.msg⟩

@[simp] theorem sent_length (K : CalcKey) (p : Packet) : (sent K p).msg.length = p.msg.length :=
  crypt_length K p.msg

/-- From `s` on, the packets handed on are the market data packets among `ps`. -/
def DecodesFrom (K : CalcKey) (s : Decoder) (ps : List Packet) : Prop :=
  machine.trace obs s (ps.map (sent K)) = (ps.map (·.msg)).filter IsMd

/-- Before the first sample nothing changes. -/
theorem step_unlatched {K : CalcKey} {s : Decoder} {p : Packet} (hs : s.mKeyGenFinished = false)
    (hp : p.msg.length ≠ 290) : decodeMsg s (sent K p) = (s, none) := by
  unfold decodeMsg
  rw [sent_length, if_neg (fun h => hp h.1), if_pos hs]

/-- The first 290-byte packet sets the key. -/
theorem step_first {K : CalcKey} {s : Decoder} {p : Packet} (hs : s.mKeyGenFinished = false)
    (hp : p.msg.length = 290) :
    decodeMsg s (sent K p) = (⟨genKey290 s.mCalcKey (crypt K p.msg) p.date, true⟩, none) := by
  unfold decodeMsg
  rw [sent_length, if_pos ⟨hp, hs⟩, sent]

/-- Behind the latch the key stays. -/
theorem step_latched (K K' : CalcKey) (p : Packet) :
    decodeMsg ⟨K', true⟩ (sent K p) =
      (⟨K', true⟩, if IsMd p.msg then some (crypt K' (crypt K p.msg)) else none) := by
  have hmd : IsMd (sent K p).msg ↔ IsMd p.msg := by simp [IsMd]
  unfold decodeMsg
  rw [if_neg (by simp), if_neg (by simp)]
  by_cases h : IsMd p.msg
  · rw [if_pos (hmd.mpr h), if_pos h, sent, decrypt]
  · rw [if_neg (fun h' => h (hmd.mp h')), if_neg h]

theorem run_unlatched {K : CalcKey} {s t : Decoder} {ps : List Packet} (hs : s.mKeyGenFinished = false)
    (hps : ∀ p ∈ ps, p.msg.length ≠ 290) (hr : machine.run s (ps.map (sent K)) = some t) : t = s := by
  induction ps with
  | nil => simpa using hr.symm
  | cons p ps ih =>
    obtain ⟨s1, h1, h2⟩ := Machine.run_cons.mp hr
    simp only [machine, step_unlatched hs (hps p List.mem_cons_self), Option.some.injEq] at h1
    subst h1
    exact ih (fun q hq => hps q (List.mem_cons_of_mem _ hq)) h2

theorem decodes_latched (K : CalcKey) (ps : List Packet) : DecodesFrom K ⟨K, true⟩ ps := by
  unfold DecodesFrom
  induction ps with
  | nil => rfl
  | cons p ps ih =>
    simp only [List.map_cons, Machine.trace, machine, obs, step_latched, crypt_crypt, Option.elim_some] at ih ⊢
    rw [ih, List.filter_cons]
    by_cases h : IsMd p.msg <;> simp [h]

/-- **Latch.** -/
theorem decodes_after_first_sample {K : CalcKey} {pre post : List Packet} {p : Packet} {s : Decoder}
    (hpre : ∀ q ∈ pre, q.msg.length ≠ 290) (hp : Assumed p.date p.msg)
    (hr : machine.run Decoder.start ((pre ++ [p]).map (sent K)) = some s) : DecodesFrom K s post := by
  rw [List.map_append, Machine.run_append, Option.bind_eq_some_iff] at hr
  obtain ⟨t, h1, h2⟩ := hr
  obtain rfl := run_unlatched rfl hpre h1
  have hst := step_first (K := K) (s := Decoder.start) rfl hp.length
  rw [genKey290_eq hp] at hst
  simp only [List.map_cons, List.map_nil, Machine.run, machine, hst, Option.bind_some,
    Option.some.injEq] at h2
  exact h2 ▸ decodes_latched K post

theorem run_isSome (s : Decoder) (ps : List Packet) : (machine.run s ps).isSome := by
  induction ps generalizing s with
  | nil => rfl
  | cons p ps ih => exact ih _

def zeroPacket (n : Nat) : Packet := ⟨20260408, zeros n⟩

def samplePacket : Packet := ⟨20260408, sample 20260408⟩

/-- Market data before and after a good sample. -/
theorem decodes_after_first_sample_twice :
    ∃ s, machine.run Decoder.start
        (([zeroPacket 370] ++ [samplePacket]).map (sent sampleKey)) = some s ∧
      DecodesFrom sampleKey s [zeroPacket 290, zeroPacket 366] := by
  obtain ⟨s, hs⟩ := Option.isSome_iff_exists.mp (run_isSome Decoder.start
    (([zeroPacket 370] ++ [samplePacket]).map (sent sampleKey)))
  refine ⟨s, hs, decodes_after_first_sample (fun q hq => ?_) sample_assumed hs⟩
  rw [List.mem_singleton] at hq
  rw [hq, zeroPacket, zeros_length]
  decide

/-- The key a 290-byte packet of zeroes sets. -/
def zeroSampleKey : CalcKey :=
  genKey290 Decoder.start.mCalcKey (crypt sampleKey (zeroPacket 290).msg) (zeroPacket 290).date

/-- A 290-byte packet of zeroes comes first and sets a wrong key; the good sample
behind it is not looked at. -/
theorem latched_key_stays :
    ¬ ∀ (K : CalcKey) (pre post : List Packet) (p : Packet) (s : Decoder), Assumed p.date p.msg →
      machine.run Decoder.start ((pre ++ [p]).map (sent K)) = some s → DecodesFrom K s post := by
  intro h
  have hfirst : decodeMsg Decoder.start (sent sampleKey (zeroPacket 290)) = (⟨zeroSampleKey, true⟩, none) :=
    step_first rfl (zeros_length 290)
  have hgood := step_latched sampleKey zeroSampleKey samplePacket
  have hmd := step_latched sampleKey zeroSampleKey (zeroPacket 370)
  rw [if_neg (by rw [IsMd, samplePacket, sample_assumed.length]; decide)] at hgood
  have hlen : IsMd (zeroPacket 370).msg := Or.inr (zeros_length 370)
  rw [if_pos hlen] at hmd
  have hrun : machine.run Decoder.start (([zeroPacket 290] ++ [samplePacket]).map (sent sampleKey)) =
      some ⟨zeroSampleKey, true⟩ := by
    simp only [List.cons_append, List.nil_append, List.map_cons, List.map_nil, Machine.run, machine,
      hfirst, hgood, Option.bind_some]
  have hdec := h sampleKey [zeroPacket 290] [zeroPacket 370] samplePacket _ sample_assumed hrun
  simp only [DecodesFrom, List.map_cons, List.map_nil, Machine.trace, machine, obs, hmd,
    Option.elim_some, Option.toList_some, List.append_nil, List.filter_cons, List.filter_nil,
    decide_eq_true hlen, if_true, List.cons.injEq, and_true] at hdec
  -- byte 14 of the sample was taken for the first byte of a `DBL_MAX`
  have h14 : byteAt zeroSampleKey 14 = byteAt sampleKey 14 :=
    byteAt_eq_of_crypt hdec (show 14 < (zeros 370).length by rw [zeros_length]; decide)
  revert h14
  decide +kernel

end MdInfoSet.L3.DceDecode
