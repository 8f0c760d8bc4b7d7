import MdInfoSet.L4App.DceClock

/-!
# A trading day with a night session, through the DCE filter

A trading day starts with the night session of the evening before (21:00 to 23:00,
Beijing time) and goes on with the day session (09:00 to 15:00). `IsValidQuota`
compares times of the day with `<` (src/nano_febao_dce/src/dce_nano.cpp:291), so the
first quote of the day session goes back behind the night. `TIME_COM`
(dce_nano.cpp:282-284) is an order in which it does not (`not_timeCom`); nothing
calls it.

**Exact condition.** Over a trading day in chronological order no message is
rejected for its time if and only if none of the day session arrives while the
entry holds a quote of the night (`no_time_error_iff`).
-/
namespace MdInfoSet.L4.DceSession

open MdInfoSet.L4.Filter MdInfoSet.L4.DceFilter MdInfoSet.L4.DceClock

/-- mirrors src/nano_febao_dce/src/dce_nano.cpp:282-284 -/
def timeCom (a b : UInt64) : Bool :=
  a + (if a < 60000000 then 240000000 else 0) < b + (if b < 60000000 then 240000000 else 0)

/-! ## Trading days -/

/-- Days since 1970, in Beijing. -/
def beijingDay (ns : Nat) : Nat := (ns / 1000000 + 8 * 3600000) / dayMs

/-- The days of the night session and of the day session after it. -/
structure TradingDay where
  evening : Nat
  day : Nat
  night_first : evening < day

def TradingDay.Night (d : TradingDay) (ns : Nat) : Prop :=
  beijingDay ns = d.evening ∧ 75600000 ≤ beijingMs ns ∧ beijingMs ns ≤ 82800000

def TradingDay.Day (d : TradingDay) (ns : Nat) : Prop :=
  beijingDay ns = d.day ∧ 32400000 ≤ beijingMs ns ∧ beijingMs ns ≤ 54000000

def TradingDay.InSession (d : TradingDay) (ns : Nat) : Prop := d.Night ns ∨ d.Day ns

/-- A message and the instant of its quote, in UTC nanoseconds. -/
structure Quote where
  instant : Nat
  msg : Msg

/-- The message carries the instant, each level in its own way. -/
def Quote.Stamped (q : Quote) : Prop :=
  match q.msg with
  | .l1 m => m.sendTime.toNat = q.instant
  | .l2 m => m.genTime = timeStr (beijingMs q.instant)

/-- The quotes of one trading day in chronological order, their volumes not falling. -/
structure Chronological (d : TradingDay) (qs : List Quote) : Prop where
  stamped : ∀ q ∈ qs, q.Stamped
  inSession : ∀ q ∈ qs, d.InSession q.instant
  ordered : qs.Pairwise fun q q' => q.instant ≤ q'.instant
  volume : qs.Pairwise fun q q' => q.msg.stamp.2 ≤ q'.msg.stamp.2

theorem instant_eq (ns : Nat) : ns / 1000000 + 8 * 3600000 = beijingDay ns * dayMs + beijingMs ns := by
  unfold beijingDay beijingMs
  exact (Nat.div_add_mod' _ _).symm

/-- The day session does not come before the night. -/
theorem TradingDay.not_day_night {d : TradingDay} {ns ns' : Nat} (h : d.Day ns) (h' : d.Night ns') :
    ¬ ns ≤ ns' := by
  intro hle
  have he := instant_eq ns
  have he' := instant_eq ns'
  have hd := d.night_first
  have hmono := Nat.div_le_div_right (c := 1000000) hle
  rw [h.1] at he
  rw [h'.1] at he'
  unfold dayMs at he he'
  have := h.2.1
  have := h'.2.2
  omega

/-- Later instants of a trading day have later times of the day, unless the night
lies between them. -/
theorem TradingDay.beijingMs_le {d : TradingDay} {ns ns' : Nat} (h : d.InSession ns) (h' : d.InSession ns')
    (hle : ns ≤ ns') (hsame : ¬ (d.Night ns ∧ d.Day ns')) : beijingMs ns ≤ beijingMs ns' := by
  have he := instant_eq ns
  have he' := instant_eq ns'
  have hmono := Nat.div_le_div_right (c := 1000000) hle
  rcases h with h | h
  · rcases h' with h' | h'
    · rw [h.1] at he
      rw [h'.1] at he'
      omega
    · exact absurd ⟨h, h'⟩ hsame
  · rcases h' with h' | h'
    · exact absurd hle (d.not_day_night h h')
    · rw [h.1] at he
      rw [h'.1] at he'
      omega

/-- The time the filter judges a quote by is its Beijing time: all sessions lie
before 16:00 UTC. -/
theorem Quote.stamp_toNat {d : TradingDay} {q : Quote} (hq : q.Stamped) (h : d.InSession q.instant) :
    q.msg.stamp.1.toNat = beijingMs q.instant := by
  obtain ⟨ns, msg⟩ := q
  cases msg with
  | l1 m =>
    replace hq : m.sendTime.toNat = ns := hq
    have he := extime_beijing m
    rw [if_pos, Nat.add_zero, hq] at he
    · exact he
    · rw [hq]
      have hms : 32400000 ≤ beijingMs ns ∧ beijingMs ns ≤ 82800000 := by
        rcases h with h | h
        · exact ⟨Nat.le_trans (by omega) h.2.1, h.2.2⟩
        · exact ⟨h.2.1, Nat.le_trans h.2.2 (by omega)⟩
      unfold beijingMs dayMs at hms
      omega
  | l2 m =>
    replace hq : m.genTime = timeStr (beijingMs ns) := hq
    show (timeStrToUtcS m.genTime).toNat = beijingMs ns
    rw [hq, timeStrToUtcS_toNat (beijingMs_lt ns)]

/-- `TIME_COM` puts the times before 16:40 behind all others. -/
theorem timeCom_key {x : UInt64} (h : x.toNat ≤ dayMs) :
    (x + if x < 60000000 then 240000000 else 0).toNat =
      x.toNat + if x.toNat < 60000000 then 240000000 else 0 := by
  have hc : x < 60000000 ↔ x.toNat < 60000000 := Iff.rfl
  unfold dayMs at h
  by_cases hlt : x.toNat < 60000000
  · rw [if_pos (hc.mpr hlt), if_pos hlt, UInt64.toNat_add]
    simp only [UInt64.reduceToNat]
    omega
  · rw [if_neg (fun hn => hlt (hc.mp hn)), if_neg hlt, UInt64.toNat_add]
    simp only [UInt64.reduceToNat]
    omega

/-- In the order of `TIME_COM` a trading day does not go back. -/
theorem not_timeCom {d : TradingDay} {q q' : Quote} (hq : q.Stamped) (hq' : q'.Stamped)
    (h : d.InSession q.instant) (h' : d.InSession q'.instant) (hle : q.instant ≤ q'.instant) :
    timeCom q'.msg.stamp.1 q.msg.stamp.1 = false := by
  have ht := Quote.stamp_toNat hq h
  have ht' := Quote.stamp_toNat hq' h'
  have hkey := timeCom_key (ht.trans_le (Nat.le_of_lt (beijingMs_lt q.instant)))
  have hkey' := timeCom_key (ht'.trans_le (Nat.le_of_lt (beijingMs_lt q'.instant)))
  rw [timeCom, decide_eq_false_iff_not, UInt64.lt_iff_toNat_lt, hkey, hkey', ht, ht']
  by_cases hs : d.Night q.instant ∧ d.Day q'.instant
  · have h1 := hs.1.2
    have h2 := hs.2.2
    rw [if_pos (by omega), if_neg (by omega)]
    omega
  · have hmono := d.beijingMs_le h h' hle hs
    rcases h with h | h
    · have := h.2
      rw [if_neg (by omega), if_neg (by omega)]
      omega
    · rcases h' with h' | h'
      · exact absurd hle (d.not_day_night h h')
      · have := h.2
        have := h'.2
        rw [if_pos (by omega), if_pos (by omega)]
        omega

/-! ## The filter over a trading day -/

/-- The receiver's steps on quotes. -/
def machine : Machine Run Quote where
  init s := s = Run.start
  step s q := some (s.step q.msg)

def NoTimeError (s : Run) (q : Quote) : Prop := q.msg.verdict s.recv.cache ≠ .timeError

/-- The entry holds a quote of the night session. -/
def HoldsNight (cache : QuotaInfo) : Prop := cache.level ≠ 0 ∧ 75600000 ≤ cache.time

/-- No quote of the day session on an entry of the night session. -/
def NoCrossing (d : TradingDay) (s : Run) (q : Quote) : Prop := d.Day q.instant → ¬ HoldsNight s.recv.cache

theorem verdict_empty {cache : QuotaInfo} (m : Msg) (h : cache.level = 0) : m.verdict cache = .ok := by
  cases m with
  | l1 m =>
    have hl : (fillOpenL1 cache m).level = 0 := (fillOpenL1_key cache m).level.trans h
    simp [Msg.verdict, validL1, isValidQuota, hl]
  | l2 m => simp [Msg.verdict, validL2, isValidQuota, h]

/-- A message is rejected for its time exactly when it is before the entry. -/
theorem verdict_timeError {cache : QuotaInfo} (m : Msg) :
    m.verdict cache = .timeError ↔ cache.level ≠ 0 ∧ m.stamp.1 < cache.time := by
  have hval : ∀ (cache : QuotaInfo) (extime vol : UInt64) (level : UInt32) (ap1 bp1 : Float) (av1 bv1 : UInt32),
      (isValidQuota cache extime vol level ap1 bp1 av1 bv1).1 = .timeError ↔
        cache.level ≠ 0 ∧ extime < cache.time := by
    intro cache extime vol level ap1 bp1 av1 bv1
    unfold isValidQuota
    dsimp only
    by_cases hl : cache.level ≠ 0
    · rw [if_pos hl]
      by_cases ht : extime < cache.time
      · simp [ht, hl]
      · rw [if_neg ht]
        refine ⟨fun h => ?_, fun h => absurd h.2 ht⟩
        split at h
        · cases h
        · split at h
          · split at h <;> cases h
          · cases h
    · rw [if_neg hl]
      exact ⟨nofun, fun h => absurd h.1 hl⟩
  cases m with
  | l1 m =>
    obtain ⟨ht, -, hl⟩ := fillOpenL1_key cache m
    rw [Msg.verdict, validL1, hval, ht, hl]
    rfl
  | l2 m => exact hval _ _ _ _ _ _ _ _

/-- What the entry holds is a quote of the trading day, not after the quotes to come. -/
def Held (d : TradingDay) (s : Run) (qs : List Quote) : Prop :=
  s.recv.cache.level ≠ 0 → ∃ ns, d.InSession ns ∧ s.recv.cache.time.toNat = beijingMs ns ∧
    ∀ q ∈ qs, ns ≤ q.instant

theorem Held.step {d : TradingDay} {s : Run} {q : Quote} {qs : List Quote} (hq : q.Stamped)
    (hin : d.InSession q.instant) (hle : ∀ q' ∈ qs, q.instant ≤ q'.instant) (h : Held d s (q :: qs)) :
    Held d (s.step q.msg) qs := by
  intro hl
  by_cases hok : q.msg.verdict s.recv.cache = .ok
  · refine ⟨q.instant, hin, ?_, hle⟩
    rw [show (s.step q.msg).recv.cache.time = q.msg.stamp.1 from (handle_ok hok).time]
    exact Quote.stamp_toNat hq hin
  · have hne : s.recv.cache.level ≠ 0 := fun h0 => hok (verdict_empty q.msg h0)
    obtain ⟨ns, hns, ht, hbefore⟩ := h hne
    refine ⟨ns, hns, ?_, fun q' hq' => hbefore q' (List.mem_cons_of_mem q hq')⟩
    rw [show (s.step q.msg).recv.cache.time = s.recv.cache.time from (handle_rejected hok).time]
    exact ht

/-- On an entry that is not ahead of the day, only the night is before the quote. -/
theorem noTimeError_iff {d : TradingDay} {s : Run} {q : Quote} {qs : List Quote} (hq : q.Stamped)
    (hin : d.InSession q.instant) (h : Held d s (q :: qs)) : NoTimeError s q ↔ NoCrossing d s q := by
  have hstamp := Quote.stamp_toNat hq hin
  unfold NoTimeError NoCrossing HoldsNight
  rw [Ne, verdict_timeError, UInt64.lt_iff_toNat_lt, hstamp, UInt64.le_iff_toNat_le]
  simp only [UInt64.reduceToNat]
  constructor
  · intro hno hday ⟨hl, hnight⟩
    exact hno ⟨hl, by have := hday.2.2; omega⟩
  · intro hno ⟨hl, hlt⟩
    obtain ⟨ns, hns, ht, hbefore⟩ := h hl
    have hcross : d.Night ns ∧ d.Day q.instant := by
      by_contra hsame
      have := d.beijingMs_le hns hin (hbefore q List.mem_cons_self) hsame
      omega
    exact hno hcross.2 ⟨hl, by have := hcross.1.2.1; omega⟩

theorem along_iff {d : TradingDay} {s : Run} {qs : List Quote} (hc : Chronological d qs) (h : Held d s qs) :
    machine.Along NoTimeError s qs ↔ machine.Along (NoCrossing d) s qs := by
  induction qs generalizing s with
  | nil => exact Iff.rfl
  | cons q qs ih =>
    obtain ⟨hst, hin, hord, hvol⟩ := hc
    rw [List.forall_mem_cons] at hst hin
    rw [List.pairwise_cons] at hord hvol
    have htail : Chronological d qs := ⟨hst.2, hin.2, hord.2, hvol.2⟩
    have hs' := h.step hst.1 hin.1 hord.1
    have hstep : ∀ ok : Run → Quote → Prop,
        (∀ s', machine.step s q = some s' → machine.Along ok s' qs) ↔ machine.Along ok (s.step q.msg) qs :=
      fun ok => ⟨fun ha => ha _ rfl, fun ha s' he => Option.some.inj he ▸ ha⟩
    unfold Machine.Along
    rw [hstep, hstep, noTimeError_iff hst.1 hin.1 h, ih htail hs']

/-- **Exact condition.** -/
theorem no_time_error_iff {d : TradingDay} {qs : List Quote} (h : Chronological d qs) :
    machine.Along NoTimeError Run.start qs ↔ machine.Along (NoCrossing d) Run.start qs :=
  along_iff h fun hl => absurd rfl hl

/-- A Level-1 quote of 21:00 on the first evening and one of 09:00 the next day. -/
def nightThenDay : List Quote :=
  [⟨46800000000000, .l1 ⟨46800000000000, 1230000, 10, 1220000, 3, 1240000, 4⟩⟩,
    ⟨90000000000000, .l1 ⟨90000000000000, 1240000, 12, 1230000, 3, 1250000, 4⟩⟩]

def firstDay : TradingDay := ⟨0, 1, Nat.zero_lt_one⟩

theorem nightThenDay_chronological : Chronological firstDay nightThenDay where
  stamped := by simp [nightThenDay, Quote.Stamped]
  inSession := by
    have h1 : firstDay.Night 46800000000000 := ⟨rfl, by decide, by decide⟩
    have h2 : firstDay.Day 90000000000000 := ⟨rfl, by decide, by decide⟩
    simp [nightThenDay, TradingDay.InSession, h1, h2]
  ordered := by simp [nightThenDay]
  volume := by simp [nightThenDay, Msg.stamp]

theorem no_time_error_iff_nightThenDay :
    machine.Along NoTimeError Run.start nightThenDay ↔ machine.Along (NoCrossing firstDay) Run.start nightThenDay :=
  no_time_error_iff nightThenDay_chronological

/-- The first quote of the day session is rejected. -/
theorem time_error_in_the_morning : ¬ ∀ d qs, Chronological d qs → machine.Along NoTimeError Run.start qs := by
  intro h
  obtain ⟨-, h2⟩ := h firstDay nightThenDay nightThenDay_chronological
  obtain ⟨h3, -⟩ := h2 _ rfl
  exact h3 (by decide +kernel)

end MdInfoSet.L4.DceSession
