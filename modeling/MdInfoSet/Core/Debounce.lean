import Mathlib.Data.List.Chain
import Mathlib.Data.UInt

/-!
# Debouncing a stream of events

A debouncer passes an event on unless it continues the event right before it, passed or
not. `s` is the stream with the verdicts: `Debounced cont s` says they are the debouncer's.

A *burst* is a series of events each of which continues the one before it, while its first
does not. Only the first is passed on (`Debounced.chain_dropped`), however long the burst
lasts, so that the last event passed on before a dropped one is the first of its burst
(`Debounced.dropped_iff`).
-/
namespace MdInfoSet.Debounce

variable {α : Type} {cont : α → α → Prop} {s pre post : List (α × Bool)} {x : α}

/-- Every event is dropped exactly if it continues the one before it. -/
def Debounced (cont : α → α → Prop) (s : List (α × Bool)) : Prop :=
  ∀ pre x b post, s = pre ++ (x, b) :: post → (b = false ↔ ∃ p ∈ pre.getLast?, cont p.1 x)

/-- `h` is the last event passed on. -/
def LastPassed (s : List (α × Bool)) (h : α) : Prop :=
  ∃ pre mid, s = pre ++ (h, true) :: mid ∧ ∀ y ∈ mid, y.2 = false

/-- `x` continues a burst of the events `xs` that `h` began. -/
def Burst (cont : α → α → Prop) (xs : List α) (h x : α) : Prop :=
  ∃ pre mid post, xs = pre ++ h :: (mid ++ x :: post) ∧ (∀ p ∈ pre.getLast?, ¬ cont p h) ∧
    (h :: (mid ++ [x])).IsChain cont

theorem debounced_nil : Debounced cont [] := by
  intro pre x b post h
  simp at h

/-- One more event. -/
theorem debounced_append {b : Bool} :
    Debounced cont (s ++ [(x, b)]) ↔ Debounced cont s ∧ (b = false ↔ ∃ p ∈ s.getLast?, cont p.1 x) := by
  constructor
  · intro h
    refine ⟨fun pre y c post hs => ?_, h s x b [] rfl⟩
    exact h pre y c (post ++ [(x, b)]) (by simp [hs])
  · intro ⟨hs, hx⟩ pre y c post heq
    rcases List.eq_nil_or_concat post with rfl | ⟨post, z, rfl⟩
    · obtain ⟨rfl, hy⟩ := List.append_inj' heq rfl
      cases hy
      exact hx
    · have heq' : s ++ [(x, b)] = (pre ++ (y, c) :: post) ++ [z] := by simp [heq]
      exact hs pre y c post (List.append_inj' heq' rfl).1

theorem Debounced.left (h : Debounced cont (pre ++ post)) : Debounced cont pre :=
  fun pre' y c post' hs => h pre' y c (post' ++ post) (by simp [hs])

/-- The first event of the burst of a dropped event is the last one passed on. -/
theorem Debounced.exists_burst (h : Debounced cont (pre ++ [(x, false)])) :
    ∃ pre' f mid, pre = pre' ++ (f, true) :: mid ∧ (∀ y ∈ mid, y.2 = false) ∧
      (∀ p ∈ pre'.getLast?, ¬ cont p.1 f) ∧ (f :: (mid.map Prod.fst ++ [x])).IsChain cont := by
  induction pre using List.reverseRecOn generalizing x with
  | nil =>
    obtain ⟨p, hp, -⟩ := (h [] x false [] rfl).mp rfl
    simp at hp
  | append_singleton pre p ih =>
    obtain ⟨y, b⟩ := p
    obtain ⟨q, hq, hc⟩ := (h (pre ++ [(y, b)]) x false [] rfl).mp rfl
    rw [List.getLast?_concat, Option.mem_some_iff] at hq
    subst hq
    have hpre := h.left
    cases b with
    | true =>
      refine ⟨pre, y, [], rfl, by simp, fun p hp hcp => ?_, by simpa using hc⟩
      exact absurd ((hpre pre y true [] rfl).mpr ⟨p, hp, hcp⟩) (by simp)
    | false =>
      obtain ⟨pre', f, mid, rfl, hmid, hfirst, hchain⟩ := ih hpre
      refine ⟨pre', f, mid ++ [(y, false)], by simp, ?_, hfirst, ?_⟩
      · intro z hz
        rcases List.mem_append.mp hz with hz | hz
        · exact hmid z hz
        · rw [List.mem_singleton.mp hz]
      · have hsplit : f :: ((mid ++ [(y, false)]).map Prod.fst ++ [x]) =
            (f :: mid.map Prod.fst ++ [y]) ++ [x] := by simp
        rw [hsplit, List.isChain_append]
        refine ⟨by simpa using hchain, by simp, ?_⟩
        rw [List.getLast?_concat]
        simpa using hc

/-- What continues a burst is dropped. -/
theorem Debounced.chain_dropped {f : α} {b : Bool} {l : List (α × Bool)}
    (h : Debounced cont (pre ++ (f, b) :: l))
    (hchain : (f :: l.map Prod.fst).IsChain cont) : ∀ y ∈ l, y.2 = false := by
  induction l generalizing pre f b with
  | nil => simp
  | cons y l ih =>
    obtain ⟨y, c⟩ := y
    rw [List.map_cons, List.isChain_cons_cons] at hchain
    have hc : c = false := (h (pre ++ [(f, b)]) y c l (by simp)).mpr ⟨(f, b), by simp, hchain.1⟩
    have hrest := @ih (pre ++ [(f, b)]) y c (by simpa using h) hchain.2
    intro z hz
    rcases List.mem_cons.mp hz with rfl | hz
    · exact hc
    · exact hrest z hz

/-- Before a dropped event one was passed on. -/
theorem Debounced.lastPassed (h : Debounced cont (pre ++ (x, false) :: post)) : ∃ f, LastPassed pre f := by
  have hpre : Debounced cont (pre ++ [(x, false)]) := @Debounced.left _ _ _ post (by simpa using h)
  obtain ⟨pre', f, mid, hs, hmid, -, -⟩ := hpre.exists_burst
  exact ⟨f, pre', mid, hs, hmid⟩

theorem lastPassed_unique {f g : α} (hf : LastPassed s f) (hg : LastPassed s g) : f = g := by
  obtain ⟨pre, mid, rfl, hmid⟩ := hf
  obtain ⟨pre', mid', heq, hmid'⟩ := hg
  have hlast : ∀ (pre mid : List (α × Bool)) (f : α), (∀ y ∈ mid, y.2 = false) →
      ((pre ++ (f, true) :: mid).filter Prod.snd).getLast? = some (f, true) := by
    intro pre mid f hmid
    have hnone : mid.filter Prod.snd = [] := List.filter_eq_nil_iff.mpr fun y hy => by simp [hmid y hy]
    simp [hnone]
  have h1 := hlast pre mid f hmid
  rw [heq, hlast pre' mid' g hmid'] at h1
  simpa using h1.symm

/-- The dropped events stand to the last one passed on as those that continue a burst stand
to its first. -/
theorem Debounced.dropped_iff {P : α → α → Prop} (h : Debounced cont s) :
    (∀ pre x post, s = pre ++ (x, false) :: post → ∀ f, LastPassed pre f → P f x) ↔
      ∀ f x, Burst cont (s.map Prod.fst) f x → P f x := by
  constructor
  · intro hP f x ⟨pre, mid, post, hs, hfirst, hchain⟩
    obtain ⟨pre', l1, rfl, rfl, h1⟩ := List.map_eq_append_iff.mp hs
    obtain ⟨⟨f, b⟩, l2, rfl, rfl, h2⟩ := List.map_eq_cons_iff.mp h1
    obtain ⟨mid', l3, rfl, rfl, h3⟩ := List.map_eq_append_iff.mp h2
    obtain ⟨⟨x, c⟩, post', rfl, rfl, rfl⟩ := List.map_eq_cons_iff.mp h3
    have hdropped := @Debounced.chain_dropped _ _ _ f b (mid' ++ [(x, c)])
      (@Debounced.left _ _ _ post' (by simpa using h)) (by simpa using hchain)
    have hb : b = true := by
      by_contra hb
      obtain ⟨p, hp, hc⟩ := (h pre' f b _ rfl).mp (by simpa using hb)
      exact hfirst p.1 (by rw [List.getLast?_map, hp]; rfl) hc
    have hc : c = false := hdropped (x, c) (by simp)
    subst hb hc
    refine hP (pre' ++ (f, true) :: mid') x post' (by simp) f ⟨pre', mid', rfl, fun y hy => ?_⟩
    exact hdropped y (by simp [hy])
  · rintro hP pre x post rfl f hf
    have hpre : Debounced cont (pre ++ [(x, false)]) := @Debounced.left _ _ _ post (by simpa using h)
    obtain ⟨pre', g, mid, rfl, hmid, hfirst, hchain⟩ := hpre.exists_burst
    obtain rfl := lastPassed_unique hf ⟨pre', mid, rfl, hmid⟩
    refine hP f x ⟨pre'.map Prod.fst, mid.map Prod.fst, post.map Prod.fst, by simp, fun p hp => ?_, hchain⟩
    rw [List.getLast?_map, Option.mem_def, Option.map_eq_some_iff] at hp
    obtain ⟨q, hq, rfl⟩ := hp
    exact hfirst q hq

end MdInfoSet.Debounce
