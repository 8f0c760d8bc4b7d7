import MdInfoSet.Core.Search
import MdInfoSet.L4App.ContractCode

/-!
# Splitting strings (`common.h`)

`SplitString` takes the stretches of characters that are not in a set of delimiters, with
positions of 32 bits. `MySplitString` cuts at every occurrence of one delimiter, which is a
string of its own.

* `SplitString_tokens`: below 2^32 − 1 characters, all the longest stretches, in order.

**Exact condition.** What `MySplitString` returns joins to the string again exactly if the
delimiter has one character or does not occur (`MySplitString_iff`). No part ever contains
the delimiter, but behind an occurrence only one character is skipped.

**Counterexample.** `"a::b"` at `"::"` gives `"a"` and `":b"` (`MySplitString_colons`).
-/
namespace MdInfoSet.StringSplit

open MdInfoSet.Checked (Returns whileLoop returns_whileLoop returns_const)
open MdInfoSet.FutureStaticInfo (Text substr)
open MdInfoSet.Search MdInfoSet.WhileLoop

/-! ## `std::string` -/

def npos : Nat := 2 ^ 64 - 1

/-- A position as a `size_t`. -/
def sizeT (position : Option Nat) : Nat := position.getD npos

def find_first_not_of (str delimiters : Text) (pos : Nat) : Option Nat :=
  first (fun k => str[k]?.any (· ∉ delimiters)) pos str.length

def find_first_of (str delimiters : Text) (pos : Nat) : Option Nat :=
  first (fun k => str[k]?.any (· ∈ delimiters)) pos str.length

def find (strs delimiter : Text) (pos : Nat) : Option Nat :=
  first (fun k => delimiter.isPrefixOf (strs.drop k)) pos (strs.length + 1)

/-! ## `SplitString` -/

structure Cursor where
  pos : Nat
  pos2 : Nat
  results : List Text

/-- The two searches; both positions are `uint32_t`. -/
def search (str delimiters : Text) (start : Nat) (results : List Text) : Cursor :=
  let pos := sizeT (find_first_not_of str delimiters start) % 2 ^ 32
  let pos2 := min (sizeT (find_first_of str delimiters pos)) str.length % 2 ^ 32
  ⟨pos, pos2, results⟩

def splitRound (str delimiters : Text) (s : Cursor) : Round Cursor (Except Fault (List Text)) :=
  if s.pos < s.pos2 then
    match substr str s.pos (s.pos2 - s.pos) with
    | .ok sub => .next (search str delimiters s.pos2 (s.results ++ [sub]))
    | .error e => .leave (.error e)
  else .leave (.ok s.results)

/-- mirrors src/qx_commom/common.h:557-567, for at most `fuel` rounds -/
def SplitString (str delimiters : Text) (fuel : Nat) : Except Fault (List Text) :=
  whileLoop (splitRound str delimiters) fuel (search str delimiters 0 [])

/-! ## `MySplitString` -/

/-- `Lpos` is `none` for `npos`. -/
structure MyCursor where
  Rpos : Nat
  Lpos : Option Nat
  results : List Text

/-- At the end `Rpos` is a position and so is not `npos`. -/
def mySplitRound (strs delimiter : Text) (s : MyCursor) : Round MyCursor (Except Fault (List Text)) :=
  match s.Lpos with
  | some Lpos =>
    match substr strs s.Rpos (Lpos - s.Rpos) with
    | .ok part => .next ⟨Lpos + 1, find strs delimiter (Lpos + 1), s.results ++ [part]⟩
    | .error e => .leave (.error e)
  | none => .leave ((substr strs s.Rpos (strs.length - s.Rpos)).map fun part => s.results ++ [part])

/-- mirrors src/qx_commom/common.h:569-582, for at most `fuel` rounds -/
def MySplitString (strs delimiter : Text) (fuel : Nat) : Except Fault (List Text) :=
  if strs.length = 0 then .ok []
  else whileLoop (mySplitRound strs delimiter) fuel ⟨0, find strs delimiter 0, []⟩

theorem substr_inside {s : Text} {pos : Nat} (h : pos ≤ s.length) (n : Nat) :
    substr s pos n = .ok ((s.drop pos).take n) := if_neg (by omega)

/-! ## Tokens -/

/-- A character that is there and not in the set. -/
def inToken (str delimiters : Text) (k : Nat) : Bool := str[k]?.any (· ∉ delimiters)

/-- The text of a stretch. -/
def between (str : Text) (span : Nat × Nat) : Text := (str.drop span.1).take (span.2 - span.1)

/-- In order all the longest stretches of characters that are not in the set. -/
def Tokens (str delimiters : Text) (tokens : List Text) : Prop :=
  ∃ spans, Runs (inToken str delimiters) spans ∧ tokens = spans.map (between str)

section Tokens

variable {str delimiters : Text}

theorem delimiter_iff {k : Nat} (hk : k < str.length) :
    str[k]?.any (· ∈ delimiters) = false ↔ inToken str delimiters k = true := by
  simp [inToken, List.getElem?_eq_getElem hk]

/-- The end of a run is where the search for a delimiter, or else the string, ends. -/
theorem run_of_search {start pos : Nat} (hstart : start = 0 ∨ inToken str delimiters start = false)
    (hpos : find_first_not_of str delimiters start = some pos) :
    IsRun (inToken str delimiters) pos ((find_first_of str delimiters pos).getD str.length) := by
  obtain ⟨hle, hlt, htoken, hgap⟩ := first_some.mp hpos
  have hbefore' (k : Nat) (hk : k + 1 = pos) : inToken str delimiters k = false := by
    rcases Nat.lt_or_ge k start with hks | hks
    · obtain rfl : pos = start := by omega
      rcases hstart with hzero | hdelim
      · omega
      · rw [inToken, htoken] at hdelim
        cases hdelim
    · exact hgap k hks (by omega)
  cases hend : find_first_of str delimiters pos with
  | none =>
    refine ⟨hlt, fun k hk hks => (delimiter_iff hks).mp (first_none.mp hend k hk hks), hbefore', ?_⟩
    simp [inToken]
  | some pos2 =>
    obtain ⟨hle2, hlt2, hdelim, hrun⟩ := first_some.mp hend
    have hbehind : inToken str delimiters pos2 = false := by
      simpa [inToken, List.getElem?_eq_getElem hlt2] using hdelim
    have hne : pos ≠ pos2 := by
      rintro rfl
      rw [inToken] at hbehind
      rw [hbehind] at htoken
      cases htoken
    exact ⟨by simp only [Option.getD_some]; omega,
      fun k hk hks => (delimiter_iff (by simp only [Option.getD_some] at hks; omega)).mp (hrun k hk hks), hbefore', hbehind⟩

/-- The positions of one round, both below 2^32. -/
theorem search_found (hlen : str.length < 2 ^ 32 - 1) {start pos : Nat} (results : List Text)
    (hpos : find_first_not_of str delimiters start = some pos) :
    search str delimiters start results = ⟨pos, (find_first_of str delimiters pos).getD str.length, results⟩ := by
  have hlt := (first_some.mp hpos).2.1
  have hpos32 : sizeT (find_first_not_of str delimiters start) % 2 ^ 32 = pos := by
    simp only [hpos, sizeT, Option.getD_some]
    omega
  have hpos2 : min (sizeT (find_first_of str delimiters pos)) str.length % 2 ^ 32 =
      (find_first_of str delimiters pos).getD str.length := by
    cases hend : find_first_of str delimiters pos with
    | none =>
      simp only [sizeT, npos, Option.getD_none]
      omega
    | some pos2 =>
      have hlt2 := (first_some.mp hend).2.1
      simp only [sizeT, Option.getD_some]
      omega
  simp only [search, hpos32, hpos2]

/-- Without a further token the truncated `npos` is behind the string, and so the loop ends. -/
theorem search_end (hlen : str.length < 2 ^ 32 - 1) {start : Nat} (results : List Text)
    (hpos : find_first_not_of str delimiters start = none) :
    search str delimiters start results = ⟨2 ^ 32 - 1, str.length, results⟩ := by
  have hpos32 : sizeT (find_first_not_of str delimiters start) % 2 ^ 32 = 2 ^ 32 - 1 := by
    simp [hpos, sizeT, npos]
  have hend : find_first_of str delimiters (2 ^ 32 - 1) = none :=
    first_none.mpr fun k hk hlt => by omega
  have hpos2 : min (sizeT none) str.length % 2 ^ 32 = str.length := by
    simp only [sizeT, npos, Option.getD_none]
    omega
  simp only [search, hpos32, hend, hpos2]

/-- What the loop keeps: the tokens before the position of the last search are found. -/
structure SplitInv (str delimiters : Text) (s : Cursor) (start : Nat) (spans : List (Nat × Nat)) : Prop where
  state : s = search str delimiters start (spans.map (between str))
  runs : RunsBelow (inToken str delimiters) start spans
  start_zero_or : start = 0 ∨ inToken str delimiters start = false

theorem splitRound_next (hlen : str.length < 2 ^ 32 - 1) {s : Cursor} {start pos : Nat} {spans : List (Nat × Nat)}
    (h : SplitInv str delimiters s start spans) (hpos : find_first_not_of str delimiters start = some pos) :
    ∃ s' pos2, splitRound str delimiters s = .next s' ∧ SplitInv str delimiters s' pos2 (spans ++ [(pos, pos2)]) ∧
      s.pos < s'.pos ∧ s.pos < 2 ^ 32 := by
  obtain ⟨hle, hlt, -, hgap⟩ := first_some.mp hpos
  have hrun := run_of_search h.start_zero_or hpos
  generalize hpos2 : (find_first_of str delimiters pos).getD str.length = pos2 at hrun
  have hs : s = ⟨pos, pos2, spans.map (between str)⟩ := by rw [h.state, search_found hlen _ hpos, hpos2]
  have hinv : SplitInv str delimiters (search str delimiters pos2 ((spans ++ [(pos, pos2)]).map (between str))) pos2
      (spans ++ [(pos, pos2)]) := ⟨rfl, h.runs.append hle hgap hrun, .inr hrun.behind⟩
  refine ⟨_, pos2, ?_, hinv, ?_, by rw [hs]; dsimp only; omega⟩
  · simp [splitRound, hs, hrun.lt, substr_inside (Nat.le_of_lt hlt), between]
  · rw [hs]
    cases hnext : find_first_not_of str delimiters pos2 with
    | none =>
      rw [search_end hlen _ hnext]
      dsimp only
      omega
    | some pos' =>
      have hle' := (first_some.mp hnext).1
      have hlt' := hrun.lt
      rw [search_found hlen _ hnext]
      dsimp only
      omega

theorem splitRound_leave (hlen : str.length < 2 ^ 32 - 1) {s : Cursor} {start : Nat} {spans : List (Nat × Nat)}
    (h : SplitInv str delimiters s start spans) (hpos : find_first_not_of str delimiters start = none) :
    splitRound str delimiters s = .leave (.ok (spans.map (between str))) ∧ Runs (inToken str delimiters) spans := by
  refine ⟨?_, h.runs.runs fun k hk => ?_⟩
  · have hge : ¬ 2 ^ 32 - 1 < str.length := by omega
    rw [h.state, search_end hlen _ hpos, splitRound]
    dsimp only
    rw [if_neg hge]
  · rcases Nat.lt_or_ge k str.length with hlt | hge
    · exact first_none.mp hpos k hk hlt
    · simp [inToken, List.getElem?_eq_none hge]

end Tokens

theorem SplitString_tokens (str delimiters : Text) (hlen : str.length < 2 ^ 32 - 1) :
    ∃ tokens, Returns (SplitString str delimiters) (.ok tokens) ∧ Tokens str delimiters tokens := by
  have hloop : ∃ r, Ends (splitRound str delimiters) (search str delimiters 0 []) r ∧
      ∃ tokens, r = .ok tokens ∧ Tokens str delimiters tokens := by
    refine ends_of_rounds (fun s => ∃ start spans, SplitInv str delimiters s start spans) (fun s => 2 ^ 32 - s.pos)
      (fun s ⟨start, spans, hinv⟩ => ?_) ⟨0, [], rfl, runsBelow_zero, .inl rfl⟩
    cases hpos : find_first_not_of str delimiters start with
    | none =>
      obtain ⟨hround, hruns⟩ := splitRound_leave hlen hinv hpos
      exact .inr ⟨_, hround, _, rfl, spans, hruns, rfl⟩
    | some pos =>
      obtain ⟨s', pos2, hround, hinv', hlt, hbound⟩ := splitRound_next hlen hinv hpos
      exact .inl ⟨s', hround, ⟨pos2, _, hinv'⟩, by omega⟩
  obtain ⟨r, hends, tokens, rfl, htokens⟩ := hloop
  exact ⟨tokens, returns_whileLoop hends, htokens⟩

/-- Tokens at both ends, delimiters between them and an empty field. -/
theorem SplitString_line : (";,IF2403,,IO;".toList).length < 2 ^ 32 - 1 ∧
    ∃ tokens, Returns (SplitString ";,IF2403,,IO;".toList ",;".toList) (.ok tokens) ∧
      Tokens ";,IF2403,,IO;".toList ",;".toList tokens :=
  ⟨by decide, SplitString_tokens ";,IF2403,,IO;".toList ",;".toList (by decide)⟩

example : SplitString ";,IF2403,,IO;".toList ",;".toList 10 = .ok ["IF2403".toList, "IO".toList] := by rfl

/-! ## Parts -/

/-- The parts joined are the string, and the delimiter is in none of them. -/
def RoundTrip (strs delimiter : Text) (parts : List Text) : Prop :=
  delimiter.intercalate parts = strs ∧ ∀ part ∈ parts, ¬ delimiter <:+: part

section Parts

variable {strs delimiter : Text}

theorem intercalate_snoc (delimiter last : Text) (parts : List Text) :
    delimiter.intercalate (parts ++ [last]) = parts.flatMap (· ++ delimiter) ++ last := by
  induction parts with
  | nil => simp
  | cons part rest ih =>
    rw [List.cons_append, List.intercalate_cons_of_ne_nil (by simp), ih]
    simp

/-- Each part has one character behind it in the string, and the whole delimiter in the join. -/
theorem length_joined (delimiter : Text) (parts : List Text) :
    (parts.flatMap (· ++ delimiter)).length + parts.length * (delimiter.take 1).length =
      (parts.flatMap (· ++ delimiter.take 1)).length + parts.length * delimiter.length := by
  induction parts with
  | nil => simp
  | cons part rest ih =>
    simp only [List.flatMap_cons, List.length_append, List.length_cons, Nat.add_mul] at ih ⊢
    omega

/-- No occurrence starts in a stretch, so that its text has none. -/
theorem not_infix_take {n : Nat} {s : Text} (hd : delimiter ≠ [])
    (h : ∀ k, k < n → delimiter.isPrefixOf (s.drop k) = false) : ¬ delimiter <:+: s.take n := by
  intro ⟨before, behind, heq⟩
  have hlen := congrArg List.length heq
  have hpos := List.length_pos_iff.mpr hd
  simp only [List.length_append, List.length_take] at hlen
  have hprefix : delimiter <+: s.drop before.length := by
    refine List.IsPrefix.trans ⟨behind, ?_⟩ (List.take_prefix (n - before.length) (s.drop before.length))
    rw [← List.drop_take, ← heq, List.append_assoc, List.drop_left]
  rw [← List.isPrefixOf_iff_prefix, h before.length (by omega)] at hprefix
  cases hprefix

theorem first_char {k : Nat} (h : delimiter <+: strs.drop k) (hd : delimiter ≠ []) :
    (strs.drop k).take 1 = delimiter.take 1 := by
  obtain ⟨behind, hbehind⟩ := h
  rw [← hbehind, List.take_append_of_le_length (List.length_pos_iff.mpr hd)]

/-- What the loop keeps: with the one character behind each, the parts are the string so far. -/
structure MyInv (strs delimiter : Text) (s : MyCursor) : Prop where
  Lpos_eq : s.Lpos = find strs delimiter s.Rpos
  Rpos_le : s.Rpos ≤ strs.length
  covered : s.results.flatMap (· ++ delimiter.take 1) = strs.take s.Rpos
  clean : ∀ part ∈ s.results, ¬ delimiter <:+: part
  occurs : s.results ≠ [] ↔ ∃ k, k < s.Rpos ∧ delimiter <+: strs.drop k

theorem mySplitRound_next (hd : delimiter ≠ []) {s : MyCursor} (h : MyInv strs delimiter s) {Lpos : Nat}
    (hpos : s.Lpos = some Lpos) :
    ∃ s', mySplitRound strs delimiter s = .next s' ∧ MyInv strs delimiter s' ∧ s.Rpos < s'.Rpos := by
  obtain ⟨hle, -, hprefix, hgap⟩ := first_some.mp (h.Lpos_eq ▸ hpos)
  rw [List.isPrefixOf_iff_prefix] at hprefix
  have hlt : Lpos < strs.length := by
    have hlen := hprefix.length_le
    have hpos := List.length_pos_iff.mpr hd
    rw [List.length_drop] at hlen
    omega
  have hpart : ¬ delimiter <:+: (strs.drop s.Rpos).take (Lpos - s.Rpos) :=
    not_infix_take hd fun k hk => by rw [List.drop_drop]; exact hgap _ (by omega) (by omega)
  have hcovered : strs.take (Lpos + 1) =
      strs.take s.Rpos ++ ((strs.drop s.Rpos).take (Lpos - s.Rpos) ++ delimiter.take 1) := by
    rw [← first_char hprefix hd, ← List.append_assoc, ← List.take_add, List.take_add, Nat.add_sub_cancel' hle]
  refine ⟨⟨Lpos + 1, find strs delimiter (Lpos + 1), s.results ++ [(strs.drop s.Rpos).take (Lpos - s.Rpos)]⟩,
    by simp [mySplitRound, hpos, substr_inside h.Rpos_le], ⟨rfl, hlt, ?_, ?_, ?_⟩, Nat.lt_succ_of_le hle⟩
  · simp [List.flatMap_append, h.covered, hcovered]
  · intro part hmem
    rcases List.mem_append.mp hmem with hmem | hmem
    · exact h.clean part hmem
    · exact List.mem_singleton.mp hmem ▸ hpart
  · exact iff_of_true (by simp) ⟨Lpos, Nat.lt_succ_self _, hprefix⟩

/-- What the loop leaves with, in terms of the string. -/
structure Cut (strs delimiter : Text) (results : List Text) (last : Text) : Prop where
  covered : results.flatMap (· ++ delimiter.take 1) ++ last = strs
  clean : ∀ part ∈ results ++ [last], ¬ delimiter <:+: part
  occurs : results ≠ [] ↔ delimiter <:+: strs

theorem infix_iff_drop : delimiter <:+: strs ↔ ∃ k, delimiter <+: strs.drop k := by
  constructor
  · rintro ⟨before, behind, rfl⟩
    exact ⟨before.length, behind, by rw [List.append_assoc, List.drop_left]⟩
  · intro ⟨k, hprefix⟩
    exact hprefix.isInfix.trans (List.drop_suffix k strs).isInfix

theorem mySplitRound_leave (hd : delimiter ≠ []) {s : MyCursor} (h : MyInv strs delimiter s) (hpos : s.Lpos = none) :
    ∃ last, mySplitRound strs delimiter s = .leave (.ok (s.results ++ [last])) ∧
      Cut strs delimiter s.results last := by
  have hnone (k : Nat) (hk : s.Rpos ≤ k) : delimiter.isPrefixOf (strs.drop k) = false := by
    rcases Nat.lt_or_ge strs.length k with hlt | hle
    · rw [List.drop_eq_nil_of_le (Nat.le_of_lt hlt)]
      cases delimiter with
      | nil => exact absurd rfl hd
      | cons c rest => rfl
    · exact first_none.mp (h.Lpos_eq ▸ hpos) k hk (by omega)
  have htake : (strs.drop s.Rpos).take (strs.length - s.Rpos) = strs.drop s.Rpos :=
    List.take_of_length_le (by simp)
  refine ⟨strs.drop s.Rpos, ?_, ⟨?_, fun part hmem => ?_, ?_⟩⟩
  · simp [mySplitRound, hpos, substr_inside h.Rpos_le, Except.map, htake]
  · rw [h.covered, List.take_append_drop]
  · rcases List.mem_append.mp hmem with hmem | hmem
    · exact h.clean part hmem
    · rw [List.mem_singleton.mp hmem, ← htake]
      exact not_infix_take hd fun k _ => by rw [List.drop_drop]; exact hnone _ (by omega)
  · rw [h.occurs, infix_iff_drop]
    refine ⟨fun ⟨k, _, hprefix⟩ => ⟨k, hprefix⟩, fun ⟨k, hprefix⟩ => ⟨k, ?_, hprefix⟩⟩
    by_contra hle
    rw [← List.isPrefixOf_iff_prefix, hnone k (by omega)] at hprefix
    cases hprefix

theorem roundTrip_iff (hd : delimiter ≠ []) {results : List Text} {last : Text} (h : Cut strs delimiter results last) :
    RoundTrip strs delimiter (results ++ [last]) ↔ delimiter.length = 1 ∨ ¬ delimiter <:+: strs := by
  have hpos := List.length_pos_iff.mpr hd
  have hone : (delimiter.take 1).length = 1 := by rw [List.length_take]; omega
  constructor
  · rintro ⟨hjoin, -⟩
    rw [intercalate_snoc, ← h.covered, List.append_cancel_right_eq] at hjoin
    have hlen := length_joined delimiter results
    rw [hjoin, hone, Nat.add_left_cancel_iff] at hlen
    by_cases hres : results = []
    · exact .inr fun hin => h.occurs.mpr hin hres
    · exact .inl (Nat.eq_of_mul_eq_mul_left (List.length_pos_iff.mpr hres) hlen).symm
  · rintro (hlen | hno)
    · have htake : delimiter.take 1 = delimiter := List.take_of_length_le (by omega)
      have hcovered := h.covered
      rw [htake] at hcovered
      exact ⟨by rw [intercalate_snoc, hcovered], h.clean⟩
    · have hres : results = [] := by
        by_contra hne
        exact hno (h.occurs.mp hne)
      subst hres
      exact ⟨by simpa using h.covered, h.clean⟩

end Parts

theorem MySplitString_cut {strs delimiter : Text} (hd : delimiter ≠ []) (hstrs : strs ≠ []) :
    ∃ results last, Returns (MySplitString strs delimiter) (.ok (results ++ [last])) ∧
      Cut strs delimiter results last := by
  have hloop : ∃ r, Ends (mySplitRound strs delimiter) ⟨0, find strs delimiter 0, []⟩ r ∧
      ∃ results last, r = .ok (results ++ [last]) ∧ Cut strs delimiter results last := by
    refine ends_of_rounds (MyInv strs delimiter) (fun s => strs.length + 1 - s.Rpos) (fun s hs => ?_)
      ⟨rfl, Nat.zero_le _, rfl, by simp, by simp⟩
    cases hpos : s.Lpos with
    | none =>
      obtain ⟨last, hround, hcut⟩ := mySplitRound_leave hd hs hpos
      exact .inr ⟨_, hround, s.results, last, rfl, hcut⟩
    | some Lpos =>
      obtain ⟨s', hround, hs', hlt⟩ := mySplitRound_next hd hs hpos
      have hle := hs'.Rpos_le
      exact .inl ⟨s', hround, hs', by omega⟩
  obtain ⟨r, hends, results, last, rfl, hcut⟩ := hloop
  refine ⟨results, last, ?_, hcut⟩
  have hne : strs.length ≠ 0 := fun h => hstrs (List.length_eq_zero_iff.mp h)
  have hfun : MySplitString strs delimiter =
      fun fuel => whileLoop (mySplitRound strs delimiter) fuel ⟨0, find strs delimiter 0, []⟩ := by
    funext fuel
    rw [MySplitString, if_neg hne]
  exact hfun ▸ returns_whileLoop hends

/-- It always comes to an end, and what comes out can be joined again under one condition. -/
theorem MySplitString_iff (strs delimiter : Text) (hd : delimiter ≠ []) :
    ∃ parts, Returns (MySplitString strs delimiter) (.ok parts) ∧
      (RoundTrip strs delimiter parts ↔ delimiter.length = 1 ∨ ¬ delimiter <:+: strs) := by
  by_cases hstrs : strs = []
  · subst hstrs
    exact ⟨[], returns_const _, iff_of_true ⟨rfl, by simp⟩ (.inr (by simpa using hd))⟩
  · obtain ⟨results, last, hreturns, hcut⟩ := MySplitString_cut hd hstrs
    exact ⟨_, hreturns, roundTrip_iff hd hcut⟩

theorem MySplitString_commas : ",".toList ≠ [] ∧ ∃ parts, Returns (MySplitString ",a,,b".toList ",".toList) (.ok parts) ∧
    (RoundTrip ",a,,b".toList ",".toList parts ↔ ",".toList.length = 1 ∨ ¬ ",".toList <:+: ",a,,b".toList) :=
  ⟨by decide, MySplitString_iff ",a,,b".toList ",".toList (by decide)⟩

theorem MySplitString_colons : "::".toList ≠ [] ∧
    Returns (MySplitString "a::b".toList "::".toList) (.ok ["a".toList, ":b".toList]) ∧
    ¬ ∃ parts, Returns (MySplitString "a::b".toList "::".toList) (.ok parts) ∧
      RoundTrip "a::b".toList "::".toList parts := by
  have hreturns : Returns (MySplitString "a::b".toList "::".toList) (.ok ["a".toList, ":b".toList]) :=
    returns_whileLoop ⟨2, rfl⟩
  refine ⟨by decide, hreturns, ?_⟩
  rintro ⟨parts, hparts, hjoin, -⟩
  cases hparts.unique hreturns
  exact absurd hjoin (by decide)

end MdInfoSet.StringSplit
