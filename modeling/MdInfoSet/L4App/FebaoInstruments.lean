import Mathlib.Data.List.Basic
import Mathlib.Data.UInt

/-!
# Loading the instruments of a CSV file (`common.h`)

`LoadFebaoInstrumentInfo` goes through the columns of each row and keeps the texts of the
columns 6 and 16 behind their first `_`. A column is one that has a comma behind it, and every
row ends in an insert.

**Exact condition.** The loaded map is that of the rows with at least 17 columns exactly if,
for each new instrument, its first row has 18 columns, or the first of its rows with 17 has an
empty underlying (`load_iff`).

**Counterexample.** In a row of 17 columns the last one is not seen (`last_column_lost`).
-/
namespace MdInfoSet.FebaoInstruments

abbrev Text := List Char

/-- The lines that `std::getline` gives one after the other; at the end of the file it fails if
nothing is left to read. -/
def lines : Text → Text → List Text
  | [], line => if line = [] then [] else [line]
  | c :: rest, line => if c = '\n' then line :: lines rest [] else lines rest (line ++ [c])

/-- `field.substr(field.find('_') + 1)`; without a `_` that is the whole field. -/
def afterUnderscore (field : Text) : Text :=
  if '_' ∈ field then (field.dropWhile (· ≠ '_')).drop 1 else field

/-- The loop over a row: what is left of the line behind the last comma is `field`, read so
far, and `rest`; at the end of the line there is no further comma. -/
def columnLoop : Text → Text → Nat → Text → Text → Text × Text
  | [], _, _, inst, underlying => (inst, underlying)
  | c :: rest, field, currentCol, inst, underlying =>
    if c = ',' then
      columnLoop rest [] (currentCol + 1) (if currentCol = 6 then afterUnderscore field else inst)
        (if currentCol = 16 then afterUnderscore field else underlying)
    else columnLoop rest (field ++ [c]) currentCol inst underlying

abbrev InstMap := Text → Option Text

/-- `std::unordered_map::emplace`: an instrument that is there keeps its underlying. -/
def emplace (m : InstMap) (p : Text × Text) : InstMap := fun inst =>
  match m inst with
  | some underlying => some underlying
  | none => if inst = p.1 then some p.2 else none

/-- The rows behind the title line. -/
def rows (file : Text) : List Text := (lines file []).drop 1

/-- mirrors src/qx_commom/common.h:315-350 -/
def LoadFebaoInstrumentInfo (file : Text) (underlying_inst_map : InstMap) : InstMap :=
  (rows file).foldl (fun m line => emplace m (columnLoop line [] 0 [] [])) underlying_inst_map

/-- mirrors src/qx_commom/common.h:242-278: the same loop, which also collects the instruments -/
def LoadWithTitle (file : Text) (m_underlying_inst : InstMap) (m_inst : Text → Bool) : InstMap × (Text → Bool) :=
  (rows file).foldl (fun s line =>
    let p := columnLoop line [] 0 [] []
    (emplace s.1 p, fun inst => s.2 inst || inst == p.1)) (m_underlying_inst, m_inst)

/-! ## Columns -/

def columns (line : Text) : List Text := line.splitOn ','

/-- The texts of the columns 6 and 16. -/
def instrument (line : Text) : Text := afterUnderscore ((columns line).getD 6 [])

def underlyingText (line : Text) : Text := afterUnderscore ((columns line).getD 16 [])

/-- What the insert of a row uses. -/
def seenInst (line : Text) : Text := if 8 ≤ (columns line).length then instrument line else []

def seenUnderlying (line : Text) : Text := if 18 ≤ (columns line).length then underlyingText line else []

/-- One column further on, for the column `k` that the loop looks for. -/
theorem column_step {α : Type} (f : Text → α) (k col : Nat) (field : Text) {cols : List Text} (hcols : cols ≠ [])
    (old : α) :
    (if col + 1 ≤ k ∧ k + 2 ≤ col + 1 + cols.length then f (cols.getD (k - (col + 1)) [])
      else if col = k then f field else old) =
    if col ≤ k ∧ k + 2 ≤ col + (field :: cols).length then f ((field :: cols).getD (k - col) []) else old := by
  have hpos := List.length_pos_iff.mpr hcols
  rw [List.length_cons]
  by_cases hlt : col + 1 ≤ k
  · have hget : (field :: cols).getD (k - col) [] = cols.getD (k - (col + 1)) [] := by
      rw [show k - col = k - (col + 1) + 1 by omega, List.getD_cons_succ]
    have hne : ¬ col = k := by omega
    have hiff : (col + 1 ≤ k ∧ k + 2 ≤ col + 1 + cols.length) ↔ (col ≤ k ∧ k + 2 ≤ col + (cols.length + 1)) := by omega
    simp only [hget, hne, if_false, hiff]
  · by_cases heq : col = k
    · subst heq
      rw [if_neg (by omega), if_pos rfl, if_pos (by omega), Nat.sub_self, List.getD_cons_zero]
    · rw [if_neg (by omega), if_neg heq, if_neg (by omega)]

theorem columnLoop_eq (rest field : Text) (col : Nat) (inst underlying : Text) :
    columnLoop rest field col inst underlying =
      let cols := rest.splitOnPPrepend (· == ',') field.reverse
      (if col ≤ 6 ∧ 6 + 2 ≤ col + cols.length then afterUnderscore (cols.getD (6 - col) []) else inst,
        if col ≤ 16 ∧ 16 + 2 ≤ col + cols.length then afterUnderscore (cols.getD (16 - col) []) else underlying) := by
  induction rest generalizing field col inst underlying with
  | nil =>
    simp only [columnLoop, List.splitOnPPrepend_nil, List.length_singleton]
    rw [if_neg (by omega), if_neg (by omega)]
  | cons c rest ih =>
    by_cases hc : c = ','
    · have hne := List.splitOnP_ne_nil (· == ',') rest
      rw [columnLoop, if_pos hc, ih, List.splitOnPPrepend_cons_pos (by simp [hc]), List.reverse_nil,
        List.splitOnPPrepend_nil_right, List.reverse_reverse]
      simp only [column_step afterUnderscore _ col field hne]
    · rw [columnLoop, if_neg hc, ih, List.splitOnPPrepend_cons_neg (by simp [hc])]
      simp

theorem columnLoop_line (line : Text) :
    columnLoop line [] 0 [] [] = (seenInst line, seenUnderlying line) := by
  rw [columnLoop_eq]
  simp [seenInst, seenUnderlying, instrument, underlyingText, columns, List.splitOn]

/-! ## Maps -/

/-- Repeated inserts: what was there, and else the first row that has the instrument. -/
theorem foldl_emplace (f : Text → Text × Text) (ls : List Text) (m : InstMap) (inst : Text) :
    ls.foldl (fun m line => emplace m (f line)) m inst =
      (m inst).or ((ls.find? (fun line => (f line).1 = inst)).map (fun line => (f line).2)) := by
  induction ls generalizing m with
  | nil => simp
  | cons line ls ih =>
    rw [List.foldl_cons, ih]
    by_cases h : (f line).1 = inst
    · cases hm : m inst <;> simp [emplace, hm, h]
    · have hne : ¬ inst = (f line).1 := fun heq => h heq.symm
      cases hm : m inst <;> simp [emplace, hm, h, hne]

theorem LoadWithTitle_map (file : Text) (m : InstMap) (m_inst : Text → Bool) :
    (LoadWithTitle file m m_inst).1 = LoadFebaoInstrumentInfo file m := by
  unfold LoadWithTitle LoadFebaoInstrumentInfo
  generalize rows file = ls
  induction ls generalizing m m_inst with
  | nil => rfl
  | cons line ls ih => rw [List.foldl_cons, List.foldl_cons, ih]

/-- The rows with at least 17 columns, each with its two texts. -/
def fullMap (file : Text) (m : InstMap) : InstMap :=
  ((rows file).filter (fun line => 17 ≤ (columns line).length)).foldl
    (fun m line => emplace m (instrument line, underlyingText line)) m

theorem loaded_inst (file : Text) (m : InstMap) (inst : Text) :
    LoadFebaoInstrumentInfo file m inst =
      (m inst).or (((rows file).find? (fun line => seenInst line = inst)).map seenUnderlying) := by
  simp only [LoadFebaoInstrumentInfo, columnLoop_line]
  exact foldl_emplace (fun line => (seenInst line, seenUnderlying line)) _ _ _

/-- A row of 17 columns that has the instrument. -/
def complete (inst : Text) (line : Text) : Bool := 17 ≤ (columns line).length ∧ seenInst line = inst

theorem full_inst (file : Text) (m : InstMap) (inst : Text) :
    fullMap file m inst = (m inst).or (((rows file).find? (complete inst)).map underlyingText) := by
  rw [fullMap, foldl_emplace (fun line => (instrument line, underlyingText line)), List.find?_filter]
  congr 2
  refine congrArg (fun p => List.find? p _) (funext fun line => ?_)
  by_cases h : 17 ≤ (columns line).length
  · have h8 : 8 ≤ (columns line).length := by omega
    simp [complete, seenInst, h, h8]
  · simp [complete, h]

/-- The first row of each instrument that is not in the map yet has a comma behind its 17th
column, or a first row of the instrument with 17 columns follows (itself or later) whose
underlying is empty. -/
def RowsOk (file : Text) (m : InstMap) : Prop :=
  ∀ pre line post, rows file = pre ++ line :: post → m (seenInst line) = none →
    (∀ q ∈ pre, seenInst q ≠ seenInst line) →
      18 ≤ (columns line).length ∨
        ∃ q, (line :: post).find? (complete (seenInst line)) = some q ∧ underlyingText q = []

/-- Rows before the first one of an instrument do not count. -/
theorem find?_complete {file : Text} {pre post : List Text} {line : Text} (hrows : rows file = pre ++ line :: post)
    (hpre : ∀ q ∈ pre, seenInst q ≠ seenInst line) :
    (rows file).find? (complete (seenInst line)) = (line :: post).find? (complete (seenInst line)) := by
  have hnone : pre.find? (complete (seenInst line)) = none := by
    refine List.find?_eq_none.mpr fun q hq => ?_
    simp [complete, hpre q hq]
  rw [hrows, List.find?_append, hnone, Option.none_or]

theorem loaded_eq_iff {file : Text} {m : InstMap} {pre post : List Text} {line : Text}
    (hrows : rows file = pre ++ line :: post) (hm : m (seenInst line) = none)
    (hpre : ∀ q ∈ pre, seenInst q ≠ seenInst line) :
    LoadFebaoInstrumentInfo file m (seenInst line) = fullMap file m (seenInst line) ↔
      18 ≤ (columns line).length ∨
        ∃ q, (line :: post).find? (complete (seenInst line)) = some q ∧ underlyingText q = [] := by
  have hfirst : (rows file).find? (fun q => seenInst q = seenInst line) = some line := by
    refine List.find?_eq_some_iff_append.mpr ⟨by simp, pre, post, hrows, fun q hq => ?_⟩
    simp [hpre q hq]
  rw [loaded_inst, full_inst, hm, Option.none_or, Option.none_or, hfirst, find?_complete hrows hpre,
    Option.map_some, eq_comm, Option.map_eq_some_iff]
  by_cases h18 : 18 ≤ (columns line).length
  · have hcomplete : complete (seenInst line) line = true := by
      have h17 : 17 ≤ (columns line).length := by omega
      simp [complete, h17]
    simp [h18, seenUnderlying, List.find?_cons_of_pos hcomplete]
  · simp [h18, seenUnderlying]

theorem load_iff (file : Text) (m : InstMap) :
    LoadFebaoInstrumentInfo file m = fullMap file m ↔ RowsOk file m := by
  constructor
  · intro heq pre line post hrows hm hpre
    exact (loaded_eq_iff hrows hm hpre).mp (congrFun heq _)
  · intro hok
    funext inst
    cases hm : m inst with
    | some underlying => rw [loaded_inst, full_inst, hm, Option.some_or, Option.some_or]
    | none =>
      cases hfirst : (rows file).find? (fun q => seenInst q = inst) with
      | none =>
        have hnone : (rows file).find? (complete inst) = none := by
          refine List.find?_eq_none.mpr fun q hq => ?_
          have := List.find?_eq_none.mp hfirst q hq
          simp_all [complete]
        rw [loaded_inst, full_inst, hfirst, hnone]
        rfl
      | some line =>
        obtain ⟨hline, pre, post, hrows, hpre⟩ := List.find?_eq_some_iff_append.mp hfirst
        obtain rfl : seenInst line = inst := of_decide_eq_true hline
        have hpre' : ∀ q ∈ pre, seenInst q ≠ seenInst line := fun q hq => by simpa using hpre q hq
        exact (loaded_eq_iff hrows hm hpre').mpr (hok pre line post hrows hm hpre')

/-- A title line and one row of 17 columns. -/
def seventeen : Text := "t\n0,1,2,3,4,5,DCE_m2405,7,8,9,10,11,12,13,14,15,DCE_m\n".toList

/-- The row's underlying `m` is lost. -/
theorem last_column_lost :
    LoadFebaoInstrumentInfo seventeen (fun _ => none) "m2405".toList = some [] ∧
      fullMap seventeen (fun _ => none) "m2405".toList = some ['m'] ∧
      LoadFebaoInstrumentInfo seventeen (fun _ => none) ≠ fullMap seventeen (fun _ => none) := by
  have hloaded : LoadFebaoInstrumentInfo seventeen (fun _ => none) "m2405".toList = some [] := by decide +kernel
  have hfull : fullMap seventeen (fun _ => none) "m2405".toList = some ['m'] := by decide +kernel
  refine ⟨hloaded, hfull, fun heq => ?_⟩
  rw [heq, hfull] at hloaded
  cases hloaded

end MdInfoSet.FebaoInstruments
