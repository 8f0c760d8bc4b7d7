import Mathlib.Logic.Function.Basic
import MdInfoSet.L4App.NanoGfexRecord

/-!
# Clearing a record (`data_type_def.h`)

`Clear` of the three record types is to leave nothing of the quote before. Each is a list of
assignments by hand, and each leaves something: of `inst_id` only the first character is
written, `NanoShfeMd` keeps `inst_no`, `NanoCffexMd` copies two fields that it does not clear

    this->upper = settlement_price;
    this->lower = curr_delta;

and `NanoGfexMd` writes the first of the five implied quantities five times. Two records are
compared by `=`, under which a NaN is equal to a NaN.

**Exact condition.** Two cleared records are equal exactly if they agreed before in what
`Clear` leaves (`clear_iff`).

**Counterexample.** Two records with nothing in common but zeros, up to one such field
(`clear_keeps`).
-/
namespace MdInfoSet.L4.ClearRecords

open MdInfoSet.L4.NanoGfex (MdData assign assign_eq)

/-! ## The records -/

structure NanoShfeMd where
  instId : Fin 32 → UInt8
  instNo : UInt32
  updateTime : UInt32
  updateMilliSec : UInt16
  type : UInt16
  changeNo : UInt32
  open' : Float
  high : Float
  low : Float
  lastPrice : Float
  turnOver : Float
  volume : UInt32
  openInterest : UInt32
  ap : Fin 5 → Float
  bp : Fin 5 → Float
  av : Fin 5 → UInt32
  bv : Fin 5 → UInt32
  bidVolume : UInt32
  bidAmount : Int64
  askVolume : UInt32
  askAmount : Int64
  maxInstNo : UInt32
  lastTickFlag : Bool
  localTime : UInt64

structure NanoCffexMd where
  instId : Fin 32 → UInt8
  updateTime : UInt32
  updateMilliSec : Int32
  open' : Float
  high : Float
  low : Float
  close : Float
  lastPrice : Float
  turnOver : Float
  volume : Int32
  openInterest : Float
  ap : Fin 5 → Float
  bp : Fin 5 → Float
  av : Fin 5 → Int32
  bv : Fin 5 → Int32
  upper : Float
  lower : Float
  settlementPrice : Float
  currDelta : Float
  localTime : UInt64

abbrev NanoGfexMd := MdData

/-! ## `Clear` -/

/-- `inst_id[0] = '\\n'` -/
def clearInstId (instId : Fin 32 → UInt8) : Fin 32 → UInt8 := Function.update instId 0 0x0a

/-- mirrors src/qx_commom/data_type_def.h:100-140 -/
def NanoShfeMd.Clear (md : NanoShfeMd) : NanoShfeMd :=
  { md with
    instId := clearInstId md.instId
    updateTime := 0
    updateMilliSec := 0
    type := 0
    changeNo := 0
    open' := Binary64.nan
    high := Binary64.nan
    low := Binary64.nan
    lastPrice := Binary64.nan
    turnOver := Binary64.nan
    volume := 0
    openInterest := 0
    ap := assign md.ap Binary64.nan Binary64.nan Binary64.nan Binary64.nan Binary64.nan
    bp := assign md.bp Binary64.nan Binary64.nan Binary64.nan Binary64.nan Binary64.nan
    av := assign md.av 0 0 0 0 0
    bv := assign md.bv 0 0 0 0 0
    bidVolume := 0
    bidAmount := 0
    askVolume := 0
    askAmount := 0
    maxInstNo := 0
    lastTickFlag := false
    localTime := 0 }

/-- mirrors src/qx_commom/data_type_def.h:216-253
`upper` and `lower` are NaN until the last two assignments to them. -/
def NanoCffexMd.Clear (md : NanoCffexMd) : NanoCffexMd :=
  let cleared := { md with
    instId := clearInstId md.instId
    updateTime := 0
    updateMilliSec := 0
    open' := Binary64.nan
    high := Binary64.nan
    low := Binary64.nan
    close := Binary64.nan
    lastPrice := Binary64.nan
    turnOver := Binary64.nan
    volume := 0
    openInterest := Binary64.nan
    ap := assign md.ap Binary64.nan Binary64.nan Binary64.nan Binary64.nan Binary64.nan
    bp := assign md.bp Binary64.nan Binary64.nan Binary64.nan Binary64.nan Binary64.nan
    av := assign md.av 0 0 0 0 0
    bv := assign md.bv 0 0 0 0 0
    upper := Binary64.nan
    lower := Binary64.nan }
  { cleared with
    upper := cleared.settlementPrice
    lower := cleared.currDelta
    localTime := 0 }

/-- Five times the same assignment, `qty[0] = 0`. -/
def clearImplyQty (qty : Fin 5 → Int32) : Fin 5 → Int32 :=
  Function.update (Function.update (Function.update (Function.update (Function.update qty 0 0) 0 0) 0 0) 0 0) 0 0

/-- mirrors src/qx_commom/data_type_def.h:346-393 -/
def NanoGfexMd.Clear (md : NanoGfexMd) : NanoGfexMd :=
  { md with
    instId := clearInstId md.instId
    mdLevel := 0
    extime := 0
    open' := Binary64.nan
    high := Binary64.nan
    low := Binary64.nan
    lastPrice := Binary64.nan
    turnOver := Binary64.nan
    volume := 0
    lastMatchQty := 0
    openInterest := 0
    openInterestChange := 0
    ap := assign md.ap Binary64.nan Binary64.nan Binary64.nan Binary64.nan Binary64.nan
    bp := assign md.bp Binary64.nan Binary64.nan Binary64.nan Binary64.nan Binary64.nan
    av := assign md.av 0 0 0 0 0
    bv := assign md.bv 0 0 0 0 0
    avgPrice := Binary64.nan
    contractNo := 0
    l1UpdateFlag := 0
    buyImplyQty := clearImplyQty md.buyImplyQty
    sellImplyQty := clearImplyQty md.sellImplyQty
    localTime := 0 }

/-! ## What is left -/

/-- The arrays agree behind their first element. -/
def AgreeBehindFirst {n : Nat} {α : Type} (f g : Fin (n + 1) → α) : Prop := ∀ i, i ≠ 0 → f i = g i

theorem update_first_iff {n : Nat} {α : Type} {f g : Fin (n + 1) → α} {x : α} :
    Function.update f 0 x = Function.update g 0 x ↔ AgreeBehindFirst f g := by
  constructor
  · intro h i hi
    have hget := congrFun h i
    rwa [Function.update_of_ne hi, Function.update_of_ne hi] at hget
  · intro h
    funext i
    by_cases hi : i = 0
    · simp [hi]
    · simp [hi, h i hi]

@[simp] theorem clearInstId_iff {f g : Fin 32 → UInt8} : clearInstId f = clearInstId g ↔ AgreeBehindFirst f g :=
  update_first_iff

@[simp] theorem clearImplyQty_iff {f g : Fin 5 → Int32} : clearImplyQty f = clearImplyQty g ↔ AgreeBehindFirst f g := by
  simp only [clearImplyQty, Function.update_idem]
  exact update_first_iff

theorem NanoShfeMd.clear_eq_iff (a b : NanoShfeMd) :
    a.Clear = b.Clear ↔ AgreeBehindFirst a.instId b.instId ∧ a.instNo = b.instNo := by
  simp [NanoShfeMd.Clear]

/-- The two copied fields are the two kept ones. -/
theorem NanoCffexMd.clear_eq_iff (a b : NanoCffexMd) :
    a.Clear = b.Clear ↔ AgreeBehindFirst a.instId b.instId ∧ a.settlementPrice = b.settlementPrice ∧
      a.currDelta = b.currDelta := by
  simp only [NanoCffexMd.Clear, assign_eq, NanoCffexMd.mk.injEq, clearInstId_iff]
  tauto

theorem NanoGfexMd.clear_eq_iff (a b : NanoGfexMd) :
    NanoGfexMd.Clear a = NanoGfexMd.Clear b ↔ AgreeBehindFirst a.instId b.instId ∧
      AgreeBehindFirst a.buyImplyQty b.buyImplyQty ∧ AgreeBehindFirst a.sellImplyQty b.sellImplyQty := by
  simp [NanoGfexMd.Clear]

theorem clear_iff (a b : NanoShfeMd) (c d : NanoCffexMd) (e f : NanoGfexMd) :
    (a.Clear = b.Clear ↔ AgreeBehindFirst a.instId b.instId ∧ a.instNo = b.instNo) ∧
    (c.Clear = d.Clear ↔ AgreeBehindFirst c.instId d.instId ∧ c.settlementPrice = d.settlementPrice ∧
      c.currDelta = d.currDelta) ∧
    (NanoGfexMd.Clear e = NanoGfexMd.Clear f ↔ AgreeBehindFirst e.instId f.instId ∧
      AgreeBehindFirst e.buyImplyQty f.buyImplyQty ∧ AgreeBehindFirst e.sellImplyQty f.sellImplyQty) :=
  ⟨NanoShfeMd.clear_eq_iff a b, NanoCffexMd.clear_eq_iff c d, NanoGfexMd.clear_eq_iff e f⟩

/-! ## Records of zeros -/

def NanoShfeMd.zero : NanoShfeMd where
  instId := fun _ => 0
  instNo := 0
  updateTime := 0
  updateMilliSec := 0
  type := 0
  changeNo := 0
  open' := 0
  high := 0
  low := 0
  lastPrice := 0
  turnOver := 0
  volume := 0
  openInterest := 0
  ap := fun _ => 0
  bp := fun _ => 0
  av := fun _ => 0
  bv := fun _ => 0
  bidVolume := 0
  bidAmount := 0
  askVolume := 0
  askAmount := 0
  maxInstNo := 0
  lastTickFlag := false
  localTime := 0

def NanoCffexMd.zero : NanoCffexMd where
  instId := fun _ => 0
  updateTime := 0
  updateMilliSec := 0
  open' := 0
  high := 0
  low := 0
  close := 0
  lastPrice := 0
  turnOver := 0
  volume := 0
  openInterest := 0
  ap := fun _ => 0
  bp := fun _ => 0
  av := fun _ => 0
  bv := fun _ => 0
  upper := 0
  lower := 0
  settlementPrice := 0
  currDelta := 0
  localTime := 0

theorem clear_keeps :
    NanoShfeMd.zero.Clear ≠ { NanoShfeMd.zero with instNo := 1 : NanoShfeMd }.Clear ∧
    NanoCffexMd.zero.Clear ≠ { NanoCffexMd.zero with settlementPrice := 1 : NanoCffexMd }.Clear ∧
    NanoGfexMd.Clear MdData.zero ≠ NanoGfexMd.Clear { MdData.zero with buyImplyQty := fun _ => 1 } := by
  refine ⟨fun h => ?_, fun h => ?_, fun h => ?_⟩
  · exact absurd ((NanoShfeMd.clear_eq_iff _ _).mp h).2 (by decide)
  · exact absurd ((NanoCffexMd.clear_eq_iff _ _).mp h).2.1 (by decide)
  · exact absurd (((NanoGfexMd.clear_eq_iff _ _).mp h).2.1 1 (by decide)) (by decide)

end MdInfoSet.L4.ClearRecords
