import Mathlib.Data.List.Basic
import MdInfoSet.Core.Checked
import MdInfoSet.Core.Mem

/-!
# The bulk requests of the instruments (`zt_cffex_md.cpp`)

`ReqFutInstruments` and `FutSubscribe` write one entry for each instrument of
`m_subscribe_insts` into `reqFutu_sub[1000]` on their stack and hand the entries to the API in
one request. Nothing compares `nCount` with the size of the array.

**Exact condition.** Every write is inside of the array and every instrument in exactly one
request exactly if there are at most 1000 instruments (`bulk_iff`).

**Counterexample.** With 1001 instruments the last one is written to index 1000
(`bulk_overrun`).
-/
namespace MdInfoSet.L4.BulkSubscribe

open MdInfoSet.Checked

/-! ## The model -/

/-- `CHSNsqReqFutuDepthMarketDataField`, with `HSExchangeID` and `HSInstrumentID`. -/
structure ReqField where
  ExchangeID : Vector UInt8 5
  InstrumentID : Vector UInt8 81

/-- `std::set<std::string>`, as its iterator goes through it. -/
structure StringSet where
  elems : List Bytes
  sorted : elems.Pairwise (· < ·)

inductive ApiCall where
  | ReqQryFutuInstruments
  | ReqFutuDepthMarketDataSubscribe
  deriving DecidableEq

/-- A call of the API, with the `nCount` first entries of the array. -/
structure Request where
  call : ApiCall
  fields : List ReqField
  nRequestID : Int

/-- `memcpy(field, src, src.length)`. -/
def memcpy {n : Nat} (field : Vector UInt8 n) (src : Bytes) : Except Fault (Vector UInt8 n) :=
  if h : src.length ≤ n then
    .ok ⟨(src ++ field.toList.drop src.length).toArray, by simp; omega⟩
  else .error .outOfRange

/-- The two copies of one round; `inst.c_str()` has a zero behind the instrument. -/
def fillField (market inst : Bytes) (field : ReqField) : Except Fault ReqField := do
  let ExchangeID ← memcpy field.ExchangeID market
  let InstrumentID ← memcpy field.InstrumentID (inst ++ [0])
  return ⟨ExchangeID, InstrumentID⟩

/-- `reqFutu_sub[i]` goes through `f`. -/
def update {n : Nat} (reqFutu_sub : Vector ReqField n) (i : Nat) (f : ReqField → Except Fault ReqField) :
    Except Fault (Vector ReqField n) :=
  if h : i < n then do return reqFutu_sub.set i (← f reqFutu_sub[i]) else .error .outOfRange

/-- The loop over `m_subscribe_insts`. -/
def fillLoop {n : Nat} (market : Bytes) : List Bytes → Nat → Vector ReqField n → Except Fault (Vector ReqField n × Nat)
  | [], nCount, reqFutu_sub => .ok (reqFutu_sub, nCount)
  | inst :: rest, nCount, reqFutu_sub => do
    fillLoop market rest (nCount + 1) (← update reqFutu_sub nCount (fillField market inst))

/-- The body that both functions share: what they send and `nRequestID` afterwards. The array
starts with what the stack holds. -/
def bulkRequest (call : ApiCall) (m_subscribe_insts : StringSet) (market : Bytes) (stack : Vector ReqField 1000)
    (nRequestID : Int) : Except Fault (List Request × Int) := do
  let (reqFutu_sub, nCount) ← fillLoop market m_subscribe_insts.elems 0 stack
  return ([⟨call, reqFutu_sub.toList.take nCount, nRequestID⟩], nRequestID + 1)

/-- mirrors src/febao_zt_cffex/src/zt_cffex_md.cpp:346-362; `market` is the `len` bytes -/
def ReqFutInstruments := bulkRequest .ReqQryFutuInstruments

/-- mirrors src/febao_zt_cffex/src/zt_cffex_md.cpp:365-382 -/
def FutSubscribe := bulkRequest .ReqFutuDepthMarketDataSubscribe

/-! ## What is asked of a request -/

/-- The field holds the instrument as a C string. -/
def ReqField.Names (field : ReqField) (inst : Bytes) : Prop := (inst ++ [0]) <+: field.InstrumentID.toList

instance (field : ReqField) (inst : Bytes) : Decidable (field.Names inst) :=
  inferInstanceAs (Decidable ((inst ++ [0]) <+: _))

def Request.contains (r : Request) (inst : Bytes) : Bool := r.fields.any (fun field => field.Names inst)

/-- No write was outside, and exactly one of the requests has the instrument, for each of them. -/
def Covers (sent : Except Fault (List Request × Int)) (m_subscribe_insts : StringSet) : Prop :=
  ∃ requests id, sent = .ok (requests, id) ∧
    ∀ inst ∈ m_subscribe_insts.elems, (requests.filter (·.contains inst)).length = 1

/-! ## One round -/

theorem memcpy_fits {n : Nat} (field : Vector UInt8 n) {src : Bytes} (h : src.length ≤ n) :
    ∃ field', memcpy field src = .ok field' ∧ src <+: field'.toList := by
  refine ⟨_, dif_pos h, ?_⟩
  simp [Vector.toList]

theorem fillField_fits {market inst : Bytes} (hmarket : market.length ≤ 5) (hinst : inst.length < 81)
    (field : ReqField) : ∃ field', fillField market inst field = .ok field' ∧ field'.Names inst := by
  obtain ⟨ex, hex, -⟩ := memcpy_fits field.ExchangeID hmarket
  obtain ⟨id, hid, hnames⟩ := memcpy_fits field.InstrumentID (show (inst ++ [0]).length ≤ 81 by simp; omega)
  refine ⟨⟨ex, id⟩, ?_, hnames⟩
  rw [fillField, hex, hid]
  rfl

theorem update_outside {n : Nat} (reqFutu_sub : Vector ReqField n) (f : ReqField → Except Fault ReqField)
    {i : Nat} (h : n ≤ i) : update reqFutu_sub i f = .error .outOfRange :=
  dif_neg (by omega)

theorem update_inside {n : Nat} {reqFutu_sub : Vector ReqField n} {f : ReqField → Except Fault ReqField}
    {i : Nat} (h : i < n) {field : ReqField} (hf : f reqFutu_sub[i] = .ok field) :
    update reqFutu_sub i f = .ok (reqFutu_sub.set i field) := by
  rw [update, dif_pos h, hf]
  rfl

/-! ## The loop -/

section Loop

variable {n : Nat} {market : Bytes} (hmarket : market.length ≤ 5)

include hmarket

/-- With room for all of them, each instrument is in its entry and nothing before changes. -/
theorem fillLoop_room (insts : List Bytes) (hfit : ∀ inst ∈ insts, inst.length < 81) (nCount : Nat)
    (reqFutu_sub : Vector ReqField n) (hroom : nCount + insts.length ≤ n) :
    ∃ filled, fillLoop market insts nCount reqFutu_sub = .ok (filled, nCount + insts.length) ∧
      (∀ i, i < nCount → filled.toList[i]? = reqFutu_sub.toList[i]?) ∧
      ∀ inst ∈ insts, ∃ i field, i < nCount + insts.length ∧ filled.toList[i]? = some field ∧ field.Names inst := by
  induction insts generalizing nCount reqFutu_sub with
  | nil => exact ⟨reqFutu_sub, rfl, fun _ _ => rfl, by simp⟩
  | cons inst rest ih =>
    rw [List.length_cons] at hroom
    have hin : nCount < n := by omega
    obtain ⟨field, hfield, hnames⟩ := fillField_fits hmarket (hfit inst (by simp)) reqFutu_sub[nCount]
    obtain ⟨filled, hrest, hkept, hall⟩ := ih (fun x hx => hfit x (by simp [hx])) (nCount + 1)
      (reqFutu_sub.set nCount field) (by omega)
    have hlen : nCount + 1 + rest.length = nCount + (inst :: rest).length := by simp; omega
    refine ⟨filled, ?_, fun i hi => ?_, fun x hx => ?_⟩
    · rw [fillLoop, update_inside hin hfield, ← hlen]
      exact hrest
    · rw [hkept i (by omega)]
      simp [show nCount ≠ i by omega]
    · rw [← hlen]
      rcases List.mem_cons.mp hx with rfl | hx
      · refine ⟨nCount, field, by omega, ?_, hnames⟩
        rw [hkept nCount (by omega)]
        simp [hin]
      · exact hall x hx

theorem fillLoop_overrun (insts : List Bytes) (hfit : ∀ inst ∈ insts, inst.length < 81) (nCount : Nat)
    (reqFutu_sub : Vector ReqField n) (hle : nCount ≤ n) (hover : n < nCount + insts.length) :
    fillLoop market insts nCount reqFutu_sub = .error .outOfRange := by
  induction insts generalizing nCount reqFutu_sub with
  | nil => simp at hover; omega
  | cons inst rest ih =>
    rw [List.length_cons] at hover
    rcases Nat.lt_or_ge nCount n with hin | hout
    · obtain ⟨field, hfield, -⟩ := fillField_fits hmarket (hfit inst (by simp)) reqFutu_sub[nCount]
      rw [fillLoop, update_inside hin hfield]
      exact ih (fun x hx => hfit x (by simp [hx])) (nCount + 1) _ (by omega) (by omega)
    · rw [fillLoop, update_outside _ _ hout]
      rfl

end Loop

/-! ## The request -/

theorem one_request {r : Request} {inst : Bytes} (h : r.contains inst = true) :
    ([r].filter (·.contains inst)).length = 1 := by
  simp only [List.filter_cons, h, if_true, List.filter_nil, List.length_singleton]

theorem bulkRequest_iff {m_subscribe_insts : StringSet} (hfit : ∀ inst ∈ m_subscribe_insts.elems, inst.length < 81)
    {market : Bytes} (hmarket : market.length ≤ 5) (call : ApiCall) (stack : Vector ReqField 1000) (nRequestID : Int) :
    Covers (bulkRequest call m_subscribe_insts market stack nRequestID) m_subscribe_insts ↔
      m_subscribe_insts.elems.length ≤ 1000 := by
  constructor
  · rintro ⟨requests, id, hsent, -⟩
    refine Nat.le_of_not_lt fun hover => ?_
    rw [bulkRequest, fillLoop_overrun hmarket _ hfit 0 stack (by omega) (by omega)] at hsent
    cases hsent
  · intro hroom
    obtain ⟨filled, hfill, -, hall⟩ := fillLoop_room hmarket _ hfit 0 stack (by omega)
    refine ⟨_, nRequestID + 1, by rw [bulkRequest, hfill]; rfl, fun inst hinst => ?_⟩
    obtain ⟨i, field, hi, hget, hnames⟩ := hall inst hinst
    have hmem : field ∈ filled.toList.take (0 + m_subscribe_insts.elems.length) :=
      List.mem_of_getElem? (i := i) (by rw [List.getElem?_take, if_pos hi, hget])
    exact one_request (List.any_eq_true.mpr ⟨field, hmem, by simpa using hnames⟩)

theorem bulk_iff (m_subscribe_insts : StringSet) (hfit : ∀ inst ∈ m_subscribe_insts.elems, inst.length < 81)
    (market : Bytes) (hmarket : market.length ≤ 5) (stack : Vector ReqField 1000) (nRequestID : Int) :
    (Covers (FutSubscribe m_subscribe_insts market stack nRequestID) m_subscribe_insts ↔
      m_subscribe_insts.elems.length ≤ 1000) ∧
    (Covers (ReqFutInstruments m_subscribe_insts market stack nRequestID) m_subscribe_insts ↔
      m_subscribe_insts.elems.length ≤ 1000) :=
  ⟨bulkRequest_iff hfit hmarket _ stack nRequestID, bulkRequest_iff hfit hmarket _ stack nRequestID⟩

/-! ## One instrument too many -/

/-- `n` in four digits. -/
def code (n : Nat) : Bytes :=
  [n / 1000, n / 100 % 10, n / 10 % 10, n % 10].map fun d => UInt8.ofNat (48 + d)

theorem code_lt {m n : Nat} (hlt : m < n) (hn : n < 10000) : code m < code n := by
  have digit (a b : Nat) (ha : a < 10) (hb : b < 10) :
      (UInt8.ofNat (48 + a) < UInt8.ofNat (48 + b) ↔ a < b) ∧ (UInt8.ofNat (48 + a) = UInt8.ofNat (48 + b) ↔ a = b) := by
    rw [UInt8.lt_iff_toNat_lt, ← UInt8.toNat_inj, UInt8.toNat_ofNat', UInt8.toNat_ofNat']
    omega
  have h3 := digit (m / 1000) (n / 1000) (by omega) (by omega)
  have h2 := digit (m / 100 % 10) (n / 100 % 10) (by omega) (by omega)
  have h1 := digit (m / 10 % 10) (n / 10 % 10) (by omega) (by omega)
  have h0 := digit (m % 10) (n % 10) (by omega) (by omega)
  simp only [code, List.map_cons, List.map_nil, List.cons_lt_cons_iff, h3, h2, h1, h0]
  omega

/-- `0000` to `1000`. -/
def thousandOne : StringSet where
  elems := (List.range 1001).map code
  sorted := List.pairwise_map.mpr (List.pairwise_lt_range.imp_of_mem fun _ hn hlt =>
    code_lt hlt (by have := List.mem_range.mp hn; omega))

/-- `HS_EI_CFFEX`, `"F4"` with its zero. -/
def HS_EI_CFFEX : Bytes := [70, 52, 0]

def zeroed : Vector ReqField 1000 := Vector.replicate 1000 ⟨Vector.replicate 5 0, Vector.replicate 81 0⟩

theorem thousandOne_fits : ∀ inst ∈ thousandOne.elems, inst.length < 81 := by
  simp only [thousandOne, List.mem_map]
  rintro inst ⟨n, -, rfl⟩
  simp [code]

/-- `IF2403` and `IO2403-C-3000`. -/
def twoInsts : StringSet where
  elems := [[73, 70, 50, 52, 48, 51], [73, 79, 50, 52, 48, 51, 45, 67, 45, 51, 48, 48, 48]]
  sorted := by decide

theorem bulk_two : (∀ inst ∈ twoInsts.elems, inst.length < 81) ∧ HS_EI_CFFEX.length ≤ 5 ∧
    (Covers (FutSubscribe twoInsts HS_EI_CFFEX zeroed 1) twoInsts ↔ twoInsts.elems.length ≤ 1000) ∧
    (Covers (ReqFutInstruments twoInsts HS_EI_CFFEX zeroed 1) twoInsts ↔ twoInsts.elems.length ≤ 1000) :=
  ⟨by decide, by decide, bulk_iff twoInsts (by decide) HS_EI_CFFEX (by decide) zeroed 1⟩

theorem bulk_overrun :
    (∀ inst ∈ thousandOne.elems, inst.length < 81) ∧
    FutSubscribe thousandOne HS_EI_CFFEX zeroed 1 = .error .outOfRange ∧
    ¬ (Covers (FutSubscribe thousandOne HS_EI_CFFEX zeroed 1) thousandOne ∧
      Covers (ReqFutInstruments thousandOne HS_EI_CFFEX zeroed 1) thousandOne) := by
  have hfault : FutSubscribe thousandOne HS_EI_CFFEX zeroed 1 = .error .outOfRange := by
    rw [FutSubscribe, bulkRequest, fillLoop_overrun (by decide) _ thousandOne_fits 0 zeroed (by omega)
      (by simp [thousandOne])]
    rfl
  refine ⟨thousandOne_fits, hfault, ?_⟩
  rintro ⟨⟨requests, id, hsent, -⟩, -⟩
  rw [hfault] at hsent
  cases hsent

end MdInfoSet.L4.BulkSubscribe
