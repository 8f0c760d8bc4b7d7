import Mathlib.Data.List.Basic
import MdInfoSet.Core.Checked

/-!
# Contract codes (`instrument_static_info.h`)

A contract code is the product's letters, one or two digits of the year and two of the
month, as in `IF2403` or `ec604`. `FutureStaticInfo` takes it apart again by position.

* `get_product_text`, `get_year_text`, `get_month_text`: from every such code the functions
  get back what it was made of.
-/
namespace MdInfoSet.FutureStaticInfo
open MdInfoSet.Checked (read)

abbrev Text := List Char

instance Text.lawfulBEq : LawfulBEq Text := inferInstance

/-! ## Strings -/

/-- `inst[i]`: at the length of the string there is a NUL, behind it nothing. -/
def charAt (inst : Text) (i : Nat) : Except Fault Char :=
  if i = inst.length then .ok (Char.ofNat 0) else read inst i

/-- `s.substr(pos, n)`; a position behind the end throws. -/
def substr (s : Text) (pos n : Nat) : Except Fault Text :=
  if s.length < pos then .error .outOfRange else .ok ((s.drop pos).take n)

/-- The difference of two `size_t`. -/
def sizeSub (a b : Nat) : Nat := (a + 2 ^ 64 - b) % 2 ^ 64

def isDigit (c : Char) : Bool := '0' ≤ c && c ≤ '9'

def number (digits : Text) : Nat := digits.foldl (fun n c => n * 10 + (c.toNat - '0'.toNat)) 0

def blanks : Text := [' ', '\t', '\n', Char.ofNat 11, Char.ofNat 12, '\r']

/-- mirrors src/qx_commom/common.h:529-535 for `uint32_t`: `>>` skips blanks and takes a sign
and digits; a number too large becomes the largest one, no digit at all gives 0. -/
def StringToNumber (str : Text) : UInt32 :=
  let rest := str.dropWhile (· ∈ blanks)
  let negative := rest.head? = some '-'
  let rest := if rest.head? = some '-' ∨ rest.head? = some '+' then rest.drop 1 else rest
  let n := number (rest.takeWhile isDigit)
  if 4294967295 < n then 4294967295
  else if negative then 0 - UInt32.ofNat n
  else UInt32.ofNat n

/-! ## The parts of a code -/

def productLoop (inst : Text) : Nat → Nat → Text → Except Fault Text
  | 0, _, ret => .ok ret
  | left + 1, i, ret => do
    let c ← charAt inst i
    if isDigit c then return ret
    productLoop inst left (i + 1) (ret ++ [c])

/-- mirrors src/qx_commom/instrument_static_info.h:36-45 -/
def get_product (inst : Text) : Except Fault Text := productLoop inst 3 0 []

/-- mirrors src/qx_commom/instrument_static_info.h:49-53 -/
def get_month (inst : Text) : Except Fault UInt32 := do
  let mon_str ← substr inst (sizeSub inst.length 2) 2
  return StringToNumber mon_str

/-- mirrors src/qx_commom/instrument_static_info.h:55-66 -/
def get_year (inst : Text) : Except Fault UInt32 := do
  let ret := ['2', '0']
  let pro ← get_product inst
  let year_str ← substr inst pro.length (sizeSub (sizeSub inst.length pro.length) 2)
  let ret := if year_str.length = 1 then ret ++ ['2'] ++ year_str else ret ++ year_str
  return StringToNumber ret

/-! ## Codes -/

instance neZero_ten : NeZero 10 := ⟨by decide⟩

instance neZero_twelve : NeZero 12 := ⟨by decide⟩

/-- The year in a code: one digit for 2020 to 2029, or two. -/
inductive YearText where
  | one (d : Fin 10)
  | two (tens units : Fin 10)

namespace YearText

def text : YearText → Text
  | one d => [Nat.digitChar d]
  | two tens units => [Nat.digitChar tens, Nat.digitChar units]

def year : YearText → Nat
  | one d => 2020 + d
  | two tens units => 2000 + tens * 10 + units

theorem year_bounds (y : YearText) : 2000 ≤ y.year ∧ y.year ≤ 2099 := by
  cases y <;> simp only [year] <;> omega

end YearText

structure ContractCode where
  product : Text
  yearText : YearText
  month : Fin 12
  product_letters : product.all (fun c => !isDigit c) = true
  product_length : product.length = 1 ∨ product.length = 2

namespace ContractCode

def year (c : ContractCode) : Nat := c.yearText.year

/-- 1 to 12 -/
def monthNumber (c : ContractCode) : Nat := c.month + 1

theorem monthNumber_bounds (c : ContractCode) : 1 ≤ c.monthNumber ∧ c.monthNumber ≤ 12 :=
  ⟨Nat.le_add_left 1 _, c.month.isLt⟩

theorem year_bounds (c : ContractCode) : 2000 ≤ c.year ∧ c.year ≤ 2099 := c.yearText.year_bounds

def monthText (c : ContractCode) : Text := [Nat.digitChar (c.monthNumber / 10), Nat.digitChar (c.monthNumber % 10)]

def text (c : ContractCode) : Text := c.product ++ c.yearText.text ++ c.monthText

end ContractCode

theorem isDigit_digitChar : ∀ d : Fin 10, isDigit (Nat.digitChar d) = true := by decide

theorem StringToNumber_month : ∀ m : Fin 12,
    StringToNumber [Nat.digitChar ((m + 1 : Nat) / 10), Nat.digitChar ((m + 1 : Nat) % 10)] = UInt32.ofNat (m + 1) := by
  decide +kernel

theorem StringToNumber_year : ∀ tens units : Fin 10,
    StringToNumber ['2', '0', Nat.digitChar tens, Nat.digitChar units] = UInt32.ofNat (2000 + tens * 10 + units) := by
  decide +kernel

variable (c : ContractCode)

theorem get_product_text : get_product c.text = .ok c.product := by
  obtain ⟨product, yearText, month, hletters, hlen⟩ := c
  have hdigit := isDigit_digitChar
  rcases hlen with hlen | hlen
  · obtain ⟨a, rfl⟩ := List.length_eq_one_iff.mp hlen
    have ha : isDigit a = false := by simpa using hletters
    cases yearText <;>
      simp [ContractCode.text, YearText.text, ContractCode.monthText, get_product, productLoop, charAt, Checked.read, ha, hdigit,
        bind, Except.bind, pure, Except.pure]
  · obtain ⟨a, b, rfl⟩ := List.length_eq_two.mp hlen
    obtain ⟨ha, hb⟩ : isDigit a = false ∧ isDigit b = false := by simpa using hletters
    cases yearText <;>
      simp [ContractCode.text, YearText.text, ContractCode.monthText, get_product, productLoop, charAt, Checked.read, ha, hb,
        hdigit, bind, Except.bind, pure, Except.pure]

theorem length_text : c.text.length = c.product.length + c.yearText.text.length + 2 := by
  simp [ContractCode.text, ContractCode.monthText, Nat.add_assoc]

theorem length_yearText (y : YearText) : y.text.length = 1 ∨ y.text.length = 2 := by
  cases y <;> simp [YearText.text]

theorem get_month_text : get_month c.text = .ok (UInt32.ofNat c.monthNumber) := by
  have hlen := length_text c
  have hsub : sizeSub c.text.length 2 = (c.product ++ c.yearText.text).length := by
    rw [List.length_append, sizeSub, hlen]
    have := length_yearText c.yearText
    have := c.product_length
    omega
  have hdrop : c.text.drop (c.product ++ c.yearText.text).length = c.monthText := List.drop_left
  have hsubstr : substr c.text (sizeSub c.text.length 2) 2 = .ok c.monthText := by
    rw [hsub, substr, hdrop, if_neg (by rw [hlen, List.length_append]; omega)]
    rfl
  rw [get_month, hsubstr]
  exact congrArg Except.ok (StringToNumber_month c.month)

theorem get_year_text : get_year c.text = .ok (UInt32.ofNat c.year) := by
  have hlen := length_text c
  have hyear := length_yearText c.yearText
  have hproduct := c.product_length
  have hcount : sizeSub (sizeSub c.text.length c.product.length) 2 = c.yearText.text.length := by
    unfold sizeSub
    omega
  have hsubstr : substr c.text c.product.length (sizeSub (sizeSub c.text.length c.product.length) 2) =
      .ok c.yearText.text := by
    rw [hcount, substr, if_neg (by omega), ContractCode.text, List.append_assoc, List.drop_left, List.take_left]
  simp only [get_year, get_product_text, bind, Except.bind, hsubstr]
  unfold ContractCode.year
  cases c.yearText with
  | one d =>
    have h : StringToNumber ['2', '0', '2', Nat.digitChar d] = UInt32.ofNat (2020 + d) := StringToNumber_year 2 d
    simpa [YearText.text, YearText.year, pure, Except.pure] using h
  | two tens units =>
    have h := StringToNumber_year tens units
    simpa [YearText.text, YearText.year, pure, Except.pure] using h

end MdInfoSet.FutureStaticInfo
