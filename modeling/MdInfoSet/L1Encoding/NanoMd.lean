import MdInfoSet.Core.Mem

/-!
# The records of the append log

`src/qx_commom/data_type_def.h:8-527`: three packed structures, each behind the character
of its type. All of them begin with `char inst_id[32]`.
-/
namespace MdInfoSet.L1.NanoMd

/-- `DATA_TYPE_NANO_SHFE_MD`, `DATA_TYPE_NANO_CFFEX_MD` and `DATA_TYPE_NANO_GFEX_MD` -/
inductive DataType where
  | nanoShfeMd | nanoCffexMd | nanoGfexMd
  deriving DecidableEq

def DataType.char : DataType → UInt8
  | .nanoShfeMd => 0x61
  | .nanoCffexMd => 0x62
  | .nanoGfexMd => 0x63

def DataType.ofChar (type : UInt8) : Option DataType :=
  if type = 0x61 then some .nanoShfeMd
  else if type = 0x62 then some .nanoCffexMd
  else if type = 0x63 then some .nanoGfexMd
  else none

/-- The sizes of the fields, in order; an array of five is five fields. -/
def DataType.layout : DataType → List Nat
  | .nanoShfeMd => [32, 4, 4, 2, 2, 4] ++ List.replicate 5 8 ++ [4, 4] ++ List.replicate 10 8 ++
      List.replicate 10 4 ++ [4, 8, 4, 8, 4, 1, 8]
  | .nanoCffexMd => [32, 4, 4] ++ List.replicate 6 8 ++ [4, 8] ++ List.replicate 10 8 ++
      List.replicate 10 4 ++ List.replicate 4 8 ++ [8]
  | .nanoGfexMd => [32, 4, 8] ++ List.replicate 5 8 ++ [4, 4, 4, 4] ++ List.replicate 10 8 ++
      List.replicate 10 4 ++ [8, 2, 2] ++ List.replicate 10 4 ++ [8]

/-- `sizeof` of the packed structure. -/
def DataType.size (t : DataType) : Nat := t.layout.sum

/-- `sizeof(inst_id)` -/
def instIdSize : Nat := 32

@[simp] theorem DataType.ofChar_char (t : DataType) : DataType.ofChar t.char = some t := by
  cases t <;> rfl

theorem DataType.size_bounds (t : DataType) : instIdSize ≤ t.size ∧ t.size ≤ 280 := by
  cases t <;> decide

/-- A structure of one of the types. -/
structure Record where
  type : DataType
  data : Bytes
  length_data : data.length = type.size

/-- The record as the log holds it. -/
def Record.bytes (r : Record) : Bytes := r.type.char :: r.data

@[simp] theorem Record.length_bytes (r : Record) : r.bytes.length = r.type.size + 1 := by
  simp [Record.bytes, r.length_data]

/-- The records one behind the other. -/
def encode (log : List Record) : Bytes := log.flatMap Record.bytes

@[simp] theorem encode_nil : encode [] = [] := rfl

@[simp] theorem encode_cons (r : Record) (log : List Record) : encode (r :: log) = r.bytes ++ encode log := rfl

@[simp] theorem encode_append (log log' : List Record) : encode (log ++ log') = encode log ++ encode log' :=
  List.flatMap_append

theorem length_le_encode (log : List Record) : log.length ≤ (encode log).length := by
  induction log with
  | nil => simp
  | cons r log ih =>
    simp only [encode_cons, List.length_cons, List.length_append, Record.length_bytes]
    omega

theorem length_encode (log : List Record) : (encode log).length = (log.map fun r => 1 + r.type.size).sum := by
  induction log with
  | nil => rfl
  | cons r log ih =>
    simp only [encode_cons, List.length_append, Record.length_bytes, List.map_cons, List.sum_cons, ih]
    omega

end MdInfoSet.L1.NanoMd
