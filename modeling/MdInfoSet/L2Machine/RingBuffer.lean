import Mathlib.Data.Fintype.Basic
import Mathlib.Logic.Function.Basic
import MdInfoSet.Core.Binary64
import MdInfoSet.Core.Machine
import MdInfoSet.Core.Mem

/-!
# `LockFreeRingBuffer`

`src/dz_gfex_md/src/ringbuffer.h`. 4096 slots addressed by two free-running
`uint64_t` indices; a producer fills the slot of the `write_idx` it loaded and
then claims it by a weak compare-exchange, the consumer copies the slot of
`read_idx` and then stores `read_idx + 1`.

`Sys ι` is the buffer with producers `ι` and one consumer, each at a program
point between two atomic steps. A schedule says who moves; the label of a
producer's step also says whether a compare-exchange fails spuriously. The
fields `pushed`, `popped` and `writer` are history variables: they record the
completed pushes, the completed pops and who filled a slot last, and no step
reads them.
-/
namespace MdInfoSet.L2.RingBuffer

/-- mirrors src/dz_gfex_md/src/ringbuffer.h:52-83 (`Quota_t`) -/
structure Quota where
  code : Bytes
  extime : UInt64
  open' : Float
  high : Float
  low : Float
  lastPrice : Float
  settle : Float
  close : Float
  openinterest : Int32
  volume : UInt32
  turnOver : Float
  bp : Fin 5 → Float
  ap : Fin 5 → Float
  bv : Fin 5 → UInt32
  av : Fin 5 → UInt32
  deriving DecidableEq

/-- `FLOAT64_NAN` -/
def float64Nan : Float := Binary64.nan

/-- mirrors src/dz_gfex_md/src/ringbuffer.h:85-90 (`Quota_t()`) -/
def Quota.init : Quota where
  code := []
  extime := 0
  open' := float64Nan
  high := float64Nan
  low := float64Nan
  lastPrice := float64Nan
  settle := float64Nan
  close := float64Nan
  openinterest := 0
  volume := 0
  turnOver := float64Nan
  bp := fun _ => float64Nan
  ap := fun _ => float64Nan
  bv := fun _ => 0
  av := fun _ => 0

def l1Md : UInt32 := 1
def l2Md : UInt32 := 2

/-- mirrors src/dz_gfex_md/src/ringbuffer.h:123-132 -/
structure Slot where
  timestamp0 : UInt64
  timestamp1 : UInt64
  msgType : UInt32
  data : Quota
  deriving DecidableEq

/-- What `push_l1` and `push_l2` write into the slot. -/
def slotL1 (msgdata : Quota) (t0 t1 : UInt64) : Slot := ⟨t0, t1, l1Md, msgdata⟩
def slotL2 (msgdata : Quota) (t0 t1 : UInt64) : Slot := ⟨t0, t1, l2Md, msgdata⟩

/-! ## Indices -/

def ringBufferSize : UInt64 := 4096

def indexMask : UInt64 := ringBufferSize - 1

def getIndex (seq : UInt64) : UInt64 := seq &&& indexMask

/-- mirrors src/dz_gfex_md/src/ringbuffer.h:157-159 -/
def isFull (readIdx writeIdx : UInt64) : Bool := writeIdx - readIdx ≥ ringBufferSize

structure Ring where
  slots : UInt64 → Slot
  writeIdx : UInt64
  readIdx : UInt64
  sequence : UInt64

/-! ## Program points -/

/-- Where a producer stands in `push_l1` / `push_l2`; the two differ in the slot
`x` they write. -/
inductive PushPc where
  | idle
  /-- Top of the loop: load `write_idx`. -/
  | loadWrite (x : Slot)
  | loadRead (x : Slot) (currentWrite : UInt64)
  /-- `is_full`, then the write of the whole slot. -/
  | fill (x : Slot) (currentWrite currentRead : UInt64)
  | cas (x : Slot) (currentWrite : UInt64)
  deriving DecidableEq

/-- Where the consumer stands in `try_pop`. -/
inductive PopPc where
  | idle
  | loadWrite (currentRead : UInt64)
  | copy (currentRead : UInt64)
  | storeRead (currentRead : UInt64) (slot : Slot)
  deriving DecidableEq

structure Sys (ι : Type) where
  ring : Ring
  prod : ι → PushPc
  cons : PopPc
  pushed : List Slot
  popped : List Slot
  writer : UInt64 → Option ι

inductive Label (ι : Type) where
  /-- Producer `i` calls `push_l1` or `push_l2` and draws a sequence number. -/
  | pushL1 (i : ι) (msgdata : Quota) (t0 t1 : UInt64)
  | pushL2 (i : ι) (msgdata : Quota) (t0 t1 : UInt64)
  /-- The next atomic step of producer `i`; a compare-exchange fails if `spurious`. -/
  | prod (i : ι) (spurious : Bool)
  /-- The next atomic step of the consumer, which calls `try_pop` again and again. -/
  | tryPop

variable {ι : Type}

/-- mirrors src/dz_gfex_md/src/ringbuffer.h:235-253 -/
def popStep (s : Sys ι) : Sys ι :=
  match s.cons with
  | .idle => { s with cons := .loadWrite s.ring.readIdx }
  | .loadWrite currentRead =>
    if currentRead ≠ s.ring.writeIdx then { s with cons := .copy currentRead }
    else { s with cons := .idle }
  | .copy currentRead =>
    { s with cons := .storeRead currentRead (s.ring.slots (getIndex currentRead)) }
  | .storeRead currentRead slot =>
    { s with ring.readIdx := currentRead + 1, cons := .idle, popped := s.popped ++ [slot] }

variable [DecidableEq ι]

def Sys.setProd (s : Sys ι) (i : ι) (pc : PushPc) : Sys ι :=
  { s with prod := Function.update s.prod i pc }

/-- Entering `push`: `sequence.fetch_add(1)`, whose result is not used. -/
def enter (s : Sys ι) (i : ι) (x : Slot) : Option (Sys ι) :=
  if s.prod i = .idle then
    some ({ s with ring.sequence := s.ring.sequence + 1 }.setProd i (.loadWrite x))
  else none

/-- `slot = *msgdata` at the position of `currentWrite`. -/
def writeSlot (s : Sys ι) (i : ι) (x : Slot) (currentWrite : UInt64) : Sys ι :=
  { s with
    ring.slots := Function.update s.ring.slots (getIndex currentWrite) x
    writer := Function.update s.writer (getIndex currentWrite) (some i) }

/-- The successful `compare_exchange_weak`. -/
def claim (s : Sys ι) (x : Slot) : Sys ι :=
  { s with ring.writeIdx := s.ring.writeIdx + 1, pushed := s.pushed ++ [x] }

/-- mirrors src/dz_gfex_md/src/ringbuffer.h:172-204 and 207-233 -/
def pushStep (s : Sys ι) (i : ι) (spurious : Bool) : Option (Sys ι) :=
  match s.prod i with
  | .idle => none
  | .loadWrite x => some (s.setProd i (.loadRead x s.ring.writeIdx))
  | .loadRead x currentWrite => some (s.setProd i (.fill x currentWrite s.ring.readIdx))
  | .fill x currentWrite currentRead =>
    if isFull currentRead currentWrite then some (s.setProd i (.loadWrite x))
    else some ((writeSlot s i x currentWrite).setProd i (.cas x currentWrite))
  | .cas x currentWrite =>
    if s.ring.writeIdx = currentWrite ∧ spurious = false then some ((claim s x).setProd i .idle)
    else some (s.setProd i (.loadWrite x))

def step (s : Sys ι) : Label ι → Option (Sys ι)
  | .pushL1 i msgdata t0 t1 => enter s i (slotL1 msgdata t0 t1)
  | .pushL2 i msgdata t0 t1 => enter s i (slotL2 msgdata t0 t1)
  | .prod i spurious => pushStep s i spurious
  | .tryPop => some (popStep s)

/-- An empty buffer (both indices equal, any value), nobody inside a call. -/
structure Init (s : Sys ι) : Prop where
  idx : s.ring.writeIdx = s.ring.readIdx
  prod : ∀ i, s.prod i = .idle
  cons : s.cons = .idle
  pushed : s.pushed = []
  popped : s.popped = []

/-- The buffer as constructed, for an index both start from. -/
def start (ι : Type) (idx : UInt64) : Sys ι where
  ring := ⟨fun _ => ⟨0, 0, 0, Quota.init⟩, idx, idx, 0⟩
  prod := fun _ => .idle
  cons := .idle
  pushed := []
  popped := []
  writer := fun _ => none

theorem start_init (ι : Type) (idx : UInt64) : Init (start ι idx) :=
  ⟨rfl, fun _ => rfl, rfl, rfl, rfl⟩

def machine (ι : Type) [DecidableEq ι] : Machine (Sys ι) (Label ι) where
  init := Init
  step := step

end MdInfoSet.L2.RingBuffer
