import CacheCoherence.MissFile

/-!
The I/O write buffer: small stores gathered into one write for each block. A store joins an entry of
its own width that was not yet handed to the hub. Each operation returns its outcome and the buffer
after it.
-/
namespace CacheCoherence

/-- A store to the I/O space, with the lane mask that its issuer gave. -/
structure IoStore where
  addr : Address
  data : List UInt8
  mask : UInt8
  length : Nat
  waiters : List UInt8
  deriving DecidableEq, Repr

/-- The width is looked at first, then the data, the block, the alignment and the waiters. -/
def IoStore.check (s : IoStore) : Except Fault Unit :=
  match Width.ofBytes s.length with
  | .error fault => .error fault
  | .ok width =>
    if s.data.length ≠ s.length then .error (.rejected (.storeLength s.data.length))
    else if s.addr.fits s.length = false then
      .error (.rejected (.spansBlock s.addr s.length))
    else if s.addr.aligned width.bytes.toUInt64 = false then
      .error (.rejected (.misaligned s.addr width.bytes))
    else if slotCount < s.waiters.length then
      .error (.rejected (.tooManyWaiters s.waiters.length))
    else .ok ()

/-- Stores gathered in one block. Of the bytes in `data` those in `written` were stored; what goes out
is the span of `length` bytes from `addr`. -/
structure IoWrite where
  addr : Address
  length : Nat
  storeLength : Nat
  data : Block
  mask : UInt8
  written : UInt64
  waiters : List UInt8
  issued : Bool := false
  acknowledged : Bool := false
  deriving DecidableEq, Repr

namespace IoWrite

def ofStore (s : IoStore) : IoWrite where
  addr := s.addr
  length := s.length
  storeLength := s.length
  data := Block.zero.write s.addr.offset s.data
  mask := s.mask
  written := byteMask s.addr.offset s.length
  waiters := s.waiters

def mergeable (w : IoWrite) : Bool := !w.acknowledged && !w.issued

def accepts (w : IoWrite) (s : IoStore) : Bool :=
  w.mergeable && w.storeLength == s.length && w.addr.block == s.addr.block &&
    w.waiters.length + s.waiters.length ≤ slotCount

/-- The entry with one more store, its span widened to cover it. Ends are words: of a run up to the
last address the end is 0, and such a run does not widen a span. -/
def join (w : IoWrite) (s : IoStore) : IoWrite :=
  let start := min w.addr.raw s.addr.raw
  let stop := max (w.addr.raw + w.length.toUInt64) (s.addr.raw + s.length.toUInt64)
  { w with
    addr := ⟨start⟩
    length := (stop - start).toNat
    data := w.data.write s.addr.offset s.data
    mask := w.mask ||| s.mask
    written := w.written ||| byteMask s.addr.offset s.length
    waiters := w.waiters ++ s.waiters }

/-- The bytes of the span; those outside `written` are filler. -/
def payload (w : IoWrite) : List UInt8 := w.data.slice w.addr.offset w.length

end IoWrite

structure WriteBuffer where
  slots : Slots IoWrite
  deriving DecidableEq, Repr

namespace WriteBuffer

def empty : WriteBuffer := ⟨Slots.empty⟩

def get? (b : WriteBuffer) (slot : Slot) : Option IoWrite := b.slots.get? slot

def pending (b : WriteBuffer) : Nat := (b.slots.select (!·.acknowledged)).length

def mergeTarget (b : WriteBuffer) (s : IoStore) : Option (Slot × IoWrite) :=
  b.slots.find? (·.accepts s)

def target (b : WriteBuffer) : Option Slot := b.slots.first? (·.all (·.acknowledged))

def allocate (b : WriteBuffer) (s : IoStore) : Except Fault Placement × WriteBuffer :=
  match s.check with
  | .error fault => (.error fault, b)
  | .ok () =>
    match b.mergeTarget s with
    | some (slot, w) => (.ok ⟨slot, true⟩, ⟨b.slots.put slot (w.join s)⟩)
    | none =>
      match b.target with
      | none => (.error (.exhausted .writeBuffer), b)
      | some slot => (.ok ⟨slot, false⟩, ⟨b.slots.put slot (.ofStore s)⟩)

def issue (b : WriteBuffer) : List Slot × WriteBuffer :=
  (b.slots.select IoWrite.mergeable,
   ⟨b.slots.map fun w => if w.mergeable then { w with issued := true } else w⟩)

def complete (b : WriteBuffer) (slot : Slot) : Except Fault Unit × WriteBuffer :=
  match b.get? slot with
  | none => (.error (.rejected (.staleSlot slot)), b)
  | some w =>
    if w.acknowledged then (.error (.rejected (.alreadyComplete slot)), b)
    else (.ok (), ⟨b.slots.put slot { w with acknowledged := true }⟩)

end WriteBuffer
end CacheCoherence
