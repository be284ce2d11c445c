import CacheCoherence.Address

namespace CacheCoherence

abbrev Block := Vector UInt8 64

def laneSize : Nat := 8

namespace Block

def zero : Block := Vector.replicate 64 0

/-- `bytes` laid over the block from `offset` on; what runs past the end is dropped. -/
def write (b : Block) (offset : Nat) (bytes : List UInt8) : Block :=
  Vector.ofFn fun i => if offset ≤ i then bytes[i.val - offset]?.getD b[i] else b[i]

/-- Like `write`, but only the bytes that `written` names change. -/
def overlay (b : Block) (offset : Nat) (bytes : List UInt8) (written : UInt64) : Block :=
  Vector.ofFn fun i =>
    if offset ≤ i ∧ written.toNat.testBit i then bytes[i.val - offset]?.getD b[i] else b[i]

/-- The `length` bytes from `offset` on, fewer where the block ends. -/
def slice (b : Block) (offset length : Nat) : List UInt8 := (b.toList.drop offset).take length

theorem getElem_write (b : Block) (offset : Nat) (bytes : List UInt8) (i : Nat) (bound : i < 64) :
    (b.write offset bytes)[i] = if offset ≤ i then bytes[i - offset]?.getD b[i] else b[i] := by
  simp [write]

theorem getElem_overlay (b : Block) (offset : Nat) (bytes : List UInt8) (written : UInt64) (i : Nat)
    (bound : i < 64) :
    (b.overlay offset bytes written)[i] =
      if offset ≤ i ∧ written.toNat.testBit i then bytes[i - offset]?.getD b[i] else b[i] := by
  simp [overlay]

@[simp] theorem length_slice (b : Block) (offset length : Nat) :
    (b.slice offset length).length = min length (64 - offset) := by
  simp [slice]

end Block

def clippedEnd (offset length : Nat) : Nat := min (offset + length) blockSize

/-- One bit for each lane that a run of bytes touches. -/
def laneMask (offset length : Nat) : UInt8 :=
  if length = 0 ∨ blockSize ≤ offset then 0
  else
    let first := offset / laneSize
    let last := (clippedEnd offset length - 1) / laneSize
    (List.range' first (last + 1 - first)).foldl
      (fun mask lane => mask ||| ((1 : UInt8) <<< lane.toUInt8)) 0

def byteMask (offset length : Nat) : UInt64 :=
  if length = 0 ∨ blockSize ≤ offset then 0
  else
    let width := clippedEnd offset length - offset
    let ones : UInt64 :=
      if width = blockSize then 0xffffffffffffffff else (1 <<< width.toUInt64) - 1
    ones <<< offset.toUInt64

end CacheCoherence
