import CacheCoherence.Region

namespace CacheCoherence

structure MemoryArray where
  base : Nat
  region : Region

namespace MemoryArray

def size (m : MemoryArray) : Nat := m.region.size

def contains (m : MemoryArray) (a : Address) : Bool :=
  m.base ≤ a.block.toNat && a.block.toNat + blockSize ≤ m.base + m.size

def offset (m : MemoryArray) (a : Address) : Nat := a.block.toNat - m.base

end MemoryArray

structure Memory where
  arrays : List MemoryArray

namespace Memory

def arraysFrom : Nat → List Region → List MemoryArray
  | _, [] => []
  | base, region :: rest => ⟨base, region⟩ :: arraysFrom (base + region.size) rest

def contiguous (regions : List Region) : Memory := ⟨arraysFrom 0 regions⟩

/-- The number of the array that backs `a`. The I/O space has none. -/
def route (m : Memory) (a : Address) : Option Nat :=
  if a.isIo then none else m.arrays.findIdx? (·.contains a)

def contains (m : Memory) (a : Address) : Bool := (m.route a).isSome

def readBlock (m : Memory) (a : Address) : Option Block :=
  match m.route a with
  | none => none
  | some i => m.arrays[i]?.map fun array => array.region.readBlock (array.offset a)

def writeBlock (m : Memory) (a : Address) (data : Block) : Bool × Memory :=
  match m.route a with
  | none => (false, m)
  | some i =>
    (true, ⟨m.arrays.modify i fun array =>
      { array with region := array.region.writeBlock (array.offset a) data }⟩)

def takeRegions (m : Memory) : List Region × Memory := (m.arrays.map (·.region), ⟨[]⟩)

end Memory
end CacheCoherence
