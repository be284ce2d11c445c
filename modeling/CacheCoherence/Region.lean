import CacheCoherence.Block
import CacheCoherence.Sparse

namespace CacheCoherence

inductive RegionUse
  | system
  | cpu (id : Nat)
  | memoryArray (index bytes : Nat)
  deriving DecidableEq, Repr

def RegionUse.storageBytes : RegionUse → Nat
  | memoryArray _ bytes => bytes
  | system | cpu _ => 0

/-- A piece of storage; bytes never written are zero. -/
structure Region where
  id : Nat
  use : RegionUse
  bytes : Sparse UInt8

/-- No storage has more bytes than this. -/
def maxStorage : Nat := 0x7FFFFFFFFFFFFFFF

namespace Region

def zeroed (id : Nat) (use : RegionUse) : Region := ⟨id, use, .empty⟩

def size (r : Region) : Nat := r.use.storageBytes

def get (r : Region) (i : Nat) : UInt8 := (r.bytes.get? i).getD 0

def set (r : Region) (i : Nat) (byte : UInt8) : Region := { r with bytes := r.bytes.set i byte }

def isZero (r : Region) : Bool := r.bytes.all (· == 0)

def toList (r : Region) : List UInt8 := (List.range r.size).map r.get

theorem get_set (r : Region) (i j : Nat) (byte : UInt8) :
    (r.set i byte).get j = if i = j then byte else r.get j := by
  by_cases same : i = j <;> simp [set, get, Sparse.get?_set, same]

def readBlock (r : Region) (offset : Nat) : Block := Vector.ofFn fun i => r.get (offset + i)

def writeBlock (r : Region) (offset : Nat) (data : Block) : Region :=
  (List.finRange 64).foldl (fun r (i : Fin 64) => r.set (offset + i) (data.get i)) r

end Region

structure Allocator (σ : Type) where
  allocate : σ → RegionUse → Option Region × σ
  release : σ → Region → σ

structure Heap where
  limit : Option Nat := none
  next : Nat := 0
  live : List Nat := []
  deriving DecidableEq, Repr

namespace Heap

def allocate (h : Heap) (use : RegionUse) : Option Region × Heap :=
  if h.limit.any (· ≤ h.live.length) then (none, h)
  else (some (.zeroed h.next use), { h with next := h.next + 1, live := h.next :: h.live })

def release (h : Heap) (r : Region) : Heap := { h with live := h.live.erase r.id }

def allocator : Allocator Heap := ⟨allocate, release⟩

end Heap

inductive RegionEvent
  | allocated (use : RegionUse) (id : Option Nat)
  | released (use : RegionUse) (id : Nat)
  deriving DecidableEq, Repr

namespace Allocator

variable {σ : Type}

def logged (a : Allocator σ) : Allocator (σ × List RegionEvent) where
  allocate := fun (s, log) use =>
    let (region, s) := a.allocate s use
    (region, s, log ++ [.allocated use (region.map (·.id))])
  release := fun (s, log) region => (a.release s region, log ++ [.released region.use region.id])

/-- The same allocator, except that the calls whose numbers `refused` accepts get nothing. -/
def refusing (a : Allocator σ) (refused : Nat → Bool) : Allocator (σ × Nat) where
  allocate := fun (s, calls) use =>
    if refused calls then (none, s, calls + 1)
    else
      let (region, s) := a.allocate s use
      (region, s, calls + 1)
  release := fun (s, calls) region => (a.release s region, calls)

def releaseAll (a : Allocator σ) (s : σ) (regions : List Region) : σ := regions.foldl a.release s

/-- Asks for a region. It may be refused, or its storage may be more than there can be: then the
allocator does not come back with an answer. -/
def ask (a : Allocator σ) (s : σ) (use : RegionUse) : Except (Option RegionUse) Region × σ :=
  match a.allocate s use with
  | (none, s) => (.error (some use), s)
  | (some region, s) => if region.size ≤ maxStorage then (.ok region, s) else (.error none, s)

end Allocator
end CacheCoherence
