import CacheCoherence.Probe

/-!
A ring of slots in which the hub leaves probes for a node. `head` is the place of the oldest probe,
`tail` the place where the next one goes, and `length` tells a full ring from an empty one.
-/
namespace CacheCoherence

structure ProbeRing where
  slots : Array (Option Probe)
  head : Nat := 0
  tail : Nat := 0
  length : Nat := 0
  deriving DecidableEq, Repr

namespace ProbeRing

def empty (depth : Nat) : ProbeRing := { slots := Array.replicate depth none }

def capacity (r : ProbeRing) : Nat := r.slots.size

/-- Bytes of a slot: two words and a byte for the probe, and whether there is one. -/
def slotBytes : Nat := 32

def storageBytes (r : ProbeRing) : Nat := r.capacity * slotBytes

def isEmpty (r : ProbeRing) : Bool := r.length == 0

def isFull (r : ProbeRing) : Bool := r.length == r.capacity

def push (r : ProbeRing) (p : Probe) : Option Probe × ProbeRing :=
  if r.isFull then (some p, r)
  else
    (none,
     { slots := r.slots.setIfInBounds r.tail (some p), head := r.head,
       tail := (r.tail + 1) % r.capacity, length := r.length + 1 })

def front (r : ProbeRing) : Option Probe :=
  if r.isEmpty then none else r.slots[r.head]?.getD none

def pop (r : ProbeRing) : Option Probe × ProbeRing :=
  if r.isEmpty then (none, r)
  else
    (r.slots[r.head]?.getD none,
     { slots := r.slots.setIfInBounds r.head none, head := (r.head + 1) % r.capacity,
       tail := r.tail, length := r.length - 1 })

end ProbeRing
end CacheCoherence
