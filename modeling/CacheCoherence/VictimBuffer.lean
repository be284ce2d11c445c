import CacheCoherence.Fault

/-!
The victim buffer: blocks on their way out of a node. A slot drains until its transfer is
acknowledged, and a draining slot is never taken for another block. Each operation returns its
outcome and the buffer after it.
-/
namespace CacheCoherence

inductive Destination
  | cache
  | memory
  | probe
  deriving DecidableEq, Repr

/-- How far the transfer of an entry is. The flags of its slot say no more: whether it is marked and
whether it is processed, that it is there, and that its data answers a probe, if that is where it goes. -/
inductive TransferPhase
  | waiting
  | inTransfer
  | finished
  deriving DecidableEq, Repr

structure Victim where
  addr : Address
  data : Block
  destination : Destination
  phase : TransferPhase := .waiting
  deriving DecidableEq, Repr

namespace Victim

/-- The data has not reached its destination. -/
def draining (v : Victim) : Bool := v.phase != .finished

def waitsFor (v : Victim) (d : Destination) : Bool := v.phase == .waiting && v.destination == d

end Victim

structure VictimBuffer where
  slots : Slots Victim
  deriving DecidableEq, Repr

namespace VictimBuffer

def empty : VictimBuffer := ⟨Slots.empty⟩

def get? (b : VictimBuffer) (slot : Slot) : Option Victim := b.slots.get? slot

def draining (b : VictimBuffer) : Nat := (b.slots.select Victim.draining).length

def hasRoom (b : VictimBuffer) : Bool :=
  (b.slots.first? fun cell => !cell.any Victim.draining).isSome

/-- A free slot, else a finished one. -/
def target (b : VictimBuffer) : Option Slot :=
  match b.slots.free? with
  | some slot => some slot
  | none => (b.slots.find? (!·.draining)).map (·.1)

def allocate (b : VictimBuffer) (addr : Address) (data : Block) (d : Destination) :
    Except Fault Slot × VictimBuffer :=
  match b.target with
  | none => (.error (.exhausted .victimBuffer), b)
  | some slot =>
    (.ok slot, ⟨b.slots.put slot { addr := addr.block, data, destination := d }⟩)

/-- Picks every waiting entry for `d`, in slot order. -/
def startTransfers (b : VictimBuffer) (d : Destination) : List Slot × VictimBuffer :=
  (b.slots.select (·.waitsFor d),
   ⟨b.slots.map fun v => if v.waitsFor d then { v with phase := .inTransfer } else v⟩)

def finish (b : VictimBuffer) (slot : Slot) : Except Fault Unit × VictimBuffer :=
  match b.get? slot with
  | none => (.error (.rejected (.staleSlot slot)), b)
  | some v => (.ok (), ⟨b.slots.put slot { v with phase := .finished }⟩)

def release (b : VictimBuffer) (slot : Slot) : Except Fault Unit × VictimBuffer :=
  match b.get? slot with
  | none => (.error (.rejected (.staleSlot slot)), b)
  | some _ => (.ok (), ⟨b.slots.clear slot⟩)

/-- The first draining entry that holds the block of `addr`. -/
def findDraining (b : VictimBuffer) (addr : Address) : Option (Slot × Victim) :=
  b.slots.find? fun v => v.draining && v.addr == addr.block

end VictimBuffer
end CacheCoherence
