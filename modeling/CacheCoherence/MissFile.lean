import CacheCoherence.Message
import CacheCoherence.Reference

/-!
The miss file: the references of one node that wait for an answer. A slot is taken by `allocate`,
answered once by `complete` and freed by `consume`. Each operation returns its outcome and the file
after it.
-/
namespace CacheCoherence

structure Answer where
  data : Option Block
  shared : Bool
  absent : Bool
  deriving DecidableEq, Repr

/-- An occupied slot: the reference, and its answer once there is one. -/
structure Miss where
  request : Reference
  answer : Option Answer := none
  deriving DecidableEq, Repr

def Miss.awaits (m : Miss) (access : Access) (addr : Address) : Bool :=
  m.answer.isNone && m.request.access == access && m.request.addr.block == addr.block

structure Fill where
  access : Access
  addr : Address
  data : Option Block
  shared : Bool
  waiters : List UInt8
  deriving DecidableEq, Repr

structure Placement where
  slot : Slot
  merged : Bool
  deriving DecidableEq, Repr

structure MissFile where
  slots : Slots Miss
  deriving DecidableEq, Repr

namespace MissFile

def empty : MissFile := ⟨Slots.empty⟩

def get? (f : MissFile) (slot : Slot) : Option Miss := f.slots.get? slot

def entries (f : MissFile) : List (Slot × Miss) := f.slots.entries

def live (f : MissFile) : Nat := f.entries.length

def isComplete (f : MissFile) (slot : Slot) : Bool := (f.get? slot).any (·.answer.isSome)

/-- The first entry that waits for this kind and block. -/
def findPending (f : MissFile) (access : Access) (addr : Address) : Option (Slot × Miss) :=
  f.slots.find? (·.awaits access addr)

/-- The entry that `r` may join: the first that waits for its kind and block, if it has room. -/
def mergeTarget (f : MissFile) (r : Reference) : Option (Slot × Miss) :=
  if r.access.merges then
    match f.findPending r.access r.addr with
    | none => none
    | some (slot, m) =>
      if m.request.waiters.length + r.waiters.length ≤ slotCount then some (slot, m) else none
  else none

def allocate (f : MissFile) (r : Reference) : Except Fault Placement × MissFile :=
  match r.check with
  | .error fault => (.error fault, f)
  | .ok () =>
    match f.mergeTarget r with
    | some (slot, m) =>
      (.ok ⟨slot, true⟩, ⟨f.slots.put slot { m with request := m.request.join r }⟩)
    | none =>
      match f.slots.free? with
      | none => (.error (.exhausted .missFile), f)
      | some slot => (.ok ⟨slot, false⟩, ⟨f.slots.put slot { request := r }⟩)

def complete (f : MissFile) (slot : Slot) (answer : Answer) : Except Fault Unit × MissFile :=
  match f.get? slot with
  | none => (.error (.rejected (.staleSlot slot)), f)
  | some m =>
    if m.answer.isSome then (.error (.rejected (.alreadyComplete slot)), f)
    else (.ok (), ⟨f.slots.put slot { m with answer := some answer }⟩)

/-- Frees an answered slot, also when no memory stood behind its address. -/
def consume (f : MissFile) (slot : Slot) : Except Fault Fill × MissFile :=
  match f.get? slot with
  | none => (.error (.rejected (.staleSlot slot)), f)
  | some m =>
    match m.answer with
    | none => (.error (.rejected (.notComplete slot)), f)
    | some answer =>
      let freed : MissFile := ⟨f.slots.clear slot⟩
      if answer.absent then (.error (.absentMemory m.request.addr), freed)
      else
        (.ok { access := m.request.access, addr := m.request.addr, data := answer.data,
               shared := answer.shared, waiters := m.request.waiters }, freed)

end MissFile
end CacheCoherence
