import CacheCoherence.Fabric.Stepping

/-!
Calls of the pipelines. A call that leaves something in the queue of its node rings the hub. Those
that have to wait for the hub come in two forms: `tryAccess` and `await` only look, the blocking
ones let the fabric run until it is idle. There is no answer for a node that does not exist.
-/
namespace CacheCoherence

/-- Looks at a slot: its fill if it is answered, a fault if it cannot be any more, nothing while the
call would have to wait. -/
def Node.await (n : Node) (slot : Slot) : Option (Except Fault Fill) × Node :=
  match n.controller.misses.get? slot with
  | none => (some (.error (.rejected (.staleSlot slot))), n)
  | some m =>
    if m.answer.isSome then
      let (result, controller) := n.controller.consume slot
      (some result, { n with controller })
    else if n.running then (none, n)
    else (some (.error (.rejected (.notComplete slot))), n)

def Reference.ofAccess (access : Access) (a : Address) (waiters : List UInt8) : Reference where
  access := access
  addr := a
  mask := if access.length = 0 then 0 else byteMask a.offset access.length
  waiters := waiters

def IoStore.ofBytes (a : Address) (data : List UInt8) (waiters : List UInt8) : IoStore where
  addr := a
  data := data
  mask := laneMask a.offset data.length
  length := data.length
  waiters := waiters

namespace Fabric

variable {α : Type}

def withController (f : Fabric) (i : Nat) (call : Controller → α × Controller) :
    Option (α × Fabric) :=
  match f.nodes[i]? with
  | none => none
  | some n =>
    let (x, controller) := call n.controller
    let f := { f with nodes := f.nodes.set i { n with controller } }
    some (x, if n.bound && !controller.outbound.isEmpty then f.ringDoorbell else f)

def issue (f : Fabric) (i : Nat) (r : Reference) : Option (Except Fault Slot × Fabric) :=
  f.withController i (·.allocateMiss r)

def await (f : Fabric) (i : Nat) (slot : Slot) : Option (Option (Except Fault Fill) × Fabric) :=
  match f.nodes[i]? with
  | none => none
  | some n =>
    let (result, n) := n.await slot
    some (result, { f with nodes := f.nodes.set i n })

def tryAccess (f : Fabric) (i : Nat) (access : Access) (a : Address) (waiters : List UInt8) :
    Option (Option (Except Fault Fill) × Fabric) :=
  match f.issue i (.ofAccess access a waiters) with
  | none => none
  | some (.error fault, f) => some (some (.error fault), f)
  | some (.ok slot, f) => f.await i slot

def access (f : Fabric) (i : Nat) (access : Access) (a : Address) (waiters : List UInt8) :
    Option (Option (Except Fault Fill) × Fabric) :=
  match f.issue i (.ofAccess access a waiters) with
  | none => none
  | some (.error fault, f) => some (some (.error fault), f.settle.2)
  | some (.ok slot, f) => f.settle.2.await i slot

def barrier (f : Fabric) (i : Nat) : Option (Option (Except Fault Fill) × Fabric) :=
  f.access i .barrier ⟨0⟩ []

def retireVictim (f : Fabric) (i : Nat) (a : Address) (data : Block) :
    Option (Except Fault Slot × Fabric) :=
  f.withController i (·.retireVictim a data)

def storeIo (f : Fabric) (i : Nat) (a : Address) (data waiters : List UInt8) :
    Option (Except Fault Placement × Fabric) :=
  f.withController i (·.storeIo (.ofBytes a data waiters))

def flush (f : Fabric) (i : Nat) : Option (Nat × Fabric) := f.withController i (·.flush)

def store (f : Fabric) (i : Nat) (a : Address) (bytes : List UInt8) :
    Option (Except Fault Unit × Fabric) :=
  f.withController i (·.store a bytes)

def halt (f : Fabric) (i : Nat) : Fabric := { f with nodes := f.nodes.modify i Node.halt }

def nodeCounters (f : Fabric) : List Counters :=
  (f.nodes.take f.own).map (·.controller.counters)

end Fabric
end CacheCoherence
