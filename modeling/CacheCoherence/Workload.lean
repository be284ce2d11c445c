import CacheCoherence.Machine
import CacheCoherence.Report

namespace CacheCoherence.Workload

def sharedBlocks : Nat := 16

def patience : Nat := 64

/-- The outcome of a call on the fabric. A call that still waits when the fabric is idle has not
completed. -/
abbrev Call (α : Type) := Fabric → Except Fault α × Fabric

/-- Repeats a call while it is refused for want of room, letting the fabric run in between. -/
def retry {α : Type} (call : Call α) : Nat → Call α
  | 0, f => call f
  | more + 1, f =>
    match call f with
    | (.error fault, f) =>
      if fault.isBackpressure then retry call more f.settle.2 else (.error fault, f)
    | (.ok x, f) => (.ok x, f)

def access (cpu : Nat) (kind : Access) (a : Address) : Call Unit := fun f =>
  match f.access cpu kind a [] with
  | none => (.ok (), f)
  | some (none, f) => (.error (.rejected (.notComplete 0)), f)
  | some (some (.error fault), f) => (.error fault, f)
  | some (some (.ok _), f) => (.ok (), f)

def storeIo (cpu : Nat) (a : Address) (data : List UInt8) : Call Unit := fun f =>
  match f.storeIo cpu a data [] with
  | none => (.ok (), f)
  | some (.error fault, f) => (.error fault, f)
  | some (.ok _, f) => (.ok (), f)

def quadBytes (n : Nat) : List UInt8 := (List.range 8).map fun i => UInt8.ofNat (n >>> (8 * i))

/-- Writes to a line that was just claimed. That another CPU has taken it since is no fault. -/
def store (cpu : Nat) (a : Address) (data : List UInt8) : Call Unit := fun f =>
  match f.store cpu a data with
  | none => (.ok (), f)
  | some (.error (.rejected _), f) => (.ok (), f)
  | some (.error fault, f) => (.error fault, f)
  | some (.ok (), f) => (.ok (), f)

def andThen (first : Call Unit) (second : Call Unit) : Call Unit := fun f =>
  match first f with
  | (.error fault, f) => (.error fault, f)
  | (.ok (), f) => second f

def nothing : Call Unit := fun f => (.ok (), f)

def barrier (cpu : Nat) : Call Unit := retry (access cpu .barrier ⟨0⟩) patience

def turn (cpu i : Nat) : Call Unit :=
  let block := (i * 7 + cpu * 3) % sharedBlocks
  let a : Address := ⟨UInt64.ofNat (block * blockSize + cpu * 8)⟩
  let reference :=
    if i % 3 = 0 then
      andThen (retry (access cpu (.store .quad) a) patience)
        (store cpu a (quadBytes (cpu <<< 32 ||| i)))
    else retry (access cpu (.load .quad) a) patience
  let device : Address := ⟨ioBit ||| UInt64.ofNat (cpu * blockSize + i % 8 * 8)⟩
  let write :=
    if i % 16 = 15 then retry (storeIo cpu device (quadBytes i)) patience else nothing
  let ordering := if i % 64 = 63 then barrier cpu else nothing
  andThen reference (andThen write ordering)

def turns (cpu : Nat) : Nat → Nat → Call Unit
  | 0, _, f => barrier cpu f
  | left + 1, i, f =>
    match turn cpu i f with
    | (.error fault, f) => (.error fault, f)
    | (.ok (), f) => turns cpu left (i + 1) f

/-- Lets each CPU work; the answer is how many of them failed. -/
def run (iterations : Nat) : List Nat → Fabric → Nat × Fabric
  | [], f => (0, f)
  | cpu :: rest, f =>
    let (result, f) := turns cpu iterations 0 f
    let (failures, f) := run iterations rest f
    match result with
    | .ok () => (failures, f)
    | .error _ => (failures + 1, f)

def report (m : Machine) : Report := { cpus := m.fabric.nodeCounters, hub := m.fabric.hub.counters }

end CacheCoherence.Workload
