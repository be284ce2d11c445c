import CacheCoherence.BackupCache
import CacheCoherence.Counters
import CacheCoherence.DuplicateTags
import CacheCoherence.Registers
import CacheCoherence.WriteBuffer

/-!
The coherence controller of one node. It never speaks to the hub: what it has to say goes to
`outbound`, oldest first. An operation returns its outcome and the controller after it, also when
the outcome is a fault.
-/
namespace CacheCoherence

structure Controller where
  cpu : Nat
  registers : Registers
  misses : MissFile
  victims : VictimBuffer
  writes : WriteBuffer
  tags : DuplicateTags
  cache : BackupCache
  outbound : List Request
  anomalies : List Anomaly
  counters : Counters

namespace Controller

def ofRegisters (cpu : Nat) (registers : Registers) : Except Fault Controller :=
  match CacheSize.ofEncoding (registers.get .cacheSize) with
  | .error fault => .error fault
  | .ok size =>
    .ok { cpu, registers, misses := .empty, victims := .empty, writes := .empty, tags := .empty,
          cache := .empty size, outbound := [], anomalies := [], counters := {} }

def ofSize (cpu : Nat) (size : CacheSize) : Except Fault Controller :=
  ofRegisters cpu (.forCache size)

/-- What the duplicate tags and the backup cache say together. -/
def lookup (c : Controller) (a : Address) : LineState :=
  (c.tags.stateOf a).merge (c.cache.stateOf a)

def takeRequests (c : Controller) : List Request × Controller :=
  (c.outbound, { c with outbound := [] })

def send (c : Controller) (r : Request) : Controller := { c with outbound := c.outbound ++ [r] }

def noteFault {α : Type} (result : Except Fault α × Controller) : Except Fault α × Controller :=
  match result with
  | (.ok x, c) => (.ok x, c)
  | (.error fault, c) =>
    (.error fault, { c with counters := c.counters.noteRefusal fault.isBackpressure })

end Controller
end CacheCoherence
