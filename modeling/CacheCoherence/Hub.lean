import CacheCoherence.Counters
import CacheCoherence.Memory
import CacheCoherence.Message

namespace CacheCoherence

/-- A read that the hub has begun and not yet answered. -/
structure Transaction where
  number : Nat
  origin : Nat
  id : RequestId
  addr : Address
  kind : ReadKind
  next : NextState
  pending : Nat
  data : Option Block := none
  dirty : Bool := false
  shared : Bool := false
  deriving DecidableEq, Repr

/-- A transaction after one more reply. Only dirty data is kept. -/
def Transaction.take (t : Transaction) (r : ProbeReply) : Transaction :=
  let dirty := if r.status = ProbeStatus.hitDirty then r.data else none
  { t with
    data := dirty.or t.data
    dirty := t.dirty || dirty.isSome
    shared := t.shared || (r.status != ProbeStatus.miss && (t.next.apply .clean).valid)
    pending := t.pending - 1 }

/-- A read that waits until its block is no longer busy. -/
structure DeferredRead where
  cpu : Nat
  id : RequestId
  addr : Address
  kind : ReadKind
  deriving DecidableEq, Repr

structure ParkedProbe where
  cpu : Nat
  probe : Probe
  deriving DecidableEq, Repr

/-- What the nodes and the hub share: the doorbell that nodes ring and the parked probes. -/
structure Signal where
  doorbell : Nat := 0
  parked : List ParkedProbe := []
  shutdown : Bool := false
  deriving DecidableEq, Repr

namespace Signal

def ring (s : Signal) : Signal := { s with doorbell := s.doorbell + 1 }

def park (s : Signal) (cpu : Nat) (p : Probe) : Signal :=
  { s with parked := s.parked ++ [⟨cpu, p⟩] }

def takeParked (s : Signal) : List ParkedProbe × Signal := (s.parked, { s with parked := [] })

def hasParked (s : Signal) (cpu : Nat) : Bool := s.parked.any (·.cpu == cpu)

def requestShutdown (s : Signal) : Signal := { s with shutdown := true }

end Signal

/-- `sockets` gives the socket that each registered CPU sits in, in CPU order. -/
structure Hub where
  signal : Signal := {}
  sockets : List Nat := []
  memory : Memory
  ioSpace : Sparse Block := .empty
  transactions : List Transaction := []
  busy : Sparse Nat := .empty
  deferred : List DeferredRead := []
  nextNumber : Nat := 0
  readNext : NextState
  counters : HubCounters := {}

namespace Hub

def maxCpus : Nat := 4

def create (memory : Memory) (readNext : NextState) : Hub := { memory, readNext }

def isBusy (h : Hub) (a : Address) : Bool := (h.busy.get? a.block.toNat).isSome

def transaction? (h : Hub) (number : Nat) : Option Transaction :=
  h.transactions.find? (·.number == number)

def modifyTransaction (h : Hub) (number : Nat) (f : Transaction → Transaction) : Hub :=
  { h with transactions := h.transactions.map fun t => if t.number = number then f t else t }

def dropTransaction (h : Hub) (t : Transaction) : Hub :=
  { h with
    transactions := h.transactions.filter (·.number != t.number)
    busy := h.busy.erase t.addr.toNat }

def ioBlock (h : Hub) (a : Address) : Option Block := h.ioSpace.get? a.block.toNat

def writeIo (h : Hub) (a : Address) (data : List UInt8) (written : UInt64) : Hub :=
  let block := ((h.ioBlock a).getD .zero).overlay a.offset data written
  { h with ioSpace := h.ioSpace.set a.block.toNat block }

def probeCommand (h : Hub) (kind : ReadKind) : ProbeCommand :=
  match kind with
  | .share => ⟨.always, h.readNext⟩
  | .modify => ⟨.always, .invalid⟩
  | .upgrade | .claim => ⟨.nothing, .invalid⟩

def openTransaction (h : Hub) (cpu : Nat) (id : RequestId) (a : Address) (kind : ReadKind)
    (pending : Nat) : Hub :=
  let t : Transaction :=
    { number := h.nextNumber, origin := cpu, id, addr := a.block, kind,
      next := (h.probeCommand kind).next, pending }
  { h with
    transactions := h.transactions ++ [t]
    busy := h.busy.set a.block.toNat h.nextNumber
    nextNumber := h.nextNumber + 1
    counters := { h.counters with transactions := h.counters.transactions + 1 } }

end Hub
end CacheCoherence
