import CacheCoherence.Controller.Basic

namespace CacheCoherence.Controller

def storeIo (c : Controller) (s : IoStore) : Except Fault Placement × Controller :=
  match c.writes.allocate s with
  | (.error fault, writes) => noteFault (.error fault, { c with writes })
  | (.ok p, writes) =>
    let k := c.counters
    let counters :=
      if p.merged then { k with writeMerges := k.writeMerges + 1 }
      else { k with writeAllocations := k.writeAllocations + 1 }
    (.ok p, { c with writes, counters })

def sendWrite (c : Controller) (slot : Slot) : Controller :=
  match c.writes.get? slot with
  | none => c
  | some w => c.send (.ioWrite (.ioWrite slot) w.addr w.payload w.mask w.written)

def flush (c : Controller) : Nat × Controller :=
  let (slots, writes) := c.writes.issue
  (slots.length, slots.foldl sendWrite { c with writes })

end CacheCoherence.Controller
