import CacheCoherence.Controller.Basic

namespace CacheCoherence.Controller

/-- Moves a victim into the backup cache; if the cache has lost the line, on to memory. -/
def drainToCache (c : Controller) (slot : Slot) : Controller :=
  match c.victims.get? slot with
  | none => c
  | some v =>
    match c.cache.write v.addr v.data.toList with
    | (true, cache) =>
      let (_, cache) := cache.setState v.addr { cache.stateOf v.addr with dirty := true }
      { c with cache, victims := (c.victims.finish slot).2 }
    | (false, _) => c.send (.victim slot v.addr v.data)

def sendVictim (c : Controller) (slot : Slot) : Controller :=
  match c.victims.get? slot with
  | none => c
  | some v => c.send (.victim slot v.addr v.data)

/-- Starts every transfer that waits: those to the backup cache first, then those to memory. -/
def transferVictims (c : Controller) : Controller :=
  let (down, victims) := c.victims.startTransfers .cache
  let c := down.foldl drainToCache { c with victims }
  let (out, victims) := c.victims.startTransfers .memory
  out.foldl sendVictim { c with victims }

def countVictim (k : Counters) : Destination → Counters
  | .cache => { k with victimsToCache := k.victimsToCache + 1 }
  | .memory => { k with victimsToMemory := k.victimsToMemory + 1 }
  | .probe => { k with victimsForProbes := k.victimsForProbes + 1 }

def allocateVictim (c : Controller) (a : Address) (data : Block) (d : Destination) :
    Except Fault Slot × Controller :=
  match c.victims.allocate a data d with
  | (.error fault, victims) => noteFault (.error fault, { c with victims })
  | (.ok slot, victims) =>
    (.ok slot, transferVictims { c with victims, counters := countVictim c.counters d })

def retireVictim (c : Controller) (a : Address) (data : Block) : Except Fault Slot × Controller :=
  if a.isIo then (.error (.rejected (.ioSpace a)), c)
  else
    match c.allocateVictim a data .cache with
    | (.error fault, c) => (.error fault, c)
    | (.ok slot, c) => (.ok slot, { c with tags := (c.tags.drop a).2 })

end CacheCoherence.Controller
