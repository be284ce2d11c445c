import CacheCoherence.Controller.Filling
import CacheCoherence.Controller.IoWriting

namespace CacheCoherence.Controller

def countAllocation (k : Counters) : Counters :=
  { k with missAllocations := k.missAllocations + 1 }

/-- Asks the hub, unless the reference joins one that has asked already. -/
def request (c : Controller) (r : Reference) (kind : ReadKind) : Except Fault Slot × Controller :=
  match c.misses.allocate r with
  | (.error fault, misses) => (.error fault, { c with misses })
  | (.ok p, misses) =>
    if p.merged then
      let counters := { c.counters with missMerges := c.counters.missMerges + 1 }
      (.ok p.slot, { c with misses, counters })
    else
      let c := { c with misses, counters := countAllocation c.counters }
      (.ok p.slot, c.send (.read (.miss p.slot) r.addr kind))

/-- Enters a line that is held in the duplicate tags too, if there is room for what it displaces. -/
def refillPrimary (c : Controller) (a : Address) (s : LineState) : Except Fault Unit × Controller :=
  if !c.tags.hit a && c.victims.hasRoom then c.fillPrimary a s else (.ok (), c)

def completeLocally (c : Controller) (r : Reference) (s : LineState) :
    Except Fault Slot × Controller :=
  match c.misses.allocate r with
  | (.error fault, misses) => (.error fault, { c with misses })
  | (.ok p, misses) =>
    let counters :=
      { countAllocation c.counters with localHits := c.counters.localHits + 1 }
    match refillPrimary { c with misses, counters } r.addr s with
    | (.error fault, c) => (.error fault, c)
    | (.ok (), c) =>
      match c.answerMiss p.slot ⟨c.cache.read r.addr, s.shared, false⟩ with
      | (.error fault, c) => (.error fault, c)
      | (.ok (), c) => (.ok p.slot, c)

/-- Sends what the write buffer holds, then the barrier. -/
def barrier (c : Controller) (r : Reference) : Except Fault Slot × Controller :=
  match c.misses.allocate r with
  | (.error fault, misses) => (.error fault, { c with misses })
  | (.ok p, misses) =>
    let (_, c) := flush { c with misses, counters := countAllocation c.counters }
    (.ok p.slot, c.send (.barrier (.miss p.slot)))

/-- Drops the block of `a` from both tag stores; dirty data goes to the victim buffer. -/
def expel (c : Controller) (a : Address) (s : LineState) : Except Fault Unit × Controller :=
  if s.valid then
    let c := { c with tags := (c.tags.drop a).2 }
    match c.cache.drop a with
    | (none, cache) => (.ok (), { c with cache })
    | (some (held, data), cache) =>
      let c := { c with cache }
      if s.isDirty || held.isDirty then
        match c.allocateVictim a data .memory with
        | (.error fault, c) => (.error fault, c)
        | (.ok _, c) => (.ok (), c)
      else (.ok (), c)
  else (.ok (), c)

def purge (c : Controller) (r : Reference) (s : LineState) : Except Fault Slot × Controller :=
  if s.isDirty && !c.victims.hasRoom then (.error (.exhausted .victimBuffer), c)
  else
    match c.misses.allocate r with
    | (.error fault, misses) => (.error fault, { c with misses })
    | (.ok p, misses) =>
      match expel { c with misses, counters := countAllocation c.counters } r.addr s with
      | (.error fault, c) => (.error fault, c)
      | (.ok (), c) =>
        match c.answerMiss p.slot ⟨none, false, false⟩ with
        | (.error fault, c) => (.error fault, c)
        | (.ok (), c) => (.ok p.slot, c)

/-- What a reference to a line in state `s` comes to. A store to a line that is held asks for
ownership only; one to a line that is not held asks for the data too. -/
def dispatch (c : Controller) (r : Reference) (s : LineState) : Except Fault Slot × Controller :=
  match r.access with
  | .barrier => c.barrier r
  | .purge => c.purge r s
  | .load _ | .fetch => if s.valid then c.completeLocally r s else c.request r .share
  | .claim => if s.writable then c.completeLocally r s else c.request r .claim
  | .store w | .upgrade w =>
    if s.writable then c.completeLocally r s
    else if s.valid then c.request { r with access := .upgrade w } .upgrade
    else c.request { r with access := .store w } .modify
  | .conditional w | .conditionalUpgrade w =>
    if s.writable then c.completeLocally r s
    else if s.valid then c.request { r with access := .conditionalUpgrade w } .upgrade
    else c.request { r with access := .conditional w } .modify

def issue (c : Controller) (r : Reference) : Except Fault Slot × Controller :=
  match r.check with
  | .error fault => (.error fault, c)
  | .ok () =>
    if r.addr.isIo then
      if r.access.allowsIo then c.dispatch r .invalid
      else (.error (.rejected (.ioSpace r.addr)), c)
    else c.dispatch r (c.lookup r.addr)

def allocateMiss (c : Controller) (r : Reference) : Except Fault Slot × Controller :=
  noteFault (c.issue r)

def consume (c : Controller) (slot : Slot) : Except Fault Fill × Controller :=
  let (result, misses) := c.misses.consume slot
  (result, { c with misses })

def store (c : Controller) (a : Address) (bytes : List UInt8) : Except Fault Unit × Controller :=
  if a.fits bytes.length then
    if (c.lookup a).writable then
      match c.cache.write a bytes with
      | (true, cache) => (.ok (), { c with cache })
      | (false, cache) => (.error (.rejected (.notOwned a.block)), { c with cache })
    else (.error (.rejected (.notOwned a.block)), c)
  else (.error (.rejected (.spansBlock a bytes.length)), c)

end CacheCoherence.Controller
