import CacheCoherence.Controller.Eviction

namespace CacheCoherence.Controller

def keepDisplaced (c : Controller) (displaced : Option Displaced) :
    Except Fault Unit × Controller :=
  match displaced with
  | none => (.ok (), c)
  | some d =>
    if d.state.isDirty then
      match c.cache.read d.addr with
      | none => (.ok (), c)
      | some data =>
        match c.victims.allocate d.addr data .cache with
        | (.error fault, victims) => (.error fault, { c with victims })
        | (.ok _, victims) =>
          (.ok (), { c with victims, counters := countVictim c.counters .cache })
    else (.ok (), c)

def fillPrimary (c : Controller) (a : Address) (s : LineState) : Except Fault Unit × Controller :=
  let (displaced, tags) := c.tags.fill a s
  match keepDisplaced { c with tags } displaced with
  | (.error fault, c) => (.error fault, c)
  | (.ok (), c) => (.ok (), c.transferVictims)

/-- Drops the duplicate tag of the line that `a` will push out of the backup cache; if that copy was
dirty, so is now the line. -/
def pullDown (c : Controller) (a : Address) : Controller :=
  match c.cache.occupant a with
  | none => c
  | some old =>
    if old.addr = a.block then c
    else
      match c.tags.drop old.addr with
      | (none, tags) => { c with tags }
      | (some before, tags) =>
        if before.isDirty then
          { c with tags, cache := (c.cache.setState old.addr { old.state with dirty := true }).2 }
        else { c with tags }

/-- Installs a fill. The backup cache holds it clean and the duplicate tags in state `s`, except
when the victim buffer is full: then the backup cache alone holds it. -/
def install (c : Controller) (a : Address) (data : Block) (s : LineState) :
    Except Fault Unit × Controller :=
  let c := c.pullDown a
  match c.cache.insert a data { s with dirty := false } c.victims .memory with
  | (.error fault, cache, victims) => (.error fault, { c with cache, victims })
  | (.ok evicted, cache, victims) =>
    let counters :=
      if (evicted.bind (·.victim)).isSome then countVictim c.counters .memory else c.counters
    let c := { c with cache, victims, counters }
    if c.victims.hasRoom then
      match c.fillPrimary a s with
      | (.error fault, c) => (.error fault, c)
      | (.ok (), c) => (.ok (), c.transferVictims)
    else (.ok (), transferVictims { c with cache := (c.cache.setState a s).2 })

def takeOwnership (c : Controller) (a : Address) : Controller :=
  match c.tags.setState a .modified with
  | (true, tags) =>
    { c with tags, cache := (c.cache.setState a { c.cache.stateOf a with shared := false }).2 }
  | (false, tags) => { c with tags, cache := (c.cache.setState a .modified).2 }

def answerMiss (c : Controller) (slot : Slot) (answer : Answer) : Except Fault Unit × Controller :=
  let (result, misses) := c.misses.complete slot answer
  (result, { c with misses })

def fillState (owned shared : Bool) : LineState :=
  if owned then .modified else if shared then .cleanShared else .clean

/-- Installs the block of an answer. When the victim buffer is full the line stays uncached. -/
def installFill (c : Controller) (a : Address) (data : Option Block) (s : LineState) :
    Except Fault Unit × Controller :=
  match data with
  | none => (.ok (), c)
  | some data =>
    if a.isIo then (.ok (), c)
    else
      match c.install a data s with
      | (.ok (), c) => (.ok (), c)
      | (.error fault, c) =>
        if fault.isBackpressure then (.ok (), { c with counters := c.counters.noteRefusal true })
        else (.error fault, c)

def completeMiss (c : Controller) (slot : Slot) (m : Completion) : Except Fault Unit × Controller :=
  match c.misses.get? slot with
  | none => (.error (.rejected (.staleSlot slot)), c)
  | some miss =>
    let a := miss.request.addr
    let owned := miss.request.access.needsOwnership
    let shared := m.shared && !owned
    if m.absent then c.answerMiss slot ⟨none, false, true⟩
    else if miss.request.access.isUpgrade && (c.lookup a).valid then
      let c := c.takeOwnership a
      c.answerMiss slot ⟨(c.cache.read a).or m.data, false, false⟩
    else
      match c.installFill a m.data (fillState owned shared) with
      | (.error fault, c) => (.error fault, c)
      | (.ok (), c) => c.answerMiss slot ⟨m.data, shared, false⟩

def completeVictim (c : Controller) (slot : Slot) : Except Fault Unit × Controller :=
  match c.victims.finish slot with
  | (.error fault, victims) => (.error fault, { c with victims })
  | (.ok (), victims) =>
    let (result, victims) := victims.release slot
    (result, { c with victims })

def complete (c : Controller) (m : Completion) : Except Fault Unit × Controller :=
  let c := { c with counters := { c.counters with completions := c.counters.completions + 1 } }
  match m.target with
  | .victim slot => c.completeVictim slot
  | .request (.ioWrite slot) =>
    let (result, writes) := c.writes.complete slot
    (result, { c with writes })
  | .request (.miss slot) => c.completeMiss slot m

end CacheCoherence.Controller
