import CacheCoherence.Controller.Filling

/-!
Answers to probes. A controller never waits for the hub to answer one; only a full victim buffer
makes it refuse.
-/
namespace CacheCoherence.Controller

def reply (c : Controller) (r : ProbeReply) : Except Fault ProbeReply × Controller :=
  (.ok r, c.send (.reply r))

/-- Records a reserved next state and answers as if nothing were there. -/
def reportAnomaly (c : Controller) (p : Probe) : Except Fault ProbeReply × Controller :=
  let addr := p.addr.block
  let anomaly : Anomaly :=
    { addr, raw := p.raw, movement := p.command.movement.code, next := p.command.next.code }
  let c :=
    { c with
      anomalies := c.anomalies ++ [anomaly]
      counters := { c.counters with anomalies := c.counters.anomalies + 1 } }
  c.reply { txn := p.txn, addr, status := .miss, anomaly := true }

/-- Dirty data of a block that has left the caches and that the hub has not accepted. Only the first
slot that drains the block is looked at. -/
def evictedBlock (c : Controller) (a : Address) : Option Block :=
  match c.victims.findDraining a with
  | none => none
  | some (_, v) => if v.destination = .probe then none else some v.data

def applyState (c : Controller) (a : Address) (next : LineState) : Controller :=
  if next.valid then
    { c with tags := (c.tags.setState a next).2, cache := (c.cache.setState a next).2 }
  else { c with tags := (c.tags.drop a).2, cache := (c.cache.drop a).2 }

theorem applyState_frame (c : Controller) (a : Address) (next : LineState) :
    c.applyState a next =
      { c with tags := (c.applyState a next).tags, cache := (c.applyState a next).cache } := by
  unfold applyState
  split
  · rfl
  · rfl

def probeStatus (hit dirty : Bool) : ProbeStatus :=
  if hit then if dirty then .hitDirty else .hitClean else .miss

def concludeProbe (c : Controller) (p : Probe) (s : LineState) (data : Option Block)
    (victim : Option Slot) : Except Fault ProbeReply × Controller :=
  let addr := p.addr.block
  let hit := p.command.movement.isHit s
  let k := c.counters
  let c :=
    if hit then
      let c := { c with counters := { k with probeHits := k.probeHits + 1 } }
      if p.command.next = .unchanged then c else c.applyState addr (p.command.next.apply s)
    else { c with counters := { k with probeMisses := k.probeMisses + 1 } }
  c.reply { txn := p.txn, addr, status := probeStatus hit s.isDirty, data, victim }

/-- The data that must leave for the probe: what it asks for, and what it takes the owner's rights
from. -/
def probedBlock (c : Controller) (p : Probe) (s : LineState) : Option Block :=
  let hit := p.command.movement.isHit s
  let writeback := hit && s.isDirty && !(p.command.next.apply s).isDirty
  if p.command.movement.returnsData s || writeback then c.cache.read p.addr.block else none

def answerProbe (c : Controller) (p : Probe) (s : LineState) :
    Except Fault ProbeReply × Controller :=
  match c.probedBlock p s with
  | none => c.concludeProbe p s none none
  | some data =>
    if s.isDirty then
      match c.victims.allocate p.addr.block data .probe with
      | (.error fault, victims) => noteFault (.error fault, { c with victims })
      | (.ok slot, victims) =>
        let c :=
          { c with
            victims := (victims.startTransfers .probe).2
            counters := countVictim c.counters .probe }
        c.concludeProbe p s (some data) (some slot)
    else c.concludeProbe p s (some data) none

/-- Answers a probe and queues the answer for the hub. A block that the caches have given up but
that still drains is answered from the victim buffer. -/
def handleProbe (c : Controller) (p : Probe) : Except Fault ProbeReply × Controller :=
  if p.command.next.isReserved then c.reportAnomaly p
  else
    let addr := p.addr.block
    let s := c.lookup addr
    if !s.valid && p.command.movement != .nothing then
      match c.evictedBlock addr with
      | some data =>
        let k := c.counters
        reply { c with counters := { k with probeHits := k.probeHits + 1 } }
          { txn := p.txn, addr, status := .hitDirty, data := some data }
      | none => c.answerProbe p s
    else c.answerProbe p s

end CacheCoherence.Controller
