import CacheCoherence.Fabric.Basic

/-!
What the hub does with requests. A read of memory opens a transaction for its block, probes every
other CPU and ends when all have replied; a read of a block that is busy waits. All other requests
are answered at once.
-/
namespace CacheCoherence.Fabric

/-- The data that a transaction delivers: none is moved for a claim, and a dirty copy comes before
memory. The counters tell where it came from. -/
def fillFor (f : Fabric) (t : Transaction) : Block × Fabric :=
  if t.kind = .claim then (.zero, f)
  else
    match t.data with
    | some data => (data, f)
    | none =>
      ((f.hub.memory.readBlock t.addr).getD .zero,
       f.count fun k => { k with memoryReads := k.memoryReads + 1 })

def writeBack (f : Fabric) (t : Transaction) : Fabric :=
  match t.data with
  | none => f
  | some data =>
    match f.hub.memory.writeBlock t.addr data with
    | (false, _) => f
    | (true, memory) =>
      count { f with hub := { f.hub with memory } } fun k =>
        { k with memoryWrites := k.memoryWrites + 1, dirtyReplies := k.dirtyReplies + 1 }

def finish (f : Fabric) (number : Nat) : Fabric :=
  match f.hub.transaction? number with
  | none => f
  | some t =>
    let f := writeBack { f with hub := f.hub.dropTransaction t } t
    let (data, f) := f.fillFor t
    f.complete t.origin
      { target := .request t.id, data := some data, shared := t.shared && t.kind == .share }

def others (f : Fabric) (cpu : Nat) : List Nat :=
  (List.range f.hub.sockets.length).filter (· != cpu)

/-- Opens a transaction and probes the other CPUs. Without any, it ends at once. -/
def openRead (f : Fabric) (r : DeferredRead) : Fabric :=
  let number := f.hub.nextNumber
  let probe := Probe.ofCommand number r.addr.block (f.hub.probeCommand r.kind)
  let targets := f.others r.cpu
  let f :=
    { f with hub := f.hub.openTransaction r.cpu r.id r.addr r.kind targets.length }
  if targets.isEmpty then f.finish number
  else targets.foldl (fun f target => f.sendProbe target probe) f

def routeRead (f : Fabric) (r : DeferredRead) : Fabric :=
  if r.addr.isIo then
    f.complete r.cpu { target := .request r.id, data := some ((f.hub.ioBlock r.addr).getD .zero) }
  else if f.hub.memory.contains r.addr then
    if f.hub.isBusy r.addr then
      { f with hub := { f.hub with deferred := f.hub.deferred ++ [r] } }
    else f.openRead r
  else
    complete (f.count fun k => { k with absent := k.absent + 1 }) r.cpu
      { target := .request r.id, absent := true }

def routeVictim (f : Fabric) (cpu : Nat) (slot : Slot) (a : Address) (data : Block) : Fabric :=
  let f :=
    match f.hub.memory.writeBlock a data with
    | (true, memory) =>
      count { f with hub := { f.hub with memory } } fun k =>
        { k with memoryWrites := k.memoryWrites + 1 }
    | (false, _) => f.count fun k => { k with absent := k.absent + 1 }
  f.complete cpu { target := .victim slot }

/-- Takes a reply. The victim that it names is acknowledged before the transaction ends; a reply to
no open transaction is only counted. -/
def routeReply (f : Fabric) (cpu : Nat) (r : ProbeReply) : Fabric :=
  let f := f.count fun k => { k with probeReplies := k.probeReplies + 1 }
  match f.hub.transaction? r.txn with
  | none => f
  | some t =>
    let t := t.take r
    let f := { f with hub := f.hub.modifyTransaction r.txn fun _ => t }
    let f :=
      match r.victim with
      | some slot => f.complete cpu { target := .victim slot }
      | none => f
    if t.pending = 0 then f.finish r.txn else f

def routeIoWrite (f : Fabric) (cpu : Nat) (id : RequestId) (a : Address) (data : List UInt8)
    (written : UInt64) : Fabric :=
  let f := { f with hub := f.hub.writeIo a data written }
  complete (f.count fun k => { k with ioWrites := k.ioWrites + 1 }) cpu { target := .request id }

def route (f : Fabric) (cpu : Nat) (r : Request) : Fabric :=
  match r with
  | .read id a kind => f.routeRead ⟨cpu, id, a, kind⟩
  | .ioWrite id a data _ written => f.routeIoWrite cpu id a data written
  | .victim slot a data => f.routeVictim cpu slot a data
  | .reply reply => f.routeReply cpu reply
  | .barrier id => f.complete cpu { target := .request id }

end CacheCoherence.Fabric
