import CacheCoherence.Fabric.Routing

namespace CacheCoherence.Fabric

def takeRequests (f : Fabric) (cpu : Nat) : List Request × Fabric :=
  match f.hub.sockets[cpu]? with
  | none => ([], f)
  | some socket =>
    match f.nodes[socket]? with
    | none => ([], f)
    | some n =>
      let (requests, controller) := n.controller.takeRequests
      (requests, { f with nodes := f.nodes.set socket { n with controller } })

def routeCounted (cpu : Nat) (f : Fabric) (r : Request) : Fabric :=
  route (f.count fun k => { k with requests := k.requests + 1 }) cpu r

/-- Handles the queue of one CPU as it stands. -/
def serveQueue (f : Fabric) (cpu : Nat) : Nat × Fabric :=
  let (requests, f) := f.takeRequests cpu
  (requests.length, requests.foldl (routeCounted cpu) f)

/-- Looks at `count` deferred reads, oldest first. One whose block is busy goes to the back. -/
def retryReads : Nat → Fabric → Nat × Fabric
  | 0, f => (0, f)
  | count + 1, f =>
    match f.hub.deferred with
    | [] => (0, f)
    | r :: rest =>
      let f := { f with hub := { f.hub with deferred := rest } }
      if f.hub.isBusy r.addr then
        retryReads count { f with hub := { f.hub with deferred := rest ++ [r] } }
      else
        let (ready, f) := retryReads count (f.routeRead r)
        (ready + 1, f)

def sweep (pass : Fabric → Nat → Nat × Fabric) : List Nat → Fabric → Nat × Fabric
  | [], f => (0, f)
  | i :: rest, f =>
    let (first, f) := pass f i
    let (others, f) := sweep pass rest f
    (first + others, f)

/-- One pass of the hub: parked probes, the queue of every CPU, deferred reads. -/
def poll (f : Fabric) : Nat × Fabric :=
  let (parked, f) := f.retryParked
  let (served, f) := f.sweep serveQueue (List.range f.hub.sockets.length)
  let (ready, f) := retryReads f.hub.deferred.length f
  (parked + served + ready, f)

def service (f : Fabric) (i : Nat) : Nat × Fabric :=
  match f.nodes[i]? with
  | none => (0, f)
  | some n =>
    let (count, n) := n.serviceProbes
    let f := { f with nodes := f.nodes.set i n }
    (count, if 0 < count && n.bound then f.ringDoorbell else f)

def step (f : Fabric) : Nat × Fabric :=
  let (polled, f) := f.poll
  let (answered, f) := f.sweep service (List.range f.own)
  (polled + answered, f)

def stepUntilIdle : Nat → Fabric → Nat × Fabric
  | 0, f => (0, f)
  | limit + 1, f =>
    match f.step with
    | (0, f) => (0, f)
    | (work + 1, f) =>
      let (more, f) := stepUntilIdle limit f
      (work + 1 + more, f)

def settleLimit : Nat := 100000

def settle (f : Fabric) : Nat × Fabric := stepUntilIdle settleLimit f

end CacheCoherence.Fabric
