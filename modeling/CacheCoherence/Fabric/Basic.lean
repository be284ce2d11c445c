import CacheCoherence.Hub
import CacheCoherence.Node

/-!
The hub together with the nodes in its sockets: how messages reach a node, how a CPU registers, and
how a full probe ring is dealt with. A probe that finds its ring full is parked, and no later probe
to the same node passes it.
-/
namespace CacheCoherence

/-- The first `own` nodes belong to the machine; later ones were plugged in by others. -/
structure Fabric where
  hub : Hub
  nodes : List Node
  own : Nat

namespace Fabric

/-- Hands a message to a registered CPU. A probe that finds no room comes back; a message to a CPU
that is not registered is dropped. -/
def deliver (f : Fabric) (cpu : Nat) (m : Message) : Option Probe × Fabric :=
  match f.hub.sockets[cpu]? with
  | none => (none, f)
  | some socket =>
    match f.nodes[socket]? with
    | none => (none, f)
    | some n =>
      let (refused, n) := n.deliver m
      (refused, { f with nodes := f.nodes.set socket n })

def complete (f : Fabric) (cpu : Nat) (m : Completion) : Fabric :=
  (f.deliver cpu (.completion m)).2

def count (f : Fabric) (change : HubCounters → HubCounters) : Fabric :=
  { f with hub := { f.hub with counters := change f.hub.counters } }

def ringDoorbell (f : Fabric) : Fabric :=
  { f with hub := { f.hub with signal := f.hub.signal.ring } }

def parkAgain (f : Fabric) (cpu : Nat) (p : Probe) : Fabric :=
  { f with hub := { f.hub with signal := f.hub.signal.park cpu p } }

def park (f : Fabric) (cpu : Nat) (p : Probe) : Fabric :=
  parkAgain (f.count fun k => { k with parkedProbes := k.parkedProbes + 1 }) cpu p

/-- Sends a probe, behind those that are parked for the same CPU. -/
def sendProbe (f : Fabric) (cpu : Nat) (p : Probe) : Fabric :=
  let f := f.count fun k => { k with probesSent := k.probesSent + 1 }
  if f.hub.signal.hasParked cpu then f.park cpu p
  else
    match f.deliver cpu (.probe p) with
    | (none, f) => f
    | (some refused, f) => f.park cpu refused

/-- Sends parked probes again, in order. The first refusal of a CPU blocks its later probes. -/
def resend : List ParkedProbe → List Nat → Fabric → Nat × Fabric
  | [], _, f => (0, f)
  | parked :: rest, blocked, f =>
    if blocked.contains parked.cpu then resend rest blocked (f.parkAgain parked.cpu parked.probe)
    else
      match f.deliver parked.cpu (.probe parked.probe) with
      | (none, f) =>
        let (delivered, f) := resend rest blocked f
        (delivered + 1, f)
      | (some refused, f) =>
        resend rest (blocked ++ [parked.cpu]) (f.parkAgain parked.cpu refused)

def retryParked (f : Fabric) : Nat × Fabric :=
  let (parked, signal) := f.hub.signal.takeParked
  resend parked [] { f with hub := { f.hub with signal } }

/-- Plugs a node in and registers its CPU. CPUs register in order, each once. -/
def register (f : Fabric) (n : Node) : Except Fault Unit × Fabric :=
  let registered := f.hub.sockets.length
  let n := { n with socket := f.nodes.length }
  if n.cpu ≠ registered ∨ Hub.maxCpus ≤ n.cpu then
    (.error (.startup (.wrongOrder n.cpu registered)), f)
  else
    match n.bind ⟨n.cpu, n.socket⟩ with
    | (.error fault, _) => (.error fault, f)
    | (.ok (), n) =>
      (.ok (),
       { f with
         hub := { f.hub with sockets := f.hub.sockets ++ [n.socket] }
         nodes := f.nodes ++ [n] })

def unregisterAll (f : Fabric) : Fabric := { f with hub := { f.hub with sockets := [] } }

end Fabric
end CacheCoherence
