import CacheCoherence.Controller.Referencing
import CacheCoherence.Controller.Snooping
import CacheCoherence.ProbeRing

namespace CacheCoherence

/-- What the hub offers a node when it registers it: the CPU that it takes the node for, and the
socket that it will use. -/
structure Interface where
  cpu : Nat
  socket : Nat
  deriving DecidableEq, Repr

structure Node where
  controller : Controller
  socket : Nat
  probes : ProbeRing
  interrupt : Bool := false
  running : Bool := true
  bound : Bool := false

namespace Node

def cpu (n : Node) : Nat := n.controller.cpu

def create (controller : Controller) (socket depth : Nat) : Node :=
  { controller, socket, probes := .empty depth }

/-- Accepts the hub's offer, once, if it names this node's CPU and socket. -/
def bind (n : Node) (offer : Interface) : Except Fault Unit × Node :=
  if offer.cpu = n.cpu ∧ offer.socket = n.socket then
    if n.bound then (.error (.startup (.alreadyBound n.cpu)), n)
    else (.ok (), { n with bound := true })
  else (.error (.startup (.foreignInterface n.cpu offer.cpu)), n)

/-- Takes a message of the hub. A probe that finds the ring full is handed back; a completion that
the controller refuses is dropped. -/
def deliver (n : Node) (m : Message) : Option Probe × Node :=
  match m with
  | .completion completion =>
    (none, { n with controller := (n.controller.complete completion).2 })
  | .probe p =>
    match n.probes.push p with
    | (some refused, probes) => (some refused, { n with probes })
    | (none, probes) => (none, { n with probes, interrupt := true })

/-- Answers probes from the ring, at most `limit`, until one is refused for want of room. -/
def answerProbes : Nat → Node → Nat × Node
  | 0, n => (0, n)
  | limit + 1, n =>
    match n.probes.front with
    | none => (0, n)
    | some p =>
      match n.controller.handleProbe p with
      | (.error fault, controller) =>
        if fault.isBackpressure then (0, { n with controller })
        else
          let (count, n) := answerProbes limit { n with controller, probes := n.probes.pop.2 }
          (count + 1, n)
      | (.ok _, controller) =>
        let (count, n) := answerProbes limit { n with controller, probes := n.probes.pop.2 }
        (count + 1, n)

/-- Answers what can be answered now; the answer is how many. The interrupt line falls when the ring
is empty. -/
def serviceProbes (n : Node) : Nat × Node :=
  let (count, n) := n.answerProbes n.probes.length
  (count, if n.probes.isEmpty then { n with interrupt := false } else n)

def halt (n : Node) : Node := { n with running := false }

end Node
end CacheCoherence
