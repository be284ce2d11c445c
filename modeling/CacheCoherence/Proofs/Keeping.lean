import CacheCoherence.Proofs.Frames

namespace CacheCoherence

/-- Neither an answer of the hub nor a probe takes `P` from a controller, and the queue is nothing to it. -/
structure Controller.Stable (P : Controller → Prop) : Prop where
  complete {c : Controller} (m : Completion) : P c → P (c.complete m).2
  handleProbe {c : Controller} (p : Probe) : P c → P (c.handleProbe p).2
  takeRequests {c : Controller} : P c → P c.takeRequests.2

def Fabric.Each (P : Controller → Prop) (f : Fabric) : Prop := ∀ n ∈ f.nodes, P n.controller

namespace Fabric.Each

variable {P : Controller → Prop} {f : Fabric}

theorem set (each : f.Each P) {n : Node} (has : P n.controller) (k : Nat) :
    Fabric.Each P { f with nodes := f.nodes.set k n } := by
  intro m member
  rcases List.mem_or_eq_of_mem_set member with old | rfl
  · exact each m old
  · exact has

theorem node (each : f.Each P) {k : Nat} {n : Node} (present : f.nodes[k]? = some n) : P n.controller :=
  each n (List.mem_of_getElem? present)

theorem withController {α : Type} (each : f.Each P) (k : Nat) {change : Controller → α × Controller}
    (kept : ∀ c, P c → P (change c).2) : Each P (((f.withController k change).map (·.2)).getD f) := by
  cases present : f.nodes[k]? with
  | none =>
    simp only [Fabric.withController, present, Option.map_none, Option.getD_none]
    exact each
  | some n =>
    have moved := each.set (n := { n with controller := (change n.controller).2 })
      (kept _ (each.node present)) k
    simp only [Fabric.withController, present, Option.map_some, Option.getD_some]
    split
    · exact moved
    · exact moved

variable (stable : Controller.Stable P)
include stable

theorem routing : Fabric.Routing fun f g => f.Each P → g.Each P :=
  Fabric.routing_nodes fun n m has => by
    cases m with
    | completion m => exact stable.complete m has
    | probe p =>
      unfold Node.deliver
      simp only
      split
      · exact has
      · exact has

theorem answer (each : f.Each P) {k : Nat} {n : Node} (present : f.nodes[k]? = some n) (p : Probe) :
    Fabric.Each P { f with nodes := f.nodes.set k (n.answerOne p) } := by
  refine each.set ?_ k
  have has := stable.handleProbe p (each.node present)
  unfold Node.answerOne
  split
  · rename_i shape
    rw [shape] at has
    split
    · exact has
    · exact has
  · rename_i shape
    rw [shape] at has
    exact has

theorem takeRequests (each : f.Each P) (cpu : Nat) : (f.takeRequests cpu).2.Each P := by
  unfold Fabric.takeRequests
  split
  · exact each
  · rename_i socket _
    split
    · exact each
    · rename_i n present
      exact each.set (stable.takeRequests (each.node present)) socket

theorem machine {s t : Pass} (each : s.fabric.Each P) (step : s.Step .machine t) : t.fabric.Each P := by
  cases step with
  | answer cpu n p present => exact each.answer stable present p
  | lower cpu n present =>
    have has := each.node present
    refine each.set ?_ cpu
    exact has
  | ring | turn => exact each
  | resend => exact (routing stable).retryParked s.fabric each
  | take cpu => exact each.takeRequests stable cpu
  | route cpu r => exact (routing stable).request s.fabric cpu r each
  | retry r =>
    refine (routing stable).read _ r ?_
    exact each

theorem works {s t : Pass} (each : s.fabric.Each P) (works : s.Works t) : t.fabric.Each P := by
  induction works with
  | refl => exact each
  | tail _ step ih => exact ih.machine stable step

/-- Commands whose calls leave `P` to a controller leave it to all of them. -/
theorem obey {allowed : Operation → Prop} (performs : ∀ c op, allowed op → P c → P (c.perform op))
    (evicts : ∀ c a data d, d ≠ .probe → P c → P (c.allocateVictim a data d).2) (each : f.Each P)
    {commands : List Command} (calls : ∀ cpu op, .call (.operate cpu op) ∈ commands → allowed op) :
    (f.obey commands).Each P := by
  induction commands generalizing f with
  | nil => exact each
  | cons command rest ih =>
    refine ih ?_ fun cpu op member => calls cpu op (List.mem_cons_of_mem _ member)
    cases command with
    | evict cpu a data d outward =>
      exact each.withController cpu fun c has => evicts c a data d outward has
    | call x =>
      cases x with
      | operate cpu op =>
        have legal := calls cpu op List.mem_cons_self
        exact each.withController cpu fun c has => performs c op legal has
      | service cpu => exact each.works stable (f.works_service cpu)
      | poll => exact each.works stable f.works_poll

end Fabric.Each
end CacheCoherence
