import CacheCoherence.Proofs.Duties
import CacheCoherence.Proofs.Rings
import CacheCoherence.Proofs.Storage

namespace CacheCoherence

namespace View

def rewant (v : View) (k : Nat) (wants : Slot → Option Reference) : View :=
  { v with wants := fun j => if j = k then wants else v.wants j }

theorem rewant_same {v : View} {k : Nat} {wants : Slot → Option Reference}
    (same : ∀ slot, wants slot = v.wants k slot) : v.rewant k wants = v := by
  have whole : (fun j => if j = k then wants else v.wants j) = v.wants := by
    funext j slot
    split
    · rename_i here
      rw [here, same]
    · rfl
  rw [rewant, whole]

theorem rewant_one {v : View} {k : Nat} {wants : Slot → Option Reference} {slot : Slot}
    {r : Option Reference} (one : ∀ i, wants i = if slot = i then r else v.wants k i) :
    v.rewant k wants = v.want k slot r := by
  have whole : (fun j => if j = k then wants else v.wants j) =
      fun j i => if j = k ∧ i = slot then r else v.wants j i := by
    funext j i
    by_cases here : j = k
    · subst here
      by_cases same : i = slot
      · simp [one, same]
      · simp [one, same, Ne.symm same]
    · simp [here]
  rw [rewant, whole, want]

theorem reline_same {v : View} {k : Nat} {line : Address → Holding} (same : ∀ b, line b = v.line k b) :
    v.reline k line = v := by
  have whole : (fun j => if j = k then line else v.line j) = v.line := by
    funext j b
    split
    · rename_i here
      rw [here, same]
    · rfl
  rw [reline, whole]

theorem send_nil (v : View) (k : Nat) : v.send k [] = v := by
  have whole : (fun j => if j = k then v.queue j ++ [] else v.queue j) = v.queue := by
    funext j
    simp
  rw [send, whole]

end View

def Request.Marked (q : Request) : Prop :=
  ∀ id a data mask written, q = .ioWrite id a data mask written → ∃ slot, id = .ioWrite slot

namespace Pass

def queue (s : Pass) (k : Nat) : List Request :=
  (s.taken.filter (·.1 == k)).map (·.2) ++ ((s.fabric.controller? k).map (·.outbound)).getD []

def parkedFor (s : Pass) (k : Nat) : List Probe :=
  (s.fabric.hub.signal.parked.filter (·.cpu == k)).map (·.probe)

def coming (s : Pass) (k : Nat) : List Probe :=
  ((s.fabric.nodes[k]?).map (·.probes.contents)).getD [] ++ s.parkedFor k

def view (s : Pass) (now : Ledger) : View where
  line k a := ((s.fabric.controller? k).map (·.line a)).getD .absent
  wants k slot := (s.fabric.controller? k).bind (·.wanted slot)
  queue k := (s.queue k).filter Request.matters
  probes := s.coming
  txns := s.fabric.hub.transactions
  deferred := s.fabric.hub.deferred
  memory a := (s.fabric.hub.memory.readBlock a).getD .zero
  next := s.fabric.hub.nextNumber
  value := now

/-- The fabric fits the layout, and its parts fit each other. -/
structure Steady (lay : Layout) (s : Pass) : Prop where
  nodes : s.fabric.nodes.length = lay.cpus
  sockets : s.fabric.hub.sockets = List.range lay.cpus
  backed : ∀ a, s.fabric.hub.memory.contains a = lay.backed a
  readNext : s.fabric.hub.readNext = lay.readNext
  good : ∀ k c, s.fabric.controller? k = some c → c.Good
  rings : ∀ (k : Nat) (n : Node), s.fabric.nodes[k]? = some n → n.probes.WellFormed
  parked : ∀ p ∈ s.fabric.hub.signal.parked, p.cpu < lay.cpus
  busy : ∀ a, s.fabric.hub.isBusy a = true ↔ ∃ t ∈ s.fabric.hub.transactions, t.addr = a.block
  marked : ∀ k, ∀ q ∈ s.queue k, q.Marked
  known : ∀ x ∈ s.taken, x.1 < lay.cpus

/-- A block that drains is named by a message to the hub. -/
def Linked (s : Pass) : Prop :=
  ∀ k c, s.fabric.controller? k = some c → ∀ i v, c.victims.get? i = some v →
    v.draining → v.destination ≠ .probe → v.request i ∈ s.queue k

def seat (s : Pass) (k : Nat) (n : Node) : Pass :=
  { s with fabric := { s.fabric with nodes := s.fabric.nodes.set k n } }

variable {lay : Layout} {s : Pass} {now : Ledger} {k : Nat} {n m : Node}

theorem controller?_eq (present : s.fabric.nodes[k]? = some n) :
    s.fabric.controller? k = some n.controller := by
  rw [Fabric.controller?, present, Option.map_some]

theorem node_seat (present : s.fabric.nodes[k]? = some n) (m : Node) (j : Nat) :
    (s.seat k m).fabric.nodes[j]? = if j = k then some m else s.fabric.nodes[j]? := by
  obtain ⟨inside, _⟩ := List.getElem?_eq_some_iff.mp present
  change (s.fabric.nodes.set k m)[j]? = _
  by_cases here : j = k
  · simp [here, inside]
  · rw [List.getElem?_set_ne (Ne.symm here), if_neg here]

theorem controller?_seat (present : s.fabric.nodes[k]? = some n) (m : Node) (j : Nat) :
    (s.seat k m).fabric.controller? j =
      if j = k then some m.controller else s.fabric.controller? j := by
  rw [Fabric.controller?, node_seat present]
  split
  · rfl
  · rfl

theorem queue_seat (present : s.fabric.nodes[k]? = some n) {sent : List Request}
    (outbound : m.controller.outbound = n.controller.outbound ++ sent) (j : Nat) :
    (s.seat k m).queue j = if j = k then s.queue j ++ sent else s.queue j := by
  simp only [queue, Fabric.controller?, node_seat present]
  by_cases here : j = k
  · subst here
    simp [present, outbound, seat]
  · simp [here, seat]

theorem coming_seat (present : s.fabric.nodes[k]? = some n) (m : Node) (j : Nat) :
    (s.seat k m).coming j =
      if j = k then m.probes.contents ++ s.parkedFor j else s.coming j := by
  simp only [coming, node_seat present]
  by_cases here : j = k
  · simp [here, parkedFor, seat]
  · simp [here, parkedFor, seat]

theorem view_seat_ring (present : s.fabric.nodes[k]? = some n) {sent : List Request}
    (outbound : m.controller.outbound = n.controller.outbound ++ sent) :
    (s.seat k m).view now =
      { (((s.view now).rewant k m.controller.wanted).reline k m.controller.line).send k
          (sent.filter Request.matters) with probes := (s.seat k m).coming } := by
  have lines : ((s.seat k m).view now).line =
      fun j => if j = k then m.controller.line else (s.view now).line j := by
    funext j a
    simp only [view, controller?_seat present]
    by_cases here : j = k
    · simp [here]
    · simp [here]
  have wants : ((s.seat k m).view now).wants =
      fun j => if j = k then m.controller.wanted else (s.view now).wants j := by
    funext j i
    simp only [view, controller?_seat present]
    by_cases here : j = k
    · simp [here]
    · simp [here]
  have queues : ((s.seat k m).view now).queue = fun j =>
      if j = k then (s.view now).queue j ++ sent.filter Request.matters else (s.view now).queue j := by
    funext j
    simp only [view, queue_seat present outbound]
    split
    · rw [List.filter_append]
    · rfl
  have shape (v : View) : v = ⟨v.line, v.wants, v.queue, v.probes, v.txns, v.deferred, v.memory,
      v.next, v.value⟩ := rfl
  rw [shape ((s.seat k m).view now), lines, wants, queues]
  rfl

theorem view_seat (present : s.fabric.nodes[k]? = some n) {sent : List Request}
    (outbound : m.controller.outbound = n.controller.outbound ++ sent)
    (ring : m.probes.contents = n.probes.contents) :
    (s.seat k m).view now =
      (((s.view now).rewant k m.controller.wanted).reline k m.controller.line).send k
        (sent.filter Request.matters) := by
  have probes : (s.seat k m).coming = s.coming := by
    funext j
    rw [coming_seat present]
    split
    · rename_i here
      rw [here, ring, coming, present]
      rfl
    · rfl
  rw [view_seat_ring present outbound, probes]
  rfl

theorem view_line (present : s.fabric.nodes[k]? = some n) (b : Address) :
    (s.view now).line k b = n.controller.line b := by
  simp [view, Fabric.controller?, present]

theorem view_wants (present : s.fabric.nodes[k]? = some n) (slot : Slot) :
    (s.view now).wants k slot = n.controller.wanted slot := by
  simp [view, Fabric.controller?, present]

theorem view_quiet (present : s.fabric.nodes[k]? = some n)
    (quiet : Controller.Quiet n.controller m.controller)
    (ring : m.probes.contents = n.probes.contents) : (s.seat k m).view now = s.view now := by
  have outbound : m.controller.outbound = n.controller.outbound ++ [] := by
    rw [quiet.outbound, List.append_nil]
  rw [view_seat present outbound ring, View.rewant_same, View.reline_same, List.filter_nil,
    View.send_nil]
  · intro b
    rw [quiet.lines]
    exact (view_line present b).symm
  · intro slot
    rw [quiet.wanted]
    exact (view_wants present slot).symm

theorem Steady.seat (steady : Steady lay s) (present : s.fabric.nodes[k]? = some n)
    {sent : List Request} (outbound : m.controller.outbound = n.controller.outbound ++ sent)
    (good : m.controller.Good) (ring : m.probes.WellFormed) (marked : ∀ q ∈ sent, q.Marked) :
    Steady lay (s.seat k m) := by
  refine ⟨?_, steady.sockets, steady.backed, steady.readNext, ?_, ?_, steady.parked, steady.busy, ?_,
    steady.known⟩
  · exact (List.length_set ..).trans steady.nodes
  · intro j c at_j
    rw [controller?_seat present] at at_j
    split at at_j
    · cases at_j
      exact good
    · exact steady.good j c at_j
  · intro j p at_j
    rw [node_seat present] at at_j
    split at at_j
    · cases at_j
      exact ring
    · exact steady.rings j p at_j
  · intro j q member
    rw [queue_seat present outbound] at member
    split at member
    · rcases List.mem_append.mp member with old | new
      · exact steady.marked j q old
      · exact marked q new
    · exact steady.marked j q member

theorem Linked.seat (linked : Linked s) (present : s.fabric.nodes[k]? = some n)
    {sent : List Request} (outbound : m.controller.outbound = n.controller.outbound ++ sent)
    (carried : ∀ i v, m.controller.victims.get? i = some v → v.draining → v.destination ≠ .probe →
      n.controller.victims.get? i = some v ∨ v.request i ∈ sent) : Linked (s.seat k m) := by
  intro j c at_j i v found drains aside
  rw [controller?_seat present] at at_j
  rw [queue_seat present outbound]
  split at at_j
  · rename_i here
    cases at_j
    rw [if_pos here, here]
    rcases carried i v found drains aside with before | new
    · exact List.mem_append_left _ (linked k _ (controller?_eq present) i v before drains aside)
    · exact List.mem_append_right _ new
  · rename_i apart
    rw [if_neg apart]
    exact linked j c at_j i v found drains aside

theorem Steady.inside (steady : Steady lay s) (present : s.fabric.nodes[k]? = some n) :
    k < lay.cpus := by
  obtain ⟨inside, _⟩ := List.getElem?_eq_some_iff.mp present
  rwa [steady.nodes] at inside

theorem Steady.apart (steady : Steady lay s) {a : Address} (free : s.fabric.hub.isBusy a = false) :
    ∀ t ∈ s.fabric.hub.transactions, t.addr ≠ a.block := by
  intro t member same
  have busy := (steady.busy a).mpr ⟨t, member, same⟩
  rw [free] at busy
  cases busy

theorem Steady.node (steady : Steady lay s) (inside : k < lay.cpus) :
    ∃ n, s.fabric.nodes[k]? = some n := by
  rw [← steady.nodes] at inside
  exact ⟨_, List.getElem?_eq_getElem inside⟩

theorem Steady.socket (steady : Steady lay s) (k : Nat) :
    s.fabric.hub.sockets[k]? = if k < lay.cpus then some k else none := by
  rw [steady.sockets]
  split
  · rename_i inside
    exact List.getElem?_range inside
  · rename_i outside
    exact List.getElem?_eq_none (by simpa using outside)

end Pass
end CacheCoherence
