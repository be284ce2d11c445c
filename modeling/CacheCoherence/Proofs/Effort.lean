import CacheCoherence.Proofs.Channels
import CacheCoherence.Proofs.Frames
import CacheCoherence.Proofs.HubMoves
import CacheCoherence.Proofs.Quiescence
import Mathlib.Algebra.Order.BigOperators.Group.Finset
import Mathlib.Data.Fintype.BigOperators

/-! Stepping ends. The work left in a fabric is what all that is queued, on its way, parked, deferred
or open can still bring about: a read brings probes, a probe a reply, the last reply an answer, and an
answer a few victims. Every unit of work is paid from it (`Fabric.Pays`), and nothing else raises it, so
that only so many steps can do any work. -/

namespace CacheCoherence

/-- The work that a deferred read brings on: it begins, probes every CPU and is answered. A probe costs
at most three: it is parked and delivered, it is answered, and its reply is taken. -/
def readEffort (cpus : Nat) : Nat := 1 + slotCount + 3 * cpus

def Request.effort (cpus : Nat) : Request → Nat
  | .read .. => 1 + readEffort cpus
  | .ioWrite .. | .barrier _ => 1 + slotCount
  | .victim .. | .reply _ => 1

def Node.effort (cpus : Nat) (n : Node) : Nat :=
  2 * n.probes.length + (n.controller.outbound.map (·.effort cpus)).sum

def Hub.effort (cpus : Nat) (h : Hub) : Nat :=
  3 * h.signal.parked.length + slotCount * h.transactions.length + readEffort cpus * h.deferred.length

namespace Fabric

def effort (cpus : Nat) (f : Fabric) : Nat := f.hub.effort cpus + (f.nodes.map (·.effort cpus)).sum

/-- A bound on the work that is left, with as many CPUs to probe as are registered. -/
def workLeft (f : Fabric) : Nat := f.effort f.hub.sockets.length

/-- All the work of a pass is paid for. -/
def Pays (f : Fabric) (pass : Nat × Fabric) : Prop := pass.1 + pass.2.workLeft ≤ f.workLeft

def steps : Nat → Fabric → Nat × Fabric
  | 0, f => (0, f)
  | n + 1, f =>
    let (first, f) := f.step
    let (others, f) := steps n f
    (first + others, f)

end Fabric

/-! ## Controllers and nodes -/

namespace Controller

variable {c d : Controller} {sent : List Request}

theorem length_victims (sends : ∀ q ∈ sent, ∃ (v : Victim) (slot : Slot), q = v.request slot) :
    sent.length = ∑ slot : Slot, (parcels (.victim slot) sent).length := by
  induction sent with
  | nil => simp
  | cons q rest ih =>
    obtain ⟨v, slot, rfl⟩ := sends q List.mem_cons_self
    have others := ih fun q member => sends q (List.mem_cons_of_mem _ member)
    have split (i : Slot) : (parcels (.victim i) (v.request slot :: rest)).length =
        (if i = slot then 1 else 0) + (parcels (.victim i) rest).length := by
      rw [parcels_cons, parcels_request, List.length_append]
      by_cases here : i = slot
      · simp [here]
      · simp [here]
    simp only [split, Finset.sum_add_distrib, Finset.sum_ite_eq', Finset.mem_univ, if_true]
    rw [List.length_cons, others, Nat.add_comm]

/-- A slot whose block is under way takes no other, so that each slot sends at most one block. -/
theorem Sheds.few (sheds : Sheds c d sent) : sent.length ≤ slotCount := by
  have each (slot : Slot) : (parcels (.victim slot) sent).length ≤ 1 := by
    have lengths := congrArg List.length (sheds.loads slot)
    rw [List.length_append] at lengths
    have bound : (d.victims.load slot).toList.length ≤ 1 := by
      cases d.victims.load slot <;> simp
    omega
  calc sent.length = ∑ slot : Slot, (parcels (.victim slot) sent).length := length_victims sheds.sends
    _ ≤ ∑ _slot : Slot, 1 := Finset.sum_le_sum fun slot _ => each slot
    _ = slotCount := by simp [slotCount]

/-- An answer of the hub sends a few victims, and the acknowledgement of a victim sends nothing. -/
theorem complete_few (c : Controller) (m : Completion) :
    ∃ sent, (c.complete m).2.outbound = c.outbound ++ sent ∧ sent.length ≤ slotCount ∧
      (∀ q ∈ sent, ∃ (v : Victim) (slot : Slot), q = v.request slot) ∧
      ∀ slot, m.target = .victim slot → sent = [] := by
  have silent {d : Controller} (x : CompletionTarget) (same : d.outbound = c.outbound) :
      ∃ sent, d.outbound = c.outbound ++ sent ∧ sent.length ≤ slotCount ∧
        (∀ q ∈ sent, ∃ (v : Victim) (slot : Slot), q = v.request slot) ∧
        ∀ slot, x = .victim slot → sent = [] :=
    ⟨[], by rw [same, List.append_nil], Nat.zero_le _, nofun, fun _ _ => rfl⟩
  unfold Controller.complete
  cases target : m.target with
  | victim slot =>
    exact silent _ (clears_completeVictim
      { c with counters.completions := c.counters.completions + 1 } slot).1
  | request id =>
    cases id with
    | ioWrite slot => exact silent _ rfl
    | miss slot =>
      obtain ⟨d, ⟨sent, sheds⟩, shape⟩ := shed_completeMiss
        { c with counters.completions := c.counters.completions + 1 } slot m
      refine ⟨sent, ?_, sheds.few, sheds.sends, nofun⟩
      rcases shape with same | ⟨answer, same⟩
      · rw [same]
        exact sheds.outbound
      · rw [same]
        exact sheds.outbound

end Controller

theorem ProbeRing.length_pop {r : ProbeRing} {p : Probe} (oldest : r.front = some p) :
    r.pop.2.length + 1 = r.length := by
  cases empty : r.isEmpty with
  | true => simp [front, empty] at oldest
  | false =>
    have some_left : r.length ≠ 0 := by simpa [isEmpty] using empty
    simp only [pop, empty, Bool.false_eq_true, if_false]
    omega

namespace Node

variable {cpus : Nat} {n : Node}

theorem effort_complete (cpus : Nat) (n : Node) (m : Completion) :
    (n.deliver (.completion m)).2.effort cpus ≤ n.effort cpus + slotCount ∧
      ∀ slot, m.target = .victim slot → (n.deliver (.completion m)).2.effort cpus = n.effort cpus := by
  obtain ⟨sent, outbound, few, sends, silent⟩ := n.controller.complete_few m
  have victims : (sent.map (·.effort cpus)).sum = sent.length := by
    rw [List.map_congr_left (g := fun _ => 1)]
    · simp
    · intro q member
      obtain ⟨v, slot, rfl⟩ := sends q member
      rfl
  have grown : (n.deliver (.completion m)).2.effort cpus = n.effort cpus + sent.length := by
    simp only [deliver, effort, outbound, List.map_append, List.sum_append, victims, Nat.add_assoc]
  refine ⟨by omega, fun slot target => ?_⟩
  rw [grown, silent slot target, List.length_nil, Nat.add_zero]

theorem effort_probe (cpus : Nat) {p : Probe} {m : Node} (taken : n.deliver (.probe p) = (none, m)) :
    m.effort cpus = n.effort cpus + 2 := by
  unfold deliver ProbeRing.push at taken
  cases full : n.probes.isFull with
  | true => simp [full] at taken
  | false =>
    simp only [full, Bool.false_eq_true, if_false, Prod.mk.injEq, true_and] at taken
    rw [← taken]
    simp only [effort]
    omega

/-- Each answered probe leaves the ring and puts one reply into the queue. -/
theorem effort_answerProbes (cpus limit : Nat) (n : Node) :
    (n.answerProbes limit).1 + (n.answerProbes limit).2.effort cpus = n.effort cpus ∧
      (n.answerProbes limit).1 + (n.answerProbes limit).2.probes.length = n.probes.length := by
  induction limit generalizing n with
  | zero => exact ⟨Nat.zero_add _, Nat.zero_add _⟩
  | succ limit ih =>
    unfold answerProbes
    cases oldest : n.probes.front with
    | none => exact ⟨Nat.zero_add _, Nat.zero_add _⟩
    | some p =>
      have popped := ProbeRing.length_pop oldest
      rcases n.controller.handleProbe_sends p with ⟨r, d, outcome, _, outbound⟩ |
        ⟨fault, d, outcome, full, outbound, _⟩
      · obtain ⟨paid, left⟩ := ih { n with controller := d, probes := n.probes.pop.2 }
        have replied : Node.effort cpus { n with controller := d, probes := n.probes.pop.2 } + 1 =
            n.effort cpus := by
          simp only [effort, outbound, List.map_append, List.sum_append, List.map_cons, List.map_nil,
            List.sum_cons, List.sum_nil, Request.effort]
          omega
        simp only [outcome]
        simp only at left
        omega
      · simp only [outcome, full, if_true]
        refine ⟨?_, Nat.zero_add _⟩
        simp only [effort, outbound, Nat.zero_add]

end Node

namespace Fabric

variable {cpus : Nat} {f g : Fabric}

theorem effort_set (cpus : Nat) {nodes : List Node} {i : Nat} {n : Node}
    (present : nodes[i]? = some n) (m : Node) :
    ((nodes.set i m).map (·.effort cpus)).sum + n.effort cpus =
      (nodes.map (·.effort cpus)).sum + m.effort cpus := by
  induction nodes generalizing i with
  | nil => cases present
  | cons first rest ih =>
    cases i with
    | zero =>
      cases present
      simp only [List.set_cons_zero, List.map_cons, List.sum_cons]
      omega
    | succ i =>
      have later := ih (i := i) present
      simp only [List.set_cons_succ, List.map_cons, List.sum_cons]
      omega

theorem effort_node (cpus : Nat) {i : Nat} {n : Node} (present : f.nodes[i]? = some n) (m : Node) :
    effort cpus { f with nodes := f.nodes.set i m } + n.effort cpus = f.effort cpus + m.effort cpus := by
  have changed := effort_set cpus present m
  simp only [effort]
  omega

theorem effort_complete (cpus : Nat) (f : Fabric) (cpu : Nat) (m : Completion) :
    (f.complete cpu m).effort cpus ≤ f.effort cpus + slotCount ∧
      ∀ slot, m.target = .victim slot → (f.complete cpu m).effort cpus = f.effort cpus := by
  unfold complete deliver
  split
  · exact ⟨Nat.le_add_right .., fun _ _ => rfl⟩
  · split
    · exact ⟨Nat.le_add_right .., fun _ _ => rfl⟩
    · rename_i n present
      obtain ⟨few, silent⟩ := n.effort_complete cpus m
      have changed := effort_node cpus present (n.deliver (.completion m)).2
      refine ⟨by simp only; omega, fun slot target => ?_⟩
      have same := silent slot target
      simp only
      omega

theorem effort_deliver (cpus : Nat) {cpu : Nat} {p : Probe} {refused : Option Probe}
    (sent : f.deliver cpu (.probe p) = (refused, g)) :
    match refused with
    | none => g.effort cpus ≤ f.effort cpus + 2
    | some q => q = p ∧ g = f := by
  cases refused with
  | some q =>
    obtain ⟨same, unchanged, _⟩ := deliver_refused sent
    exact ⟨same, unchanged⟩
  | none =>
    unfold deliver at sent
    split at sent
    · cases sent
      exact Nat.le_add_right ..
    split at sent
    · cases sent
      exact Nat.le_add_right ..
    rename_i n present
    cases taken : n.deliver (.probe p) with
    | mk back m =>
      rw [taken] at sent
      cases sent
      have grown := Node.effort_probe cpus taken
      have changed := effort_node cpus present m
      simp only
      omega

theorem effort_count (cpus : Nat) (f : Fabric) (change : HubCounters → HubCounters) :
    (f.count change).effort cpus = f.effort cpus := rfl

theorem effort_parkAgain (cpus : Nat) (f : Fabric) (cpu : Nat) (p : Probe) :
    (f.parkAgain cpu p).effort cpus = f.effort cpus + 3 := by
  simp only [effort, parkAgain, Hub.effort, Signal.park, List.length_append, List.length_singleton]
  omega

theorem effort_sendProbe (cpus : Nat) (f : Fabric) (cpu : Nat) (p : Probe) :
    (f.sendProbe cpu p).effort cpus ≤ f.effort cpus + 3 := by
  let counted := f.count fun k => { k with probesSent := k.probesSent + 1 }
  have parked (q : Probe) : (counted.park cpu q).effort cpus = f.effort cpus + 3 :=
    effort_parkAgain cpus (counted.count fun k => { k with parkedProbes := k.parkedProbes + 1 }) cpu q
  unfold sendProbe
  simp only
  split
  · exact (parked p).le
  · split
    · rename_i g sent
      have delivered : g.effort cpus ≤ f.effort cpus + 2 := effort_deliver cpus (f := counted) sent
      omega
    · rename_i refused g sent
      obtain ⟨_, rfl⟩ := effort_deliver cpus (f := counted) sent
      exact (parked refused).le

theorem effort_sendProbes (cpus : Nat) (targets : List Nat) (p : Probe) (f : Fabric) :
    (targets.foldl (fun f target => f.sendProbe target p) f).effort cpus ≤
      f.effort cpus + 3 * targets.length := by
  induction targets generalizing f with
  | nil => exact Nat.le_refl _
  | cons target rest ih =>
    have first := f.effort_sendProbe cpus target p
    have others := ih (f.sendProbe target p)
    rw [List.foldl_cons, List.length_cons]
    omega

/-- A parked probe that is delivered is paid for, and one that is parked again costs as much as
before. -/
theorem effort_resend (cpus : Nat) (parked : List ParkedProbe) (blocked : List Nat) (f : Fabric) :
    (resend parked blocked f).1 + (resend parked blocked f).2.effort cpus ≤
        f.effort cpus + 3 * parked.length ∧
      (resend parked blocked f).1 + (resend parked blocked f).2.hub.signal.parked.length =
        f.hub.signal.parked.length + parked.length := by
  induction parked generalizing blocked f with
  | nil => exact ⟨(Nat.zero_add _).le, Nat.zero_add _⟩
  | cons p rest ih =>
    -- a probe goes back to the queue if its CPU is blocked already, or if it finds no room now
    have again (blocked : List Nat) (q : Probe) :
        (resend rest blocked (f.parkAgain p.cpu q)).1 +
            (resend rest blocked (f.parkAgain p.cpu q)).2.effort cpus ≤
          f.effort cpus + 3 * (p :: rest).length ∧
        (resend rest blocked (f.parkAgain p.cpu q)).1 +
            (resend rest blocked (f.parkAgain p.cpu q)).2.hub.signal.parked.length =
          f.hub.signal.parked.length + (p :: rest).length := by
      obtain ⟨paid, left⟩ := ih blocked (f.parkAgain p.cpu q)
      have longer : (f.parkAgain p.cpu q).hub.signal.parked.length =
          f.hub.signal.parked.length + 1 := by simp [parkAgain, Signal.park]
      rw [effort_parkAgain] at paid
      rw [List.length_cons]
      omega
    unfold resend
    split
    · exact again blocked p.probe
    · split
      · rename_i g sent
        have delivered : g.effort cpus ≤ f.effort cpus + 2 := effort_deliver cpus sent
        have signal : g.hub = f.hub := by
          have frame := (f.deliver_frame p.cpu (.probe p.probe)).1
          rwa [sent] at frame
        obtain ⟨paid, left⟩ := ih blocked g
        rw [signal] at left
        simp only [List.length_cons]
        omega
      · rename_i refused g sent
        obtain ⟨_, rfl⟩ := effort_deliver cpus sent
        exact again _ refused

theorem effort_retryParked (cpus : Nat) (f : Fabric) :
    f.retryParked.1 + f.retryParked.2.effort cpus ≤ f.effort cpus ∧
      f.retryParked.1 + f.retryParked.2.hub.signal.parked.length = f.hub.signal.parked.length := by
  let emptied : Fabric := { f with hub := { f.hub with signal := f.hub.signal.takeParked.2 } }
  obtain ⟨paid, left⟩ := effort_resend cpus f.hub.signal.parked [] emptied
  have without : emptied.effort cpus + 3 * f.hub.signal.parked.length = f.effort cpus := by
    simp only [emptied, effort, Hub.effort, Signal.takeParked, List.length_nil]
    omega
  rw [without] at paid
  exact ⟨paid, left.trans (Nat.zero_add _)⟩

/-- An open transaction pays for the victims that its answer may send. -/
theorem effort_finish (cpus : Nat) (f : Fabric) (number : Nat) :
    (f.finish number).effort cpus ≤ f.effort cpus := by
  cases found : f.hub.transaction? number with
  | none => rw [finish_none found]
  | some t =>
    obtain ⟨memory, counters, m, same, _⟩ := finish_some found
    have ended : (f.closed t memory counters).effort cpus + slotCount ≤ f.effort cpus := by
      have fewer : (f.hub.transactions.filter (·.number != t.number)).length <
          f.hub.transactions.length :=
        List.length_filter_lt_length_iff_exists.mpr ⟨t, List.mem_of_find?_eq_some found, by simp⟩
      have cost := Nat.mul_le_mul_left slotCount fewer
      rw [Nat.mul_succ] at cost
      simp only [closed, effort, Hub.effort, Hub.dropTransaction]
      omega
    rw [same]
    exact (effort_complete cpus _ t.origin m).1.trans ended

theorem effort_openRead (few : f.hub.sockets.length ≤ cpus) (r : DeferredRead) :
    (f.openRead r).effort cpus + 1 ≤ f.effort cpus + readEffort cpus := by
  let opened : Fabric :=
    { f with
      hub := f.hub.openTransaction r.cpu r.id r.addr r.kind (f.others r.cpu).length }
  have cost : opened.effort cpus = f.effort cpus + slotCount := by
    simp only [opened, effort, Hub.effort, Hub.openTransaction, List.length_append,
      List.length_singleton]
    rw [Nat.mul_succ]
    omega
  have targets : (f.others r.cpu).length ≤ cpus := by
    refine (List.length_filter_le ..).trans ?_
    rwa [List.length_range]
  unfold openRead
  simp only [readEffort]
  split
  · have ended := effort_finish cpus opened f.hub.nextNumber
    simp only [opened] at ended cost
    omega
  · have probed := effort_sendProbes cpus (f.others r.cpu)
      (Probe.ofCommand f.hub.nextNumber r.addr.block (f.hub.probeCommand r.kind)) opened
    simp only [opened] at probed cost
    omega

theorem deferred_routeRead {r : DeferredRead} (free : f.hub.isBusy r.addr = false) :
    (f.routeRead r).hub.deferred = f.hub.deferred := by
  have finished (g : Fabric) (number : Nat) : (g.finish number).hub.deferred = g.hub.deferred := by
    cases found : g.hub.transaction? number with
    | none => simp only [finish, found]
    | some t => exact (still_finish found).deferred
  unfold routeRead
  split
  · exact (sending_still.complete f r.cpu _).deferred
  · rw [if_neg (by simp [free] : ¬f.hub.isBusy r.addr = true)]
    split
    · unfold openRead
      simp only
      split
      · exact finished _ f.hub.nextNumber
      · exact (sending_still.sendProbes _ _ _).deferred
    · exact (sending_still.complete _ r.cpu _).deferred

/-- A read that is answered at once costs less than one that is deferred. -/
theorem effort_answered (cpus : Nat) (f : Fabric) (cpu : Nat) (m : Completion) :
    (f.complete cpu m).effort cpus + 1 ≤ f.effort cpus + readEffort cpus := by
  have cost := (effort_complete cpus f cpu m).1
  simp only [readEffort]
  omega

theorem effort_routeRead (few : f.hub.sockets.length ≤ cpus) (r : DeferredRead) :
    (f.routeRead r).effort cpus ≤ f.effort cpus + readEffort cpus ∧
      (f.hub.isBusy r.addr = false →
        (f.routeRead r).effort cpus + 1 ≤ f.effort cpus + readEffort cpus) := by
  have both {g : Fabric} (paid : g.effort cpus + 1 ≤ f.effort cpus + readEffort cpus) :
      g.effort cpus ≤ f.effort cpus + readEffort cpus ∧
        (f.hub.isBusy r.addr = false → g.effort cpus + 1 ≤ f.effort cpus + readEffort cpus) :=
    ⟨(Nat.le_succ _).trans paid, fun _ => paid⟩
  unfold routeRead
  split
  · exact both (effort_answered cpus f r.cpu _)
  · split
    · split
      · rename_i busy
        refine ⟨Nat.le_of_eq ?_, fun free => absurd busy (by simp [free])⟩
        simp only [effort, Hub.effort, List.length_append, List.length_singleton, Nat.mul_succ]
        omega
      · exact both (effort_openRead few r)
    · have same := f.effort_count cpus fun k => { k with absent := k.absent + 1 }
      have paid := effort_answered cpus (f.count fun k => { k with absent := k.absent + 1 }) r.cpu
        { target := .request r.id, absent := true }
      rw [same] at paid
      exact both paid

theorem effort_routeVictim (cpus : Nat) (f : Fabric) (cpu : Nat) (slot : Slot) (a : Address)
    (data : Block) : (f.routeVictim cpu slot a data).effort cpus = f.effort cpus := by
  unfold routeVictim
  simp only
  refine ((effort_complete cpus _ cpu _).2 slot rfl).trans ?_
  split <;> rfl

theorem effort_routeReply (cpus : Nat) (f : Fabric) (cpu : Nat) (r : ProbeReply) :
    (f.routeReply cpu r).effort cpus ≤ f.effort cpus := by
  cases found : f.hub.transaction? r.txn with
  | none =>
    rw [Pass.routeReply_none f cpu found]
    exact Nat.le_refl _
  | some t =>
    obtain ⟨counters, shape, _⟩ := Pass.routeReply_some f cpu found
    have taken : (Pass.tookReply f r t counters).effort cpus = f.effort cpus := by
      simp [effort, Hub.effort, Pass.tookReply, Hub.modifyTransaction]
    have freed : (Pass.freeVictim (Pass.tookReply f r t counters) cpu r.victim).effort cpus =
        f.effort cpus := by
      cases r.victim with
      | none => exact taken
      | some slot => exact ((effort_complete cpus _ cpu _).2 slot rfl).trans taken
    rw [shape]
    split
    · exact (effort_finish cpus _ r.txn).trans freed.le
    · exact freed.le

theorem effort_route (few : f.hub.sockets.length ≤ cpus) (cpu : Nat) (q : Request) :
    1 + (f.route cpu q).effort cpus ≤ f.effort cpus + q.effort cpus := by
  cases q with
  | read id a kind =>
    have routed := (effort_routeRead few ⟨cpu, id, a, kind⟩).1
    simp only [Request.effort, route]
    omega
  | ioWrite id a data mask written =>
    let stored : Fabric := { f with hub := f.hub.writeIo a data written }
    have same := stored.effort_count cpus fun k => { k with ioWrites := k.ioWrites + 1 }
    have answered := (effort_complete cpus
      (stored.count fun k => { k with ioWrites := k.ioWrites + 1 }) cpu { target := .request id }).1
    rw [same] at answered
    have space : stored.effort cpus = f.effort cpus := rfl
    rw [space] at answered
    simp only [Request.effort, route, routeIoWrite]
    simp only [stored] at answered
    omega
  | victim slot a data =>
    have routed := effort_routeVictim cpus f cpu slot a data
    simp only [Request.effort, route]
    omega
  | reply r =>
    have routed := effort_routeReply cpus f cpu r
    simp only [Request.effort, route]
    omega
  | barrier id =>
    have answered := (effort_complete cpus f cpu { target := .request id }).1
    simp only [Request.effort, route]
    omega

/-- Handling a request is one unit of work, and the request pays for it. -/
theorem effort_routeCounted (few : f.hub.sockets.length ≤ cpus) (cpu : Nat) (q : Request) :
    1 + (f.routeCounted cpu q).effort cpus ≤ f.effort cpus + q.effort cpus := by
  have routed := effort_route (f := f.count fun k => { k with requests := k.requests + 1 }) few cpu q
  rwa [effort_count] at routed

theorem effort_takeRequests (cpus : Nat) (f : Fabric) (cpu : Nat) :
    (f.takeRequests cpu).2.effort cpus + ((f.takeRequests cpu).1.map (·.effort cpus)).sum =
      f.effort cpus := by
  unfold takeRequests
  split
  · rfl
  · split
    · rfl
    · rename_i socket _ _ n present
      let silent : Node := { n with controller := { n.controller with outbound := [] } }
      have changed := effort_node cpus present silent
      have emptied : silent.effort cpus + (n.controller.outbound.map (·.effort cpus)).sum =
          n.effort cpus := by
        simp only [silent, Node.effort, List.map_nil, List.sum_nil, Nat.add_zero]
      change effort cpus { f with nodes := f.nodes.set socket silent } +
        (n.controller.outbound.map (·.effort cpus)).sum = f.effort cpus
      omega

theorem effort_routeAll (cpu : Nat) (requests : List Request) {f : Fabric}
    (few : f.hub.sockets.length ≤ cpus) :
    requests.length + (requests.foldl (routeCounted cpu) f).effort cpus ≤
      f.effort cpus + (requests.map (·.effort cpus)).sum := by
  induction requests generalizing f with
  | nil => exact (Nat.zero_add _).le
  | cons q rest ih =>
    have first := effort_routeCounted few cpu q
    have sockets := (routing_keeps.request f cpu q).sockets
    have others := ih (f := f.routeCounted cpu q) (by rwa [sockets])
    simp only [List.foldl_cons, List.length_cons, List.map_cons, List.sum_cons]
    omega

/-! ## Passes -/

structure Spends (cpus : Nat) (f : Fabric) (pass : Nat × Fabric) : Prop where
  paid : pass.1 + pass.2.effort cpus ≤ f.effort cpus
  sockets : pass.2.hub.sockets = f.hub.sockets

theorem Spends.few {pass : Nat × Fabric} (spends : Spends cpus f pass)
    (few : f.hub.sockets.length ≤ cpus) : pass.2.hub.sockets.length ≤ cpus := by
  rw [spends.sockets]
  exact few

theorem Spends.trans {first others : Nat} {h : Fabric} (before : Spends cpus f (first, g))
    (after : Spends cpus g (others, h)) : Spends cpus f (first + others, h) := by
  have paid := before.paid
  have later := after.paid
  simp only at paid later
  exact ⟨by simp only; omega, after.sockets.trans before.sockets⟩

theorem Spends.sweep {pass : Fabric → Nat → Nat × Fabric}
    (spends : ∀ (f : Fabric) (i : Nat), f.hub.sockets.length ≤ cpus → Spends cpus f (pass f i))
    (list : List Nat) {f : Fabric} (few : f.hub.sockets.length ≤ cpus) :
    Spends cpus f (f.sweep pass list) := by
  induction list generalizing f with
  | nil => exact ⟨(Nat.zero_add _).le, rfl⟩
  | cons i rest ih =>
    have first := spends f i few
    exact first.trans (ih (first.few few))

theorem spends_retryParked (cpus : Nat) (f : Fabric) : Spends cpus f f.retryParked :=
  ⟨(f.effort_retryParked cpus).1, (Fabric.routing_keeps.resend _ _ _).sockets⟩

theorem spends_serveQueue (cpu : Nat) (few : f.hub.sockets.length ≤ cpus) :
    Spends cpus f (f.serveQueue cpu) := by
  refine ⟨?_, (f.works_serveQueue cpu).keeps.sockets⟩
  have sockets := (f.keeps_takeRequests cpu).sockets
  have room : (f.takeRequests cpu).2.hub.sockets.length ≤ cpus := by
    rw [sockets]
    exact few
  have served := effort_routeAll cpu (f.takeRequests cpu).1 room
  rw [effort_takeRequests] at served
  exact served

/-- A deferred read that is ready pays for its work, and one whose block is busy goes to the back. -/
theorem effort_retryReads (count : Nat) {f : Fabric} (few : f.hub.sockets.length ≤ cpus) :
    (retryReads count f).1 + (retryReads count f).2.effort cpus ≤ f.effort cpus ∧
      (retryReads count f).1 + (retryReads count f).2.hub.deferred.length =
        f.hub.deferred.length := by
  induction count generalizing f with
  | zero => exact ⟨(Nat.zero_add _).le, Nat.zero_add _⟩
  | succ count ih =>
    unfold retryReads
    cases waiting : f.hub.deferred with
    | nil =>
      refine ⟨(Nat.zero_add _).le, ?_⟩
      simp [waiting]
    | cons r rest =>
      let without : Fabric := { f with hub := { f.hub with deferred := rest } }
      have cost : without.effort cpus + readEffort cpus = f.effort cpus := by
        simp only [without, effort, Hub.effort, waiting, List.length_cons, Nat.mul_succ]
        omega
      cases busy : f.hub.isBusy r.addr with
      | true =>
        let turned : Fabric := { f with hub := { f.hub with deferred := rest ++ [r] } }
        have same : turned.effort cpus = f.effort cpus := by
          simp only [turned, effort, Hub.effort, waiting, List.length_append, List.length_cons,
            List.length_nil]
        obtain ⟨paid, left⟩ := ih (f := turned) few
        have still : without.hub.isBusy r.addr = true := busy
        simp only [without] at still
        simp only [still, if_true]
        refine ⟨paid.trans same.le, left.trans ?_⟩
        simp [turned]
      | false =>
        have first := (effort_routeRead (f := without) few r).2 busy
        have sockets := (routing_keeps.read without r).sockets
        obtain ⟨paid, left⟩ := ih (f := without.routeRead r) (by rwa [sockets])
        rw [deferred_routeRead (f := without) busy] at left
        have free : without.hub.isBusy r.addr = false := busy
        simp only [without] at free paid left first cost
        simp only [free, Bool.false_eq_true, if_false, List.length_cons]
        omega

theorem spends_retryReads (count : Nat) (few : f.hub.sockets.length ≤ cpus) :
    Spends cpus f (retryReads count f) :=
  ⟨(effort_retryReads count few).1, (works_retryReads count f).keeps.sockets⟩

theorem spends_poll (few : f.hub.sockets.length ≤ cpus) : Spends cpus f f.poll := by
  have parked := f.spends_retryParked cpus
  have room := parked.few few
  have served := Spends.sweep (fun f cpu few => spends_serveQueue (f := f) cpu few)
    (List.range f.retryParked.2.hub.sockets.length) room
  exact (parked.trans served).trans (spends_retryReads _ (served.few room))

theorem effort_service (cpus : Nat) (f : Fabric) (i : Nat) :
    (f.service i).1 + (f.service i).2.effort cpus = f.effort cpus := by
  unfold service
  cases present : f.nodes[i]? with
  | none => exact Nat.zero_add _
  | some n =>
    have changed := effort_node cpus present n.serviceProbes.2
    have answered := (n.effort_answerProbes cpus n.probes.length).1
    have lowered : n.serviceProbes.2.effort cpus =
        (n.answerProbes n.probes.length).2.effort cpus := by
      unfold Node.serviceProbes
      simp only
      split <;> rfl
    have count : n.serviceProbes.1 = (n.answerProbes n.probes.length).1 := rfl
    have rung : (if 0 < n.serviceProbes.1 && n.serviceProbes.2.bound then
        ringDoorbell { f with nodes := f.nodes.set i n.serviceProbes.2 }
        else { f with nodes := f.nodes.set i n.serviceProbes.2 }).effort cpus =
        effort cpus { f with nodes := f.nodes.set i n.serviceProbes.2 } := by
      split <;> rfl
    simp only
    omega

theorem spends_service (cpus : Nat) (f : Fabric) (i : Nat) : Spends cpus f (f.service i) :=
  ⟨(f.effort_service cpus i).le, (f.works_service i).keeps.sockets⟩

theorem spends_step (few : f.hub.sockets.length ≤ cpus) : Spends cpus f f.step := by
  have polled := spends_poll few
  have served := Spends.sweep (fun f i _ => f.spends_service cpus i) (List.range f.poll.2.own)
    (polled.few few)
  exact polled.trans served

/-- The bound belongs to the state: it goes by the CPUs that are registered there. -/
theorem Spends.pays {pass : Nat × Fabric} (spends : Spends f.hub.sockets.length f pass) :
    f.Pays pass := by
  rw [Pays, workLeft, spends.sockets]
  exact spends.paid

theorem pays_step (f : Fabric) : f.Pays f.step := (spends_step (Nat.le_refl _)).pays

theorem pays_steps (n : Nat) (f : Fabric) : f.Pays (f.steps n) := by
  induction n generalizing f with
  | zero => exact (Nat.zero_add _).le
  | succ n ih =>
    have first : f.step.1 + f.step.2.workLeft ≤ f.workLeft := f.pays_step
    have others : (f.step.2.steps n).1 + (f.step.2.steps n).2.workLeft ≤ f.step.2.workLeft :=
      ih f.step.2
    simp only [Pays, steps]
    omega

theorem steps_idle (f : Fabric) : ∃ n ≤ f.workLeft, (f.steps n).2.step.1 = 0 := by
  -- on the work that is left: a step that does some leaves less of it
  induction left : f.workLeft using Nat.strong_induction_on generalizing f with
  | _ total ih =>
    cases work : f.step.1 with
    | zero => exact ⟨0, Nat.zero_le _, work⟩
    | succ more =>
      have paid : f.step.1 + f.step.2.workLeft ≤ f.workLeft := f.pays_step
      obtain ⟨n, few, idle⟩ := ih f.step.2.workLeft (by omega) f.step.2 rfl
      exact ⟨n + 1, by omega, idle⟩

/-- What counts as work in a fabric, and that each unit of it is paid for. -/
structure Winds (f : Fabric) : Prop where
  step : f.Pays f.step
  /-- A parked probe that is delivered is work; one that is parked again is not. -/
  parked : f.Pays f.retryParked ∧
    f.retryParked.1 + f.retryParked.2.hub.signal.parked.length = f.hub.signal.parked.length
  deliveries : ∀ cpu p g, f.deliver cpu (.probe p) = (none, g) →
    1 + g.workLeft ≤ f.workLeft + 3
  /-- Each request of a queue is work. -/
  queues : ∀ cpu, f.Pays (f.serveQueue cpu) ∧ (f.serveQueue cpu).1 = (f.takeRequests cpu).1.length
  requests : ∀ cpu q,
    1 + (f.routeCounted cpu q).workLeft ≤ f.workLeft + q.effort f.hub.sockets.length
  /-- A deferred read that begins is work; one that goes to the back is not. -/
  reads : ∀ count, f.Pays (retryReads count f) ∧
    (retryReads count f).1 + (retryReads count f).2.hub.deferred.length = f.hub.deferred.length
  /-- A probe that is answered is work; one that is refused for want of room is not. -/
  probes : ∀ i, f.Pays (f.service i) ∧
    ∀ n, f.nodes[i]? = some n → ∃ m, (f.service i).2.nodes[i]? = some m ∧
      (f.service i).1 + m.probes.length = n.probes.length
  answers : ∀ n ∈ f.nodes, ∀ limit,
    (n.answerProbes limit).1 + (n.answerProbes limit).2.effort f.hub.sockets.length =
      n.effort f.hub.sockets.length
  /-- An answer sends a few victims and nothing else. -/
  fills : ∀ n ∈ f.nodes, ∀ m, ∃ sent,
    (n.deliver (.completion m)).2.controller.outbound = n.controller.outbound ++ sent ∧
      sent.length ≤ slotCount ∧ ∀ q ∈ sent, ∃ (v : Victim) (slot : Slot), q = v.request slot

theorem ring_service {i : Nat} {n : Node} (present : f.nodes[i]? = some n) :
    ∃ m, (f.service i).2.nodes[i]? = some m ∧ (f.service i).1 + m.probes.length = n.probes.length := by
  obtain ⟨inside, _⟩ := List.getElem?_eq_some_iff.mp present
  have answered := (n.effort_answerProbes 0 n.probes.length).2
  refine ⟨n.serviceProbes.2, ?_, ?_⟩
  · simp only [service, present]
    split <;> simp [ringDoorbell, inside]
  · have ring : n.serviceProbes.2.probes = (n.answerProbes n.probes.length).2.probes := by
      unfold Node.serviceProbes
      simp only
      split <;> rfl
    rw [service_node, present, ring]
    exact answered

theorem winds (f : Fabric) : f.Winds where
  step := f.pays_step
  parked := ⟨(f.spends_retryParked _).pays, (f.effort_retryParked 0).2⟩
  deliveries cpu p g sent := by
    have delivered : g.effort f.hub.sockets.length ≤ f.workLeft + 2 := effort_deliver _ sent
    have frame : (f.deliver cpu (.probe p)).2.hub = f.hub := (f.deliver_frame cpu _).1
    rw [sent] at frame
    rw [workLeft, frame]
    omega
  queues cpu := ⟨(spends_serveQueue cpu (Nat.le_refl _)).pays, rfl⟩
  requests cpu q := by
    rw [workLeft, (routing_keeps.request f cpu q).sockets]
    exact effort_routeCounted (Nat.le_refl _) cpu q
  reads count :=
    ⟨(spends_retryReads count (Nat.le_refl _)).pays, (effort_retryReads count (Nat.le_refl _)).2⟩
  probes i := ⟨(f.spends_service _ i).pays, fun _ present => ring_service present⟩
  answers n _ limit := (n.effort_answerProbes _ limit).1
  fills n _ m := by
    obtain ⟨sent, outbound, few, sends, _⟩ := n.controller.complete_few m
    exact ⟨sent, outbound, few, sends⟩

/-- All the work that a fabric will ever do without further calls is bounded by what is left in it, and
one of so many steps does none. -/
theorem stepping_ends (f : Fabric) :
    f.Winds ∧ (∀ n, f.Pays (f.steps n)) ∧ ∃ n ≤ f.workLeft, (f.steps n).2.step.1 = 0 :=
  ⟨f.winds, fun n => f.pays_steps n, f.steps_idle⟩

/-- Two reads of a fresh pair cost three units each: the read, a probe and its reply. -/
example :
    let f := Machine.pair.fabric.obey (crossing.take 2)
    f.workLeft = 32 ∧ (f.steps 2).1 = 6 ∧ (f.steps 2).2.workLeft = 0 := by
  decide +kernel

end Fabric
end CacheCoherence
