import CacheCoherence.Proofs.Acknowledgements
import CacheCoherence.Proofs.Circulation

/-! A pass without work leaves the fabric as it is, so what it found has to be there still: every queue
empty, every deferred read behind a transaction, every parked probe behind a full ring, and every ring
empty or behind a full victim buffer. The accounts of the traffic exclude each of these, and so a step
without work means that nothing is outstanding. -/

namespace CacheCoherence

/-- Nothing of the node is outstanding. -/
structure Node.Idle (n : Node) : Prop where
  probes : n.probes.isEmpty
  outbound : n.controller.outbound = []
  victims : ∀ i v, n.controller.victims.get? i = some v → v.draining = false
  writes : ∀ i w, n.controller.writes.get? i = some w → w.issued → w.acknowledged
  misses : ∀ i m, n.controller.misses.get? i = some m → m.answer.isSome

/-- Nothing is outstanding, at the hub or at any node. -/
structure Fabric.Idle (f : Fabric) : Prop where
  transactions : f.hub.transactions = []
  free : ∀ a, f.hub.isBusy a = false
  deferred : f.hub.deferred = []
  parked : f.hub.signal.parked = []
  nodes : ∀ n ∈ f.nodes, n.Idle

namespace Fabric

def seated (f : Fabric) (cpu : Nat) : Option Node := (f.hub.sockets[cpu]?).bind (f.nodes[·]?)

theorem set_node (f : Fabric) {i : Nat} {n : Node} (present : f.nodes[i]? = some n) :
    { f with nodes := f.nodes.set i n } = f := by
  obtain ⟨inside, rfl⟩ := List.getElem?_eq_some_iff.mp present
  rw [List.set_getElem_self inside]

/-- A probe that comes back found a full ring, and nothing has changed. -/
theorem deliver_refused {f g : Fabric} {cpu : Nat} {p refused : Probe}
    (outcome : f.deliver cpu (.probe p) = (some refused, g)) :
    refused = p ∧ g = f ∧ (f.seated cpu).any (·.probes.isFull) := by
  unfold deliver at outcome
  split at outcome
  · cases outcome
  rename_i socket at_cpu
  split at outcome
  · cases outcome
  rename_i n present
  cases full : n.probes.isFull with
  | false => simp [Node.deliver, ProbeRing.push, full] at outcome
  | true =>
    simp only [Node.deliver, ProbeRing.push_full full, Prod.mk.injEq, Option.some.injEq] at outcome
    obtain ⟨rfl, same⟩ := outcome
    refine ⟨rfl, ?_, ?_⟩
    · rw [← same]
      exact f.set_node present
    · simp [seated, at_cpu, present, full]

/-- When no parked probe can be delivered, all are parked again, and the first finds a full ring. -/
theorem resend_zero (parked : List ParkedProbe) (blocked : List Nat) (f : Fabric)
    (zero : (resend parked blocked f).1 = 0) :
    (resend parked blocked f).2 =
        { f with
          hub := { f.hub with
            signal := { f.hub.signal with parked := f.hub.signal.parked ++ parked } } } ∧
      ∀ p ∈ parked.head?, p.cpu ∉ blocked → (f.seated p.cpu).any (·.probes.isFull) := by
  induction parked generalizing blocked f with
  | nil =>
    refine ⟨?_, by simp⟩
    rw [List.append_nil]
    rfl
  | cons p rest ih =>
    have again (others : List Nat) (left : (resend rest others (f.parkAgain p.cpu p.probe)).1 = 0) :
        (resend rest others (f.parkAgain p.cpu p.probe)).2 =
          { f with
            hub := { f.hub with
              signal := { f.hub.signal with parked := f.hub.signal.parked ++ p :: rest } } } := by
      rw [(ih others _ left).1]
      simp only [parkAgain, Signal.park, List.append_assoc, List.singleton_append]
    unfold resend at zero ⊢
    split at zero
    · rename_i behind
      refine ⟨?_, ?_⟩
      · rw [if_pos behind]
        exact again blocked zero
      · intro q first apart
        cases Option.some.inj first
        exact absurd (by simpa using behind) apart
    · rename_i ahead
      rw [if_neg ahead]
      split at zero
      · exact absurd zero (Nat.succ_ne_zero _)
      · rename_i refused g outcome
        obtain ⟨rfl, rfl, full⟩ := deliver_refused outcome
        refine ⟨?_, ?_⟩
        · exact again _ zero
        · intro q first _
          cases Option.some.inj first
          exact full

theorem retryParked_zero (f : Fabric) (zero : f.retryParked.1 = 0) :
    f.retryParked.2 = f ∧
      ∀ p ∈ f.hub.signal.parked.head?, (f.seated p.cpu).any (·.probes.isFull) := by
  obtain ⟨same, full⟩ := resend_zero f.hub.signal.parked [] _ zero
  exact ⟨same, fun p first => full p first List.not_mem_nil⟩

theorem serveQueue_zero (f : Fabric) (cpu : Nat) (zero : (f.serveQueue cpu).1 = 0) :
    (f.serveQueue cpu).2 = f ∧ ∀ n ∈ f.seated cpu, n.controller.outbound = [] := by
  unfold serveQueue takeRequests at zero ⊢
  cases at_cpu : f.hub.sockets[cpu]? with
  | none => simp [seated, at_cpu]
  | some socket =>
    cases present : f.nodes[socket]? with
    | none => simp [seated, at_cpu, present]
    | some n =>
      simp only [at_cpu, present, Controller.takeRequests, List.length_eq_zero_iff] at zero
      have same : ({ n with controller := { n.controller with outbound := [] } } : Node) = n := by
        rw [← zero]
      refine ⟨?_, ?_⟩
      · simp only [present, Controller.takeRequests, zero, List.foldl_nil, same]
        exact f.set_node present
      · intro m there
        simp only [seated, at_cpu, present, Option.bind_some, Option.mem_def,
          Option.some.injEq] at there
        rw [← there, zero]

/-- A sweep without work, of passes that change nothing when they do nothing. -/
theorem sweep_zero {pass : Fabric → Nat → Nat × Fabric} {f : Fabric}
    (still : ∀ i, (pass f i).1 = 0 → (pass f i).2 = f) (list : List Nat)
    (zero : (f.sweep pass list).1 = 0) :
    (f.sweep pass list).2 = f ∧ ∀ i ∈ list, (pass f i).1 = 0 := by
  induction list with
  | nil => exact ⟨rfl, by simp⟩
  | cons i rest ih =>
    simp only [sweep, Nat.add_eq_zero_iff] at zero ⊢
    obtain ⟨first, others⟩ := zero
    rw [still i first] at others ⊢
    obtain ⟨same, each⟩ := ih others
    exact ⟨same, List.forall_mem_cons.mpr ⟨first, each⟩⟩

/-- When no deferred read is ready, each of them has found its block busy. -/
theorem retryReads_zero (first rest : List DeferredRead) (f : Fabric)
    (deferred : f.hub.deferred = first ++ rest) (zero : (retryReads first.length f).1 = 0) :
    (retryReads first.length f).2 = { f with hub := { f.hub with deferred := rest ++ first } } ∧
      ∀ r ∈ first, f.hub.isBusy r.addr := by
  -- a read that is put back changes the queue, so the fabric is not fixed in the induction
  induction first generalizing rest f with
  | nil =>
    refine ⟨?_, by simp⟩
    rw [List.append_nil, ← List.nil_append rest, ← deferred]
    rfl
  | cons r others ih =>
    simp only [List.length_cons, retryReads, deferred, List.cons_append] at zero ⊢
    split at zero
    · rename_i busy
      rw [if_pos busy]
      obtain ⟨same, each⟩ := ih (rest ++ [r])
        { f with hub := { f.hub with deferred := others ++ rest ++ [r] } }
        (List.append_assoc ..) zero
      refine ⟨?_, List.forall_mem_cons.mpr ⟨busy, each⟩⟩
      rw [same]
      simp only [List.append_assoc, List.singleton_append]
    · exact absurd zero (Nat.succ_ne_zero _)

structure Stalled (f : Fabric) : Prop where
  parked : ∀ p ∈ f.hub.signal.parked.head?, (f.seated p.cpu).any (·.probes.isFull)
  queues : ∀ cpu < f.hub.sockets.length, ∀ n ∈ f.seated cpu, n.controller.outbound = []
  deferred : ∀ r ∈ f.hub.deferred, f.hub.isBusy r.addr

theorem poll_zero (f : Fabric) (zero : f.poll.1 = 0) : f.poll.2 = f ∧ f.Stalled := by
  simp only [poll, Nat.add_eq_zero_iff] at zero ⊢
  obtain ⟨⟨parked, served⟩, ready⟩ := zero
  obtain ⟨same, full⟩ := f.retryParked_zero parked
  rw [same] at served ready ⊢
  obtain ⟨same, each⟩ :=
    sweep_zero (fun cpu none_taken => (f.serveQueue_zero cpu none_taken).1) _ served
  rw [same] at ready ⊢
  obtain ⟨same, busy⟩ := retryReads_zero f.hub.deferred [] f (List.append_nil _).symm ready
  refine ⟨same, full, ?_, busy⟩
  intro cpu inside
  exact (f.serveQueue_zero cpu (each cpu (List.mem_range.mpr inside))).2

theorem service_node (f : Fabric) (i : Nat) :
    (f.service i).1 = ((f.nodes[i]?).map (·.serviceProbes.1)).getD 0 := by
  unfold service
  cases f.nodes[i]? with
  | none => rfl
  | some n => rfl

theorem service_other (f : Fabric) {i j : Nat} (apart : j ≠ i) :
    (f.service i).2.nodes[j]? = f.nodes[j]? := by
  unfold service
  cases f.nodes[i]? with
  | none => rfl
  | some n =>
    have kept (m : Node) : (f.nodes.set i m)[j]? = f.nodes[j]? :=
      List.getElem?_set_ne (Ne.symm apart)
    simp only
    split
    · exact kept _
    · exact kept _

/-- Nodes are served on their own, so in a sweep without work each would do none. -/
theorem service_zero (list : List Nat) (nodup : list.Nodup) (f : Fabric)
    (zero : (f.sweep service list).1 = 0) : ∀ i ∈ list, (f.service i).1 = 0 := by
  induction list generalizing f with
  | nil => simp
  | cons i rest ih =>
    simp only [sweep, Nat.add_eq_zero_iff] at zero
    obtain ⟨fresh, nodup⟩ := List.nodup_cons.mp nodup
    refine List.forall_mem_cons.mpr ⟨zero.1, fun j member => ?_⟩
    have apart : j ≠ i := fun same => fresh (same ▸ member)
    have later := ih nodup _ zero.2 j member
    rwa [service_node, f.service_other apart, ← service_node] at later

end Fabric

/-- A node that answers none of its probes has none, or has no room for what they may bring. -/
theorem Node.serviceProbes_zero {n : Node} (good : n.controller.Good)
    (formed : n.probes.WellFormed) (zero : n.serviceProbes.1 = 0) :
    n.probes.contents = [] ∨ n.controller.victims.hasRoom = false := by
  cases contents : n.probes.contents with
  | nil => exact .inl rfl
  | cons p later =>
    have oldest : n.probes.front = some p := by
      rw [ProbeRing.front_eq formed, contents]
      rfl
    have some_left : n.probes.length ≠ 0 := by
      intro none_left
      simp [ProbeRing.contents, none_left] at contents
    obtain ⟨limit, count⟩ := Nat.exists_eq_succ_of_ne_zero some_left
    have none_answered : (n.answerProbes (limit + 1)).1 = 0 := by
      rw [← Nat.succ_eq_add_one, ← count]
      exact zero
    rcases good.handleProbe_replies p with ⟨r, d, outcome, _⟩ | ⟨fault, d, _, _, _, _, full⟩
    · simp only [Node.answerProbes, oldest, outcome] at none_answered
      exact absurd none_answered (Nat.succ_ne_zero _)
    · exact .inr full

theorem Controller.Owed.silent {c : Controller} (owed : c.Owed []) :
    (∀ i v, c.victims.get? i = some v → v.draining = false) ∧
      ∀ i w, c.writes.get? i = some w → w.issued → w.acknowledged := by
  constructor
  · intro i v present
    have named := owed.victims i
    cases drains : v.draining with
    | false => rfl
    | true => simp [present, Option.filter, drains] at named
  · intro i w present issued
    have named := owed.writes i
    cases done : w.acknowledged with
    | true => rfl
    | false => simp [present, issued, done] at named

namespace Pass.Sound

variable {lay : Layout} {f : Fabric} {k : Nat} {n : Node}

theorem seated (sound : Pass.Sound lay { fabric := f }) (k : Nat) :
    f.seated k = if k < lay.cpus then f.nodes[k]? else none := by
  have socket := sound.steady.socket k
  simp only at socket
  rw [Fabric.seated, socket]
  split
  · rfl
  · rfl

theorem outbound_nil (sound : Pass.Sound lay { fabric := f }) (stalled : f.Stalled)
    (present : f.nodes[k]? = some n) : n.controller.outbound = [] := by
  have sockets : f.hub.sockets = List.range lay.cpus := sound.steady.sockets
  have inside := sound.steady.inside (s := { fabric := f }) present
  refine stalled.queues k (by rwa [sockets, List.length_range]) n ?_
  rw [sound.seated, if_pos inside]
  exact present

theorem outgoing_nil (sound : Pass.Sound lay { fabric := f }) (stalled : f.Stalled) (k : Nat) :
    f.outgoing k = [] := by
  rw [Fabric.outgoing, Fabric.controller?]
  cases present : f.nodes[k]? with
  | none => rfl
  | some n =>
    rw [Option.map_some, Option.map_some, Option.getD_some, sound.outbound_nil stalled present]

theorem owed_nil (sound : Pass.Sound lay { fabric := f }) (stalled : f.Stalled)
    (present : f.nodes[k]? = some n) : n.controller.Owed [] := by
  have owed := sound.owed (s := { fabric := f }) (Pass.controller?_eq present)
  rwa [Pass.queue_idle, sound.outgoing_nil stalled] at owed

/-- A full victim buffer would wait for the hub, and so for a message in an empty queue. So a node that
answers no probe has none. -/
theorem contents_nil (sound : Pass.Sound lay { fabric := f }) (stalled : f.Stalled)
    (present : f.nodes[k]? = some n) (silent : (f.service k).1 = 0) : n.probes.contents = [] := by
  have good := sound.steady.good k _ (Pass.controller?_eq (s := { fabric := f }) present)
  rw [f.service_node, present] at silent
  rcases Node.serviceProbes_zero good (sound.steady.rings k n present) silent with empty | full
  · exact empty
  · obtain ⟨v, there, drains⟩ := (VictimBuffer.hasRoom_eq_false_iff _).mp full 0
    rw [(sound.owed_nil stalled present).silent.1 0 v there] at drains
    cases drains

theorem parked_nil (sound : Pass.Sound lay { fabric := f }) (stalled : f.Stalled)
    (silent : ∀ k < lay.cpus, (f.service k).1 = 0) : f.hub.signal.parked = [] := by
  cases waiting : f.hub.signal.parked with
  | nil => rfl
  | cons p rest =>
    have full := stalled.parked p (by rw [waiting]; rfl)
    rw [sound.seated] at full
    obtain ⟨n, present, full⟩ := (Option.any_eq_true _ _).mp full
    split at present
    · rename_i inside
      have formed := sound.steady.rings p.cpu n present
      have room := formed.room
      have empty := formed.length_contents
      rw [sound.contents_nil stalled present (silent p.cpu inside), List.length_nil] at empty
      rw [ProbeRing.isFull, ← empty, beq_iff_eq] at full
      omega
    · cases present

theorem items_nil (sound : Pass.Sound lay { fabric := f }) (stalled : f.Stalled)
    (silent : ∀ k < lay.cpus, (f.service k).1 = 0) (k : Nat) : f.items k = [] := by
  rw [Fabric.items, Fabric.incoming, sound.outgoing_nil stalled, sound.parked_nil stalled silent]
  cases present : f.nodes[k]? with
  | none => rfl
  | some n =>
    have inside := sound.steady.inside (s := { fabric := f }) present
    simp [sound.contents_nil stalled present (silent k inside)]

theorem transactions_nil (sound : Pass.Sound lay { fabric := f }) (stalled : f.Stalled)
    (silent : ∀ k < lay.cpus, (f.service k).1 = 0) : f.hub.transactions = [] := by
  refine List.eq_nil_iff_forall_not_mem.mpr fun t isOpen => ?_
  have counted := sound.conserves.pending t isOpen
  have none_held : f.holders t.number = ∅ := by
    simp [Fabric.holders, sound.items_nil stalled silent]
  rw [none_held, Finset.card_empty] at counted
  omega

theorem free (sound : Pass.Sound lay { fabric := f }) (closed : f.hub.transactions = [])
    (a : Address) : f.hub.isBusy a = false := by
  rw [Bool.eq_false_iff]
  intro busy
  obtain ⟨t, isOpen, _⟩ := (sound.steady.busy a).mp busy
  rw [show Pass.fabric { fabric := f } = f from rfl, closed] at isOpen
  cases isOpen

theorem deferred_nil (sound : Pass.Sound lay { fabric := f }) (stalled : f.Stalled)
    (closed : f.hub.transactions = []) : f.hub.deferred = [] := by
  refine List.eq_nil_iff_forall_not_mem.mpr fun r waits => ?_
  have busy := stalled.deferred r waits
  rw [sound.free closed] at busy
  cases busy

/-- A reference that waits has its read with the hub or on the way there. -/
theorem answered (sound : Pass.Sound lay { fabric := f }) (present : f.nodes[k]? = some n)
    (sent : f.outgoing k = []) (closed : f.hub.transactions = []) (retried : f.hub.deferred = [])
    {i : Slot} {m : Miss} (there : n.controller.misses.get? i = some m) : m.answer.isSome := by
  have asked := sound.traffic.answerable k i
  have owes : (Pass.traffic { fabric := f }).owes k i = 0 := by
    simp only [Traffic.owes, Pass.traffic, Pass.queue_idle, sent, closed, retried, List.countP_nil]
  rw [owes, Pass.desk_traffic (s := { fabric := f }) present] at asked
  cases answered : m.answer with
  | some answer => rfl
  | none => simp [Desk.waits, Controller.desk, there, answered] at asked

/-- A fabric that is stalled, and whose nodes answer no probe, has nothing outstanding. -/
theorem idle (sound : Pass.Sound lay { fabric := f }) (stalled : f.Stalled)
    (silent : ∀ k < lay.cpus, (f.service k).1 = 0) : f.Idle := by
  have closed := sound.transactions_nil stalled silent
  have retried := sound.deferred_nil stalled closed
  refine ⟨closed, sound.free closed, retried, sound.parked_nil stalled silent, fun n member => ?_⟩
  obtain ⟨k, present⟩ := List.mem_iff_getElem?.mp member
  have inside := sound.steady.inside (s := { fabric := f }) present
  have none_left := (sound.steady.rings k n present).length_contents
  rw [sound.contents_nil stalled present (silent k inside), List.length_nil] at none_left
  obtain ⟨victims, writes⟩ := (sound.owed_nil stalled present).silent
  refine ⟨?_, sound.outbound_nil stalled present, victims, writes, fun i m there => ?_⟩
  · rw [ProbeRing.isEmpty, ← none_left]
    rfl
  · exact sound.answered present (sound.outgoing_nil stalled k) closed retried there

end Pass.Sound

theorem Fabric.Idle.service {f : Fabric} (idle : f.Idle) (i : Nat) :
    (f.service i).1 = 0 ∧ (f.service i).2.Idle := by
  unfold Fabric.service
  cases present : f.nodes[i]? with
  | none => exact ⟨rfl, idle⟩
  | some n =>
    have rests := idle.nodes n (List.mem_of_getElem? present)
    have none_left : n.probes.length = 0 := by simpa [ProbeRing.isEmpty] using rests.probes
    have served : n.serviceProbes = (0, { n with interrupt := false }) := by
      simp only [Node.serviceProbes, none_left, Node.answerProbes, rests.probes, if_true]
    simp only [served]
    refine ⟨trivial, idle.transactions, idle.free, idle.deferred, idle.parked, fun m member => ?_⟩
    rcases List.mem_or_eq_of_mem_set member with old | rfl
    · exact idle.nodes m old
    · exact ⟨rests.probes, rests.outbound, rests.victims, rests.writes, rests.misses⟩

theorem Fabric.Idle.sweep {f : Fabric} (idle : f.Idle) (list : List Nat) :
    (f.sweep Fabric.service list).2.Idle := by
  induction list generalizing f with
  | nil => exact idle
  | cons i rest ih => exact ih (idle.service i).2

/-- Whatever was commanded, a step without work leaves nothing outstanding. -/
theorem idle_of_step_zero {σ : Type} {a : Allocator σ} {st : σ} {settings : Settings} {m : Machine}
    (built : (Machine.build a st settings).1.outcome = .ok m) (commands : List Command)
    (zero : (m.fabric.obey commands).step.1 = 0) : (m.fabric.obey commands).step.2.Idle := by
  obtain ⟨lay, sound⟩ := Machine.sound_of_obey built commands
  generalize m.fabric.obey commands = f at sound zero
  simp only [Fabric.step, Nat.add_eq_zero_iff] at zero ⊢
  obtain ⟨same, stalled⟩ := f.poll_zero zero.1
  rw [same] at zero ⊢
  have silent := Fabric.service_zero _ List.nodup_range f zero.2
  have own : f.own = lay.cpus := sound.traffic.own
  rw [own] at silent
  exact (sound.idle stalled fun k inside => silent k (List.mem_range.mpr inside)).sweep _

/-- The transactions of both CPUs run to their end. -/
def crossed : List Command := crossing ++ [.call (.service 0), .call .poll]

theorem idle_crossed :
    (Machine.build Heap.allocator {} .pair).1.outcome = .ok .pair ∧
      (Machine.pair.fabric.obey crossed).step.1 = 0 ∧
      (Machine.pair.fabric.obey crossed).step.2.Idle := by
  have zero : (Machine.pair.fabric.obey crossed).step.1 = 0 := by decide +kernel
  exact ⟨Machine.pair_built, zero, idle_of_step_zero Machine.pair_built crossed zero⟩

end CacheCoherence
