import CacheCoherence.Proofs.Moves
import CacheCoherence.Proofs.Traffic

namespace CacheCoherence

theorem Memory.contains_of_written {m memory : Memory} {a : Address}
    (source : memory = m ∨ ∃ data, memory = (m.writeBlock a data).2) (b : Address) :
    memory.contains b = m.contains b := by
  rcases source with rfl | ⟨data, rfl⟩
  · rfl
  · exact contains_writeBlock m a b data

namespace Fabric

def tally (f : Fabric) : Nat × Nat × Nat :=
  (f.own, f.hub.counters.probesSent, f.hub.counters.probeReplies)

theorem deliver_frame (f : Fabric) (cpu : Nat) (m : Message) :
    (f.deliver cpu m).2.hub = f.hub ∧ (f.deliver cpu m).2.own = f.own := by
  unfold deliver
  split
  · exact ⟨rfl, rfl⟩
  · split
    · exact ⟨rfl, rfl⟩
    · exact ⟨rfl, rfl⟩

theorem tally_deliver (f : Fabric) (cpu : Nat) (m : Message) :
    (f.deliver cpu m).2.tally = f.tally := by
  obtain ⟨hub, own⟩ := f.deliver_frame cpu m
  rw [tally, hub, own]
  rfl

def closed (f : Fabric) (t : Transaction) (memory : Memory) (counters : HubCounters) : Fabric :=
  { f with hub := { f.hub.dropTransaction t with memory, counters } }

/-- What ending a transaction does: dirty data goes to memory, and the reader is answered. -/
theorem finish_some {f : Fabric} {number : Nat} {t : Transaction}
    (found : f.hub.transaction? number = some t) :
    ∃ memory counters m, f.finish number = (f.closed t memory counters).complete t.origin m ∧
      m.target = .request t.id ∧
      (memory = f.hub.memory ∨ ∃ data, memory = (f.hub.memory.writeBlock t.addr data).2) ∧
      counters.transactions = f.hub.counters.transactions ∧
      counters.probesSent = f.hub.counters.probesSent ∧
      counters.probeReplies = f.hub.counters.probeReplies := by
  obtain ⟨memory, counters, written, source, opened, sent, taken⟩ : ∃ memory counters,
      writeBack { f with hub := f.hub.dropTransaction t } t = f.closed t memory counters ∧
        (memory = f.hub.memory ∨ ∃ data, memory = (f.hub.memory.writeBlock t.addr data).2) ∧
        counters.transactions = f.hub.counters.transactions ∧
        counters.probesSent = f.hub.counters.probesSent ∧
        counters.probeReplies = f.hub.counters.probeReplies := by
    unfold writeBack
    split
    · exact ⟨_, _, rfl, .inl rfl, rfl, rfl, rfl⟩
    · rename_i data _
      split
      · exact ⟨_, _, rfl, .inl rfl, rfl, rfl, rfl⟩
      · rename_i memory outcome
        exact ⟨memory, _, rfl, .inr ⟨data, (congrArg Prod.snd outcome).symm⟩, rfl, rfl, rfl⟩
  simp only [finish, found]
  rw [written]
  unfold fillFor
  split
  · exact ⟨memory, counters, _, rfl, rfl, source, opened, sent, taken⟩
  · split
    · exact ⟨memory, counters, _, rfl, rfl, source, opened, sent, taken⟩
    · exact ⟨memory, _, _, rfl, rfl, source, opened, sent, taken⟩

theorem finish_none {f : Fabric} {number : Nat} (missing : f.hub.transaction? number = none) :
    f.finish number = f := by
  simp only [finish, missing]

theorem tally_sendProbe (f : Fabric) (cpu : Nat) (p : Probe) :
    (f.sendProbe cpu p).tally = (f.tally.1, f.tally.2.1 + 1, f.tally.2.2) := by
  unfold sendProbe
  simp only
  split
  · rfl
  · have sent := tally_deliver (f.count fun k => { k with probesSent := k.probesSent + 1 }) cpu
      (.probe p)
    split
    · rename_i g shape
      rw [shape] at sent
      exact sent
    · rename_i refused g shape
      rw [shape] at sent
      exact sent

theorem tally_sendProbes (targets : List Nat) (p : Probe) (f : Fabric) :
    (targets.foldl (fun f k => f.sendProbe k p) f).tally =
      (f.tally.1, f.tally.2.1 + targets.length, f.tally.2.2) := by
  induction targets generalizing f with
  | nil => rfl
  | cons k rest ih =>
    rw [List.foldl_cons, ih, tally_sendProbe, List.length_cons, Nat.add_assoc, Nat.add_comm 1]

theorem tally_resend (parked : List ParkedProbe) (blocked : List Nat) (f : Fabric) :
    (resend parked blocked f).2.tally = f.tally := by
  induction parked generalizing blocked f with
  | nil => rfl
  | cons p rest ih =>
    unfold resend
    split
    · exact ih blocked _
    · have sent := f.tally_deliver p.cpu (.probe p.probe)
      split
      · rename_i g shape
        rw [shape] at sent
        exact (ih blocked g).trans sent
      · rename_i refused g shape
        rw [shape] at sent
        exact (ih _ _).trans sent

end Fabric

namespace Pass

variable {lay : Layout} {s t : Pass} {k : Nat} {n m : Node}

def traffic (s : Pass) : Traffic where
  desk k := ((s.fabric.controller? k).map (·.desk)).getD .empty
  queue := s.queue
  coming := s.coming
  txns := s.fabric.hub.transactions
  deferred := s.fabric.hub.deferred
  next := s.fabric.hub.nextNumber
  io := s.fabric.hub.ioBlock
  own := s.fabric.own
  probesSent := s.fabric.hub.counters.probesSent
  repliesTaken := s.fabric.hub.counters.probeReplies

theorem desk_traffic (present : s.fabric.nodes[k]? = some n) :
    s.traffic.desk k = n.controller.desk := by
  simp [traffic, controller?_eq present]

theorem traffic_seat_ring (present : s.fabric.nodes[k]? = some n) {sent : List Request}
    (outbound : m.controller.outbound = n.controller.outbound ++ sent) :
    (s.seat k m).traffic =
      { s.traffic.work k m.controller.desk sent with coming := (s.seat k m).coming } := by
  have desks : (fun j => (((s.seat k m).fabric.controller? j).map (·.desk)).getD .empty) =
      fun j => if j = k then m.controller.desk else s.traffic.desk j := by
    funext j
    rw [controller?_seat present]
    split
    · rfl
    · rfl
  have queues : (s.seat k m).queue = fun j => if j = k then s.queue j ++ sent else s.queue j :=
    funext (queue_seat present outbound)
  rw [traffic, desks, queues]
  rfl

theorem traffic_seat (present : s.fabric.nodes[k]? = some n) {sent : List Request}
    (outbound : m.controller.outbound = n.controller.outbound ++ sent)
    (ring : m.probes.contents = n.probes.contents) :
    (s.seat k m).traffic = s.traffic.work k m.controller.desk sent := by
  have probes : (s.seat k m).coming = s.coming := by
    funext j
    rw [coming_seat present]
    split
    · rename_i here
      rw [here, ring, coming, present]
      rfl
    · rfl
  rw [traffic_seat_ring present outbound, probes]
  rfl

theorem traffic_work_nil (v : Traffic) (k : Nat) : v.work k (v.desk k) [] = v := by
  have desks : (fun j => if j = k then v.desk k else v.desk j) = v.desk := by
    funext j
    split
    · rename_i here
      rw [here]
    · rfl
  have queues : (fun j => if j = k then v.queue j ++ [] else v.queue j) = v.queue := by
    funext j
    simp
  rw [Traffic.work, desks, queues]

theorem traffic_pop {q : Request} {rest : List (Nat × Request)} (next : s.taken = (k, q) :: rest) :
    ∃ later, s.traffic.queue k = q :: later ∧
      Pass.traffic ⟨s.fabric, rest⟩ = s.traffic.rest k later := by
  refine ⟨Pass.queue ⟨s.fabric, rest⟩ k, (queue_pop next k).trans (if_pos rfl), ?_⟩
  have queues : (fun j => if j = k then Pass.queue ⟨s.fabric, rest⟩ k else s.queue j) =
      Pass.queue ⟨s.fabric, rest⟩ := by
    funext j
    rw [queue_pop next]
    by_cases here : j = k
    · simp [here]
    · simp [here]
  change _ = { s.traffic with
    queue := fun j => if j = k then Pass.queue ⟨s.fabric, rest⟩ k else s.queue j }
  rw [queues]
  rfl

theorem Alike.traffic (alike : Alike s t) :
    t.traffic =
      { s.traffic with
        coming := t.coming
        own := t.fabric.tally.1
        probesSent := t.fabric.tally.2.1
        repliesTaken := t.fabric.tally.2.2 } := by
  have queues : t.queue = s.queue := funext alike.queue
  have controllers : t.fabric.controller? = s.fabric.controller? := funext alike.controllers
  rw [Pass.traffic, queues, controllers, alike.hub]
  rfl

structure Flows (lay : Layout) (s t : Pass) : Prop where
  steady : Steady lay t
  path : Relation.ReflTransGen (Traffic.Step lay) s.traffic t.traffic

theorem Flows.of_same (steady : Steady lay t) (same : t.traffic = s.traffic) : Flows lay s t := by
  refine ⟨steady, ?_⟩
  rw [same]

theorem Flows.single (steady : Steady lay t) (step : Traffic.Step lay s.traffic t.traffic) :
    Flows lay s t := ⟨steady, .single step⟩

theorem Steady.complete_flow (steady : Steady lay s) (inside : k < lay.cpus) (m : Completion) :
    ∃ d sent, (s.traffic.desk k).Clears m.target d sent ∧
      Steady lay { s with fabric := s.fabric.complete k m } ∧
      Pass.traffic { s with fabric := s.fabric.complete k m } = s.traffic.work k d sent := by
  obtain ⟨n, present⟩ := steady.node inside
  have good : n.controller.Good := steady.good k _ (controller?_eq present)
  obtain ⟨sent, outbound, clears⟩ := good.clears m
  rw [steady.complete_eq present, desk_traffic present]
  refine ⟨_, sent, clears, ?_, ?_⟩
  · exact steady.seat present outbound (good.complete m) (steady.rings k n present)
      (marked_victims clears.sends)
  · exact traffic_seat present outbound rfl

theorem Steady.free_flow (steady : Steady lay s) (inside : k < lay.cpus) (r : ProbeReply) :
    ∃ d, (s.traffic.desk k).Frees r d ∧
      Steady lay { s with fabric := Pass.freeVictim s.fabric k r.victim } ∧
      Pass.traffic { s with fabric := Pass.freeVictim s.fabric k r.victim } = s.traffic.work k d [] := by
  cases named : r.victim with
  | none =>
    refine ⟨s.traffic.desk k, ?_, steady, (traffic_work_nil s.traffic k).symm⟩
    simp only [Desk.Frees, named]
  | some slot =>
    obtain ⟨n, present⟩ := steady.node inside
    have good : n.controller.Good := steady.good k _ (controller?_eq present)
    have quiet := good.complete_aside { target := .victim slot } (by simp)
    obtain ⟨sent, outbound, clears⟩ := good.clears { target := .victim slot }
    have none_sent : sent = [] := by
      rw [quiet.outbound] at outbound
      exact List.append_cancel_left (outbound.symm.trans (List.append_nil _).symm)
    subst none_sent
    refine ⟨(n.controller.complete { target := .victim slot }).2.desk, ?_, ?_, ?_⟩
    · rw [desk_traffic present]
      simp only [Desk.Frees, named]
      exact clears
    · rw [Pass.freeVictim, steady.complete_eq present]
      exact steady.seat present outbound (good.complete _) (steady.rings k n present) (by simp)
    · rw [Pass.freeVictim, steady.complete_eq present]
      exact traffic_seat present outbound rfl

theorem Steady.finish_flow (steady : Steady lay s) (lawful : s.traffic.Lawful lay) {u : Transaction}
    (isOpen : u ∈ s.fabric.hub.transactions) :
    ∃ d sent, (s.traffic.desk u.origin).Clears (.request u.id) d sent ∧
      Steady lay { s with fabric := s.fabric.finish u.number } ∧
      Pass.traffic { s with fabric := s.fabric.finish u.number } = s.traffic.closed u d sent := by
  have found : s.fabric.hub.transaction? u.number = some u := find_txn lawful.numbers isOpen
  obtain ⟨memory, counters, answer, shape, target, source, _, posed, taken⟩ := Fabric.finish_some found
  let p : Pass := { s with fabric := s.fabric.closed u memory counters }
  have dropped : Steady lay p :=
    steady.dropped lawful.numbers lawful.blocks isOpen (Memory.contains_of_written source)
  obtain ⟨d, sent, clears, ended, traffic⟩ := dropped.complete_flow (lawful.origins u isOpen) answer
  rw [target] at clears
  rw [shape]
  refine ⟨d, sent, clears, ended, traffic.trans ?_⟩
  have base : p.traffic =
      { s.traffic with txns := s.traffic.txns.filter (·.number != u.number) } := by
    have shape : p.traffic =
        { s.traffic with
          txns := s.traffic.txns.filter (·.number != u.number)
          probesSent := counters.probesSent
          repliesTaken := counters.probeReplies } := rfl
    rw [shape, posed, taken]
    rfl
  rw [base]
  rfl

section route

variable {q : Request} {rest : List (Nat × Request)}

/-- A request that is settled at once, after a change of the hub that the traffic tells from the I/O
space only. -/
theorem Steady.settle_flow (lawful : s.traffic.Lawful lay) (next : s.taken = (k, q) :: rest)
    {f : Fabric} (hub : Steady lay ⟨f, rest⟩)
    (changed : Pass.traffic ⟨f, rest⟩ =
      { Pass.traffic ⟨s.fabric, rest⟩ with io := q.stored s.traffic.io })
    {m : Completion} (target : q.target? = some m.target) :
    Flows lay s ⟨f.complete k m, rest⟩ := by
  obtain ⟨later, head, shape⟩ := traffic_pop next
  have inside : k < lay.cpus := lawful.inside k (by simp [head])
  obtain ⟨d, sent, clears, ended, traffic⟩ := hub.complete_flow inside m
  refine .single ended ?_
  rw [traffic, changed, shape]
  have desks : (Pass.traffic ⟨f, rest⟩).desk k = s.traffic.desk k := by
    rw [changed, shape]
    rfl
  rw [desks] at clears
  exact Traffic.Step.settle s.traffic k q later m.target d sent head target clears

/-- A transaction takes a reply, and the victim that the reply names is acknowledged. -/
theorem Steady.taken_flow (steady : Steady lay s) (lawful : s.traffic.Lawful lay) {r : ProbeReply}
    {later : List Request} (next : s.taken = (k, .reply r) :: rest)
    (shape : Pass.traffic ⟨s.fabric, rest⟩ = s.traffic.rest k later) (inside : k < lay.cpus)
    {u : Transaction} (isOpen : u ∈ s.fabric.hub.transactions) (number : u.number = r.txn)
    {counters : HubCounters} (sent : counters.probesSent = s.fabric.hub.counters.probesSent)
    (taken : counters.probeReplies = s.fabric.hub.counters.probeReplies + 1) :
    ∃ d, (s.traffic.desk k).Frees r d ∧
      Steady lay ⟨Pass.freeVictim (Pass.tookReply s.fabric r u counters) k r.victim, rest⟩ ∧
      Pass.traffic ⟨Pass.freeVictim (Pass.tookReply s.fabric r u counters) k r.victim, rest⟩ =
        (s.traffic.rest k later).replied k r u d := by
  have took := (steady.pop next).tookReply lawful.numbers isOpen number counters
  obtain ⟨d, frees, freed, traffic⟩ := took.free_flow inside r
  refine ⟨d, frees, freed, traffic.trans ?_⟩
  have base : Pass.traffic ⟨Pass.tookReply s.fabric r u counters, rest⟩ =
      { Pass.traffic ⟨s.fabric, rest⟩ with
        txns := s.traffic.txns.map fun w => if w.number = r.txn then u.take r else w
        probesSent := counters.probesSent
        repliesTaken := counters.probeReplies } := rfl
  rw [base, shape, sent, taken]
  rfl

theorem Steady.reply_flow (steady : Steady lay s) (lawful : s.traffic.Lawful lay) {r : ProbeReply}
    (next : s.taken = (k, .reply r) :: rest) :
    Flows lay s ⟨s.fabric.routeCounted k (.reply r), rest⟩ := by
  have popped := steady.pop next
  obtain ⟨later, head, shape⟩ := traffic_pop next
  have inside : k < lay.cpus := lawful.inside k (by simp [head])
  simp only [Fabric.routeCounted, Fabric.route]
  cases found : s.fabric.hub.transactions.find? (·.number == r.txn) with
  | none =>
    have missing : ∀ t ∈ s.traffic.txns, t.number ≠ r.txn := by
      intro t member same
      rw [List.find?_eq_none] at found
      exact found t member (by simpa using same)
    rw [routeReply_none (s.fabric.count fun c => { c with requests := c.requests + 1 }) k (r := r) found]
    refine .single (popped.of_hub rfl (fun _ => rfl) rfl rfl steady.busy) ?_
    have step : Traffic.Step lay s.traffic _ := .drop s.traffic k r later head missing
    rw [← shape] at step
    exact step
  | some u =>
    have isOpen : u ∈ s.traffic.txns := List.mem_of_find?_eq_some found
    have number : u.number = r.txn := by simpa using List.find?_some found
    obtain ⟨counters, routed, sent, taken, _⟩ := routeReply_some
      (s.fabric.count fun c => { c with requests := c.requests + 1 }) k (r := r) found
    obtain ⟨d, frees, freed, landed⟩ :=
      steady.taken_flow lawful next shape inside isOpen number sent taken
    rw [routed]
    change Flows lay s
      ⟨if (u.take r).pending = 0 then
        (Pass.freeVictim (Pass.tookReply s.fabric r u counters) k r.victim).finish r.txn
      else Pass.freeVictim (Pass.tookReply s.fabric r u counters) k r.victim, rest⟩
    generalize Pass.freeVictim (Pass.tookReply s.fabric r u counters) k r.victim = g at freed landed ⊢
    split
    · rename_i last
      have present : u.take r ∈ (Pass.traffic ⟨g, rest⟩).txns := by
        rw [landed]
        exact Traffic.mem_replied (v := s.traffic.rest k later) isOpen number k d
      have counted : (Pass.traffic ⟨g, rest⟩).Lawful lay := by
        rw [landed]
        exact (lawful.rest head).replied isOpen number
      obtain ⟨e, sent, clears, ended, closed⟩ := freed.finish_flow counted present
      have same : (u.take r).number = r.txn := number
      rw [same] at ended closed
      refine .single ended ?_
      refine closed ▸ ?_
      rw [landed] at clears ⊢
      exact .finish s.traffic k r later u d e sent head isOpen number frees last clears
    · rename_i more
      refine .single freed ?_
      rw [landed]
      exact .reply s.traffic k r later u d head isOpen number frees more

theorem Steady.begin_flow {p : Pass} (steady : Steady lay p) {v : Traffic} (lawful : v.Lawful lay)
    (path : Relation.ReflTransGen (Traffic.Step lay) s.traffic v) (r : DeferredRead)
    (before after : List DeferredRead) (waits : v.deferred = before ++ r :: after)
    (shape : p.traffic = { v with deferred := before ++ after })
    (free : p.fabric.hub.isBusy r.addr = false) : Flows lay s ⟨p.fabric.openRead r, p.taken⟩ := by
  obtain ⟨alike, kept, coming, result⟩ := steady.openRead r
  have txns : p.fabric.hub.transactions = v.txns := congrArg Traffic.txns shape
  have next : p.fabric.hub.nextNumber = v.next := congrArg Traffic.next shape
  have apart : ∀ t ∈ v.txns, t.addr ≠ r.addr.block := by
    rw [← txns]
    exact steady.apart free
  have tally : (began lay p.fabric r).tally =
      (p.fabric.own, p.fabric.hub.counters.probesSent + (lay.others r.cpu).length,
        p.fabric.hub.counters.probeReplies) :=
    Fabric.tally_sendProbes (lay.others r.cpu) _ (opening lay p.fabric r)
  have seen : Pass.traffic ⟨began lay p.fabric r, p.taken⟩ = v.begun lay r (before ++ after) := by
    have begun : v.begun lay r (before ++ after) =
        { v with deferred := before ++ after }.begun lay r (before ++ after) := rfl
    have deferred : p.fabric.hub.deferred = before ++ after := congrArg Traffic.deferred shape
    rw [begun, ← shape, alike.traffic, tally, funext coming]
    simp only [Pass.traffic, Traffic.begun, Traffic.opened, opening, Hub.openTransaction,
      steady.probeCommand, deferred]
    rfl
  have counted : (Pass.traffic ⟨began lay p.fabric r, p.taken⟩).Lawful lay := by
    rw [seen]
    exact lawful.begun waits apart
  rw [result]
  split
  · rename_i nobody
    rw [List.isEmpty_iff] at nobody
    have present : v.opened lay r ∈ (began lay p.fabric r).hub.transactions := by
      have all : (began lay p.fabric r).hub.transactions = v.txns ++ [v.opened lay r] :=
        congrArg Traffic.txns seen
      rw [all]
      simp
    obtain ⟨d, sent, clears, ended, closed⟩ := kept.finish_flow counted present
    have number : (v.opened lay r).number = p.fabric.hub.nextNumber := next.symm
    rw [number] at ended closed
    refine ⟨ended, path.tail ?_⟩
    refine closed ▸ ?_
    rw [seen] at clears ⊢
    exact .alone v r before after d sent waits apart nobody clears
  · rename_i probed
    rw [List.isEmpty_iff] at probed
    refine ⟨kept, path.tail ?_⟩
    rw [seen]
    exact .begin v r before after waits apart probed

theorem Steady.read_flow (steady : Steady lay s) (lawful : s.traffic.Lawful lay) {id : RequestId}
    {a : Address} {kind : ReadKind} (next : s.taken = (k, .read id a kind) :: rest) :
    Flows lay s ⟨s.fabric.routeCounted k (.read id a kind), rest⟩ := by
  have popped := steady.pop next
  obtain ⟨later, head, shape⟩ := traffic_pop next
  have inside : k < lay.cpus := lawful.inside k (by simp [head])
  simp only [Fabric.routeCounted, Fabric.route, Fabric.routeRead]
  split
  · exact Steady.settle_flow lawful next (popped.counted _) rfl rfl
  · split
    · rename_i backed
      have backed : lay.backed a := by
        rw [← steady.backed]
        exact backed
      have put_off : Traffic.Step lay s.traffic _ := .defer s.traffic k id a kind later head backed
      have proper := lawful.step put_off
      rw [← shape] at put_off proper
      split
      · exact .single (popped.of_hub rfl (fun _ => rfl) rfl rfl steady.busy) put_off
      · rename_i idle
        rw [Bool.not_eq_true] at idle
        refine Steady.begin_flow (p := ⟨s.fabric.count _, rest⟩) (popped.counted _) proper
          (.single put_off) ⟨k, id, a, kind⟩ s.fabric.hub.deferred [] rfl ?_ idle
        rw [List.append_nil]
        rfl
    · exact Steady.settle_flow (f := (s.fabric.count _).count _) lawful next
        ((popped.counted _).counted _) rfl rfl

theorem Steady.victim_flow (steady : Steady lay s) (lawful : s.traffic.Lawful lay) {slot : Slot}
    {a : Address} {data : Block} (next : s.taken = (k, .victim slot a data) :: rest) :
    Flows lay s ⟨s.fabric.routeCounted k (.victim slot a data), rest⟩ := by
  have popped := steady.pop next
  have kept := (Memory.contains_writeBlock s.fabric.hub.memory a · data)
  -- whether memory backs the block or not, the hub acknowledges it
  have settled (memory : Memory) (counters : HubCounters)
      (contains : ∀ b, memory.contains b = s.fabric.hub.memory.contains b)
      (sent : counters.probesSent = s.fabric.hub.counters.probesSent)
      (taken : counters.probeReplies = s.fabric.hub.counters.probeReplies) : Flows lay s
        ⟨Fabric.complete { s.fabric with hub := { s.fabric.hub with memory, counters } } k
          { target := .victim slot }, rest⟩ := by
    refine Steady.settle_flow lawful next ?_ ?_ rfl
    · exact popped.of_hub rfl contains rfl rfl steady.busy
    · simp only [Pass.traffic, sent, taken]
      rfl
  simp only [Fabric.routeCounted, Fabric.route, Fabric.routeVictim]
  cases written : s.fabric.hub.memory.writeBlock a data with
  | mk done memory =>
    rw [written] at kept
    cases done with
    | false =>
      simp only [Fabric.count, written]
      exact settled s.fabric.hub.memory _ (fun _ => rfl) rfl rfl
    | true =>
      simp only [Fabric.count, written]
      exact settled memory _ kept rfl rfl

theorem ioBlock_writeIo (h : Hub) (a : Address) (data : List UInt8) (written : UInt64)
    (b : Address) :
    (h.writeIo a data written).ioBlock b =
      if b.block = a.block then some (((h.ioBlock b).getD .zero).overlay a.offset data written)
      else h.ioBlock b := by
  simp only [Hub.writeIo, Hub.ioBlock, Sparse.get?_set, Address.toNat_inj]
  by_cases same : b.block = a.block
  · rw [if_pos same.symm, if_pos same, same]
  · rw [if_neg (Ne.symm same), if_neg same]

theorem Steady.ioWrite_flow (steady : Steady lay s) (lawful : s.traffic.Lawful lay)
    {id : RequestId} {a : Address} {data : List UInt8} {mask : UInt8} {written : UInt64}
    (next : s.taken = (k, .ioWrite id a data mask written) :: rest) :
    Flows lay s ⟨s.fabric.routeCounted k (.ioWrite id a data mask written), rest⟩ := by
  have popped := steady.pop next
  simp only [Fabric.routeCounted, Fabric.route, Fabric.routeIoWrite]
  refine Steady.settle_flow lawful next ?_ ?_ rfl
  · exact popped.of_hub rfl (fun _ => rfl) rfl rfl steady.busy
  · have io := funext (ioBlock_writeIo s.fabric.hub a data written)
    simp only [Pass.traffic, Request.stored, Fabric.count, ← io]
    rfl

theorem Steady.route_flow (steady : Steady lay s) (lawful : s.traffic.Lawful lay)
    (next : s.taken = (k, q) :: rest) : Flows lay s ⟨s.fabric.routeCounted k q, rest⟩ := by
  cases q with
  | read id a kind => exact steady.read_flow lawful next
  | ioWrite id a data mask written => exact steady.ioWrite_flow lawful next
  | victim slot a data => exact steady.victim_flow lawful next
  | reply r => exact steady.reply_flow lawful next
  | barrier id => exact Steady.settle_flow lawful next ((steady.pop next).counted _) rfl rfl

end route

theorem Steady.answer_flow (steady : Steady lay s) {p : Probe} (present : s.fabric.nodes[k]? = some n)
    (oldest : n.probes.front = some p) : Flows lay s (s.seat k (n.answerOne p)) := by
  have good : n.controller.Good := steady.good _ _ (controller?_eq present)
  have formed := steady.rings k n present
  obtain ⟨later, contents⟩ := formed.oldest oldest
  have coming : s.traffic.coming k = p :: (later ++ s.parkedFor k) := by
    simp [traffic, Pass.coming, present, contents]
  have sound := good.handleProbe_good p
  unfold Node.answerOne
  rcases good.handleProbe_replies p with
    ⟨r, d, outcome, replies⟩ | ⟨fault, d, outcome, full, desk, outbound, _⟩
  · rw [outcome] at sound
    simp only [outcome]
    obtain ⟨popped, rest⟩ := formed.pop contents
    refine .single ?_ ?_
    · exact steady.seat present replies.mails.outbound sound popped (by simp [Request.Marked])
    · have probes : Pass.coming (s.seat k { n with controller := d, probes := n.probes.pop.2 }) =
          fun j => if j = k then later ++ s.parkedFor k else s.traffic.coming j := by
        funext j
        rw [coming_seat present]
        split
        · rename_i here
          rw [here, rest]
        · rfl
      rw [traffic_seat_ring (m := { n with controller := d, probes := n.probes.pop.2 }) present
        replies.mails.outbound, probes]
      refine .answer s.traffic k p _ r d.desk (steady.inside present) coming replies.txn ?_
      rw [desk_traffic present]
      exact ⟨replies.misses, replies.writes, replies.mails.due⟩
  · rw [outcome] at sound
    simp only [outcome, full, if_true]
    have silent : d.outbound = n.controller.outbound ++ [] := by rw [outbound, List.append_nil]
    refine .of_same ?_ ?_
    · exact steady.seat present silent sound formed (by simp)
    · rw [traffic_seat (m := { n with controller := d }) present silent rfl]
      simp only [desk]
      rw [← desk_traffic present]
      exact traffic_work_nil s.traffic k

theorem Steady.take_flow (steady : Steady lay s) (empty : s.taken = []) (k : Nat) :
    Flows lay s ⟨(s.fabric.takeRequests k).2, (s.fabric.takeRequests k).1.map (k, ·)⟩ := by
  unfold Fabric.takeRequests
  by_cases inside : k < lay.cpus
  · obtain ⟨n, present⟩ := steady.node inside
    have good : n.controller.Good := steady.good _ _ (controller?_eq present)
    rw [steady.socket, if_pos inside]
    simp only [present]
    let m : Node := { n with controller := { n.controller with outbound := [] } }
    have queues : Pass.queue ⟨(s.seat k m).fabric, n.controller.outbound.map (k, ·)⟩ = s.queue :=
      funext (queue_emptied (m := m) empty present rfl)
    refine .of_same (steady.of_emptied (m := m) empty present rfl rfl (good.of_eq rfl rfl rfl)) ?_
    have desks : (fun j => (((s.seat k m).fabric.controller? j).map (·.desk)).getD .empty) =
        s.traffic.desk := by
      funext j
      rw [controller?_seat present]
      split
      · rename_i here
        rw [here, desk_traffic present]
        rfl
      · rfl
    have probes : (s.seat k m).coming = s.coming := by
      funext j
      rw [coming_seat present]
      split
      · rename_i here
        rw [here, Pass.coming, present]
        rfl
      · rfl
    have whole : Pass.traffic ⟨(s.seat k m).fabric, n.controller.outbound.map (k, ·)⟩ =
        { s.traffic with
          desk := fun j => (((s.seat k m).fabric.controller? j).map (·.desk)).getD .empty
          queue := Pass.queue ⟨(s.seat k m).fabric, n.controller.outbound.map (k, ·)⟩
          coming := (s.seat k m).coming } := rfl
    refine whole.trans ?_
    rw [desks, queues, probes]
    rfl
  · rw [steady.socket, if_neg inside]
    have same : (⟨s.fabric, [].map (k, ·)⟩ : Pass) = s := by
      rw [List.map_nil, ← empty]
    simp only [same]
    exact .of_same steady rfl

theorem Steady.retry_flow (steady : Steady lay s) (lawful : s.traffic.Lawful lay) {r : DeferredRead}
    {later : List DeferredRead} (waits : s.fabric.hub.deferred = r :: later) :
    Flows lay s { s with
      fabric := { s.fabric with hub := { s.fabric.hub with deferred := later } }.routeRead r } := by
  have backed : lay.backed r.addr := by
    refine (lawful.readers r ?_).2.1
    change r ∈ s.fabric.hub.deferred
    rw [waits]
    exact List.mem_cons_self
  have io := lay.cacheable r.addr backed
  have contains : s.fabric.hub.memory.contains r.addr := by
    rw [steady.backed]
    exact backed
  simp only [Fabric.routeRead, io, contains, if_true]
  rw [if_neg (by simp)]
  split
  · refine .single (steady.of_hub rfl (fun _ => rfl) rfl rfl steady.busy) ?_
    exact .turn s.traffic r later waits
  · rename_i free
    rw [Bool.not_eq_true] at free
    exact Steady.begin_flow
      (p := { s with fabric := { s.fabric with hub := { s.fabric.hub with deferred := later } } })
      (steady.of_hub rfl (fun _ => rfl) rfl rfl steady.busy) lawful .refl r [] later waits rfl free

theorem Steady.flows (steady : Steady lay s) (lawful : s.traffic.Lawful lay)
    (step : s.Step .machine t) : Flows lay s t := by
  cases step with
  | answer cpu n p present oldest => exact steady.answer_flow present oldest
  | lower cpu n present =>
    have outbound : n.controller.outbound = n.controller.outbound ++ [] := by simp
    have good : n.controller.Good := steady.good _ _ (controller?_eq present)
    refine .of_same (t := s.seat cpu { n with interrupt := false }) ?_ ?_
    · exact steady.seat present outbound good (steady.rings cpu n present) (by simp)
    · rw [traffic_seat (m := { n with interrupt := false }) present outbound rfl]
      simp only
      rw [← desk_traffic present]
      exact traffic_work_nil s.traffic cpu
  | ring => exact .of_same steady.rung rfl
  | resend =>
    obtain ⟨alike, kept, coming⟩ := steady.retryParked
    have tally : s.fabric.retryParked.2.tally = s.fabric.tally :=
      Fabric.tally_resend s.fabric.hub.signal.parked [] _
    refine .of_same kept ?_
    rw [alike.traffic, coming]
    simp only [tally]
    rfl
  | take cpu empty => exact steady.take_flow empty cpu
  | route cpu q rest next => exact steady.route_flow lawful next
  | turn r rest next =>
    refine .single (steady.of_hub rfl (fun _ => rfl) rfl rfl steady.busy) ?_
    exact .turn s.traffic r rest next
  | retry r rest next => exact steady.retry_flow lawful next

end Pass
end CacheCoherence
