import CacheCoherence.Proofs.Handovers
import CacheCoherence.Proofs.Pipelines

/-! The traffic between the nodes and the hub: what is queued, what is on its way, what is open, and
the buffers that stand behind it. `Traffic.Step` says once what a move of the machine can do to it, in
whatever order calls are made; every account of messages is kept by it. -/

namespace CacheCoherence

namespace Request

def asks (i : Slot) : Request → Bool
  | .read id _ _ | .barrier id => id == .miss i
  | .ioWrite .. | .victim .. | .reply _ => false

def Proper : Request → Prop
  | .read id _ _ | .barrier id => ∃ slot, id = .miss slot
  | .ioWrite id _ _ _ _ => ∃ slot, id = .ioWrite slot
  | .victim .. | .reply _ => True

def target? : Request → Option CompletionTarget
  | .read id _ _ | .ioWrite id _ _ _ _ | .barrier id => some (.request id)
  | .victim slot _ _ => some (.victim slot)
  | .reply _ => none

def stored (q : Request) (io : Address → Option Block) : Address → Option Block :=
  match q with
  | .ioWrite _ a data _ written => fun b =>
    if b.block = a.block then some (((io b).getD .zero).overlay a.offset data written) else io b
  | .read .. | .victim .. | .reply _ | .barrier _ => io

end Request

structure Desk.Poses (d e : Desk) (sent : List Request) : Prop where
  due : ∀ x, (e.due x).toList = (d.due x).toList ++ parcels x sent
  proper : ∀ q ∈ sent, q.Proper
  bare : ∀ r, Request.reply r ∉ sent
  waits : ∀ i, (e.waits i).toNat ≤ (d.waits i).toNat + sent.countP (·.asks i)

namespace Controller

variable {c d : Controller}

theorem asks_victims {sent : List Request}
    (sends : ∀ q ∈ sent, ∃ (v : Victim) (slot : Slot), q = v.request slot) (i : Slot) :
    sent.countP (·.asks i) = 0 := by
  rw [List.countP_eq_zero]
  intro q member
  obtain ⟨v, slot, rfl⟩ := sends q member
  simp [Victim.request, Request.asks]

theorem asks_writes {sent : List Request}
    (only : ∀ w ∈ sent, ∃ slot a data mask written, w = .ioWrite (.ioWrite slot) a data mask written)
    (i : Slot) : sent.countP (·.asks i) = 0 := by
  rw [List.countP_eq_zero]
  intro q member
  obtain ⟨slot, a, data, mask, written, rfl⟩ := only q member
  simp [Request.asks]

def Fair (sent : List Request) : Prop := ∀ q ∈ sent, q.Proper ∧ ∀ r, q ≠ .reply r

theorem fair_victims {sent : List Request}
    (sends : ∀ q ∈ sent, ∃ (v : Victim) (slot : Slot), q = v.request slot) : Fair sent := by
  intro q member
  obtain ⟨v, slot, rfl⟩ := sends q member
  exact ⟨trivial, nofun⟩

theorem fair_writes {sent : List Request}
    (only : ∀ w ∈ sent, ∃ slot a data mask written, w = .ioWrite (.ioWrite slot) a data mask written) :
    Fair sent := by
  intro q member
  obtain ⟨slot, a, data, mask, written, rfl⟩ := only q member
  exact ⟨⟨slot, rfl⟩, nofun⟩

theorem waits_one {wants : Slot → Option Reference} {slot : Slot} {r : Option Reference}
    (wanted : ∀ i, wants i = if slot = i then r else c.wanted i) (i : Slot) :
    (wants i).isSome = if slot = i then r.isSome else c.desk.waits i := by
  rw [wanted, waits_desk]
  split
  · rfl
  · rfl

/-- A slot that comes to wait is one for which the hub has just been asked; only a call that joins an
answer late answers a slot whose question stays. -/
theorem Performed.waits {op : Operation} {sent : List Request} (performed : Performed c op d sent)
    (i : Slot) :
    (d.desk.waits i).toNat ≤ (c.desk.waits i).toNat + sent.countP (·.asks i) ∧
    (c.joinsLate op = false →
      (d.desk.waits i).toNat = (c.desk.waits i).toNat + sent.countP (·.asks i)) := by
  have same (wanted : ∀ slot, d.wanted slot = c.wanted slot) (none_asked : sent.countP (·.asks i) = 0) :
      (d.desk.waits i).toNat = (c.desk.waits i).toNat + sent.countP (·.asks i) := by
    rw [none_asked, waits_desk, waits_desk, wanted, Nat.add_zero]
  have both (equal : (d.desk.waits i).toNat = (c.desk.waits i).toNat + sent.countP (·.asks i)) :
      (d.desk.waits i).toNat ≤ (c.desk.waits i).toNat + sent.countP (·.asks i) ∧
      (c.joinsLate op = false →
        (d.desk.waits i).toNat = (c.desk.waits i).toNat + sent.countP (·.asks i)) :=
    ⟨Nat.le_of_eq equal, fun _ => equal⟩
  -- a slot that was free waits, and the hub has been asked once
  have asked {slot : Slot} {r : Reference} (free : c.wanted slot = none)
      (wanted : ∀ i, d.wanted i = if slot = i then some r else c.wanted i)
      (once : sent.countP (·.asks i) = if slot = i then 1 else 0) :
      (d.desk.waits i).toNat = (c.desk.waits i).toNat + sent.countP (·.asks i) := by
    rw [once, waits_desk, waits_one wanted]
    by_cases here : slot = i
    · subst here
      simp [waits_desk, free]
    · simp [here]
  cases performed with
  | quiet _ _ quiet _ => exact both (same quiet.wanted rfl)
  | stored _ _ _ _ _ _ wanted => exact both (same wanted rfl)
  | flushed _ _ wanted writes only => exact both (same wanted (asks_writes only i))
  | retired _ _ _ _ wanted _ sent sends => exact both (same wanted (asks_victims sends i))
  | issued r result d sent issued =>
    cases issued with
    | refused _ _ quiet => exact both (same quiet.wanted rfl)
    | asked slot access kind _ held free _ _ wanted _ =>
      refine both (asked free wanted ?_)
      by_cases here : slot = i
      · simp [Request.asks, here]
      · simp [Request.asks, here]
    | joined slot old _ held present _ _ _ _ wanted =>
      refine both ?_
      rw [waits_desk, waits_one wanted]
      by_cases here : slot = i
      · subst here
        simp [waits_desk, present]
      · simp [here]
    | hit _ _ _ _ _ _ _ wanted => exact both (same wanted rfl)
    | late slot m _ held checked cacheable valid target wanted =>
      constructor
      · rw [waits_desk, waits_one wanted]
        by_cases here : slot = i
        · simp [here]
        · simp [here]
      · intro timely
        simp [joinsLate, checked, cacheable, valid, target, Except.isOk, Except.toBool] at timely
    | barrier slot _ held free _ wanted writes only =>
      refine both (asked free wanted ?_)
      rw [List.countP_append, asks_writes only]
      by_cases here : slot = i
      · simp [Request.asks, here]
      · simp [Request.asks, here]
    | purged _ _ _ _ wanted sent _ _ _ sends => exact both (same wanted (asks_victims sends i))

theorem Performed.fair {op : Operation} {sent : List Request} (performed : Performed c op d sent) :
    Fair sent := by
  cases performed with
  | quiet | stored => exact nofun
  | flushed _ _ _ writes only => exact fair_writes only
  | retired _ _ _ _ _ _ sent sends => exact fair_victims sends
  | issued r result d sent issued =>
    cases issued with
    | refused | joined | hit | late => exact nofun
    | asked slot _ _ _ _ _ _ _ _ _ =>
      intro q member
      rw [List.mem_singleton.mp member]
      exact ⟨⟨slot, rfl⟩, nofun⟩
    | barrier slot _ _ _ _ _ writes only =>
      intro q member
      rcases List.mem_append.mp member with write | last
      · exact fair_writes only q write
      · rw [List.mem_singleton.mp last]
        exact ⟨⟨slot, rfl⟩, nofun⟩
    | purged _ _ _ _ _ sent _ _ _ sends => exact fair_victims sends

theorem Good.poses (good : c.Good) (op : Operation) :
    ∃ sent, (c.perform op).outbound = c.outbound ++ sent ∧ c.desk.Poses (c.perform op).desk sent ∧
      (c.joinsLate op = false → ∀ i, ((c.perform op).desk.waits i).toNat =
        (c.desk.waits i).toNat + sent.countP (·.asks i)) := by
  obtain ⟨sent, performed, outbound, due⟩ := good.performs op
  refine ⟨sent, outbound, ⟨due, ?_, ?_, ?_⟩, ?_⟩
  · exact fun q member => (performed.fair q member).1
  · exact fun r member => (performed.fair _ member).2 r rfl
  · exact fun i => (performed.waits i).1
  · exact fun timely i => (performed.waits i).2 timely

theorem poses_allocateVictim (c : Controller) (a : Address) (data : Block) (d : Destination) :
    ∃ sent, (c.allocateVictim a data d).2.outbound = c.outbound ++ sent ∧
      c.desk.Poses (c.allocateVictim a data d).2.desk sent := by
  obtain ⟨sent, sheds⟩ := shed_allocateVictim c a data d
  have fair := fair_victims sheds.sends
  refine ⟨sent, sheds.outbound, sheds.mails.due, ?_, ?_, ?_⟩
  · exact fun q member => (fair q member).1
  · exact fun r member => (fair _ member).2 r rfl
  · intro i
    rw [asks_victims sheds.sends, Nat.add_zero]
    simp only [Desk.waits, desk, sheds.misses, Nat.le_refl]

end Controller

structure Desk.Replies (d : Desk) (r : ProbeReply) (e : Desk) : Prop where
  misses : e.misses = d.misses
  writes : e.writes = d.writes
  due : ∀ x, (e.due x).toList = (d.due x).toList ++ parcels x [.reply r]

def Desk.Frees (d : Desk) (r : ProbeReply) (e : Desk) : Prop :=
  match r.victim with
  | none => e = d
  | some slot => d.Clears (.victim slot) e []

structure Traffic where
  desk : Nat → Desk
  queue : Nat → List Request
  coming : Nat → List Probe
  txns : List Transaction
  deferred : List DeferredRead
  next : Nat
  io : Address → Option Block
  own : Nat
  probesSent : Nat
  repliesTaken : Nat

namespace Traffic

def work (v : Traffic) (k : Nat) (d : Desk) (sent : List Request) : Traffic :=
  { v with
    desk := fun j => if j = k then d else v.desk j
    queue := fun j => if j = k then v.queue j ++ sent else v.queue j }

def rest (v : Traffic) (k : Nat) (later : List Request) : Traffic :=
  { v with queue := fun j => if j = k then later else v.queue j }

def opened (v : Traffic) (lay : Layout) (r : DeferredRead) : Transaction where
  number := v.next
  origin := r.cpu
  id := r.id
  addr := r.addr.block
  kind := r.kind
  next := (lay.command r.kind).next
  pending := (lay.others r.cpu).length

def begun (v : Traffic) (lay : Layout) (r : DeferredRead) (deferred : List DeferredRead) : Traffic :=
  { v with
    deferred
    txns := v.txns ++ [v.opened lay r]
    coming := fun j =>
      if j ∈ lay.others r.cpu then
        v.coming j ++ [.ofCommand v.next r.addr.block (lay.command r.kind)]
      else v.coming j
    next := v.next + 1
    probesSent := v.probesSent + (lay.others r.cpu).length }

def replied (v : Traffic) (k : Nat) (r : ProbeReply) (t : Transaction) (d : Desk) : Traffic :=
  { v.work k d [] with
    txns := v.txns.map fun u => if u.number = r.txn then t.take r else u
    repliesTaken := v.repliesTaken + 1 }

def closed (v : Traffic) (t : Transaction) (d : Desk) (sent : List Request) : Traffic :=
  { v.work t.origin d sent with txns := v.txns.filter (·.number != t.number) }

/-- A move of the machine. A read that comes out of a queue is deferred first, and begins then. -/
inductive Step (lay : Layout) : Traffic → Traffic → Prop
  | answer (v : Traffic) (k : Nat) (p : Probe) (later : List Probe) (r : ProbeReply) (d : Desk)
      (inside : k < lay.cpus) (oldest : v.coming k = p :: later) (txn : r.txn = p.txn)
      (replies : (v.desk k).Replies r d) :
      Step lay v
        { v.work k d [.reply r] with coming := fun j => if j = k then later else v.coming j }
  | settle (v : Traffic) (k : Nat) (q : Request) (later : List Request) (x : CompletionTarget)
      (d : Desk) (sent : List Request) (head : v.queue k = q :: later) (target : q.target? = some x)
      (clears : (v.desk k).Clears x d sent) :
      Step lay v { (v.rest k later).work k d sent with io := q.stored v.io }
  | defer (v : Traffic) (k : Nat) (id : RequestId) (a : Address) (kind : ReadKind)
      (later : List Request) (head : v.queue k = .read id a kind :: later)
      (backed : lay.backed a) :
      Step lay v { v.rest k later with deferred := v.deferred ++ [⟨k, id, a, kind⟩] }
  | turn (v : Traffic) (r : DeferredRead) (later : List DeferredRead) (waits : v.deferred = r :: later) :
      Step lay v { v with deferred := later ++ [r] }
  | begin (v : Traffic) (r : DeferredRead) (before after : List DeferredRead)
      (waits : v.deferred = before ++ r :: after) (free : ∀ t ∈ v.txns, t.addr ≠ r.addr.block)
      (probed : lay.others r.cpu ≠ []) : Step lay v (v.begun lay r (before ++ after))
  | alone (v : Traffic) (r : DeferredRead) (before after : List DeferredRead) (d : Desk)
      (sent : List Request) (waits : v.deferred = before ++ r :: after)
      (free : ∀ t ∈ v.txns, t.addr ≠ r.addr.block) (nobody : lay.others r.cpu = [])
      (clears : (v.desk r.cpu).Clears (.request r.id) d sent) :
      Step lay v ((v.begun lay r (before ++ after)).closed (v.opened lay r) d sent)
  | reply (v : Traffic) (k : Nat) (r : ProbeReply) (later : List Request) (t : Transaction) (d : Desk)
      (head : v.queue k = .reply r :: later) (isOpen : t ∈ v.txns) (number : t.number = r.txn)
      (frees : (v.desk k).Frees r d) (more : (t.take r).pending ≠ 0) :
      Step lay v ((v.rest k later).replied k r t d)
  | finish (v : Traffic) (k : Nat) (r : ProbeReply) (later : List Request) (t : Transaction)
      (d e : Desk) (sent : List Request) (head : v.queue k = .reply r :: later)
      (isOpen : t ∈ v.txns) (number : t.number = r.txn) (frees : (v.desk k).Frees r d)
      (last : (t.take r).pending = 0)
      (clears : (((v.rest k later).replied k r t d).desk t.origin).Clears (.request t.id) e sent) :
      Step lay v (((v.rest k later).replied k r t d).closed (t.take r) e sent)
  | drop (v : Traffic) (k : Nat) (r : ProbeReply) (later : List Request)
      (head : v.queue k = .reply r :: later) (closed : ∀ t ∈ v.txns, t.number ≠ r.txn) :
      Step lay v { v.rest k later with repliesTaken := v.repliesTaken + 1 }

/-- What holds of every traffic: transactions have numbers and blocks of their own, and requests come
from CPUs that are there. -/
structure Lawful (lay : Layout) (v : Traffic) : Prop where
  numbers : (v.txns.map (·.number)).Nodup
  below : ∀ t ∈ v.txns, t.number < v.next
  blocks : (v.txns.map (·.addr)).Nodup
  origins : ∀ t ∈ v.txns, t.origin < lay.cpus
  ids : ∀ t ∈ v.txns, ∃ slot, t.id = .miss slot
  readers : ∀ r ∈ v.deferred, r.cpu < lay.cpus ∧ lay.backed r.addr ∧ ∃ slot, r.id = .miss slot
  proper : ∀ k, ∀ q ∈ v.queue k, q.Proper
  inside : ∀ k, v.queue k ≠ [] → k < lay.cpus

section fields

variable (v : Traffic) (lay : Layout) (k j : Nat) (d : Desk) (sent later : List Request)
  (r : DeferredRead) (p : ProbeReply) (t : Transaction) (deferred : List DeferredRead)

@[simp] theorem desk_work : (v.work k d sent).desk j = if j = k then d else v.desk j := rfl
@[simp] theorem queue_work :
    (v.work k d sent).queue j = if j = k then v.queue j ++ sent else v.queue j := rfl
@[simp] theorem coming_work : (v.work k d sent).coming = v.coming := rfl
@[simp] theorem txns_work : (v.work k d sent).txns = v.txns := rfl
@[simp] theorem deferred_work : (v.work k d sent).deferred = v.deferred := rfl
@[simp] theorem next_work : (v.work k d sent).next = v.next := rfl
@[simp] theorem io_work : (v.work k d sent).io = v.io := rfl
@[simp] theorem own_work : (v.work k d sent).own = v.own := rfl
@[simp] theorem probesSent_work : (v.work k d sent).probesSent = v.probesSent := rfl

@[simp] theorem desk_rest : (v.rest k later).desk = v.desk := rfl
@[simp] theorem queue_rest : (v.rest k later).queue j = if j = k then later else v.queue j := rfl
@[simp] theorem coming_rest : (v.rest k later).coming = v.coming := rfl
@[simp] theorem txns_rest : (v.rest k later).txns = v.txns := rfl
@[simp] theorem deferred_rest : (v.rest k later).deferred = v.deferred := rfl
@[simp] theorem probesSent_rest : (v.rest k later).probesSent = v.probesSent := rfl
@[simp] theorem repliesTaken_rest : (v.rest k later).repliesTaken = v.repliesTaken := rfl

@[simp] theorem queue_begun : (v.begun lay r deferred).queue = v.queue := rfl
@[simp] theorem coming_begun : (v.begun lay r deferred).coming j =
    if j ∈ lay.others r.cpu then
      v.coming j ++ [.ofCommand v.next r.addr.block (lay.command r.kind)]
    else v.coming j := rfl
@[simp] theorem txns_begun : (v.begun lay r deferred).txns = v.txns ++ [v.opened lay r] := rfl
@[simp] theorem deferred_begun : (v.begun lay r deferred).deferred = deferred := rfl
@[simp] theorem next_begun : (v.begun lay r deferred).next = v.next + 1 := rfl
@[simp] theorem probesSent_begun : (v.begun lay r deferred).probesSent =
    v.probesSent + (lay.others r.cpu).length := rfl
@[simp] theorem repliesTaken_begun : (v.begun lay r deferred).repliesTaken = v.repliesTaken := rfl

@[simp] theorem desk_replied : (v.replied k p t d).desk j = if j = k then d else v.desk j := rfl
@[simp] theorem queue_replied : (v.replied k p t d).queue = v.queue := by
  funext j
  simp [replied]
@[simp] theorem coming_replied : (v.replied k p t d).coming = v.coming := rfl
@[simp] theorem txns_replied : (v.replied k p t d).txns =
    v.txns.map fun u => if u.number = p.txn then t.take p else u := rfl
@[simp] theorem deferred_replied : (v.replied k p t d).deferred = v.deferred := rfl
@[simp] theorem probesSent_replied : (v.replied k p t d).probesSent = v.probesSent := rfl
@[simp] theorem repliesTaken_replied : (v.replied k p t d).repliesTaken = v.repliesTaken + 1 := rfl

@[simp] theorem desk_closed :
    (v.closed t d sent).desk j = if j = t.origin then d else v.desk j := rfl
@[simp] theorem queue_closed :
    (v.closed t d sent).queue j = if j = t.origin then v.queue j ++ sent else v.queue j := rfl
@[simp] theorem txns_closed :
    (v.closed t d sent).txns = v.txns.filter (·.number != t.number) := rfl
@[simp] theorem deferred_closed : (v.closed t d sent).deferred = v.deferred := rfl
@[simp] theorem probesSent_closed : (v.closed t d sent).probesSent = v.probesSent := rfl
@[simp] theorem repliesTaken_closed : (v.closed t d sent).repliesTaken = v.repliesTaken := rfl

end fields

theorem mem_replied {v : Traffic} {t : Transaction} {r : ProbeReply} (isOpen : t ∈ v.txns)
    (number : t.number = r.txn) (k : Nat) (d : Desk) : t.take r ∈ (v.replied k r t d).txns := by
  rw [txns_replied]
  exact List.mem_map.mpr ⟨t, isOpen, if_pos number⟩

namespace Lawful

variable {lay : Layout} {v : Traffic} {k : Nat} {d : Desk} {sent : List Request}

theorem work (lawful : v.Lawful lay) (inside : k < lay.cpus) (proper : ∀ q ∈ sent, q.Proper) :
    (v.work k d sent).Lawful lay := by
  refine ⟨lawful.numbers, lawful.below, lawful.blocks, lawful.origins, lawful.ids, lawful.readers,
    ?_, ?_⟩
  · intro j q member
    rw [queue_work] at member
    split at member
    · rcases List.mem_append.mp member with old | new
      · exact lawful.proper j q old
      · exact proper q new
    · exact lawful.proper j q member
  · intro j some_left
    rw [queue_work] at some_left
    split at some_left
    · rename_i here
      rwa [here]
    · exact lawful.inside j some_left

theorem of_coming (lawful : v.Lawful lay) (coming : Nat → List Probe) :
    Lawful lay { v with coming } :=
  ⟨lawful.numbers, lawful.below, lawful.blocks, lawful.origins, lawful.ids, lawful.readers,
    lawful.proper, lawful.inside⟩

theorem rest (lawful : v.Lawful lay) {q : Request} {later : List Request}
    (head : v.queue k = q :: later) : (v.rest k later).Lawful lay := by
  refine ⟨lawful.numbers, lawful.below, lawful.blocks, lawful.origins, lawful.ids, lawful.readers,
    ?_, ?_⟩
  · intro j r member
    rw [queue_rest] at member
    split at member
    · rename_i here
      refine lawful.proper k r ?_
      rw [head]
      exact List.mem_cons_of_mem _ member
    · exact lawful.proper j r member
  · intro j some_left
    rw [queue_rest] at some_left
    split at some_left
    · rename_i here
      rw [here]
      exact lawful.inside k (by simp [head])
    · exact lawful.inside j some_left

theorem of_deferred (lawful : v.Lawful lay) {deferred : List DeferredRead}
    (readers : ∀ r ∈ deferred,
      r.cpu < lay.cpus ∧ lay.backed r.addr ∧ ∃ slot, r.id = .miss slot) :
    Lawful lay { v with deferred } :=
  ⟨lawful.numbers, lawful.below, lawful.blocks, lawful.origins, lawful.ids, readers,
    lawful.proper, lawful.inside⟩

theorem begun (lawful : v.Lawful lay) {r : DeferredRead} {before after : List DeferredRead}
    (waits : v.deferred = before ++ r :: after) (free : ∀ t ∈ v.txns, t.addr ≠ r.addr.block) :
    (v.begun lay r (before ++ after)).Lawful lay := by
  have reader := lawful.readers r (by simp [waits])
  constructor
  · rw [txns_begun, List.map_append, List.nodup_append]
    refine ⟨lawful.numbers, by simp, ?_⟩
    intro n old m new same
    obtain ⟨t, member, rfl⟩ := List.mem_map.mp old
    have below := lawful.below t member
    simp only [List.map_cons, List.map_nil, List.mem_singleton, opened] at new
    omega
  · intro t member
    rw [txns_begun, List.mem_append, List.mem_singleton] at member
    rw [next_begun]
    rcases member with old | rfl
    · exact Nat.lt_succ_of_lt (lawful.below t old)
    · exact Nat.lt_succ_self _
  · rw [txns_begun, List.map_append, List.nodup_append]
    refine ⟨lawful.blocks, by simp, ?_⟩
    intro a old b new same
    obtain ⟨t, member, rfl⟩ := List.mem_map.mp old
    simp only [List.map_cons, List.map_nil, List.mem_singleton, opened] at new
    exact free t member (same.trans new)
  · intro t member
    rw [txns_begun, List.mem_append, List.mem_singleton] at member
    rcases member with old | rfl
    · exact lawful.origins t old
    · exact reader.1
  · intro t member
    rw [txns_begun, List.mem_append, List.mem_singleton] at member
    rcases member with old | rfl
    · exact lawful.ids t old
    · exact reader.2.2
  · intro s member
    refine lawful.readers s ?_
    rw [deferred_begun] at member
    rw [waits]
    rcases List.mem_append.mp member with early | late
    · exact List.mem_append_left _ early
    · exact List.mem_append_right _ (List.mem_cons_of_mem _ late)
  · exact lawful.proper
  · exact lawful.inside

theorem replied (lawful : v.Lawful lay) {r : ProbeReply} {t : Transaction} (isOpen : t ∈ v.txns)
    (number : t.number = r.txn) : (v.replied k r t d).Lawful lay := by
  have came (u : Transaction) (member : u ∈ (v.replied k r t d).txns) :
      ∃ w ∈ v.txns, w.number = u.number ∧ w.origin = u.origin ∧ w.id = u.id := by
    rw [txns_replied] at member
    obtain ⟨w, inside, rfl⟩ := List.mem_map.mp member
    split
    · exact ⟨t, isOpen, rfl, rfl, rfl⟩
    · exact ⟨w, inside, rfl, rfl, rfl⟩
  constructor
  · rw [txns_replied, map_take lawful.numbers isOpen r number _ rfl]
    exact lawful.numbers
  · intro u member
    obtain ⟨w, inside, same, _⟩ := came u member
    rw [← same]
    exact lawful.below w inside
  · rw [txns_replied, map_take lawful.numbers isOpen r number _ rfl]
    exact lawful.blocks
  · intro u member
    obtain ⟨w, inside, _, same, _⟩ := came u member
    rw [← same]
    exact lawful.origins w inside
  · intro u member
    obtain ⟨w, inside, _, _, same⟩ := came u member
    rw [← same]
    exact lawful.ids w inside
  · exact lawful.readers
  · rw [queue_replied]
    exact lawful.proper
  · rw [queue_replied]
    exact lawful.inside

/-- The transactions after a reply: the one that took it, and those with another number. -/
theorem replied_perm (lawful : v.Lawful lay) {r : ProbeReply} {t : Transaction} (isOpen : t ∈ v.txns)
    (number : t.number = r.txn) :
    (v.replied k r t d).txns.Perm (t.take r :: v.txns.filter (·.number != t.number)) := by
  have rest : (v.txns.filter (·.number != t.number)).map
      (fun u => if u.number = r.txn then t.take r else u) = v.txns.filter (·.number != t.number) := by
    refine (List.map_congr_left fun u member => ?_).trans (List.map_id _)
    have apart : u.number ≠ t.number := by simpa using (List.mem_filter.mp member).2
    exact if_neg (number ▸ apart)
  have mapped := (txns_perm lawful.numbers isOpen).map fun u =>
    if u.number = r.txn then t.take r else u
  rwa [List.map_cons, if_pos number, rest] at mapped

theorem closed (lawful : v.Lawful lay) {t : Transaction} (isOpen : t ∈ v.txns)
    (sends : ∀ q ∈ sent, ∃ (v : Victim) (slot : Slot), q = v.request slot) :
    (v.closed t d sent).Lawful lay := by
  have worked : (v.work t.origin d sent).Lawful lay :=
    lawful.work (lawful.origins t isOpen) fun q member => (Controller.fair_victims sends q member).1
  have kept (u : Transaction) (member : u ∈ (v.closed t d sent).txns) : u ∈ v.txns :=
    (List.mem_filter.mp member).1
  exact ⟨lawful.numbers.sublist (List.filter_sublist.map _), fun u member => lawful.below u (kept u member),
    lawful.blocks.sublist (List.filter_sublist.map _), fun u member => lawful.origins u (kept u member),
    fun u member => lawful.ids u (kept u member), lawful.readers, worked.proper, worked.inside⟩

theorem step (lawful : v.Lawful lay) {w : Traffic} (step : Step lay v w) : w.Lawful lay := by
  have victims {x : CompletionTarget} {d e : Desk} {sent : List Request} (clears : d.Clears x e sent) :
      ∀ q ∈ sent, q.Proper :=
    fun q member => (Controller.fair_victims clears.sends q member).1
  cases step with
  | answer k p later r d inside oldest txn replies =>
    have proper : ∀ q ∈ [Request.reply r], q.Proper := by simp [Request.Proper]
    exact (lawful.work inside proper).of_coming _
  | settle k q later x d sent head target clears =>
    have inside : k < lay.cpus := lawful.inside k (by simp [head])
    have moved := (lawful.rest head).work (d := d) inside (victims clears)
    exact ⟨moved.numbers, moved.below, moved.blocks, moved.origins, moved.ids, moved.readers,
      moved.proper, moved.inside⟩
  | defer k id a kind later head backed =>
    have inside : k < lay.cpus := lawful.inside k (by simp [head])
    have proper := lawful.proper k (.read id a kind) (by simp [head])
    refine (lawful.rest head).of_deferred fun s member => ?_
    rcases List.mem_append.mp member with old | new
    · exact lawful.readers s old
    · rw [List.mem_singleton.mp new]
      exact ⟨inside, backed, proper⟩
  | turn r later waits =>
    refine lawful.of_deferred fun s member => lawful.readers s ?_
    rw [waits]
    rcases List.mem_append.mp member with late | new
    · exact List.mem_cons_of_mem _ late
    · rw [List.mem_singleton.mp new]
      exact List.mem_cons_self
  | begin r before after waits free _ => exact lawful.begun waits free
  | alone r before after d sent waits free _ clears =>
    exact (lawful.begun waits free).closed (by simp) clears.sends
  | reply k r later t d head isOpen number frees more =>
    exact (lawful.rest head).replied isOpen number
  | finish k r later t d e sent head isOpen number frees last clears =>
    have taken := mem_replied (v := v.rest k later) isOpen number k d
    exact ((lawful.rest head).replied isOpen number).closed taken clears.sends
  | drop k r later head closed =>
    have moved := lawful.rest head
    exact ⟨moved.numbers, moved.below, moved.blocks, moved.origins, moved.ids, moved.readers,
      moved.proper, moved.inside⟩

end Lawful

end Traffic
end CacheCoherence
