import CacheCoherence.Proofs.Circulation
import CacheCoherence.Proofs.Frames

namespace CacheCoherence

/-- A probe that the controller does not answer is refused for want of a victim slot, and nothing is
sent for it. -/
theorem Controller.handleProbe_sends (c : Controller) (p : Probe) :
    (∃ r d, c.handleProbe p = (.ok r, d) ∧ r.txn = p.txn ∧ d.outbound = c.outbound ++ [.reply r]) ∨
      ∃ fault d, c.handleProbe p = (.error fault, d) ∧ fault.isBackpressure ∧
        d.outbound = c.outbound ∧ c.victims.hasRoom = false := by
  have concluded (c : Controller) (data : Option Block) (victim : Option Slot) (s : LineState) :
      ∃ r d, c.concludeProbe p s data victim = (.ok r, d) ∧ r.txn = p.txn ∧
        d.outbound = c.outbound ++ [.reply r] := by
    obtain ⟨r, d, shape, txn, _, _, _, outbound, _⟩ := c.concludeProbe_sends p s data victim
    exact ⟨r, d, shape, txn, outbound⟩
  have answered (s : LineState) :
      (∃ r d, c.answerProbe p s = (.ok r, d) ∧ r.txn = p.txn ∧ d.outbound = c.outbound ++ [.reply r]) ∨
        ∃ fault d, c.answerProbe p s = (.error fault, d) ∧ fault.isBackpressure ∧
          d.outbound = c.outbound ∧ c.victims.hasRoom = false := by
    unfold Controller.answerProbe
    split
    · exact .inl (concluded c none none s)
    · rename_i data _
      split
      · rcases VictimBuffer.allocate_cases c.victims p.addr.block data .probe with
          ⟨full, refused⟩ | ⟨_, slot, _, taken⟩
        · rw [refused]
          exact .inr ⟨_, _, rfl, rfl, rfl, full⟩
        · rw [taken]
          exact .inl (concluded _ (some data) (some slot) s)
      · exact .inl (concluded c (some data) none s)
  unfold Controller.handleProbe
  split
  · exact .inl ⟨_, _, rfl, rfl, rfl⟩
  · simp only
    split
    · split
      · exact .inl ⟨_, _, rfl, rfl, rfl⟩
      · exact answered _
    · exact answered _

namespace Node

def answered : Nat → Node → List Probe
  | 0, _ => []
  | limit + 1, n =>
    match n.probes.front with
    | none => []
    | some p =>
      match n.controller.handleProbe p with
      | (.error fault, controller) =>
        if fault.isBackpressure then []
        else p :: answered limit { n with controller, probes := n.probes.pop.2 }
      | (.ok _, controller) => p :: answered limit { n with controller, probes := n.probes.pop.2 }

/-- Probes `gone` left the front of the ring, and each has its reply in the queue. -/
structure Answers (n m : Node) (gone : List Probe) : Prop where
  formed : m.probes.WellFormed
  contents : n.probes.contents = gone ++ m.probes.contents
  replies : ∃ replies : List ProbeReply, replies.map (·.txn) = gone.map (·.txn) ∧
    m.controller.outbound = n.controller.outbound ++ replies.map .reply

theorem Answers.refl {n : Node} (formed : n.probes.WellFormed) : Answers n n [] :=
  ⟨formed, rfl, [], rfl, (List.append_nil _).symm⟩

theorem answers_answerProbes (limit : Nat) {n : Node} (formed : n.probes.WellFormed) :
    Answers n (n.answerProbes limit).2 (n.answered limit) := by
  induction limit generalizing n with
  | zero => exact .refl formed
  | succ limit ih =>
    unfold Node.answerProbes Node.answered
    cases oldest : n.probes.front with
    | none => exact .refl formed
    | some p =>
      obtain ⟨rest, contents⟩ := formed.oldest oldest
      obtain ⟨popped, left⟩ := formed.pop contents
      rcases n.controller.handleProbe_sends p with
        ⟨r, d, outcome, txn, outbound⟩ | ⟨fault, d, outcome, full, outbound, _⟩
      · simp only [outcome]
        have later := ih (n := { n with controller := d, probes := n.probes.pop.2 }) popped
        obtain ⟨replies, txns, sent⟩ := later.replies
        refine ⟨later.formed, ?_, r :: replies, ?_, ?_⟩
        · rw [contents, List.cons_append, ← later.contents, left]
        · rw [List.map_cons, List.map_cons, txns, txn]
        · rw [sent, outbound, List.append_assoc, List.map_cons, List.singleton_append]
      · simp only [outcome, full, if_true]
        exact ⟨formed, rfl, [], rfl, by simp [outbound]⟩

theorem answers_serviceProbes {n : Node} (formed : n.probes.WellFormed) :
    Answers n n.serviceProbes.2 (n.answered n.probes.length) := by
  have answers := answers_answerProbes n.probes.length formed
  unfold Node.serviceProbes
  simp only
  split
  · exact ⟨answers.formed, answers.contents, answers.replies⟩
  · exact answers

theorem interrupt_answerProbes (limit : Nat) (n : Node) :
    (n.answerProbes limit).2.interrupt = n.interrupt := by
  fun_induction Node.answerProbes limit n with
  | case1 | case2 | case3 => rfl
  | case4 _ _ _ _ _ _ _ _ _ later same ih => rw [← ih, same]
  | case5 _ _ _ _ _ _ _ _ later same ih => rw [← ih, same]

def Flagged (n : Node) : Prop := n.interrupt = !n.probes.isEmpty

theorem isEmpty_contents {n : Node} (formed : n.probes.WellFormed) :
    n.probes.isEmpty = n.probes.contents.isEmpty := by
  rw [ProbeRing.isEmpty, ← formed.length_contents]
  cases n.probes.contents <;> rfl

theorem Flagged.serviceProbes {n : Node} (formed : n.probes.WellFormed) (flagged : n.Flagged) :
    n.serviceProbes.2.Flagged := by
  have answers := answers_answerProbes n.probes.length formed
  unfold Node.serviceProbes
  simp only
  split
  · rename_i none_left
    simp [Flagged, none_left]
  · rename_i some_left
    rw [Bool.not_eq_true] at some_left
    have before : n.probes.isEmpty = false := by
      rw [isEmpty_contents answers.formed] at some_left
      simp only [List.isEmpty_eq_false_iff] at some_left
      simp [isEmpty_contents formed, answers.contents, some_left]
    rw [Flagged, interrupt_answerProbes, some_left, flagged, before]

theorem Flagged.deliver (n : Node) (m : Message) (flagged : n.Flagged) : (n.deliver m).2.Flagged := by
  cases m with
  | completion => exact flagged
  | probe p =>
    simp only [Node.deliver, ProbeRing.push]
    split
    · rename_i same
      split at same
      · cases same
        exact flagged
      · cases same
    · rename_i same
      split at same
      · cases same
      · cases same
        simp [Flagged, ProbeRing.isEmpty]

end Node

inductive Errand
  | send (cpu : Nat) (p : Probe)
  | retry
  | service (cpu : Nat)
  deriving DecidableEq

def Errand.sends (k : Nat) : Errand → List Probe
  | .send cpu p => if cpu = k then [p] else []
  | .retry | .service _ => []

namespace Fabric

def errand (f : Fabric) : Errand → Fabric
  | .send cpu p => f.sendProbe cpu p
  | .retry => f.retryParked.2
  | .service cpu => (f.service cpu).2

def errands (f : Fabric) (list : List Errand) : Fabric := list.foldl errand f

def answered (f : Fabric) (k : Nat) : Errand → List Probe
  | .service cpu =>
    if cpu = k then ((f.nodes[cpu]?).map fun n => n.answered n.probes.length).getD [] else []
  | .send .. | .retry => []

def answeredAll (f : Fabric) (k : Nat) : List Errand → List Probe
  | [] => []
  | e :: rest => f.answered k e ++ (f.errand e).answeredAll k rest

/-- The rings, the sockets and the parked probes fit each other, and the interrupt lines are right. -/
structure Channelled (f : Fabric) : Prop where
  sockets : f.hub.sockets = List.range f.nodes.length
  rings : ∀ n ∈ f.nodes, n.probes.WellFormed
  lines : ∀ n ∈ f.nodes, n.Flagged
  parked : ∀ p ∈ f.hub.signal.parked, p.cpu < f.nodes.length

variable {f : Fabric}

theorem Channelled.wired (channelled : f.Channelled) : Pass.Wired f.nodes.length { fabric := f } :=
  ⟨rfl, channelled.sockets, fun _ n present => channelled.rings n (List.mem_of_getElem? present),
    channelled.parked⟩

theorem Channelled.of_wired {g : Fabric} (wired : Pass.Wired g.nodes.length { fabric := g })
    (lines : ∀ n ∈ g.nodes, n.Flagged) : g.Channelled := by
  refine ⟨wired.sockets, ?_, lines, wired.parked⟩
  intro n member
  obtain ⟨i, inside, rfl⟩ := List.getElem_of_mem member
  exact wired.rings i _ (List.getElem?_eq_getElem inside)

theorem routing_flagged :
    Routing fun f g => (∀ n ∈ f.nodes, n.Flagged) → ∀ n ∈ g.nodes, n.Flagged :=
  routing_nodes Node.Flagged.deliver

structure Moved (f g : Fabric) (e : Errand) : Prop where
  channelled : g.Channelled
  nodes : g.nodes.length = f.nodes.length
  queue : ∀ k < f.nodes.length, f.incoming k ++ e.sends k = f.answered k e ++ g.incoming k
  replies : ∀ k, ∃ replies : List ProbeReply,
    replies.map (·.txn) = (f.answered k e).map (·.txn) ∧
      g.outgoing k = f.outgoing k ++ replies.map .reply

theorem Moved.of_alike {g : Fabric} {e : Errand}
    (alike : Pass.Alike { fabric := f } { fabric := g })
    (wired : Pass.Wired f.nodes.length { fabric := g }) (lines : ∀ n ∈ g.nodes, n.Flagged)
    (none_answered : ∀ k, f.answered k e = [])
    (incoming : ∀ k < f.nodes.length, g.incoming k = f.incoming k ++ e.sends k) : Moved f g e := by
  have nodes : g.nodes.length = f.nodes.length := alike.nodes
  refine ⟨.of_wired (nodes ▸ wired) lines, nodes, ?_, ?_⟩
  · intro k inside
    rw [none_answered, incoming k inside, List.nil_append]
  · intro k
    have controllers : g.controller? k = f.controller? k := alike.controllers k
    refine ⟨[], by rw [none_answered]; rfl, ?_⟩
    rw [outgoing, controllers, outgoing, List.map_nil, List.append_nil]

theorem Moved.rung {g : Fabric} {e : Errand} (moved : Moved f g e) : Moved f g.ringDoorbell e :=
  ⟨⟨moved.channelled.sockets, moved.channelled.rings, moved.channelled.lines, moved.channelled.parked⟩,
    moved.nodes, moved.queue, moved.replies⟩

theorem Channelled.send (channelled : f.Channelled) (cpu : Nat) (p : Probe) :
    Moved f (f.sendProbe cpu p) (.send cpu p) := by
  by_cases inside : cpu < f.nodes.length
  · have carried := channelled.wired.sendProbe inside p
    refine .of_alike carried.alike carried.wired
      (routing_flagged.sendProbe f cpu p channelled.lines) (fun _ => rfl) fun k _ => ?_
    refine (carried.coming k).trans ?_
    by_cases here : k = cpu
    · simp [Errand.sends, here]
      rfl
    · simp [Errand.sends, here, Ne.symm here]
      rfl
  · -- a message to a CPU that is not registered is dropped
    have vacant : f.hub.sockets[cpu]? = none := by
      rw [channelled.sockets]
      exact List.getElem?_eq_none (by simpa using inside)
    have none_parked : f.hub.signal.hasParked cpu = false := by
      rw [Signal.hasParked, List.any_eq_false]
      intro q member same
      exact inside (beq_iff_eq.mp same ▸ channelled.parked q member)
    have dropped : f.sendProbe cpu p = f.count fun k => { k with probesSent := k.probesSent + 1 } := by
      simp [Fabric.sendProbe, Fabric.deliver, Fabric.count, vacant, none_parked]
    rw [dropped]
    refine .of_alike ⟨rfl, rfl, rfl, fun _ => rfl⟩ (channelled.wired.counted _)
      channelled.lines (fun _ => rfl) fun k known => ?_
    have apart : cpu ≠ k := fun same => inside (same ▸ known)
    rw [Errand.sends, if_neg apart, List.append_nil]
    rfl

theorem Channelled.retry (channelled : f.Channelled) : Moved f f.retryParked.2 .retry := by
  obtain ⟨alike, wired, coming⟩ := channelled.wired.retryParked
  refine .of_alike alike wired (routing_flagged.retryParked f channelled.lines) (fun _ => rfl) fun k _ => ?_
  rw [Errand.sends, List.append_nil]
  exact congrFun coming k

theorem Channelled.service (channelled : f.Channelled) (cpu : Nat) :
    Moved f (f.service cpu).2 (.service cpu) := by
  cases present : f.nodes[cpu]? with
  | none =>
    have absent (k : Nat) : f.answered k (.service cpu) = [] := by simp [answered, present]
    have same : (f.service cpu).2 = f := by simp only [Fabric.service, present]
    rw [same]
    exact .of_alike (.refl _) channelled.wired channelled.lines absent
      fun k _ => (List.append_nil _).symm
  | some n =>
    have formed := channelled.rings n (List.mem_of_getElem? present)
    have flagged := channelled.lines n (List.mem_of_getElem? present)
    have answers := Node.answers_serviceProbes formed
    obtain ⟨replies, txns, sent⟩ := answers.replies
    have answered (k : Nat) : f.answered k (.service cpu) =
        if k = cpu then n.answered n.probes.length else [] := by
      simp only [Fabric.answered, present, Option.map_some, Option.getD_some, eq_comm]
    let s : Pass := { fabric := f }
    have moved : Moved f (s.seat cpu n.serviceProbes.2).fabric (.service cpu) := by
      have kept : (s.seat cpu n.serviceProbes.2).fabric.nodes.length = f.nodes.length :=
        List.length_set ..
      refine ⟨.of_wired (kept ▸ channelled.wired.seat present answers.formed) ?_, kept, ?_, ?_⟩
      · intro p member
        rcases List.mem_or_eq_of_mem_set member with old | new
        · exact channelled.lines p old
        · exact new ▸ flagged.serviceProbes formed
      · intro k _
        have coming := Pass.coming_seat (s := s) present n.serviceProbes.2 k
        change incoming _ k = _ at coming
        rw [Errand.sends, List.append_nil, answered, coming]
        split
        · rename_i here
          subst here
          simp only [incoming, present, Option.map_some, Option.getD_some, answers.contents,
            List.append_assoc]
          rfl
        · rfl
      · intro k
        have queue := Pass.queue_seat (s := s) present sent k
        change Pass.queue { fabric := (s.seat cpu n.serviceProbes.2).fabric } k = _ at queue
        rw [Pass.queue_idle, Pass.queue_idle] at queue
        rw [answered, queue]
        split
        · exact ⟨replies, txns, rfl⟩
        · exact ⟨[], rfl, (List.append_nil _).symm⟩
    simp only [Fabric.service, present]
    split
    · exact moved.rung
    · exact moved

theorem Channelled.errand (channelled : f.Channelled) (e : Errand) : Moved f (f.errand e) e := by
  cases e with
  | send cpu p => exact channelled.send cpu p
  | retry => exact channelled.retry
  | service cpu => exact channelled.service cpu

theorem Channelled.errands (channelled : f.Channelled) (list : List Errand) :
    (f.errands list).Channelled ∧ (f.errands list).nodes.length = f.nodes.length := by
  induction list generalizing f with
  | nil => exact ⟨channelled, rfl⟩
  | cons e rest ih =>
    have moved := channelled.errand e
    obtain ⟨kept, count⟩ := ih moved.channelled
    exact ⟨kept, count.trans moved.nodes⟩

theorem Channelled.queue (channelled : f.Channelled) (list : List Errand) {k : Nat}
    (inside : k < f.nodes.length) :
    f.incoming k ++ list.flatMap (·.sends k) = f.answeredAll k list ++ (f.errands list).incoming k := by
  induction list generalizing f with
  | nil => exact List.append_nil _
  | cons e rest ih =>
    have moved := channelled.errand e
    calc f.incoming k ++ (e :: rest).flatMap (·.sends k)
      _ = (f.incoming k ++ e.sends k) ++ rest.flatMap (·.sends k) := by
        rw [List.flatMap_cons, List.append_assoc]
      _ = f.answered k e ++ ((f.errand e).incoming k ++ rest.flatMap (·.sends k)) := by
        rw [moved.queue k inside, List.append_assoc]
      _ = f.answered k e ++ ((f.errand e).answeredAll k rest ++ ((f.errand e).errands rest).incoming k) := by
        rw [ih moved.channelled (moved.nodes ▸ inside)]
      _ = f.answeredAll k (e :: rest) ++ (f.errands (e :: rest)).incoming k := by
        rw [answeredAll, List.append_assoc]
        rfl

theorem Channelled.replies (channelled : f.Channelled) (list : List Errand) (k : Nat) :
    ∃ replies : List ProbeReply, replies.map (·.txn) = (f.answeredAll k list).map (·.txn) ∧
      (f.errands list).outgoing k = f.outgoing k ++ replies.map .reply := by
  induction list generalizing f with
  | nil => exact ⟨[], rfl, (List.append_nil _).symm⟩
  | cons e rest ih =>
    have moved := channelled.errand e
    obtain ⟨first, first_txns, first_sent⟩ := moved.replies k
    obtain ⟨later, later_txns, later_sent⟩ := ih moved.channelled
    refine ⟨first ++ later, ?_, ?_⟩
    · rw [List.map_append, first_txns, later_txns, answeredAll, List.map_append]
    · refine later_sent.trans ?_
      rw [first_sent, List.map_append, List.append_assoc]

end Fabric

/-- Whatever is sent, sent again and answered, in any order: what was on its way to a CPU and what is
sent to it are what it answers and what is on its way to it in the end, in that order; each answer is
a reply in its queue; and its interrupt line is raised while its ring holds a probe. -/
theorem channel_fifo {f : Fabric} (channelled : f.Channelled) (list : List Errand) :
    (∀ k < f.nodes.length, f.incoming k ++ list.flatMap (·.sends k) =
      f.answeredAll k list ++ (f.errands list).incoming k) ∧
    (∀ k, ∃ replies : List ProbeReply, replies.map (·.txn) = (f.answeredAll k list).map (·.txn) ∧
      (f.errands list).outgoing k = f.outgoing k ++ replies.map .reply) ∧
    ∀ n ∈ (f.errands list).nodes, n.interrupt = true ↔ n.probes.contents ≠ [] := by
  refine ⟨fun k inside => channelled.queue list inside, channelled.replies list, ?_⟩
  intro n member
  obtain ⟨kept, _⟩ := channelled.errands list
  rw [kept.lines n member, Node.isEmpty_contents (kept.rings n member)]
  simp

theorem Machine.channelled_of_build {σ : Type} {a : Allocator σ} {st : σ} {settings : Settings}
    {m : Machine} (built : (Machine.build a st settings).1.outcome = .ok m) : m.fabric.Channelled := by
  obtain ⟨memory, growing, _⟩ := growing_of_build built
  refine ⟨by rw [growing.hub], ?_, ?_, ?_⟩
  · intro n member
    obtain ⟨depth, deep, probes⟩ := (growing.nodes n member).probes
    rw [probes]
    exact ProbeRing.wellFormed_empty deep
  · intro n member
    obtain ⟨depth, _, probes⟩ := (growing.nodes n member).probes
    rw [Node.Flagged, (growing.nodes n member).interrupt, probes]
    rfl
  · simp [growing.hub, Hub.create]

/-- Ten probes for CPU 1, which answers what its ring of eight held. -/
def crowded : List Errand :=
  (List.range 10).map (fun i => .send 1 (.ofCommand i ⟨0⟩ ⟨.always, .cleanShared⟩)) ++
    [.retry, .service 1, .send 1 (.ofCommand 10 ⟨0⟩ ⟨.always, .cleanShared⟩), .retry]

/-- The probes that found no room stay ahead of the one that came when there was room again. -/
theorem channel_crowded :
    Machine.pair.fabric.Channelled ∧
    (Machine.pair.fabric.incoming 1 ++ crowded.flatMap (·.sends 1) =
      Machine.pair.fabric.answeredAll 1 crowded ++ (Machine.pair.fabric.errands crowded).incoming 1) ∧
    ((Machine.pair.fabric.answeredAll 1 crowded).map (·.txn) = [0, 1, 2, 3, 4, 5, 6, 7]) ∧
    ((Machine.pair.fabric.errands crowded).incoming 1).map (·.txn) = [8, 9, 10] := by
  have channelled := Machine.channelled_of_build Machine.pair_built
  exact ⟨channelled, (channel_fifo channelled crowded).1 1 (by decide +kernel), by decide +kernel,
    by decide +kernel⟩

end CacheCoherence
