import CacheCoherence.Proofs.Commands

namespace CacheCoherence

namespace Fabric

/-- The probes on their way to CPU `k`: those in its ring, then those that are parked for it. -/
def incoming (f : Fabric) (k : Nat) : List Probe :=
  ((f.nodes[k]?).map (·.probes.contents)).getD [] ++
    (f.hub.signal.parked.filter (·.cpu == k)).map (·.probe)

def outgoing (f : Fabric) (k : Nat) : List Request := ((f.controller? k).map (·.outbound)).getD []

def items (f : Fabric) (k : Nat) : List Nat :=
  (f.incoming k).map (·.txn) ++ (f.outgoing k).filterMap Request.answers

/-- The registered CPUs at which something is out for transaction `number`. -/
def holders (f : Fabric) (number : Nat) : Finset Nat :=
  {k ∈ Finset.range f.hub.sockets.length | number ∈ f.items k}

structure Conserves (f : Fabric) : Prop where
  numbers : (f.hub.transactions.map (·.number)).Nodup
  once : ∀ k number, (f.items k).count number ≤ 1
  live : ∀ k, ∀ number ∈ f.items k,
    k < f.hub.sockets.length ∧ ∃ t ∈ f.hub.transactions, t.number = number ∧ t.origin ≠ k
  pending : ∀ t ∈ f.hub.transactions, t.pending = (f.holders t.number).card ∧ 1 ≤ t.pending
  total : f.hub.counters.probesSent =
    f.hub.counters.probeReplies + (f.hub.transactions.map (·.pending)).sum

end Fabric

theorem Pass.queue_idle (f : Fabric) : Pass.queue { fabric := f } = f.outgoing := by
  funext k
  simp only [Pass.queue, List.filter_nil, List.map_nil, List.nil_append, Fabric.outgoing]

theorem Pass.items_idle (f : Fabric) (k : Nat) :
    (Pass.traffic { fabric := f }).items k = f.items k := by
  simp only [Traffic.items, Pass.traffic, Pass.queue_idle]
  rfl

theorem Pass.Sound.conserves {lay : Layout} {f : Fabric} (sound : Pass.Sound lay { fabric := f }) :
    f.Conserves := by
  have conserved := sound.traffic.conserved
  have registered : f.hub.sockets.length = lay.cpus := by
    have sockets : f.hub.sockets = List.range lay.cpus := sound.steady.sockets
    rw [sockets, List.length_range]
  refine ⟨sound.traffic.lawful.numbers, ?_, ?_, ?_, conserved.total⟩
  · intro k number
    rw [← Pass.items_idle]
    exact List.nodup_iff_count_le_one.mp (conserved.once k) number
  · intro k number member
    rw [← Pass.items_idle] at member
    rw [registered]
    exact conserved.live k number member
  · intro t isOpen
    have same : f.holders t.number = (Pass.traffic { fabric := f }).holders lay t.number := by
      simp only [Fabric.holders, Traffic.holders, registered, Pass.items_idle]
    rw [same]
    exact ⟨conserved.pending t isOpen, Nat.one_le_iff_ne_zero.mpr (conserved.awaited t isOpen)⟩

/-- Whatever is commanded, probes and replies are conserved. -/
theorem probes_conserved {σ : Type} {a : Allocator σ} {st : σ} {settings : Settings} {m : Machine}
    (built : (Machine.build a st settings).1.outcome = .ok m) (commands : List Command) :
    (m.fabric.obey commands).Conserves := by
  obtain ⟨lay, sound⟩ := Machine.sound_of_obey built commands
  exact sound.conserves

/-- Both CPUs ask for a block of their own, and CPU 1 has answered the probe of the other. -/
def crossing : List Command :=
  [.call (.operate 0 (.issue (.to (.store .quad) 0))),
    .call (.operate 1 (.issue (.to (.store .quad) 0x40))), .call .poll, .call (.service 1)]

/-- One transaction is out as a reply and the other as a probe. -/
theorem crossing_conserved :
    (Machine.build Heap.allocator {} .pair).1.outcome = .ok .pair ∧
      (Machine.pair.fabric.obey crossing).Conserves ∧
      (Machine.pair.fabric.obey crossing).items 0 = [1] ∧
      (Machine.pair.fabric.obey crossing).items 1 = [0] :=
  ⟨Machine.pair_built, probes_conserved Machine.pair_built crossing, by decide +kernel,
    by decide +kernel⟩

end CacheCoherence
