import CacheCoherence.Proofs.Accounts
import CacheCoherence.Proofs.Flows
import CacheCoherence.Proofs.Starts

namespace CacheCoherence

/-- A call, or a block that a pipeline hands to the victim buffer of its node directly. Only the node
itself takes in victims for probes. -/
inductive Command
  | call (call : Call)
  | evict (cpu : Nat) (a : Address) (data : Block) (d : Destination) (outward : d ≠ .probe)
  deriving DecidableEq

namespace Fabric

def evict (f : Fabric) (cpu : Nat) (a : Address) (data : Block) (d : Destination) : Fabric :=
  ((f.withController cpu (·.allocateVictim a data d)).map (·.2)).getD f

def command (f : Fabric) : Command → Fabric
  | .call call => f.call call
  | .evict cpu a data d _ => f.evict cpu a data d

def obey (f : Fabric) (commands : List Command) : Fabric := commands.foldl command f

end Fabric

namespace Traffic

variable {lay : Layout} {v w : Traffic} {k : Nat} {d : Desk} {sent : List Request}

structure Sound (lay : Layout) (v : Traffic) : Prop where
  lawful : v.Lawful lay
  conserved : v.Conserved lay
  accounted : v.Accounted
  answerable : v.Answerable
  own : v.own = lay.cpus

theorem Step.own (step : Step lay v w) : w.own = v.own := by
  cases step with
  | answer | settle | defer | turn | begin | alone | reply | finish | drop => rfl

theorem Sound.step (sound : v.Sound lay) (step : Step lay v w) : w.Sound lay :=
  ⟨sound.lawful.step step, sound.conserved.step sound.lawful step,
    sound.accounted.step sound.lawful sound.conserved step,
    sound.answerable.step sound.lawful step, step.own.trans sound.own⟩

theorem Sound.path (sound : v.Sound lay) (path : Relation.ReflTransGen (Step lay) v w) :
    w.Sound lay := by
  induction path with
  | refl => exact sound
  | tail _ step ih => exact ih.step step

theorem Sound.poses (sound : v.Sound lay) (inside : k < lay.cpus)
    (poses : (v.desk k).Poses d sent) : (v.work k d sent).Sound lay :=
  ⟨sound.lawful.work inside poses.proper, sound.conserved.work poses.bare,
    sound.accounted.poses poses, sound.answerable.poses poses, sound.own⟩

structure Blank (lay : Layout) (v : Traffic) : Prop where
  desk : ∀ k, v.desk k = .empty
  queue : ∀ k, v.queue k = []
  coming : ∀ k, v.coming k = []
  txns : v.txns = []
  deferred : v.deferred = []
  counts : v.probesSent = v.repliesTaken
  own : v.own = lay.cpus

theorem Blank.waits (blank : v.Blank lay) (k : Nat) (i : Slot) : (v.desk k).waits i = false := by
  rw [blank.desk]
  simp [Desk.waits, Desk.empty, MissFile.empty, MissFile.get?]

theorem Blank.sound (blank : v.Blank lay) : v.Sound lay := by
  have items (k : Nat) : v.items k = [] := by simp [Traffic.items, blank.coming, blank.queue]
  refine ⟨⟨?_, ?_, ?_, ?_, ?_, ?_, ?_, ?_⟩, ⟨⟨?_, ?_, ?_, ?_⟩, ?_⟩, ?_, ?_, blank.own⟩
  · simp [blank.txns]
  · simp [blank.txns]
  · simp [blank.txns]
  · simp [blank.txns]
  · simp [blank.txns]
  · simp [blank.deferred]
  · simp [blank.queue]
  · simp [blank.queue]
  · simp [items]
  · simp [items]
  · simp [blank.txns]
  · simp [blank.txns, blank.counts]
  · simp [blank.txns]
  · intro k x
    rw [blank.queue, blank.desk, Desk.due_empty]
    rfl
  · intro k i
    rw [blank.waits]
    exact Nat.zero_le _

end Traffic

theorem Request.Proper.marked {q : Request} (proper : q.Proper) : q.Marked := by
  intro id a data mask written same
  rw [same] at proper
  exact proper

namespace Pass

variable {lay : Layout} {s t : Pass} {k : Nat} {α : Type}

structure Sound (lay : Layout) (s : Pass) : Prop where
  steady : Steady lay s
  traffic : s.traffic.Sound lay

theorem Sound.machine (sound : Sound lay s) (step : s.Step .machine t) : Sound lay t := by
  have flows := sound.steady.flows sound.traffic.lawful step
  exact ⟨flows.steady, sound.traffic.path flows.path⟩

theorem Sound.works (sound : Sound lay s) (works : s.Works t) : Sound lay t := by
  induction works with
  | refl => exact sound
  | tail _ step ih => exact ih.machine step

structure Posing (c d : Controller) (sent : List Request) : Prop where
  good : d.Good
  outbound : d.outbound = c.outbound ++ sent
  poses : c.desk.Poses d.desk sent

theorem posing_perform {c : Controller} (good : c.Good) (op : Operation) :
    ∃ sent, Posing c (c.perform op) sent := by
  obtain ⟨sent, outbound, poses, _⟩ := good.poses op
  exact ⟨sent, good.of_perform op, outbound, poses⟩

theorem posing_allocateVictim {c : Controller} (good : c.Good) (a : Address) (data : Block)
    {d : Destination} (outward : d ≠ .probe) :
    ∃ sent, Posing c (c.allocateVictim a data d).2 sent := by
  obtain ⟨sent, outbound, poses⟩ := Controller.poses_allocateVictim c a data d
  refine ⟨sent, ?_, outbound, poses⟩
  rcases good.allocateVictim a data outward with ⟨_, _, quiet⟩ | ⟨_, _, _, kept, _⟩
  · exact quiet.good
  · exact kept

theorem Steady.withController (steady : Steady lay s) (k : Nat)
    (change : Controller → α × Controller)
    (posing : ∀ c, c.Good → ∃ sent, Posing c (change c).2 sent) :
    let t : Pass := { s with fabric := ((s.fabric.withController k change).map (·.2)).getD s.fabric }
    Steady lay t ∧ (t.traffic = s.traffic ∨
      ∃ d sent, k < lay.cpus ∧ (s.traffic.desk k).Poses d sent ∧
        t.traffic = s.traffic.work k d sent) := by
  cases present : s.fabric.nodes[k]? with
  | none =>
    simp only [Fabric.withController, present, Option.map_none, Option.getD_none]
    exact ⟨steady, .inl trivial⟩
  | some n =>
    obtain ⟨sent, posing⟩ := posing n.controller (steady.good k _ (controller?_eq present))
    let m : Node := { n with controller := (change n.controller).2 }
    have outbound : m.controller.outbound = n.controller.outbound ++ sent := posing.outbound
    have kept : Steady lay (s.seat k m) :=
      steady.seat present outbound posing.good (steady.rings k n present)
        fun q member => (posing.poses.proper q member).marked
    have moved : (s.seat k m).traffic = s.traffic.work k m.controller.desk sent :=
      traffic_seat present outbound rfl
    have poses : (s.traffic.desk k).Poses m.controller.desk sent := by
      rw [desk_traffic present]
      exact posing.poses
    simp only [Fabric.withController, present, Option.map_some, Option.getD_some]
    split
    · exact ⟨kept.rung, .inr ⟨_, sent, steady.inside present, poses, moved⟩⟩
    · exact ⟨kept, .inr ⟨_, sent, steady.inside present, poses, moved⟩⟩

theorem Sound.withController (sound : Sound lay s) (k : Nat) (change : Controller → α × Controller)
    (posing : ∀ c, c.Good → ∃ sent, Posing c (change c).2 sent) :
    Sound lay
      { s with fabric := ((s.fabric.withController k change).map (·.2)).getD s.fabric } := by
  obtain ⟨steady, same | ⟨d, sent, inside, poses, moved⟩⟩ :=
    sound.steady.withController k change posing
  · refine ⟨steady, ?_⟩
    rw [same]
    exact sound.traffic
  · refine ⟨steady, ?_⟩
    rw [moved]
    exact sound.traffic.poses inside poses

theorem Sound.command {f : Fabric} (sound : Sound lay { fabric := f }) (c : Command) :
    Sound lay { fabric := f.command c } := by
  cases c with
  | call c =>
    cases c with
    | operate cpu op =>
      exact sound.withController cpu (fun c => ((), c.perform op)) fun c good => posing_perform good op
    | service cpu => exact sound.works (f.works_service cpu)
    | poll => exact sound.works f.works_poll
  | evict cpu a data d outward =>
    exact sound.withController cpu (·.allocateVictim a data d) fun c good =>
      posing_allocateVictim good a data outward

theorem Sound.obey {f : Fabric} (sound : Sound lay { fabric := f }) (commands : List Command) :
    Sound lay { fabric := f.obey commands } := by
  induction commands generalizing f with
  | nil => exact sound
  | cons c rest ih => exact ih (sound.command c)

end Pass

namespace Machine

theorem count_of_populate {make : Nat → Except (Option Fault) Node} (numbers : List Nat) {f g : Fabric}
    {made : Nat} (populated : populate make numbers f = (made, .ok g)) :
    g.own = f.own ∧ g.nodes.length = f.nodes.length + numbers.length := by
  induction numbers generalizing f made with
  | nil =>
    cases populated
    exact ⟨rfl, rfl⟩
  | cons i rest ih =>
    simp only [populate] at populated
    split at populated
    · cases populated
    rename_i n of_make
    split at populated
    · cases populated
    rename_i h registered
    have plugged : h.own = f.own ∧ h.nodes.length = f.nodes.length + 1 := by
      unfold Fabric.register at registered
      simp only at registered
      split at registered
      · cases registered
      split at registered
      · cases registered
      cases registered
      exact ⟨rfl, List.length_append⟩
    cases later : populate make rest h with
    | mk count result =>
      rw [later] at populated
      cases populated
      obtain ⟨own, count⟩ := ih later
      rw [own, count, plugged.1, plugged.2, List.length_cons]
      exact ⟨rfl, by omega⟩

variable {σ : Type}

theorem own_of_build {a : Allocator σ} {st : σ} {settings : Settings} {m : Machine}
    (built : (build a st settings).1.outcome = .ok m) : m.fabric.own = m.fabric.nodes.length := by
  unfold build construct at built
  split at built
  · cases built
  split at built
  · cases built
  split at built
  · cases built
  · cases built
  simp only [plug] at built
  split at built
  · cases built
  · cases built
  rename_i fabric populated
  cases built
  obtain ⟨own, count⟩ := count_of_populate _ populated
  rw [own, count, List.length_range]
  exact (Nat.zero_add _).symm

theorem blank_of_build {a : Allocator σ} {st : σ} {settings : Settings} {m : Machine}
    (built : (build a st settings).1.outcome = .ok m) :
    ∃ lay, Pass.Steady lay { fabric := m.fabric } ∧
      (Pass.traffic { fabric := m.fabric }).Blank lay := by
  obtain ⟨memory, growing, named, moves⟩ := growing_of_build built
  have started := growing.started named moves
  have initial := started.initial m.fabric.stored
  refine ⟨_, started.steady, ?_, ?_, initial.probes, initial.txns, initial.deferred, ?_,
    own_of_build built⟩
  · intro k
    simp only [Pass.traffic, Fabric.controller?]
    cases present : m.fabric.nodes[k]? with
    | none => rfl
    | some n =>
      have blank := growing.blank_node present
      simp [Controller.desk, blank.misses, blank.victims, blank.writes, Desk.empty]
  · exact growing.queue_nil
  · simp [Pass.traffic, growing.hub, Hub.create]

theorem sound_of_obey {a : Allocator σ} {st : σ} {settings : Settings} {m : Machine}
    (built : (build a st settings).1.outcome = .ok m) (commands : List Command) :
    ∃ lay, Pass.Sound lay { fabric := m.fabric.obey commands } := by
  obtain ⟨lay, steady, blank⟩ := blank_of_build built
  exact ⟨lay, Pass.Sound.obey ⟨steady, blank.sound⟩ commands⟩

end Machine
end CacheCoherence
