import CacheCoherence.Proofs.Moves

namespace CacheCoherence

structure Node.Blank (n : Node) : Prop where
  misses : n.controller.misses = .empty
  victims : n.controller.victims = .empty
  writes : n.controller.writes = .empty
  tags : n.controller.tags = .empty
  cache : ∃ size, n.controller.cache = .empty size
  outbound : n.controller.outbound = []
  probes : ∃ depth, 0 < depth ∧ n.probes = .empty depth
  interrupt : n.interrupt = false

theorem Settings.of_validate {settings : Settings} (valid : settings.validate = .ok ()) :
    0 < settings.probeDepth ∧ settings.readNext.isReserved = false ∧
      settings.readNext ≠ .unchanged := by
  unfold Settings.validate at valid
  split at valid
  · cases valid
  split at valid
  · cases valid
  split at valid
  · cases valid
  split at valid
  · cases valid
  rename_i deep
  split at valid
  · cases valid
  rename_i named
  split at valid
  · cases valid
  rename_i moves
  exact ⟨Nat.pos_of_ne_zero deep, by simpa using named, moves⟩

namespace Machine

theorem blank_of_makeNode {settings : Settings} (deep : 0 < settings.probeDepth) {i : Nat} {n : Node}
    (made : makeNode settings i = .ok n) : n.Blank := by
  unfold makeNode at made
  split at made
  · cases made
  split at made
  · cases made
  rename_i c of_size
  simp only at made
  split at made
  case isFalse => cases made
  cases made
  unfold Controller.ofSize Controller.ofRegisters at of_size
  split at of_size
  · cases of_size
  rename_i size _
  cases of_size
  exact ⟨rfl, rfl, rfl, rfl, ⟨size, rfl⟩, rfl, ⟨settings.probeDepth, deep, rfl⟩, rfl⟩

structure Growing (hub : Hub) (f : Fabric) : Prop where
  hub : f.hub = { hub with sockets := List.range f.nodes.length }
  nodes : ∀ n ∈ f.nodes, n.Blank

theorem Growing.register {hub : Hub} {f : Fabric} (growing : Growing hub f) {n : Node}
    (blank : n.Blank) {g : Fabric} (registered : f.register n = (.ok (), g)) : Growing hub g := by
  unfold Fabric.register at registered
  simp only at registered
  split at registered
  · cases registered
  split at registered
  · cases registered
  rename_i bound same
  cases registered
  unfold Node.bind at same
  split at same
  · split at same
    · cases same
    · cases same
      constructor
      · simp only [growing.hub, List.length_append, List.length_singleton, List.range_succ]
      · intro p member
        rcases List.mem_append.mp member with old | new
        · exact growing.nodes p old
        · rw [List.mem_singleton.mp new]
          exact ⟨blank.misses, blank.victims, blank.writes, blank.tags, blank.cache, blank.outbound,
            blank.probes, blank.interrupt⟩
  · cases same

theorem Growing.populate {hub : Hub} {make : Nat → Except (Option Fault) Node}
    (blank : ∀ i n, make i = .ok n → n.Blank) (numbers : List Nat) {f : Fabric}
    (growing : Growing hub f) {made : Nat} {g : Fabric}
    (populated : populate make numbers f = (made, .ok g)) : Growing hub g := by
  induction numbers generalizing f made with
  | nil =>
    cases populated
    exact growing
  | cons i rest ih =>
    simp only [Machine.populate] at populated
    split at populated
    · cases populated
    rename_i n of_make
    split at populated
    · cases populated
    rename_i h registered
    cases later : Machine.populate make rest h with
    | mk count result =>
      rw [later] at populated
      cases populated
      exact ih (growing.register (blank i n of_make) registered) later

variable {σ : Type}

theorem growing_of_build {a : Allocator σ} {st : σ} {settings : Settings} {m : Machine}
    (built : (build a st settings).1.outcome = .ok m) :
    ∃ memory, Growing (.create memory settings.readNext) m.fabric ∧
      settings.readNext.isReserved = false ∧ settings.readNext ≠ .unchanged := by
  unfold build construct at built
  split at built
  · cases built
  rename_i valid
  obtain ⟨deep, named, moves⟩ := Settings.of_validate valid
  split at built
  · cases built
  split at built
  · cases built
  · cases built
  rename_i regions _ _
  simp only [plug] at built
  split at built
  · cases built
  · cases built
  rename_i fabric populated
  cases built
  have fresh : Growing (.create (.contiguous (regions.drop settings.cpuCount)) settings.readNext)
      { hub := .create (.contiguous (regions.drop settings.cpuCount)) settings.readNext, nodes := []
        own := settings.cpuCount } := ⟨rfl, by simp⟩
  exact ⟨_, fresh.populate (fun _ _ => blank_of_makeNode deep) _ populated, named, moves⟩

end Machine

/-- Two CPUs on one small array. -/
def Settings.pair : Settings where
  cpuCount := 2
  arrayBytes := 65536
  readNext := .cleanShared

namespace Machine

theorem pair_builds : ((build Heap.allocator {} .pair).1.outcome.toOption).isSome := by
  decide +kernel

def pair : Machine := ((build Heap.allocator {} .pair).1.outcome.toOption).get pair_builds

theorem pair_built : (build Heap.allocator {} .pair).1.outcome = .ok pair := by
  have found := Option.some_get pair_builds
  change some pair = _ at found
  generalize (build Heap.allocator {} .pair).1.outcome = outcome at found
  cases outcome with
  | ok m => exact congrArg Except.ok (Option.some.inj found).symm
  | error fault => cases found

end Machine

def Reference.to (access : Access) (raw : UInt64) : Reference where
  access := access
  addr := ⟨raw⟩
  mask := 0
  waiters := []

namespace View

structure Initial (v : View) : Prop where
  line : ∀ k a, v.line k a = .absent
  wants : ∀ k slot, v.wants k slot = none
  queue : ∀ k, v.queue k = []
  probes : ∀ k, v.probes k = []
  txns : v.txns = []
  deferred : v.deferred = []

theorem Initial.orderly {v : View} (initial : Initial v) (lay : Layout) : Orderly lay v := by
  obtain ⟨line, wants, queue, probes, txns, deferred⟩ := initial
  refine ⟨⟨?_, ?_, ?_, ?_, ?_, ?_⟩, ⟨?_, ?_, ?_, ?_, ?_, ?_⟩, ?_⟩
  · simp [txns]
  · simp [txns]
  · simp [txns]
  · simp [txns]
  · simp [txns]
  · simp [txns]
  · simp [probes]
  · simp [queue]
  · simp [line, Holding.absent]
  · intro k a b _
    rw [line, line]
  · intro k _
    exact ⟨line k, wants k⟩
  · simp [deferred]
  · intro k
    have owed : v.duties k = [] := by
      simp only [View.duties, queue, txns, deferred]
      rfl
    rw [owed]
    exact ⟨by simp [wants], by simp⟩

end View

namespace Node.Blank

variable {n : Node}

theorem stateOf (blank : n.Blank) (a : Address) : n.controller.tags.stateOf a = .invalid := by
  rw [blank.tags]
  apply DuplicateTags.stateOf_eq_invalid DuplicateTags.wellPlaced_empty
  simp [LineState.invalid]

theorem find? (blank : n.Blank) (a : Address) : n.controller.cache.find? a = none := by
  obtain ⟨size, cache⟩ := blank.cache
  rw [cache]
  simp [BackupCache.find?, BackupCache.empty, BackupCache.occupant]

theorem good (blank : n.Blank) : n.controller.Good := by
  refine ⟨⟨?_, ?_, ?_⟩, ?_⟩
  · rw [blank.tags]
    exact DuplicateTags.wellPlaced_empty
  · obtain ⟨size, cache⟩ := blank.cache
    rw [cache]
    exact BackupCache.wellPlaced_empty size
  · intro a valid
    rw [blank.stateOf] at valid
    cases valid
  · rw [blank.victims]
    exact VictimBuffer.settled_empty

theorem line (blank : n.Blank) (a : Address) : n.controller.line a = .absent := by
  rw [Controller.line_eq, blank.stateOf, blank.find?]
  rfl

theorem wanted (blank : n.Blank) (slot : Slot) : n.controller.wanted slot = none := by
  apply Controller.wanted_of_free
  rw [blank.misses]
  simp [MissFile.empty, MissFile.get?]

end Node.Blank

def Machine.Growing.layout {hub : Hub} {f : Fabric} (_ : Growing hub f)
    (named : hub.readNext.isReserved = false) (moves : hub.readNext ≠ .unchanged) : Layout where
  cpus := f.nodes.length
  backed := hub.memory.contains
  readNext := hub.readNext
  even _ _ same := Memory.contains_congr hub.memory same
  cacheable _ backed := Memory.isIo_of_contains backed
  named := named
  moves := moves

def Fabric.stored (f : Fabric) : Ledger := fun b => (f.hub.memory.readBlock b).getD .zero

structure Started (lay : Layout) (f : Fabric) : Prop where
  steady : Pass.Steady lay { fabric := f }
  linked : Pass.Linked { fabric := f }
  initial : ∀ now, (Pass.view { fabric := f } now).Initial
  stored : ∀ now, (Pass.view { fabric := f } now).memory = f.stored

namespace Machine.Growing

variable {memory : Memory} {readNext : NextState} {f : Fabric} {k : Nat}

theorem blank_node {hub : Hub} (growing : Growing hub f) {n : Node} (present : f.nodes[k]? = some n) :
    n.Blank :=
  growing.nodes n (List.mem_of_getElem? present)

theorem blank_controller {hub : Hub} (growing : Growing hub f) {c : Controller}
    (present : f.controller? k = some c) : ∃ n : Node, n.Blank ∧ n.controller = c := by
  rw [Fabric.controller?, Option.map_eq_some_iff] at present
  obtain ⟨n, at_k, same⟩ := present
  exact ⟨n, growing.blank_node at_k, same⟩

theorem queue_nil {hub : Hub} (growing : Growing hub f) (k : Nat) :
    Pass.queue { fabric := f } k = [] := by
  simp only [Pass.queue, List.filter_nil, List.map_nil, List.nil_append]
  cases present : f.controller? k with
  | none => rfl
  | some c =>
    obtain ⟨n, blank, rfl⟩ := growing.blank_controller present
    exact blank.outbound

theorem steady (growing : Growing (.create memory readNext) f) (named : readNext.isReserved = false)
    (moves : readNext ≠ .unchanged) : Pass.Steady (growing.layout named moves) { fabric := f } := by
  refine ⟨rfl, ?_, ?_, ?_, ?_, ?_, ?_, ?_, ?_, by simp⟩
  · rw [growing.hub]
    rfl
  · intro a
    rw [growing.hub]
    rfl
  · rw [growing.hub]
    rfl
  · intro k c present
    obtain ⟨n, blank, rfl⟩ := growing.blank_controller present
    exact blank.good
  · intro k n present
    obtain ⟨depth, deep, probes⟩ := (growing.blank_node present).probes
    rw [probes]
    exact ProbeRing.wellFormed_empty deep
  · rw [growing.hub]
    simp [Hub.create]
  · intro a
    rw [growing.hub]
    simp [Hub.create, Hub.isBusy]
  · intro k q member
    rw [growing.queue_nil] at member
    cases member

theorem initial (growing : Growing (.create memory readNext) f) (now : Ledger) :
    (Pass.view { fabric := f } now).Initial := by
  constructor
  · intro k a
    simp only [Pass.view]
    cases present : f.controller? k with
    | none => rfl
    | some c =>
      obtain ⟨n, blank, rfl⟩ := growing.blank_controller present
      exact blank.line a
  · intro k slot
    simp only [Pass.view]
    cases present : f.controller? k with
    | none => rfl
    | some c =>
      obtain ⟨n, blank, rfl⟩ := growing.blank_controller present
      exact blank.wanted slot
  · intro k
    simp only [Pass.view, growing.queue_nil, List.filter_nil]
  · intro k
    have parked : f.hub.signal.parked = [] := by
      rw [growing.hub]
      rfl
    simp only [Pass.view, Pass.coming, Pass.parkedFor, parked, List.filter_nil, List.map_nil,
      List.append_nil]
    cases present : f.nodes[k]? with
    | none => rfl
    | some n =>
      obtain ⟨depth, _, probes⟩ := (growing.blank_node present).probes
      simp [probes]
  · change f.hub.transactions = []
    rw [growing.hub]
    rfl
  · change f.hub.deferred = []
    rw [growing.hub]
    rfl

theorem started (growing : Growing (.create memory readNext) f) (named : readNext.isReserved = false)
    (moves : readNext ≠ .unchanged) : Started (growing.layout named moves) f := by
  refine ⟨growing.steady named moves, ?_, growing.initial, fun _ => rfl⟩
  intro k c present i v found _ _
  obtain ⟨n, blank, rfl⟩ := growing.blank_controller present
  rw [blank.victims] at found
  simp [VictimBuffer.empty, VictimBuffer.get?] at found

end Machine.Growing

theorem Machine.started_of_build {σ : Type} {a : Allocator σ} {st : σ} {settings : Settings}
    {m : Machine} (built : (Machine.build a st settings).1.outcome = .ok m) :
    ∃ lay, Started lay m.fabric := by
  obtain ⟨memory, growing, named, moves⟩ := growing_of_build built
  exact ⟨_, growing.started named moves⟩

/-- The reference that waits in a slot of a CPU. -/
def Fabric.waiting (f : Fabric) (cpu : Nat) (slot : Slot) : Option Reference :=
  (f.controller? cpu).bind (·.wanted slot)

section run

variable {d : Discipline} {lay : Layout} {start : Fabric} {values now : Ledger} {s t : Pass}

structure Holds (lay : Layout) (P : View → Prop) (s : Pass) (now : Ledger) : Prop where
  steady : Pass.Steady lay s
  linked : Pass.Linked s
  orderly : Orderly lay (s.view now)
  holds : P (s.view now)

theorem Pass.line_controller {k : Nat} {c : Controller} (present : s.fabric.controller? k = some c)
    (b : Address) : (s.view now).line k b.block = c.line b := by
  simp only [Pass.view, present, Option.map_some, Option.getD_some]
  exact c.line_congr (Address.block_block b)

theorem Holds.backed {P : View → Prop} (held : Holds lay P s now) {k : Nat} {c : Controller}
    (present : s.fabric.controller? k = some c) {b : Address} {data : Block}
    (copy : (c.line b).copy = some data) : lay.backed b.block := by
  refine held.orderly.lines k b.block ?_
  rw [Pass.line_controller present, copy]
  rfl

theorem View.Step.path {P : View → Prop}
    (kept : ∀ v w, Orderly lay v → P v → View.Step lay v w → P w) {v w : View}
    (orderly : Orderly lay v) (holds : P v) (path : Relation.ReflTransGen (View.Step lay) v w) :
    Orderly lay w ∧ P w := by
  induction path with
  | refl => exact ⟨orderly, holds⟩
  | tail _ step ih => exact ⟨ih.1.step step, kept _ _ ih.1 ih.2 step⟩

theorem Pass.Ending.path {v : View} (ending : Pass.Ending lay now s v t) :
    Relation.ReflTransGen (View.Step lay) v (t.view (now.after s .machine t)) := by
  cases ending with
  | still same _ => rw [same]
  | aside step _ => exact .single step
  | finish _ _ _ step _ => exact .single step

theorem Holds.machine {P : View → Prop} (held : Holds lay P s now)
    (kept : ∀ v w, Orderly lay v → P v → View.Step lay v w → P w) (step : s.Step .machine t) :
    Holds lay P t (now.after s .machine t) := by
  obtain ⟨steady, linked, v, path, _, _, ending⟩ :=
    held.steady.machine now held.linked held.orderly step
  obtain ⟨orderly, holds⟩ := View.Step.path kept held.orderly held.holds (path.trans ending.path)
  exact ⟨steady, linked, orderly, holds⟩

theorem Reaches.holds (started : Started lay start) {P : View → Prop}
    (initial : P (Pass.view { fabric := start } values))
    (punctual : ∀ s now, Holds lay P s now → ∀ k op, d s.fabric k op →
      s.fabric.joinsLate k op = false)
    (called : ∀ s now, Holds lay P s now → ∀ k op w, d s.fabric k op → k < lay.cpus →
      View.Called (s.view now) k op w →
      (∀ j slot, w.wants j slot = (s.fabric.operate k op).waiting j slot) → P w)
    (kept : ∀ v w, Orderly lay v → P v → View.Step lay v w → P w)
    (reached : Reaches d start values s now) : Holds lay P s now := by
  -- a pipeline call is either one that `called` covers or leaves the view alone
  induction reached with
  | start =>
    exact ⟨started.steady, started.linked, (started.initial values).orderly lay, initial⟩
  | @step s t mover now before allowed moves ih =>
    cases mover with
    | machine => exact ih.machine kept moves
    | pipeline cpu op =>
      cases moves with
      | operate =>
        obtain ⟨steady, linked, view⟩ := ih.steady.operate ih.linked cpu op
        rcases view (punctual s now ih cpu op allowed) now { s with fabric := s.fabric.operate cpu op } with
          same | ⟨inside, moved⟩
        · refine ⟨steady, linked, ?_, ?_⟩
          · rw [same]
            exact ih.orderly
          · rw [same]
            exact ih.holds
        · exact ⟨steady, linked, ih.orderly.called inside moved,
            called s now ih cpu op _ allowed inside moved fun _ _ => rfl⟩

end run

end CacheCoherence
