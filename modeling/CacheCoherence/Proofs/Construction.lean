import CacheCoherence.Proofs.Frames

/-! Building a machine is all or nothing, as long as there can be storage of the sizes that the settings
ask for: the first refusal, or the first node that cannot be had or registered, gives every granted region
back. No check of the settings bounds these sizes, and where one is too large the building breaks off with
all that was granted. What a machine holds is fixed from then on, so that taking it apart gives back what
was granted. -/

namespace CacheCoherence

variable {σ : Type}

namespace RegionEvent

def grants (uses : List RegionUse) (regions : List Region) : List RegionEvent :=
  List.zipWith (fun use r => .allocated use (some r.id)) uses regions

def returns (regions : List Region) : List RegionEvent :=
  regions.map fun r => .released r.use r.id

end RegionEvent

open RegionEvent

namespace Allocator

/-- Between `s` and `t` the allocator grants a region for each use, in turn. -/
inductive Grants (a : Allocator σ) : σ → List RegionUse → List Region → σ → Prop
  | nil (s : σ) : Grants a s [] [] s
  | cons {s t u : σ} {use : RegionUse} {region : Region} {uses : List RegionUse}
      {regions : List Region} (first : a.allocate s use = (some region, t))
      (later : Grants a t uses regions u) : Grants a s (use :: uses) (region :: regions) u

/-- From `s` on, whatever is asked for is granted. -/
def Generous (a : Allocator σ) (s : σ) : Prop := ∀ uses, ∃ regions t, a.Grants s uses regions t

variable {a : Allocator σ} {s t u : σ} {uses : List RegionUse} {regions : List Region}

theorem Grants.length (grants : a.Grants s uses regions t) : regions.length = uses.length := by
  induction grants with
  | nil => rfl
  | cons _ _ ih => rw [List.length_cons, List.length_cons, ih]

/-- What is granted to a list of uses is granted to a part of it first. -/
theorem Grants.next (grants : a.Grants s uses regions t) {rest : List RegionUse} {use : RegionUse}
    {more : List Region} {last : σ} (all : a.Grants s (uses ++ use :: rest) more last) :
    ∃ region u, a.allocate t use = (some region, u) ∧ region ∈ more := by
  induction grants generalizing more with
  | nil =>
    cases all with
    | cons first _ => exact ⟨_, _, first, List.mem_cons_self⟩
  | cons first _ ih =>
    cases all with
    | cons again later =>
      rw [first] at again
      cases again
      obtain ⟨region, u, asked, member⟩ := ih later
      exact ⟨region, u, asked, List.mem_cons_of_mem _ member⟩

theorem Grants.unique (grants : a.Grants s uses regions t) {more : List Region} {last : σ}
    (again : a.Grants s uses more last) : more = regions := by
  induction grants generalizing more with
  | nil =>
    cases again
    rfl
  | cons first _ ih =>
    cases again with
    | cons same later =>
      rw [first] at same
      cases same
      rw [ih later]

theorem Grants.of_logged {x y : σ × List RegionEvent} (granted : a.logged.Grants x uses regions y) :
    a.Grants x.1 uses regions y.1 ∧ y.2 = x.2 ++ grants uses regions := by
  induction granted with
  | nil x => exact ⟨.nil _, (List.append_nil _).symm⟩
  | @cons x y z use region uses regions first later ih =>
    simp only [logged, Prod.mk.injEq] at first
    obtain ⟨granted, rfl⟩ := first
    obtain ⟨later, log⟩ := ih
    refine ⟨.cons (Prod.ext granted rfl) later, ?_⟩
    rw [log, granted, List.append_assoc]
    rfl

theorem ask_cases (a : Allocator σ) (s : σ) (use : RegionUse) :
    (∃ region t, a.allocate s use = (some region, t) ∧ region.size ≤ maxStorage ∧
        a.ask s use = (.ok region, t)) ∨
      (∃ t, a.allocate s use = (none, t) ∧ a.ask s use = (.error (some use), t)) ∨
      ∃ region t, a.allocate s use = (some region, t) ∧ maxStorage < region.size ∧
        a.ask s use = (.error none, t) := by
  simp only [ask]
  rcases asked : a.allocate s use with ⟨_ | region, t⟩
  · exact .inr (.inl ⟨t, rfl, rfl⟩)
  · by_cases fits : region.size ≤ maxStorage
    · exact .inl ⟨region, t, rfl, fits, by simp only [if_pos fits]⟩
    · exact .inr (.inr ⟨region, t, rfl, Nat.lt_of_not_le fits, by simp only [if_neg fits]⟩)

theorem releaseAll_logged (a : Allocator σ) (x : σ × List RegionEvent) (regions : List Region) :
    a.logged.releaseAll x regions = (a.releaseAll x.1 regions, x.2 ++ returns regions) := by
  induction regions generalizing x with
  | nil => exact Prod.ext rfl (List.append_nil _).symm
  | cons region rest ih =>
    refine (ih _).trans (Prod.ext rfl ?_)
    exact List.append_assoc ..

end Allocator

namespace Heap

theorem generous {h : Heap} (unlimited : h.limit = none) : allocator.Generous h := by
  intro uses
  induction uses generalizing h with
  | nil => exact ⟨[], h, .nil h⟩
  | cons use rest ih =>
    have granted : h.allocate use =
        (some (.zeroed h.next use), { h with next := h.next + 1, live := h.next :: h.live }) := by
      simp [allocate, unlimited]
    obtain ⟨regions, t, later⟩ := ih (h := { h with next := h.next + 1, live := h.next :: h.live })
      unlimited
    exact ⟨_, t, .cons granted later⟩

end Heap

/-! ## Building -/

theorem Memory.takeRegions_contiguous (regions : List Region) :
    (contiguous regions).takeRegions.1 = regions := by
  have laid (base : Nat) : (arraysFrom base regions).map (·.region) = regions := by
    induction regions generalizing base with
    | nil => rfl
    | cons region rest ih => exact congrArg (region :: ·) (ih _)
  exact laid 0

theorem Settings.bounded_of_validate {settings : Settings} (valid : settings.validate = .ok ()) :
    0 < settings.cpuCount ∧ settings.cpuCount ≤ Hub.maxCpus ∧
      ∃ size, settings.cacheSize = .ok size := by
  unfold Settings.validate at valid
  split at valid
  · cases valid
  rename_i counted
  iterate 5
    split at valid
    · cases valid
  split at valid
  · cases valid
  rename_i size sized
  exact ⟨by omega, by omega, size, sized⟩

namespace Machine

def needs (settings : Settings) : List RegionUse := .system :: uses settings

/-- The order in which a machine that cannot be built gives its regions back: the system record, which
was granted first, comes last. -/
def giveBack : List Region → List Region
  | [] => []
  | record :: others => others ++ [record]

def unplugged (settings : Settings) (arrays : List Region) : Fabric where
  hub := .create (.contiguous arrays) settings.readNext
  nodes := []
  own := settings.cpuCount

def Plugged (make : Nat → Except (Option Fault) Node) (start : Fabric) (i : Nat) (f : Fabric) : Prop :=
  (populate make (List.range i) start).2 = .ok f

def Fails (make : Nat → Except (Option Fault) Node) (f : Fabric) (i : Nat) (fault : Fault) : Prop :=
  make i = .error (some fault) ∨ ∃ n, make i = .ok n ∧ (f.register n).1 = .error fault

/-- How building ends, and what an allocator that starts in state `s` has been asked by then. -/
inductive Ends (a : Allocator σ) (s : σ) (settings : Settings)
    (make : Nat → Except (Option Fault) Node) :
    Except (Option Fault) Machine → σ × List RegionEvent → Prop
  | invalid {fault : Fault} (rejected : settings.validate = .error fault) :
      Ends a s settings make (.error (some fault)) (s, [])
  | refused {first rest : List RegionUse} {use : RegionUse} {regions : List Region} {t u : σ}
      (valid : settings.validate = .ok ()) (needed : needs settings = first ++ use :: rest)
      (granted : a.Grants s first regions t) (refused : a.allocate t use = (none, u)) :
      Ends a s settings make (.error (some (.startup (refusal use))))
        (a.releaseAll u (giveBack regions),
          grants first regions ++ [.allocated use none] ++ returns (giveBack regions))
  | unregistered {record : Region} {cpus arrays : List Region} {t : σ} {i : Nat} {fault : Fault}
      {f : Fabric} (valid : settings.validate = .ok ())
      (granted : a.Grants s (needs settings) (record :: (cpus ++ arrays)) t)
      (perCpu : cpus.length = settings.cpuCount) (inside : i < settings.cpuCount)
      (plugged : Plugged make (unplugged settings arrays) i f) (fails : Fails make f i fault) :
      Ends a s settings make (.error (some (.startup (.registration i fault.message))))
        (a.releaseAll t (cpus ++ arrays ++ [record]),
          grants (needs settings) (record :: (cpus ++ arrays)) ++
            returns (cpus ++ arrays ++ [record]))
  | built {record : Region} {cpus arrays : List Region} {t : σ} {f : Fabric}
      (valid : settings.validate = .ok ())
      (granted : a.Grants s (needs settings) (record :: (cpus ++ arrays)) t)
      (perCpu : cpus.length = settings.cpuCount)
      (plugged : Plugged make (unplugged settings arrays) settings.cpuCount f)
      (dropped : ∀ (commands : List Command) (later : σ × List RegionEvent),
        (release ⟨f.obey commands, record, cpus⟩ a.logged later).2 =
          later.2 ++ returns (arrays ++ cpus ++ [record])) :
      Ends a s settings make (.ok ⟨f, record, cpus⟩)
        (t, grants (needs settings) (record :: (cpus ++ arrays)))
  -- in the last two cases the building breaks off, and nothing goes back
  | oversized {first rest : List RegionUse} {use : RegionUse} {regions : List Region}
      {region : Region} {t u : σ} (valid : settings.validate = .ok ())
      (needed : needs settings = first ++ use :: rest) (granted : a.Grants s first regions t)
      (asked : a.allocate t use = (some region, u)) (large : maxStorage < region.size) :
      Ends a s settings make (.error none)
        (u, grants first regions ++ [.allocated use (some region.id)])
  | unmade {record : Region} {cpus arrays : List Region} {t : σ} {i : Nat} {f : Fabric}
      (valid : settings.validate = .ok ())
      (granted : a.Grants s (needs settings) (record :: (cpus ++ arrays)) t)
      (perCpu : cpus.length = settings.cpuCount) (inside : i < settings.cpuCount)
      (plugged : Plugged make (unplugged settings arrays) i f) (broken : make i = .error none) :
      Ends a s settings make (.error none)
        (t, grants (needs settings) (record :: (cpus ++ arrays)))

theorem acquire_cases (a : Allocator σ) (uses : List RegionUse) (s : σ) :
    (∃ regions t, a.Grants s uses regions t ∧ (∀ r ∈ regions, r.size ≤ maxStorage) ∧
        acquire a uses s = ((regions, .ok ()), t)) ∨
      ∃ first use rest regions t, uses = first ++ use :: rest ∧ a.Grants s first regions t ∧
        ((∃ u, a.allocate t use = (none, u) ∧
            acquire a uses s = ((regions, .error (some use)), u)) ∨
          ∃ region u, a.allocate t use = (some region, u) ∧ maxStorage < region.size ∧
            acquire a uses s = ((regions, .error none), u)) := by
  induction uses generalizing s with
  | nil => exact .inl ⟨[], s, .nil s, by simp, rfl⟩
  | cons use rest ih =>
    simp only [acquire]
    rcases a.ask_cases s use with ⟨region, t, asked, fits, same⟩ | ⟨t, asked, same⟩ |
      ⟨region, t, asked, large, same⟩
    · rw [same]
      rcases ih t with ⟨regions, u, granted, all, more⟩ |
        ⟨first, stopped, later, regions, u, split, granted, ends⟩
      · refine .inl ⟨_, u, .cons asked granted, ?_, by simp only [more]⟩
        exact List.forall_mem_cons.mpr ⟨fits, all⟩
      · refine .inr ⟨use :: first, stopped, later, region :: regions, u, by rw [split]; rfl,
          .cons asked granted, ?_⟩
        rcases ends with ⟨v, refused, more⟩ | ⟨last, v, granted, large, more⟩
        · exact .inl ⟨v, refused, by simp only [more]⟩
        · exact .inr ⟨last, v, granted, large, by simp only [more]⟩
    · exact .inr ⟨[], use, rest, [], s, rfl, .nil s, .inl ⟨t, asked, by rw [same]⟩⟩
    · exact .inr ⟨[], use, rest, [], s, rfl, .nil s, .inr ⟨region, t, asked, large, by rw [same]⟩⟩

theorem memory_register {f g : Fabric} {n : Node} {result : Except Fault Unit}
    (registered : f.register n = (result, g)) : g.hub.memory = f.hub.memory := by
  unfold Fabric.register at registered
  simp only at registered
  split at registered
  · cases registered
    rfl
  split at registered
  · cases registered
    rfl
  cases registered
  rfl

theorem populate_cases (make : Nat → Except (Option Fault) Node) (numbers : List Nat) (f : Fabric) :
    (∃ g, (populate make numbers f).2 = .ok g ∧ g.hub.memory = f.hub.memory) ∨
      ∃ first i rest g, numbers = first ++ i :: rest ∧ (populate make first f).2 = .ok g ∧
        ((∃ fault, (populate make numbers f).2 = .error (some (i, fault)) ∧ Fails make g i fault) ∨
          (populate make numbers f).2 = .error none ∧ make i = .error none) := by
  induction numbers generalizing f with
  | nil => exact .inl ⟨f, rfl, rfl⟩
  | cons i rest ih =>
    simp only [populate]
    rcases of_make : make i with (_ | fault) | n
    · exact .inr ⟨[], i, rest, f, rfl, rfl, .inr ⟨rfl, of_make⟩⟩
    · exact .inr ⟨[], i, rest, f, rfl, rfl, .inl ⟨fault, rfl, .inl of_make⟩⟩
    simp only
    rcases registered : f.register n with ⟨fault | _, g⟩
    · exact .inr ⟨[], i, rest, f, rfl, rfl,
        .inl ⟨fault, rfl, .inr ⟨n, of_make, congrArg Prod.fst registered⟩⟩⟩
    rcases ih g with ⟨last, same, kept⟩ | ⟨first, j, later, last, split, joined, ends⟩
    · exact .inl ⟨last, same, kept.trans (memory_register registered)⟩
    · refine .inr ⟨i :: first, j, later, last, by rw [split]; rfl, ?_, ends⟩
      simp only [populate, of_make, registered]
      exact joined

theorem range_split {count i : Nat} {first rest : List Nat}
    (split : List.range count = first ++ i :: rest) : first = List.range i ∧ i < count := by
  have inside : first.length < count := by
    have lengths := congrArg List.length split
    simp only [List.length_range, List.length_append, List.length_cons] at lengths
    omega
  have number : first.length = i := by
    have here := congrArg (·[first.length]?) split
    simpa [inside] using here
  have before := congrArg (List.take first.length) split
  rw [List.take_range, List.take_left, number] at before
  rw [number] at inside
  exact ⟨by rw [← before, Nat.min_eq_left inside.le], inside⟩

/-- Taking a machine apart gives back what it holds, whatever was commanded before. -/
theorem release_logged {f : Fabric} {arrays : List Region}
    (memory : f.hub.memory = .contiguous arrays) (record : Region) (cpus : List Region)
    (a : Allocator σ) (commands : List Command) (later : σ × List RegionEvent) :
    (release ⟨f.obey commands, record, cpus⟩ a.logged later).2 =
      later.2 ++ returns (arrays ++ cpus ++ [record]) := by
  have kept : returns (f.obey commands).hub.memory.takeRegions.1 = returns arrays := by
    have same : (f.obey commands).hub.memory.holdings = f.hub.memory.holdings :=
      congrArg Prod.fst (f.keeps_obey commands)
    rw [memory, Memory.holdings, Memory.holdings, Memory.takeRegions_contiguous] at same
    simpa [returns, Function.comp_def] using
      congrArg (List.map fun x : RegionUse × Nat => RegionEvent.released x.1 x.2) same
  simp only [release, Allocator.releaseAll_logged]
  rw [kept]
  simp [Allocator.logged, returns]

theorem rollback_logged (a : Allocator σ) (x : σ × List RegionEvent) (record : Region)
    (others : List Region) :
    a.logged.release (a.logged.releaseAll x others) record =
      (a.releaseAll x.1 (others ++ [record]), x.2 ++ returns (others ++ [record])) := by
  have whole : a.logged.release (a.logged.releaseAll x others) record =
      a.logged.releaseAll x (others ++ [record]) := by
    simp [Allocator.releaseAll]
  exact whole.trans (a.releaseAll_logged x _)

section construct

variable {a : Allocator σ} {s t : σ} {settings : Settings} {make : Nat → Except (Option Fault) Node}
  {regions : List Region}

theorem construct_broken (valid : settings.validate = .ok ())
    (same : acquire a (needs settings) s = ((regions, .error none), t)) :
    construct a s settings make = (⟨.error none, 0⟩, t) := by
  simp only [needs, acquire] at same
  simp only [construct, valid]
  rcases asked : a.ask s .system with ⟨stop | record, u⟩
  · simp only [asked] at same
    cases same
    rfl
  · rcases later : acquire a (uses settings) u with ⟨⟨others, result⟩, v⟩
    simp only [asked, later] at same
    cases same
    simp only [later]

theorem construct_refused {use : RegionUse} (valid : settings.validate = .ok ())
    (same : acquire a (needs settings) s = ((regions, .error (some use)), t)) :
    construct a s settings make =
      (⟨.error (some (.startup (refusal use))), 0⟩, a.releaseAll t (giveBack regions)) := by
  simp only [needs, acquire] at same
  simp only [construct, valid]
  rcases asked : a.ask s .system with ⟨stop | record, u⟩
  · simp only [asked] at same
    cases same
    rfl
  · rcases later : acquire a (uses settings) u with ⟨⟨others, result⟩, v⟩
    simp only [asked, later] at same
    cases same
    simp [later, giveBack, Allocator.releaseAll]

theorem construct_granted {record : Region} (valid : settings.validate = .ok ())
    (same : acquire a (needs settings) s = ((record :: regions, .ok ()), t)) :
    construct a s settings make = plug a t settings make record regions := by
  simp only [needs, acquire] at same
  simp only [construct, valid]
  rcases asked : a.ask s .system with ⟨stop | first, u⟩
  · simp only [asked] at same
    cases same
  · rcases later : acquire a (uses settings) u with ⟨⟨others, result⟩, v⟩
    simp only [asked, later] at same
    cases same
    simp only [later]

theorem plug_broken (some_cpu : 0 < settings.cpuCount) (broken : make 0 = .error none)
    (record : Region) : plug a s settings make record regions = (⟨.error none, 0⟩, s) := by
  obtain ⟨count, more⟩ := Nat.exists_eq_succ_of_ne_zero some_cpu.ne'
  simp only [plug, more, Nat.succ_eq_add_one, List.range_succ_eq_map, populate, broken, Option.map_none]

/-- Of the regions that are granted, the CPU records come before the arrays. -/
theorem split_granted (granted : a.Grants s (needs settings) regions t) :
    ∃ record cpus arrays, regions = record :: (cpus ++ arrays) ∧
      cpus.length = settings.cpuCount := by
  cases granted with
  | @cons _ _ _ _ record _ others _ later =>
    refine ⟨record, others.take settings.cpuCount, others.drop settings.cpuCount, ?_, ?_⟩
    · rw [List.take_append_drop]
    · simp [later.length, uses]

end construct

theorem ends_plug {a : Allocator σ} {s t : σ} {settings : Settings}
    (make : Nat → Except (Option Fault) Node) {record : Region} {cpus arrays : List Region}
    (valid : settings.validate = .ok ())
    (granted : a.Grants s (needs settings) (record :: (cpus ++ arrays)) t)
    (perCpu : cpus.length = settings.cpuCount) :
    let log := grants (needs settings) (record :: (cpus ++ arrays))
    Ends a s settings make (plug a.logged (t, log) settings make record (cpus ++ arrays)).1.outcome
      (plug a.logged (t, log) settings make record (cpus ++ arrays)).2 := by
  simp only [plug, List.take_left' perCpu, List.drop_left' perCpu]
  have populated := populate_cases make (List.range settings.cpuCount) (unplugged settings arrays)
  cases whole : populate make (List.range settings.cpuCount) (unplugged settings arrays) with
  | mk made result =>
    rw [whole] at populated
    unfold unplugged at whole
    rw [whole]
    rcases populated with ⟨f, rfl, memory⟩ | ⟨first, i, rest, f, split, plugged, ends⟩
    · have plugged := congrArg Prod.snd whole
      exact .built valid granted perCpu plugged (release_logged memory record cpus a)
    · obtain ⟨rfl, inside⟩ := range_split split
      rcases ends with ⟨fault, rfl, fails⟩ | ⟨rfl, broken⟩
      · simp only
        rw [Memory.takeRegions_contiguous, rollback_logged]
        exact .unregistered valid granted perCpu inside plugged fails
      · exact .unmade valid granted perCpu inside plugged broken

theorem ends_construct (a : Allocator σ) (s : σ) (settings : Settings)
    (make : Nat → Except (Option Fault) Node) :
    Ends a s settings make (construct a.logged (s, []) settings make).1.outcome
      (construct a.logged (s, []) settings make).2 := by
  cases valid : settings.validate with
  | error fault =>
    simp only [construct, valid]
    exact .invalid valid
  | ok =>
    rcases acquire_cases a.logged (needs settings) (s, []) with ⟨regions, ⟨t, events⟩, later, _, same⟩ |
      ⟨first, use, rest, regions, ⟨t, events⟩, needed, later, stops⟩
    · obtain ⟨granted, log⟩ := later.of_logged
      obtain rfl : events = grants (needs settings) regions := log
      obtain ⟨record, cpus, arrays, rfl, perCpu⟩ := split_granted granted
      rw [construct_granted valid same]
      exact ends_plug make valid granted perCpu
    · obtain ⟨granted, log⟩ := later.of_logged
      obtain rfl : events = grants first regions := log
      rcases stops with ⟨u, asked, same⟩ | ⟨region, u, asked, large, same⟩
      · simp only [Allocator.logged, Prod.mk.injEq] at asked
        obtain ⟨nothing, rfl⟩ := asked
        have refused : a.allocate t use = (none, (a.allocate t use).2) := Prod.ext nothing rfl
        rw [construct_refused valid same, Allocator.releaseAll_logged, nothing]
        exact .refused valid needed granted refused
      · simp only [Allocator.logged, Prod.mk.injEq] at asked
        obtain ⟨something, rfl⟩ := asked
        have found : a.allocate t use = (some region, (a.allocate t use).2) :=
          Prod.ext something rfl
        rw [construct_broken valid same, something]
        exact .oversized valid needed granted found large

theorem register_next {f : Fabric} {n : Node} (cpu : n.cpu = f.hub.sockets.length)
    (room : n.cpu < Hub.maxCpus) (unbound : n.bound = false) :
    ∃ g, f.register n = (.ok (), g) ∧ g.hub.sockets.length = f.hub.sockets.length + 1 := by
  have fits : ¬ (n.cpu ≠ f.hub.sockets.length ∨ Hub.maxCpus ≤ n.cpu) := by omega
  unfold Fabric.register
  simp only
  split
  · rename_i misplaced
    exact absurd misplaced fits
  · simp only [Node.bind, Node.cpu, unbound, and_self, if_true, Bool.false_eq_true, if_false]
    exact ⟨_, rfl, List.length_append⟩

theorem storageBytes_create (c : Controller) (socket depth : Nat) :
    (Node.create c socket depth).probes.storageBytes = depth * ProbeRing.slotBytes := by
  simp [Node.create, ProbeRing.empty, ProbeRing.storageBytes, ProbeRing.capacity]

theorem makeNode_eq {settings : Settings} {size : CacheSize} (sized : settings.cacheSize = .ok size)
    (i : Nat) : ∃ n : Node, n.cpu = i ∧ n.bound = false ∧ makeNode settings i =
      if settings.probeDepth * ProbeRing.slotBytes ≤ maxStorage then .ok n else .error none := by
  have encoded : CacheSize.ofEncoding ((Registers.forCache size).get .cacheSize) = .ok size := by
    cases size <;> rfl
  simp only [makeNode, sized, Controller.ofSize, Controller.ofRegisters, encoded, storageBytes_create]
  exact ⟨_, rfl, rfl, rfl⟩

theorem populate_makeNode {settings : Settings} {size : CacheSize}
    (sized : settings.cacheSize = .ok size)
    (ring : settings.probeDepth * ProbeRing.slotBytes ≤ maxStorage) (count : Nat) {f : Fabric}
    (room : f.hub.sockets.length + count ≤ Hub.maxCpus) :
    ∃ g, (populate (makeNode settings) (List.range' f.hub.sockets.length count) f).2 = .ok g := by
  induction count generalizing f with
  | zero => exact ⟨f, rfl⟩
  | succ count ih =>
    obtain ⟨n, cpu, unbound, made⟩ := makeNode_eq sized f.hub.sockets.length
    rw [if_pos ring] at made
    obtain ⟨g, registered, sockets⟩ := register_next cpu (by omega) unbound
    obtain ⟨h, populated⟩ := ih (f := g) (by omega)
    rw [sockets] at populated
    refine ⟨h, ?_⟩
    rw [List.range'_succ]
    simp only [populate, made]
    rw [registered]
    exact populated

/-- There can be storage of the sizes that the settings ask for. -/
structure Storable (a : Allocator σ) (s : σ) (settings : Settings) : Prop where
  regions : ∀ regions t, a.Grants s (needs settings) regions t → ∀ r ∈ regions, r.size ≤ maxStorage
  ring : settings.probeDepth * ProbeRing.slotBytes ≤ maxStorage

section generous

variable {a : Allocator σ} {s : σ} {settings : Settings}

/-- An allocator that refuses nothing ends the acquisition early only with a region that is too large. -/
theorem acquire_generous (generous : a.Generous s) (settings : Settings) :
    (∃ regions t, a.Grants s (needs settings) regions t ∧ (∀ r ∈ regions, r.size ≤ maxStorage) ∧
        acquire a (needs settings) s = ((regions, .ok ()), t)) ∨
      ∃ regions t, (∃ r ∈ regions, maxStorage < r.size) ∧ a.Grants s (needs settings) regions t ∧
        ∃ had u, acquire a (needs settings) s = ((had, .error none), u) := by
  rcases acquire_cases a (needs settings) s with all |
    ⟨first, use, rest, had, t, needed, granted, stops⟩
  · exact .inl all
  · obtain ⟨regions, last, all⟩ := generous (needs settings)
    obtain ⟨region, u, asked, member⟩ := granted.next (needed ▸ all)
    rcases stops with ⟨v, refused, _⟩ | ⟨large_one, v, again, large, same⟩
    · rw [asked] at refused
      cases refused
    · rw [asked] at again
      cases again
      exact .inr ⟨regions, last, ⟨region, member, large⟩, all, had, u, same⟩

theorem build_storable (generous : a.Generous s) (valid : settings.validate = .ok ())
    (storable : Storable a s settings) : ∃ m, (build a s settings).1.outcome = .ok m := by
  obtain ⟨_, few, size, sized⟩ := Settings.bounded_of_validate valid
  rcases acquire_generous generous settings with ⟨regions, t, granted, _, same⟩ |
    ⟨regions, t, ⟨r, member, large⟩, granted, _⟩
  · obtain ⟨record, cpus, arrays, rfl, perCpu⟩ := split_granted granted
    rw [build, construct_granted valid same]
    have empty : (unplugged settings arrays).hub.sockets.length = 0 := rfl
    obtain ⟨f, populated⟩ := populate_makeNode sized storable.ring settings.cpuCount
      (f := unplugged settings arrays) (by omega)
    rw [empty, ← List.range_eq_range'] at populated
    simp only [plug, List.drop_left' perCpu]
    cases whole : populate (makeNode settings) (List.range settings.cpuCount)
        (unplugged settings arrays) with
    | mk made result =>
      rw [whole] at populated
      obtain rfl : result = .ok f := populated
      unfold unplugged at whole
      rw [whole]
      exact ⟨_, rfl⟩
  · exact absurd (storable.regions regions t granted r member) (Nat.not_le_of_lt large)

theorem build_broken (generous : a.Generous s) (valid : settings.validate = .ok ())
    (large : ¬ Storable a s settings) : (build a s settings).1.outcome = .error none := by
  obtain ⟨some_cpu, _, size, sized⟩ := Settings.bounded_of_validate valid
  rcases acquire_generous generous settings with ⟨regions, t, granted, fit, same⟩ |
    ⟨_, _, _, _, had, u, same⟩
  · have ring : ¬ settings.probeDepth * ProbeRing.slotBytes ≤ maxStorage := by
      intro ring
      refine large ⟨fun more last again => ?_, ring⟩
      rwa [granted.unique again]
    obtain ⟨record, cpus, arrays, rfl, _⟩ := split_granted granted
    obtain ⟨n, _, _, made⟩ := makeNode_eq sized 0
    rw [if_neg ring] at made
    rw [build, construct_granted valid same, plug_broken some_cpu made]
  · rw [build, construct_broken valid same]

end generous

/-- However building ends, it ends in one of six ways. If nothing is refused then a machine is built
exactly if the settings are valid and there can be storage of their sizes; with valid settings that ask
for more the building breaks off. -/
theorem all_or_nothing_iff (a : Allocator σ) (s : σ) (settings : Settings)
    (make : Nat → Except (Option Fault) Node) :
    Ends a s settings make (construct a.logged (s, []) settings make).1.outcome
        (construct a.logged (s, []) settings make).2 ∧
      (a.Generous s →
        ((∃ m, (build a s settings).1.outcome = .ok m) ↔
          settings.validate = .ok () ∧ Storable a s settings) ∧
        ((build a s settings).1.outcome = .error none ↔
          settings.validate = .ok () ∧ ¬ Storable a s settings)) := by
  refine ⟨ends_construct a s settings make, fun generous => ?_⟩
  cases valid : settings.validate with
  | error fault =>
    have outcome : (build a s settings).1.outcome = .error (some fault) := by
      simp only [build, construct, valid]
    simp [outcome]
  | ok =>
    by_cases storable : Storable a s settings
    · obtain ⟨m, built⟩ := build_storable generous valid storable
      simp [built, storable]
    · simp [build_broken generous valid storable, storable]

/-- A heap without a limit builds a machine of two CPUs; one that stops at three regions gets all
three back. -/
theorem all_or_nothing_heap :
    Heap.allocator.Generous {} ∧
      ((∃ m, (build Heap.allocator {} .pair).1.outcome = .ok m) ↔
        Settings.pair.validate = .ok () ∧ Storable Heap.allocator {} .pair) ∧
      (construct Heap.allocator.logged ({ limit := some 3 }, []) .pair (makeNode .pair)).2 =
        ({ limit := some 3, next := 3 },
          [.allocated .system (some 0), .allocated (.cpu 0) (some 1), .allocated (.cpu 1) (some 2),
            .allocated (.memoryArray 0 65536) none, .released (.cpu 0) 1, .released (.cpu 1) 2,
            .released .system 0]) := by
  have generous : Heap.allocator.Generous {} := Heap.generous rfl
  refine ⟨generous, ((all_or_nothing_iff Heap.allocator {} .pair (makeNode .pair)).2 generous).1, ?_⟩
  decide +kernel

/-- Two CPUs with rings as deep as a word can say. -/
def bottomless : Settings := { Settings.pair with probeDepth := 18446744073709551615 }

/-- The settings are valid and the heap refuses nothing, but there is neither a machine nor a fault, and
no region goes back. -/
theorem bottomless_breaks :
    bottomless.validate = .ok () ∧ Heap.allocator.Generous {} ∧
      (build Heap.allocator.logged ({}, []) bottomless).1.outcome = .error none ∧
      (build Heap.allocator.logged ({}, []) bottomless).2 =
        ({ next := 4, live := [3, 2, 1, 0] },
          [.allocated .system (some 0), .allocated (.cpu 0) (some 1), .allocated (.cpu 1) (some 2),
            .allocated (.memoryArray 0 65536) (some 3)]) := by
  have valid : bottomless.validate = .ok () := by decide +kernel
  have granted : acquire Heap.allocator.logged (needs bottomless) ({}, []) =
      ((.zeroed 0 .system :: [.zeroed 1 (.cpu 0), .zeroed 2 (.cpu 1),
        .zeroed 3 (.memoryArray 0 65536)], .ok ()), ({ next := 4, live := [3, 2, 1, 0] },
          [.allocated .system (some 0), .allocated (.cpu 0) (some 1), .allocated (.cpu 1) (some 2),
            .allocated (.memoryArray 0 65536) (some 3)])) := rfl
  have sized : bottomless.cacheSize = .ok .mb1 := rfl
  obtain ⟨_, _, _, made⟩ := makeNode_eq sized 0
  rw [if_neg (by decide)] at made
  rw [build, construct_granted valid granted, plug_broken (by decide) made]
  exact ⟨valid, Heap.generous rfl, rfl, rfl⟩

end Machine
end CacheCoherence
