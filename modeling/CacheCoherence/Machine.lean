import CacheCoherence.Fabric.Calling
import CacheCoherence.Settings

/-!
Building a machine and taking it apart. A machine is built from a system record, one record for each
CPU and one region for each memory array; if any part of it cannot be had, all regions go back and
there is no machine.
-/
namespace CacheCoherence

structure Machine where
  fabric : Fabric
  record : Region
  cpuRecords : List Region

/-- What came of building a machine, and how many nodes were made on the way. Without a fault the
building broke off: nothing is reported, and nothing more is done. -/
structure Construction where
  outcome : Except (Option Fault) Machine
  made : Nat

namespace Machine

variable {σ : Type}

/-- Asks for regions one by one and stops at the first use that gets none. -/
def acquire (a : Allocator σ) :
    List RegionUse → σ → (List Region × Except (Option RegionUse) Unit) × σ
  | [], s => (([], .ok ()), s)
  | use :: rest, s =>
    match a.ask s use with
    | (.error stop, s) => (([], .error stop), s)
    | (.ok region, s) =>
      let ((regions, result), s) := acquire a rest s
      ((region :: regions, result), s)

def uses (settings : Settings) : List RegionUse :=
  (List.range settings.cpuCount).map .cpu ++
    (List.range settings.arrayCount).map fun i => .memoryArray i settings.arrayBytes

def refusal : RegionUse → StartupFailure
  | .system => .noSystemRecord
  | .cpu i => .noCpuRecord i
  | .memoryArray i _ => .noMemoryArray i

/-- Makes and registers CPUs in turn; a fault comes with the number of its CPU. The first part of
the answer is how many nodes were made. -/
def populate (make : Nat → Except (Option Fault) Node) :
    List Nat → Fabric → Nat × Except (Option (Nat × Fault)) Fabric
  | [], f => (0, .ok f)
  | i :: rest, f =>
    match make i with
    | .error stop => (0, .error (stop.map fun fault => (i, fault)))
    | .ok n =>
      match f.register n with
      | (.error fault, _) => (1, .error (some (i, fault)))
      | (.ok (), f) =>
        let (made, result) := populate make rest f
        (made + 1, result)

/-- Plugs the nodes that come from `make` into a fabric of the regions. A fault gives them back. -/
def plug (a : Allocator σ) (s : σ) (settings : Settings) (make : Nat → Except (Option Fault) Node)
    (record : Region) (regions : List Region) : Construction × σ :=
  let cpuRecords := regions.take settings.cpuCount
  let memory := Memory.contiguous (regions.drop settings.cpuCount)
  let fabric : Fabric :=
    { hub := .create memory settings.readNext, nodes := [], own := settings.cpuCount }
  match populate make (List.range settings.cpuCount) fabric with
  | (made, .error none) => (⟨.error none, made⟩, s)
  | (made, .error (some (i, fault))) =>
    (⟨.error (some (.startup (.registration i fault.message))), made⟩,
     a.release (a.releaseAll s (cpuRecords ++ memory.takeRegions.1)) record)
  | (made, .ok fabric) => (⟨.ok { fabric, record, cpuRecords }, made⟩, s)

/-- Builds a machine whose nodes come from `make`. A fault gives every region back. -/
def construct (a : Allocator σ) (s : σ) (settings : Settings)
    (make : Nat → Except (Option Fault) Node) : Construction × σ :=
  match settings.validate with
  | .error fault => (⟨.error (some fault), 0⟩, s)
  | .ok () =>
    match a.ask s .system with
    | (.error stop, s) => (⟨.error (stop.map fun use => .startup (refusal use)), 0⟩, s)
    | (.ok record, s) =>
      match acquire a (uses settings) s with
      | ((_, .error none), s) => (⟨.error none, 0⟩, s)
      | ((regions, .error (some refused)), s) =>
        (⟨.error (some (.startup (refusal refused))), 0⟩,
         a.release (a.releaseAll s regions) record)
      | ((regions, .ok ()), s) => plug a s settings make record regions

def buildWith (a : Allocator σ) (s : σ) (settings : Settings) (make : Nat → Except Fault Node) :
    Construction × σ :=
  construct a s settings fun i => (make i).mapError some

/-- The node of CPU `i` under the given settings, if there can be a ring of their depth. -/
def makeNode (settings : Settings) (i : Nat) : Except (Option Fault) Node :=
  match settings.cacheSize with
  | .error fault => .error (some fault)
  | .ok size =>
    match Controller.ofSize i size with
    | .error fault => .error (some fault)
    | .ok controller =>
      let node := Node.create controller i settings.probeDepth
      if node.probes.storageBytes ≤ maxStorage then .ok node else .error none

def build (a : Allocator σ) (s : σ) (settings : Settings) : Construction × σ :=
  construct a s settings (makeNode settings)

/-- Gives every region back: memory arrays, then CPU records, then the system record. -/
def release (m : Machine) (a : Allocator σ) (s : σ) : σ :=
  a.release (a.releaseAll (a.releaseAll s m.fabric.hub.memory.takeRegions.1) m.cpuRecords) m.record

def halt (m : Machine) : Machine :=
  { m with fabric := (List.range m.fabric.own).foldl Fabric.halt m.fabric }

end Machine
end CacheCoherence
