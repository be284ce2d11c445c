import CacheCoherence.Proofs.Commands

/-! What the hub cannot change, whatever it does. `Fabric.Sending R` says that `R` holds between a fabric
and what becomes of it when a message is delivered or a probe is parked, and `Fabric.Routing R` that it
holds also when the hub writes something down; then `R` holds over everything that the hub does with a
request. So it is with the regions under the arrays of memory, whatever their bytes are, and with the
sockets in which the CPUs sit (`Fabric.Keeps`), which no command changes either. -/

namespace CacheCoherence

def Memory.holdings (m : Memory) : List (RegionUse × Nat) :=
  m.takeRegions.1.map fun r => (r.use, r.id)

namespace Memory

theorem holdings_writeBlock (m : Memory) (a : Address) (data : Block) :
    (m.writeBlock a data).2.holdings = m.holdings := by
  unfold writeBlock
  split
  · rfl
  · rename_i i _
    simp only [holdings, takeRegions, List.map_map]
    refine List.ext_getElem? fun j => ?_
    simp only [List.getElem?_map, List.getElem?_modify]
    cases m.arrays[j]? with
    | none => simp
    | some array =>
      by_cases here : i = j
      · obtain ⟨use, id⟩ := array.region.identity_writeBlock (array.offset a) data
        simp [here, use, id]
      · simp [here]

end Memory

def Fabric.frame (f : Fabric) : List (RegionUse × Nat) × List Nat :=
  (f.hub.memory.holdings, f.hub.sockets)

def Fabric.Keeps (f g : Fabric) : Prop := g.frame = f.frame

namespace Fabric

variable {f g h : Fabric}

theorem Keeps.refl (f : Fabric) : Keeps f f := rfl

theorem Keeps.trans (first : Keeps f g) (second : Keeps g h) : Keeps f h := Eq.trans second first

theorem Keeps.sockets (keeps : Keeps f g) : g.hub.sockets = f.hub.sockets := congrArg Prod.snd keeps

theorem Keeps.of_hub (same : g.hub = f.hub) : Keeps f g := by
  rw [Keeps, frame, same]
  rfl

/-- Whatever the hub sends, and whatever it counts and parks meanwhile, `R` holds of the fabric before and
after. -/
structure Sending (R : Fabric → Fabric → Prop) : Prop where
  refl (f : Fabric) : R f f
  trans {f g h : Fabric} : R f g → R g h → R f h
  deliver (f : Fabric) (cpu : Nat) (m : Message) : R f (f.deliver cpu m).2
  parks (f : Fabric) (signal : Signal) (counters : HubCounters)
    (opened : counters.transactions = f.hub.counters.transactions) :
    R f { f with hub := { f.hub with signal, counters } }

structure Routing (R : Fabric → Fabric → Prop) : Prop extends Sending R where
  notes {f : Fabric} {hub : Hub} : Keeps f { f with hub } → R f { f with hub }

variable {R : Fabric → Fabric → Prop}

namespace Sending

variable (sending : Sending R)
include sending

theorem complete (f : Fabric) (cpu : Nat) (m : Completion) : R f (f.complete cpu m) :=
  sending.deliver f cpu (.completion m)

theorem sendProbe (f : Fabric) (cpu : Nat) (p : Probe) : R f (f.sendProbe cpu p) := by
  let counted := f.count fun k => { k with probesSent := k.probesSent + 1 }
  have begun : R f counted := sending.parks f _ _ rfl
  have parked (g : Fabric) (q : Probe) : R g (g.park cpu q) := sending.parks g _ _ rfl
  have delivered := sending.deliver counted cpu (.probe p)
  unfold Fabric.sendProbe
  simp only
  split
  · exact sending.trans begun (parked counted p)
  · split
    · rename_i same
      rw [same] at delivered
      exact sending.trans begun delivered
    · rename_i g refused same
      rw [same] at delivered
      exact sending.trans begun (sending.trans delivered (parked refused _))

theorem sendProbes (targets : List Nat) (p : Probe) (f : Fabric) :
    R f (targets.foldl (fun f target => f.sendProbe target p) f) := by
  induction targets generalizing f with
  | nil => exact sending.refl f
  | cons target rest ih => exact sending.trans (sending.sendProbe f target p) (ih _)

theorem resend (parked : List ParkedProbe) (blocked : List Nat) (f : Fabric) :
    R f (Fabric.resend parked blocked f).2 := by
  induction parked generalizing blocked f with
  | nil => exact sending.refl f
  | cons first rest ih =>
    have again (g : Fabric) (p : Probe) : R g (g.parkAgain first.cpu p) := sending.parks g _ _ rfl
    have delivered := sending.deliver f first.cpu (.probe first.probe)
    unfold Fabric.resend
    split
    · exact sending.trans (again f first.probe) (ih blocked _)
    · split
      · rename_i same
        rw [same] at delivered
        exact sending.trans delivered (ih blocked _)
      · rename_i g refused same
        rw [same] at delivered
        exact sending.trans delivered (sending.trans (again refused _) (ih _ _))

theorem retryParked (f : Fabric) : R f f.retryParked.2 := by
  let taken : Fabric := { f with hub := { f.hub with signal := f.hub.signal.takeParked.2 } }
  have begun : R f taken := sending.parks f _ _ rfl
  exact sending.trans begun (sending.resend f.hub.signal.parked [] taken)

end Sending

namespace Routing

variable (routing : Routing R)
include routing

theorem finish (f : Fabric) (number : Nat) : R f (f.finish number) := by
  cases found : f.hub.transaction? number with
  | none =>
    rw [finish_none found]
    exact routing.refl f
  | some t =>
    obtain ⟨memory, counters, m, same, _, source, _⟩ := finish_some found
    have ended : Keeps f (f.closed t memory counters) := by
      refine Prod.ext ?_ rfl
      rcases source with rfl | ⟨data, rfl⟩
      · rfl
      · exact f.hub.memory.holdings_writeBlock t.addr data
    rw [same]
    exact routing.trans (routing.notes ended) (routing.complete _ t.origin m)

theorem read (f : Fabric) (r : DeferredRead) : R f (f.routeRead r) := by
  unfold routeRead
  split
  · exact routing.complete f r.cpu _
  · split
    · split
      · exact routing.notes rfl
      · unfold openRead
        simp only
        let opened : Fabric :=
          { f with hub := f.hub.openTransaction r.cpu r.id r.addr r.kind (f.others r.cpu).length }
        have begun : R f opened := routing.notes rfl
        split
        · exact routing.trans begun (routing.finish opened f.hub.nextNumber)
        · exact routing.trans begun (routing.sendProbes _ _ opened)
    · refine routing.trans ?_ (routing.complete _ r.cpu _)
      exact routing.notes rfl

theorem victim (f : Fabric) (cpu : Nat) (slot : Slot) (a : Address) (data : Block) :
    R f (f.routeVictim cpu slot a data) := by
  unfold routeVictim
  simp only
  refine routing.trans ?_ (routing.complete _ cpu _)
  split
  · rename_i memory outcome
    have kept := f.hub.memory.holdings_writeBlock a data
    rw [outcome] at kept
    exact routing.notes (Prod.ext kept rfl)
  · exact routing.notes rfl

theorem reply (f : Fabric) (cpu : Nat) (r : ProbeReply) : R f (f.routeReply cpu r) := by
  cases found : f.hub.transaction? r.txn with
  | none =>
    rw [Pass.routeReply_none f cpu found]
    exact routing.notes rfl
  | some t =>
    obtain ⟨counters, shape, _⟩ := Pass.routeReply_some f cpu found
    have taken : R f (Pass.tookReply f r t counters) := routing.notes rfl
    have freed : R f (Pass.freeVictim (Pass.tookReply f r t counters) cpu r.victim) := by
      cases r.victim with
      | none => exact taken
      | some slot => exact routing.trans taken (routing.complete _ cpu _)
    rw [shape]
    split
    · exact routing.trans freed (routing.finish _ r.txn)
    · exact freed

theorem request (f : Fabric) (cpu : Nat) (q : Request) : R f (f.routeCounted cpu q) := by
  let counted := f.count fun k => { k with requests := k.requests + 1 }
  have begun : R f counted := routing.notes rfl
  refine routing.trans begun ?_
  cases q with
  | read id a kind => exact routing.read counted ⟨cpu, id, a, kind⟩
  | ioWrite id a data mask written =>
    refine routing.trans ?_ (routing.complete _ cpu _)
    exact routing.notes rfl
  | victim slot a data => exact routing.victim counted cpu slot a data
  | reply r => exact routing.reply counted cpu r
  | barrier id => exact routing.complete counted cpu _

end Routing

theorem routing_keeps : Routing Keeps where
  refl := .refl
  trans := .trans
  deliver f cpu m := .of_hub (f.deliver_frame cpu m).1
  parks _ _ _ _ := rfl
  notes := id

theorem routing_nodes {P : Node → Prop} (kept : ∀ (n : Node) (m : Message), P n → P (n.deliver m).2) :
    Routing fun f g => (∀ n ∈ f.nodes, P n) → ∀ n ∈ g.nodes, P n where
  refl _ := id
  trans first second := second ∘ first
  deliver f cpu m nodes := by
    unfold Fabric.deliver
    split
    · exact nodes
    · split
      · exact nodes
      · rename_i n present
        intro other member
        rcases List.mem_or_eq_of_mem_set member with old | rfl
        · exact nodes other old
        · exact kept n m (nodes n (List.mem_of_getElem? present))
  parks _ _ _ _ := id
  notes _ := id

theorem keeps_takeRequests (f : Fabric) (cpu : Nat) : Keeps f (f.takeRequests cpu).2 := by
  unfold takeRequests
  split
  · exact .refl f
  · split <;> exact .refl f

theorem keeps_withController {α : Type} {i : Nat} {call : Controller → α × Controller} {x : α}
    (called : f.withController i call = some (x, g)) : Keeps f g := by
  unfold withController at called
  split at called
  · cases called
  · cases called
    split <;> exact .refl f

end Fabric

theorem Pass.Works.keeps {s t : Pass} (works : s.Works t) : Fabric.Keeps s.fabric t.fabric := by
  induction works with
  | refl => exact .refl _
  | tail _ move ih =>
    refine ih.trans ?_
    cases move with
    | answer | lower | ring | turn => exact .refl _
    | resend => exact Fabric.routing_keeps.resend _ _ _
    | take cpu => exact Fabric.keeps_takeRequests _ cpu
    | route cpu r => exact Fabric.routing_keeps.request _ cpu r
    | retry r => exact Fabric.routing_keeps.read _ r

namespace Fabric

theorem keeps_command (f : Fabric) (command : Command) : Keeps f (f.command command) := by
  have within (cpu : Nat) {α : Type} (call : Controller → α × Controller) :
      Keeps f (((f.withController cpu call).map (·.2)).getD f) := by
    cases called : f.withController cpu call with
    | none => exact .refl f
    | some result => exact keeps_withController called
  cases command with
  | evict cpu a data d => exact within cpu _
  | call call =>
    cases call with
    | operate cpu op => exact within cpu _
    | service cpu => exact (f.works_service cpu).keeps
    | poll => exact f.works_poll.keeps

theorem keeps_obey (f : Fabric) (commands : List Command) : Keeps f (f.obey commands) := by
  induction commands generalizing f with
  | nil => exact .refl f
  | cons command rest ih => exact (f.keeps_command command).trans (ih _)

end Fabric

end CacheCoherence
