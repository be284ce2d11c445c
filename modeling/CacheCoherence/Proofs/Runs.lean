import CacheCoherence.Machine
import CacheCoherence.Proofs.Operations
import Mathlib.Logic.Relation

/-! Runs of a fabric. A run is made of calls: a pipeline call, a pass of the hub, a node that answers
its probes. A pass is made of moves: one request handled, one probe answered, one deferred read
looked at. `Reaches` interleaves moves freely, so it covers every order of calls
(`Reaches.of_call`) and also calls that fall into the middle of a pass. -/

namespace CacheCoherence

inductive Call
  | operate (cpu : Nat) (op : Operation)
  | service (cpu : Nat)
  | poll
  deriving DecidableEq

def Node.answerOne (n : Node) (p : Probe) : Node :=
  match n.controller.handleProbe p with
  | (.error fault, controller) =>
    if fault.isBackpressure then { n with controller }
    else { n with controller, probes := n.probes.pop.2 }
  | (.ok _, controller) => { n with controller, probes := n.probes.pop.2 }

namespace Fabric

def operate (f : Fabric) (cpu : Nat) (op : Operation) : Fabric :=
  ((f.withController cpu fun c => ((), c.perform op)).map (·.2)).getD f

def call (f : Fabric) : Call → Fabric
  | .operate cpu op => f.operate cpu op
  | .service cpu => (f.service cpu).2
  | .poll => f.poll.2

def run (f : Fabric) (calls : List Call) : Fabric := calls.foldl call f

def controller? (f : Fabric) (cpu : Nat) : Option Controller := (f.nodes[cpu]?).map (·.controller)

end Fabric

/-- A fabric in the middle of a pass: the hub has taken requests that it has not handled yet. -/
structure Pass where
  fabric : Fabric
  taken : List (Nat × Request) := []

inductive Mover
  | pipeline (cpu : Nat) (op : Operation)
  | machine
  deriving DecidableEq

namespace Pass

inductive Step : Pass → Mover → Pass → Prop
  | operate (s : Pass) (cpu : Nat) (op : Operation) :
      Step s (.pipeline cpu op) { s with fabric := s.fabric.operate cpu op }
  | answer (s : Pass) (cpu : Nat) (n : Node) (p : Probe) (present : s.fabric.nodes[cpu]? = some n)
      (oldest : n.probes.front = some p) :
      Step s .machine
        { s with fabric := { s.fabric with nodes := s.fabric.nodes.set cpu (n.answerOne p) } }
  | lower (s : Pass) (cpu : Nat) (n : Node) (present : s.fabric.nodes[cpu]? = some n) :
      Step s .machine
        { s with
          fabric := { s.fabric with nodes := s.fabric.nodes.set cpu { n with interrupt := false } } }
  | ring (s : Pass) : Step s .machine { s with fabric := s.fabric.ringDoorbell }
  | resend (s : Pass) : Step s .machine { s with fabric := s.fabric.retryParked.2 }
  | take (s : Pass) (cpu : Nat) (empty : s.taken = []) :
      Step s .machine
        ⟨(s.fabric.takeRequests cpu).2, (s.fabric.takeRequests cpu).1.map (cpu, ·)⟩
  | route (s : Pass) (cpu : Nat) (r : Request) (rest : List (Nat × Request))
      (next : s.taken = (cpu, r) :: rest) :
      Step s .machine ⟨s.fabric.routeCounted cpu r, rest⟩
  | turn (s : Pass) (r : DeferredRead) (rest : List DeferredRead)
      (next : s.fabric.hub.deferred = r :: rest) :
      Step s .machine
        { s with fabric := { s.fabric with hub := { s.fabric.hub with deferred := rest ++ [r] } } }
  | retry (s : Pass) (r : DeferredRead) (rest : List DeferredRead)
      (next : s.fabric.hub.deferred = r :: rest) :
      Step s .machine
        { s with
          fabric := { s.fabric with hub := { s.fabric.hub with deferred := rest } }.routeRead r }

end Pass

/-- The value that each block should have. -/
abbrev Ledger := Address → Block

/-- An answer to a claim was taken between `c` and `d`, and the zeroed block of `b` is held. -/
def Controller.claimed (c d : Controller) (b : Address) : Bool :=
  (List.finRange 8).any fun slot =>
    match c.misses.get? slot, d.misses.get? slot with
    | some before, some after =>
      before.answer.isNone && before.request.access == .claim &&
        before.request.addr.block == b.block && after.answer.any (·.data.isSome) &&
        (d.lookup b).valid
    | _, _ => false

def Fabric.claimed (f g : Fabric) (b : Address) : Bool :=
  (List.range f.nodes.length).any fun cpu =>
    match f.controller? cpu, g.controller? cpu with
    | some c, some d => c.claimed d b
    | _, _ => false

/-- The values after a move: an accepted store writes its bytes, a claim that is filled zeroes its
block. -/
def Ledger.after (values : Ledger) (s : Pass) (mover : Mover) (t : Pass) : Ledger :=
  match mover with
  | .pipeline cpu op =>
    match (s.fabric.controller? cpu).bind (·.stores op) with
    | none => values
    | some (a, bytes) => fun b => if b.block = a.block then (values b).write a.offset bytes else values b
  | .machine => fun b => if s.fabric.claimed t.fabric b then .zero else values b

/-- Which pipeline calls are made. -/
abbrev Discipline := Fabric → Nat → Operation → Prop

def Discipline.allows (d : Discipline) (f : Fabric) : Mover → Prop
  | .pipeline cpu op => d f cpu op
  | .machine => True

/-- A state that a run from `start` comes through, with the values that the blocks should have. -/
inductive Reaches (d : Discipline) (start : Fabric) (values : Ledger) : Pass → Ledger → Prop
  | start : Reaches d start values { fabric := start } values
  | step {s t : Pass} {mover : Mover} {now : Ledger} (before : Reaches d start values s now)
      (allowed : d.allows s.fabric mover) (moves : s.Step mover t) :
      Reaches d start values t (now.after s mover t)

abbrev Pass.Works : Pass → Pass → Prop := Relation.ReflTransGen fun s t => s.Step .machine t

namespace Fabric

theorem works_answerProbes (limit : Nat) (f : Fabric) {cpu : Nat} (inside : cpu < f.nodes.length)
    (n : Node) :
    Pass.Works { fabric := { f with nodes := f.nodes.set cpu n } }
      { fabric := { f with nodes := f.nodes.set cpu (n.answerProbes limit).2 } } := by
  induction limit generalizing n with
  | zero => exact .refl
  | succ limit ih =>
    have present : (f.nodes.set cpu n)[cpu]? = some n := by simp [inside]
    have one (p : Probe) (oldest : n.probes.front = some p) :
        Pass.Step { fabric := { f with nodes := f.nodes.set cpu n } } .machine
          { fabric := { f with nodes := f.nodes.set cpu (n.answerOne p) } } := by
      have move := Pass.Step.answer { fabric := { f with nodes := f.nodes.set cpu n } } cpu n p
        present oldest
      rwa [List.set_set] at move
    unfold Node.answerProbes
    cases oldest : n.probes.front with
    | none => exact .refl
    | some p =>
      have first := one p oldest
      simp only
      split
      · rename_i fault controller shape
        split
        · rename_i full
          have after : n.answerOne p = { n with controller } := by
            simp only [Node.answerOne, shape, full, if_true]
          rw [after] at first
          exact .single first
        · rename_i other
          have after : n.answerOne p = { n with controller, probes := n.probes.pop.2 } := by
            simp only [Node.answerOne, shape]
            rw [if_neg other]
          rw [after] at first
          exact .head first (ih _)
      · rename_i reply controller shape
        have after : n.answerOne p = { n with controller, probes := n.probes.pop.2 } := by
          simp only [Node.answerOne, shape]
        rw [after] at first
        exact .head first (ih _)

theorem works_service (f : Fabric) (cpu : Nat) :
    Pass.Works { fabric := f } { fabric := (f.service cpu).2 } := by
  unfold service
  cases present : f.nodes[cpu]? with
  | none => exact .refl
  | some n =>
    obtain ⟨inside, same⟩ := List.getElem?_eq_some_iff.mp present
    have answered := works_answerProbes n.probes.length f inside n
    have whole : f.nodes.set cpu n = f.nodes := by
      rw [← same]
      exact List.set_getElem_self inside
    rw [whole] at answered
    have lowered : Pass.Works { fabric := f }
        { fabric := { f with nodes := f.nodes.set cpu n.serviceProbes.2 } } := by
      unfold Node.serviceProbes
      simp only
      split
      · refine answered.tail ?_
        have move := Pass.Step.lower
          { fabric := { f with nodes := f.nodes.set cpu (n.answerProbes n.probes.length).2 } }
          cpu (n.answerProbes n.probes.length).2 (by simp [inside])
        rwa [List.set_set] at move
      · exact answered
    simp only
    split
    · exact lowered.tail (.ring _)
    · exact lowered

theorem works_route (cpu : Nat) (requests : List Request) (f : Fabric) :
    Pass.Works ⟨f, requests.map (cpu, ·)⟩ { fabric := requests.foldl (routeCounted cpu) f } := by
  induction requests generalizing f with
  | nil => exact .refl
  | cons r rest ih => exact .head (.route _ cpu r (rest.map (cpu, ·)) rfl) (ih _)

theorem works_serveQueue (f : Fabric) (cpu : Nat) :
    Pass.Works { fabric := f } { fabric := (f.serveQueue cpu).2 } :=
  .head (.take _ cpu rfl) (works_route cpu _ _)

theorem works_sweep (queues : List Nat) (f : Fabric) :
    Pass.Works { fabric := f } { fabric := (f.sweep serveQueue queues).2 } := by
  induction queues generalizing f with
  | nil => exact .refl
  | cons cpu rest ih => exact (works_serveQueue f cpu).trans (ih _)

theorem works_retryReads (count : Nat) (f : Fabric) :
    Pass.Works { fabric := f } { fabric := (retryReads count f).2 } := by
  induction count generalizing f with
  | zero => exact .refl
  | succ count ih =>
    unfold retryReads
    cases waiting : f.hub.deferred with
    | nil => exact .refl
    | cons r rest =>
      simp only
      split
      · exact .head (.turn { fabric := f } r rest waiting) (ih _)
      · exact .head (.retry { fabric := f } r rest waiting) (ih _)

theorem works_poll (f : Fabric) : Pass.Works { fabric := f } { fabric := f.poll.2 } := by
  have resent : Pass.Works { fabric := f } { fabric := f.retryParked.2 } := .single (.resend _)
  exact (resent.trans (works_sweep _ _)).trans (works_retryReads _ _)

end Fabric

section

variable {d : Discipline} {start : Fabric} {values : Ledger}

theorem Reaches.works {s t : Pass} {now : Ledger} (reached : Reaches d start values s now)
    (works : s.Works t) : ∃ later, Reaches d start values t later := by
  induction works with
  | refl => exact ⟨now, reached⟩
  | @tail middle last _ move ih =>
    obtain ⟨later, between⟩ := ih
    have allowed : d.allows middle.fabric .machine := trivial
    exact ⟨_, between.step allowed move⟩

/-- A discipline kept by every call of a run. -/
def Obeys (d : Discipline) : Fabric → List Call → Prop
  | _, [] => True
  | f, call :: rest =>
    (∀ cpu op, call = .operate cpu op → d f cpu op) ∧ Obeys d (f.call call) rest

instance Obeys.decidable (d : Discipline) [∀ f cpu op, Decidable (d f cpu op)] :
    ∀ (f : Fabric) (calls : List Call), Decidable (Obeys d f calls)
  | _, [] => isTrue trivial
  | f, call :: rest =>
    have := Obeys.decidable d (f.call call) rest
    match call with
    | .operate cpu op =>
      decidable_of_iff (d f cpu op ∧ Obeys d (f.call (.operate cpu op)) rest)
        (and_congr_left fun _ => ⟨fun kept _ _ same => by cases same; exact kept,
          fun kept => kept cpu op rfl⟩)
    | .service cpu =>
      decidable_of_iff (Obeys d (f.call (.service cpu)) rest)
        ⟨fun kept => ⟨nofun, kept⟩, fun kept => kept.2⟩
    | .poll =>
      decidable_of_iff (Obeys d (f.call .poll) rest) ⟨fun kept => ⟨nofun, kept⟩, fun kept => kept.2⟩

theorem Reaches.of_call {f : Fabric} {now : Ledger} (call : Call)
    (reached : Reaches d start values { fabric := f } now)
    (allowed : ∀ cpu op, call = .operate cpu op → d f cpu op) :
    ∃ later, Reaches d start values { fabric := f.call call } later := by
  cases call with
  | operate cpu op =>
    have permitted : d.allows f (.pipeline cpu op) := allowed cpu op rfl
    exact ⟨_, reached.step permitted (.operate _ cpu op)⟩
  | service cpu => exact reached.works (f.works_service cpu)
  | poll => exact reached.works f.works_poll

theorem Reaches.of_run (calls : List Call) {f : Fabric} {now : Ledger}
    (reached : Reaches d start values { fabric := f } now) (obeys : Obeys d f calls) :
    ∃ later, Reaches d start values { fabric := f.run calls } later := by
  induction calls generalizing f now with
  | nil => exact ⟨now, reached⟩
  | cons call rest ih =>
    obtain ⟨later, between⟩ := reached.of_call call obeys.1
    exact ih between obeys.2

end

end CacheCoherence
