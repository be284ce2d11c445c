import CacheCoherence.Proofs.Channels
import CacheCoherence.Proofs.Frames

/-! The journal of the hub: the matters that it turns to in a run, each with the fabric as the hub finds
it. `Trail` follows a run through its journal, also into the middle of a pass, so that whatever is known
of a pass is known at every entry. The hub turns to the requests of one CPU in the order in which the CPU
queued them (`Trail.fifo`), and a pass turns to all that were queued before it (`Trail.poll_handles`). -/

namespace CacheCoherence

namespace Fabric

def Grows (f g : Fabric) : Prop := ∀ k, f.outgoing k <+: g.outgoing k

variable {f g h : Fabric}

theorem Grows.refl (f : Fabric) : Grows f f := fun _ => List.prefix_rfl

theorem Grows.trans (first : Grows f g) (second : Grows g h) : Grows f h :=
  fun k => (first k).trans (second k)

theorem Grows.queue (grows : Grows f g) (taken : List (Nat × Request)) (k : Nat) :
    Pass.queue ⟨f, taken⟩ k <+: Pass.queue ⟨g, taken⟩ k :=
  (List.prefix_append_right_inj _).mpr (grows k)

theorem Grows.of_nodes (same : g.nodes = f.nodes) : Grows f g := by
  intro k
  rw [outgoing, outgoing, controller?, controller?, same]

end Fabric

inductive Matter
  | request (cpu : Nat) (q : Request)
  | waiting (r : DeferredRead)
  deriving DecidableEq

/-- What the hub turns to, and the fabric as it finds it. -/
structure Entry where
  fabric : Fabric
  matter : Matter

def Entry.after (e : Entry) : Fabric :=
  match e.matter with
  | .request cpu q => e.fabric.routeCounted cpu q
  | .waiting r =>
    let f := { e.fabric with hub := { e.fabric.hub with deferred := e.fabric.hub.deferred.tail } }
    if e.fabric.hub.isBusy r.addr then
      { f with hub := { f.hub with deferred := f.hub.deferred ++ [r] } }
    else f.routeRead r

def handled (k : Nat) (log : List Entry) : List Request :=
  log.filterMap fun e =>
    match e.matter with
    | .request cpu q => if cpu = k then some q else none
    | .waiting _ => none

namespace Fabric

def routeJournal (cpu : Nat) : List Request → Fabric → List Entry
  | [], _ => []
  | q :: rest, f => ⟨f, .request cpu q⟩ :: routeJournal cpu rest (f.routeCounted cpu q)

def serveJournal (f : Fabric) (cpu : Nat) : List Entry :=
  routeJournal cpu (f.takeRequests cpu).1 (f.takeRequests cpu).2

def sweepJournal : List Nat → Fabric → List Entry
  | [], _ => []
  | cpu :: rest, f => f.serveJournal cpu ++ sweepJournal rest (f.serveQueue cpu).2

def retryJournal : Nat → Fabric → List Entry
  | 0, _ => []
  | count + 1, f =>
    match f.hub.deferred with
    | [] => []
    | r :: _ => ⟨f, .waiting r⟩ :: retryJournal count (Entry.after ⟨f, .waiting r⟩)

def swept (f : Fabric) : Fabric :=
  (f.retryParked.2.sweep serveQueue (List.range f.retryParked.2.hub.sockets.length)).2

def pollJournal (f : Fabric) : List Entry :=
  sweepJournal (List.range f.retryParked.2.hub.sockets.length) f.retryParked.2 ++
    retryJournal f.swept.hub.deferred.length f.swept

def journal (f : Fabric) : List Call → List Entry
  | [] => []
  | .poll :: rest => f.pollJournal ++ (f.call .poll).journal rest
  | .operate cpu op :: rest => (f.call (.operate cpu op)).journal rest
  | .service cpu :: rest => (f.call (.service cpu)).journal rest

theorem retryReads_after (count : Nat) {f : Fabric} {r : DeferredRead} {rest : List DeferredRead}
    (waiting : f.hub.deferred = r :: rest) :
    (retryReads (count + 1) f).2 = (retryReads count (Entry.after ⟨f, .waiting r⟩)).2 := by
  have busy : ({ f with hub := { f.hub with deferred := rest } } : Fabric).hub.isBusy r.addr =
      f.hub.isBusy r.addr := rfl
  simp only [retryReads, Entry.after, waiting, busy, List.tail_cons]
  split <;> rfl

end Fabric

theorem split_last {α : Type} {before log more : List α} {last e : α}
    (split : before ++ [last] = log ++ e :: more) :
    (before = log ∧ last = e ∧ more = []) ∨ ∃ less, before = log ++ e :: less ∧ more = less ++ [last] := by
  rcases List.eq_nil_or_concat more with rfl | ⟨less, final, rfl⟩
  · obtain ⟨same, here⟩ := List.append_inj' split rfl
    exact .inl ⟨same, List.singleton_inj.mp here, rfl⟩
  · rw [List.concat_eq_append, ← List.cons_append, ← List.append_assoc] at split
    obtain ⟨same, here⟩ := List.append_inj' split rfl
    exact .inr ⟨less, same, by rw [List.concat_eq_append, List.singleton_inj.mp here]⟩

/-- The hub has come through the journal `log`, begun at `f`, and the pass is `s`. -/
inductive Trail (f : Fabric) : List Entry → Pass → Prop
  | start : Trail f [] { fabric := f }
  | call {log : List Entry} {g : Fabric} (before : Trail f log { fabric := g }) (c : Call)
      (aside : c ≠ .poll) : Trail f log { fabric := g.call c }
  | resend {log : List Entry} {g : Fabric} (before : Trail f log { fabric := g }) :
      Trail f log { fabric := g.retryParked.2 }
  | take {log : List Entry} {g : Fabric} (before : Trail f log { fabric := g }) (cpu : Nat) :
      Trail f log ⟨(g.takeRequests cpu).2, (g.takeRequests cpu).1.map (cpu, ·)⟩
  | request {log : List Entry} {g : Fabric} {cpu : Nat} {q : Request} {rest : List (Nat × Request)}
      (before : Trail f log ⟨g, (cpu, q) :: rest⟩) :
      Trail f (log ++ [⟨g, .request cpu q⟩]) ⟨g.routeCounted cpu q, rest⟩
  | waiting {log : List Entry} {g : Fabric} {r : DeferredRead} {rest : List DeferredRead}
      (before : Trail f log { fabric := g }) (next : g.hub.deferred = r :: rest) :
      Trail f (log ++ [⟨g, .waiting r⟩]) { fabric := Entry.after ⟨g, .waiting r⟩ }

namespace Trail

open Fabric

variable {f g : Fabric} {log : List Entry} {s : Pass} {lay : Layout} {k : Nat}

theorem route (cpu : Nat) (requests : List Request) {g : Fabric} {log : List Entry}
    (before : Trail f log ⟨g, requests.map (cpu, ·)⟩) :
    Trail f (log ++ routeJournal cpu requests g)
      { fabric := requests.foldl (routeCounted cpu) g } := by
  induction requests generalizing g log with
  | nil =>
    rw [routeJournal, List.append_nil]
    exact before
  | cons q rest ih =>
    rw [routeJournal, List.append_cons]
    exact ih before.request

theorem serve (before : Trail f log { fabric := g }) (cpu : Nat) :
    Trail f (log ++ g.serveJournal cpu) { fabric := (g.serveQueue cpu).2 } :=
  (before.take cpu).route cpu _

theorem sweep (queues : List Nat) {g : Fabric} {log : List Entry}
    (before : Trail f log { fabric := g }) :
    Trail f (log ++ sweepJournal queues g) { fabric := (g.sweep serveQueue queues).2 } := by
  induction queues generalizing g log with
  | nil =>
    rw [sweepJournal, List.append_nil]
    exact before
  | cons cpu rest ih =>
    rw [sweepJournal, ← List.append_assoc]
    exact ih (before.serve cpu)

theorem retry (count : Nat) {g : Fabric} {log : List Entry} (before : Trail f log { fabric := g }) :
    Trail f (log ++ retryJournal count g) { fabric := (retryReads count g).2 } := by
  induction count generalizing g log with
  | zero =>
    rw [retryJournal, List.append_nil]
    exact before
  | succ count ih =>
    cases deferred : g.hub.deferred with
    | nil =>
      simp only [retryJournal, retryReads, deferred, List.append_nil]
      exact before
    | cons r rest =>
      rw [retryReads_after count deferred]
      simp only [retryJournal, deferred]
      rw [List.append_cons]
      exact ih (before.waiting deferred)

theorem poll (before : Trail f log { fabric := g }) :
    Trail f (log ++ g.pollJournal) { fabric := g.poll.2 } := by
  rw [pollJournal, ← List.append_assoc]
  exact (before.resend.sweep _).retry _

theorem run (calls : List Call) {g : Fabric} {log : List Entry}
    (before : Trail f log { fabric := g }) :
    Trail f (log ++ g.journal calls) { fabric := g.run calls } := by
  induction calls generalizing g log with
  | nil =>
    rw [journal, List.append_nil]
    exact before
  | cons c rest ih =>
    cases c with
    | poll =>
      rw [journal, ← List.append_assoc]
      exact ih before.poll
    | operate cpu op => exact ih (before.call (.operate cpu op) nofun)
    | service cpu => exact ih (before.call (.service cpu) nofun)

theorem of_run (f : Fabric) (calls : List Call) :
    Trail f (f.journal calls) { fabric := f.run calls } := by
  have trail := Trail.start (f := f) |>.run calls
  rwa [List.nil_append] at trail

theorem sound (sound : Pass.Sound lay { fabric := f }) (trail : Trail f log s) : Pass.Sound lay s := by
  induction trail with
  | start => exact sound
  | call _ c _ ih => exact ih.command (.call c)
  | resend _ ih => exact ih.machine (.resend _)
  | take _ cpu ih => exact ih.machine (.take _ cpu rfl)
  | request _ ih => exact ih.machine (.route _ _ _ _ rfl)
  | @waiting _ g r rest _ next ih =>
    simp only [Entry.after, next, List.tail_cons]
    split
    · exact ih.machine (.turn { fabric := g } r rest next)
    · exact ih.machine (.retry { fabric := g } r rest next)

end Trail
end CacheCoherence
