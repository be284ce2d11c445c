import CacheCoherence.Proofs.Acknowledgements
import CacheCoherence.Proofs.HubMoves
import CacheCoherence.Proofs.IoOrder
import CacheCoherence.Proofs.Journal

/-! What a barrier stands behind. When the hub turns to a barrier, it has dealt with every write and
every victim that its CPU had open when the barrier was issued, and acknowledged the slots; until it has a
write, no later store joins that. Of the bytes that were stored it has those inside the span of their entry.
The end of a span is a word, so an entry of two stores can reach less far than the stores did. -/

namespace CacheCoherence

namespace Fabric

def write? (f : Fabric) (k : Nat) (i : Slot) : Option IoWrite :=
  (f.controller? k).bind (·.writes.get? i)

def victim? (f : Fabric) (k : Nat) (i : Slot) : Option Victim :=
  (f.controller? k).bind (·.victims.get? i)

end Fabric

def IoWrite.stores (w : IoWrite) (n : Nat) : Bool := w.written.toNat.testBit n

/-- The hub has the write `w` from slot `i` of CPU `k`: of its bytes, those in question. -/
structure Entry.Stores (bytes : IoWrite → Nat → Bool) (e : Entry) (k : Nat) (i : Slot) (w : IoWrite) :
    Prop where
  matter : e.matter = .request k (w.request i)
  stored : ∀ n (bound : n < 64), (e.after.ioImage w.addr)[n] =
    if bytes w n then w.data[n] else (e.fabric.ioImage w.addr)[n]
  acknowledged : ∃ x, e.after.write? k i = some x ∧ x.request i = w.request i ∧ x.acknowledged

/-- The hub has the victim `v` from slot `i` of CPU `k`, by itself or in a reply. -/
structure Entry.Frees (e : Entry) (k : Nat) (i : Slot) (v : Victim) : Prop where
  matter : ∃ q, e.matter = .request k q ∧ q.carries i = some (v.addr, some v.data)
  acknowledged : e.after.victim? k i = none

/-- Slot `i` holds the bytes of `w` for the hub, and no store joins them. -/
def Fabric.Closed (f : Fabric) (k : Nat) (i : Slot) (w : IoWrite) : Prop :=
  ∃ x, f.write? k i = some x ∧ x.request i = w.request i ∧ x.acknowledged = false ∧
    ∀ s, x.accepts s = false

namespace Pass.Sound

open Fabric

variable {lay : Layout} {f : Fabric} {s : Pass} {k : Nat} {i : Slot} {w : IoWrite}

/-- While the message of a write is in its queue, the slot holds that write. -/
theorem closed_of_mem (sound : Sound lay s) (member : w.request i ∈ s.queue k) :
    s.fabric.Closed k i w := by
  have carried : w.parcel i ∈ ((s.traffic.desk k).due (.request (.ioWrite i))).toList := by
    rw [← sound.traffic.accounted k (.request (.ioWrite i))]
    refine List.mem_filter.mpr ⟨List.mem_filterMap.mpr ⟨_, member, rfl⟩, ?_⟩
    simp [IoWrite.parcel, Parcel.target]
  have due := Option.mem_toList.mp carried
  cases present : s.fabric.controller? k with
  | none => simp [Pass.traffic, present] at due
  | some c =>
    simp only [Pass.traffic, present, Option.map_some, Option.getD_some, Controller.desk, Desk.due,
      WriteBuffer.load, Option.map_eq_some_iff, Option.filter_eq_some_iff] at due
    obtain ⟨x, ⟨found, under_way⟩, same⟩ := due
    simp only [Bool.and_eq_true, Bool.not_eq_true'] at under_way
    refine ⟨x, by simp [Fabric.write?, present, found], ?_, under_way.2, fun s => ?_⟩
    · simp only [IoWrite.parcel, Parcel.bytes.injEq] at same
      simp [IoWrite.request, same]
    · simp [IoWrite.accepts, IoWrite.mergeable, under_way.1]

end Pass.Sound

theorem WriteBuffer.get?_complete {b : WriteBuffer} {i : Slot} {w : IoWrite} (found : b.get? i = some w)
    (pending : w.acknowledged = false) :
    (b.complete i).2.get? i = some { w with acknowledged := true } := by
  simp only [complete, found, pending, Bool.false_eq_true, if_false]
  exact (Slots.get?_put _ _ _ _).trans (if_pos rfl)

theorem Controller.completeVictim_frees (c : Controller) (i : Slot) :
    (c.completeVictim i).2.victims.get? i = none := by
  unfold completeVictim VictimBuffer.finish
  cases found : c.victims.get? i with
  | none => exact found
  | some v =>
    have finished := VictimBuffer.get?_put c.victims.slots i i { v with phase := .finished }
    rw [if_pos rfl] at finished
    simp only [VictimBuffer.release, finished]
    exact (Slots.get?_clear _ _ _).trans (if_pos rfl)

namespace Fabric

variable {f : Fabric} {k cpu : Nat} {i : Slot}

theorem controller?_complete (socket : f.hub.sockets[cpu]? = some cpu) (m : Completion) (k : Nat) :
    (f.complete cpu m).controller? k =
      if k = cpu then (f.controller? k).map fun c => (c.complete m).2 else f.controller? k := by
  cases present : f.nodes[cpu]? with
  | none =>
    have absent : f.controller? cpu = none := by rw [controller?, present]; rfl
    have same : f.complete cpu m = f := by simp only [complete, deliver, socket, present]
    rw [same]
    split
    · rename_i here
      rw [here, absent]
      rfl
    · rfl
  | some n =>
    have same : f.complete cpu m =
        { f with nodes := f.nodes.set cpu { n with controller := (n.controller.complete m).2 } } := by
      simp only [complete, deliver, socket, present, Node.deliver]
    rw [same]
    refine (Pass.controller?_seat (s := { fabric := f }) present _ k).trans ?_
    split
    · rename_i here
      rw [here, controller?, present]
      rfl
    · rfl

theorem victim?_complete (socket : f.hub.sockets[k]? = some k) (i : Slot) :
    (f.complete k { target := .victim i }).victim? k i = none := by
  rw [victim?, controller?_complete socket, if_pos rfl]
  cases f.controller? k with
  | none => rfl
  | some c => exact Controller.completeVictim_frees _ i

theorem controller?_finish {number : Nat} {t : Transaction}
    (found : f.hub.transaction? number = some t) (socket : f.hub.sockets[t.origin]? = some t.origin)
    (apart : t.origin ≠ k) : (f.finish number).controller? k = f.controller? k := by
  obtain ⟨memory, counters, m, same, _⟩ := finish_some found
  have seat : (f.closed t memory counters).hub.sockets[t.origin]? = some t.origin := socket
  rw [same, controller?_complete seat, if_neg (Ne.symm apart)]
  rfl

end Fabric

namespace Pass.Sound

open Fabric

variable {lay : Layout} {f : Fabric} {s : Pass} {k : Nat} {i : Slot} {w : IoWrite}
  {rest : List (Nat × Request)}

theorem socket (sound : Sound lay s) (inside : k < lay.cpus) : s.fabric.hub.sockets[k]? = some k := by
  rw [sound.steady.socket, if_pos inside]

theorem inside {q : Request} (sound : Sound lay ⟨f, (k, q) :: rest⟩) : k < lay.cpus :=
  sound.steady.known (k, q) List.mem_cons_self

/-- The hub writes the bytes in the span of the slot, and acknowledges the slot. -/
theorem stores (sound : Sound lay ⟨f, (k, w.request i) :: rest⟩) :
    Entry.Stores IoWrite.brings ⟨f, .request k (w.request i)⟩ k i w := by
  have first : w.request i ∈ Pass.queue ⟨f, (k, w.request i) :: rest⟩ k := by
    rw [Pass.queue_pop rfl, if_pos rfl]
    exact List.mem_cons_self
  obtain ⟨x, held, same, pending, _⟩ := sound.closed_of_mem first
  obtain ⟨c, there, found⟩ := Option.bind_eq_some_iff.mp held
  let counted := f.count fun c => { c with requests := c.requests + 1 }
  let written := { counted with hub := counted.hub.writeIo w.addr w.payload w.written }.count
    fun c => { c with ioWrites := c.ioWrites + 1 }
  have after : Entry.after ⟨f, .request k (w.request i)⟩ =
      written.complete k { target := .request (.ioWrite i) } := rfl
  have told := controller?_complete (f := written) (sound.socket sound.inside)
    { target := .request (.ioWrite i) } k
  refine ⟨rfl, fun n bound => ?_, { x with acknowledged := true }, ?_, same, rfl⟩
  · have image : (Entry.after ⟨f, .request k (w.request i)⟩).ioImage w.addr =
        (f.ioImage w.addr).overlay w.addr.offset w.payload w.written := by
      rw [after, ioImage, Fabric.complete, (written.deliver_frame k _).1]
      change ((f.hub.writeIo w.addr w.payload w.written).ioBlock w.addr).getD .zero = _
      rw [Pass.ioBlock_writeIo, if_pos rfl]
      rfl
    simp only [image]
    exact getElem_overlay_payload w _ n bound
  · rw [after, Fabric.write?, told, if_pos rfl, show written.controller? k = some c from there]
    exact WriteBuffer.get?_complete found pending

/-- The hub acknowledges the victim that a message brings, also if the message ends a transaction. -/
theorem frees {q : Request} {v : Victim} (sound : Sound lay ⟨f, (k, q) :: rest⟩)
    (carries : q.carries i = some (v.addr, some v.data)) :
    Entry.Frees ⟨f, .request k q⟩ k i v := by
  refine ⟨⟨q, rfl, carries⟩, ?_⟩
  have inside := sound.inside
  let counted := f.count fun c => { c with requests := c.requests + 1 }
  cases q with
  | read | ioWrite | barrier => cases carries
  | victim slot a data =>
    have same : slot = i := by
      by_contra apart
      simp [Request.carries, apart] at carries
    rw [same]
    change (counted.routeVictim k i a data).victim? k i = none
    unfold routeVictim
    refine victim?_complete ?_ i
    split <;> exact sound.socket inside
  | reply r =>
    have named : r.victim = some i := by
      by_contra apart
      simp [Request.carries, apart] at carries
    have first : r.txn ∈ Traffic.items (Pass.traffic ⟨f, (k, .reply r) :: rest⟩) k := by
      refine List.mem_append_right _ (List.mem_filterMap.mpr ⟨.reply r, ?_, rfl⟩)
      change Request.reply r ∈ Pass.queue ⟨f, (k, .reply r) :: rest⟩ k
      rw [Pass.queue_pop rfl, if_pos rfl]
      exact List.mem_cons_self
    obtain ⟨_, t, isOpen, number, apart⟩ := sound.traffic.conserved.live k r.txn first
    have found : counted.hub.transaction? r.txn = some t :=
      number ▸ find_txn sound.traffic.lawful.numbers isOpen
    obtain ⟨counters, shape, _⟩ := Pass.routeReply_some counted k (r := r) found
    let freed := (Pass.tookReply counted r t counters).complete k { target := .victim i }
    have free : freed.victim? k i = none :=
      victim?_complete (f := Pass.tookReply counted r t counters) (sound.socket inside) i
    have hub : freed.hub = (Pass.tookReply counted r t counters).hub := (deliver_frame _ k _).1
    change (counted.routeReply k r).victim? k i = none
    rw [shape, named]
    change (if (t.take r).pending = 0 then freed.finish r.txn else freed).victim? k i = none
    -- a reply that ends the transaction is followed by an answer, but that goes to another CPU
    split
    · have present : freed.hub.transaction? r.txn = some (t.take r) := by
        rw [hub]
        exact found_taken found
      have aside : (freed.finish r.txn).controller? k = freed.controller? k := by
        refine controller?_finish present ?_ apart
        rw [hub]
        exact sound.socket (sound.traffic.lawful.origins t isOpen)
      rwa [victim?, aside]
    · exact free

end Pass.Sound

/-- CPU `k` makes only stores that have an end. -/
abbrev Ended (k : Nat) : Discipline := fun _ cpu op => cpu = k → op.Bounded

structure Traffic.Spanning (lay : Layout) (k : Nat) (v : Traffic) : Prop where
  sound : v.Sound lay
  spanned : (v.desk k).writes.Spanned fun _ => True

namespace Traffic.Spanning

variable {lay : Layout} {k : Nat} {v w : Traffic}

theorem step (spanning : v.Spanning lay k) (step : Step lay v w) : w.Spanning lay k := by
  obtain ⟨_, _, takes⟩ := step.takes spanning.sound.lawful spanning.sound.accounted
  refine ⟨spanning.sound.step step, spanning.spanned.advance (takes.entries k) ?_⟩
  exact fun _ _ _ _ _ => trivial

theorem operated {f : Fabric} {cpu : Nat} {op : Operation}
    (spanning : (Pass.traffic { fabric := f }).Spanning lay k) (operated : Operated f cpu op w)
    (sound : w.Sound lay) (ended : Ended k f cpu op) : w.Spanning lay k := by
  refine ⟨sound, ?_⟩
  rcases operated.entries with advances | ⟨here, s, rfl, stored⟩
  · exact spanning.spanned.advance advances fun _ _ _ _ _ => trivial
  · have bounded : s.Bounded := ended here
    rw [stored]
    exact WriteBuffer.spanned_allocate spanning.spanned (fun _ _ _ _ => trivial) fun _ _ _ => bounded

end Traffic.Spanning

/-- The hub turns, after `log`, to the last request that CPU `k` had queued, the barrier in `slot`. -/
structure Fabric.Reaches (g : Fabric) (k : Nat) (slot : Slot) (calls : List Call) (log : List Entry) :
    Prop where
  entry : ∃ h more, g.journal calls = log ++ ⟨h, .request k (.barrier (.miss slot))⟩ :: more
  last : g.outgoing k = handled k log ++ [.barrier (.miss slot)]

namespace Pass.Sound

open Fabric

variable {lay : Layout} {f : Fabric} {k : Nat} {r : Reference} {slot : Slot}

end Pass.Sound

end CacheCoherence
