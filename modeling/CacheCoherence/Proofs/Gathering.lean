import CacheCoherence.Proofs.Flows
import CacheCoherence.Proofs.IoBuffering
import Mathlib.Data.List.Induction

namespace CacheCoherence

theorem IoStore.waiters_of_check {s : IoStore} (checked : s.check = .ok ()) :
    s.waiters.length ≤ slotCount := by
  unfold check at checked
  split at checked
  · cases checked
  split at checked
  · cases checked
  split at checked
  · cases checked
  split at checked
  · cases checked
  split at checked
  · cases checked
  · rename_i few
    exact Nat.not_lt.mp few

def replay (stores : List IoStore) (image : Block) : Block :=
  stores.foldl (fun image s => image.write s.addr.offset s.data) image

/-- The entry is what these stores came to. -/
structure IoWrite.Gathers (w : IoWrite) (stores : List IoStore) : Prop where
  checked : ∀ s ∈ stores, s.check = .ok ()
  block : ∀ s ∈ stores, s.addr.block = w.addr.block
  length : ∀ s ∈ stores, s.length = w.storeLength
  starts : (∃ s ∈ stores, s.addr = w.addr) ∧ ∀ s ∈ stores, w.addr.toNat ≤ s.addr.toNat
  stops : (∃ s ∈ stores, s.addr.toNat + s.length = w.addr.toNat + w.length) ∧
    ∀ s ∈ stores, s.addr.toNat + s.length ≤ w.addr.toNat + w.length
  data : w.data = replay stores .zero
  written : ∀ i < 64, w.written.toNat.testBit i = stores.any (·.covers i)
  mask : w.mask = stores.foldl (fun mask s => mask ||| s.mask) 0
  waiters : w.waiters = stores.flatMap (·.waiters)
  few : w.waiters.length ≤ slotCount

/-- Once a hub has handled the request, the block of `a` is what these stores would have made of it,
whatever it was, and other blocks are as they were. -/
structure Request.Delivers (q : Request) (a : Address) (stores : List IoStore) : Prop where
  block : ∀ (f : Fabric) (cpu : Nat), (f.route cpu q).hub.ioBlock a =
    some (replay stores ((f.hub.ioBlock a).getD .zero))
  others : ∀ (f : Fabric) (cpu : Nat) (b : Address), b.block ≠ a.block →
    (f.route cpu q).hub.ioBlock b = f.hub.ioBlock b

@[simp] theorem replay_nil (image : Block) : replay [] image = image := rfl

theorem replay_cons (s : IoStore) (rest : List IoStore) (image : Block) :
    replay (s :: rest) image = replay rest (image.write s.addr.offset s.data) := by
  rw [replay, List.foldl_cons, ← replay]

theorem replay_append (first rest : List IoStore) (image : Block) :
    replay (first ++ rest) image = replay rest (replay first image) := List.foldl_append

/-- Where no store covers a byte it is that of the block before, and elsewhere the block before does not
matter. -/
theorem getElem_replay {stores : List IoStore} (accepted : ∀ s ∈ stores, s.Accepted)
    (image other : Block) (i : Nat) (bound : i < 64) :
    (replay stores image)[i] =
      if stores.any (·.covers i) then (replay stores other)[i] else image[i] := by
  induction stores generalizing image other with
  | nil => simp
  | cons s rest ih =>
    have later := ih fun t member => accepted t (List.mem_cons_of_mem _ member)
    rw [replay_cons, replay_cons, List.any_cons]
    cases covered : rest.any (·.covers i) with
    | true =>
      have hidden := later (image.write s.addr.offset s.data) (other.write s.addr.offset s.data)
      rw [covered, if_pos rfl] at hidden
      rw [hidden, Bool.or_true, if_pos rfl]
    | false =>
      have seen (block : Block) : (replay rest block)[i] = block[i] := by
        simpa [covered] using later block block
      have written (block : Block) := (accepted s List.mem_cons_self).getElem_write block i bound 0
      rw [seen, seen, written, written, Bool.or_false]
      split
      · rfl
      · rfl

namespace IoWrite

variable {w : IoWrite} {stores : List IoStore} {s : IoStore}

theorem gathers_ofStore (checked : s.check = .ok ()) : (ofStore s).Gathers [s] where
  checked t member := by
    rw [List.mem_singleton.mp member]
    exact checked
  block t member := by
    rw [List.mem_singleton.mp member]
    rfl
  length t member := by
    rw [List.mem_singleton.mp member]
    rfl
  starts := by simp [ofStore]
  stops := by simp [ofStore]
  data := rfl
  written i bound := by
    simpa using! s.testBit_covers i bound
  mask := by simp [ofStore]
  waiters := by simp [ofStore]
  few := s.waiters_of_check checked

theorem Gathers.below (gathers : w.Gathers stores) (all : ∀ t ∈ stores, t.Bounded) :
    w.addr.toNat + w.length < 2 ^ 64 := by
  obtain ⟨t, member, ends⟩ := gathers.stops.1
  rw [← ends]
  exact all t member

theorem Gathers.join (gathers : w.Gathers stores) (all : ∀ t ∈ stores, t.Bounded)
    (checked : s.check = .ok ()) (bounded : s.Bounded) (accepts : w.accepts s) :
    (w.join s).Gathers (stores ++ [s]) := by
  simp only [IoWrite.accepts, Bool.and_eq_true, beq_iff_eq, decide_eq_true_eq] at accepts
  obtain ⟨⟨⟨_, width⟩, same⟩, room⟩ := accepts
  have block := block_join same
  have start := toNat_addr_join w s
  have stop := stop_join (gathers.below all) bounded
  constructor
  · exact List.forall_mem_append.mpr ⟨gathers.checked, List.forall_mem_singleton.mpr checked⟩
  · rw [block]
    refine List.forall_mem_append.mpr ⟨fun t member => ?_, List.forall_mem_singleton.mpr rfl⟩
    rw [gathers.block t member, same]
  · exact List.forall_mem_append.mpr ⟨gathers.length, List.forall_mem_singleton.mpr width.symm⟩
  · rw [start]
    constructor
    · obtain ⟨t, member, begins⟩ := gathers.starts.1
      rcases Nat.le_total s.addr.toNat w.addr.toNat with before | after
      · exact ⟨s, by simp, Address.toNat_inj.mp (by rw [start, Nat.min_eq_right before])⟩
      · refine ⟨t, List.mem_append_left _ member, Address.toNat_inj.mp ?_⟩
        rw [start, begins, Nat.min_eq_left after]
    · refine List.forall_mem_append.mpr ⟨fun t member => ?_, List.forall_mem_singleton.mpr ?_⟩
      · exact Nat.le_trans (Nat.min_le_left ..) (gathers.starts.2 t member)
      · exact Nat.min_le_right ..
  · rw [stop]
    constructor
    · obtain ⟨t, member, ends⟩ := gathers.stops.1
      rcases Nat.le_total (s.addr.toNat + s.length) (w.addr.toNat + w.length) with before | after
      · exact ⟨t, List.mem_append_left _ member, by rw [ends, Nat.max_eq_left before]⟩
      · exact ⟨s, by simp, (Nat.max_eq_right after).symm⟩
    · refine List.forall_mem_append.mpr ⟨fun t member => ?_, List.forall_mem_singleton.mpr ?_⟩
      · exact Nat.le_trans (gathers.stops.2 t member) (Nat.le_max_left ..)
      · exact Nat.le_max_right ..
  · simp only [replay_append, ← gathers.data]
    rfl
  · intro i bound
    rw [List.any_append, ← gathers.written i bound]
    simp [IoWrite.join, s.testBit_covers i bound]
  · simp [IoWrite.join, gathers.mask]
  · simp [IoWrite.join, gathers.waiters]
  · simpa [IoWrite.join] using room

theorem Gathers.marked (gathers : w.Gathers stores) (issued acknowledged : Bool) :
    Gathers { w with issued, acknowledged } stores :=
  ⟨gathers.checked, gathers.block, gathers.length, gathers.starts, gathers.stops, gathers.data,
    gathers.written, gathers.mask, gathers.waiters, gathers.few⟩

theorem Gathers.inside (gathers : w.Gathers stores) : w.addr.offset + w.length ≤ blockSize := by
  obtain ⟨⟨s, member, last⟩, _⟩ := gathers.stops
  have fits := (s.accepted_of_check (gathers.checked s member)).fits
  have same := (Address.block_eq_iff _ _).mp (gathers.block s member)
  have least := gathers.starts.2 s member
  simp only [Address.offset, blockSize] at fits ⊢
  omega

theorem Gathers.length_payload (gathers : w.Gathers stores) : w.payload.length = w.length := by
  have inside := gathers.inside
  rw [payload, Block.length_slice]
  simp only [blockSize] at inside
  omega

theorem Gathers.accepted (gathers : w.Gathers stores) : ∀ s ∈ stores, s.Accepted :=
  fun s member => s.accepted_of_check (gathers.checked s member)

theorem Gathers.brings (gathers : w.Gathers stores) (i : Nat) (bound : i < 64) :
    w.brings i = stores.any (·.covers i) := by
  refine (brings_eq fun stored => ?_).trans (gathers.written i bound)
  rw [gathers.written i bound, List.any_eq_true] at stored
  obtain ⟨s, member, covered⟩ := stored
  simp only [IoStore.covers, Bool.and_eq_true, decide_eq_true_eq] at covered
  have start := gathers.starts.2 s member
  have stop := gathers.stops.2 s member
  have same := (Address.block_eq_iff _ _).mp (gathers.block s member)
  simp only [Address.offset, blockSize] at covered ⊢
  omega

theorem Gathers.overlay (gathers : w.Gathers stores) (image : Block) :
    image.overlay w.addr.offset w.payload w.written = replay stores image := by
  apply Vector.ext
  intro i bound
  rw [getElem_overlay_payload w image i bound, gathers.brings i bound, gathers.data]
  exact (getElem_replay gathers.accepted image .zero i bound).symm

theorem Gathers.delivers (gathers : w.Gathers stores) (slot : Slot) :
    (w.request slot).Delivers w.addr stores := by
  have routed (f : Fabric) (cpu : Nat) (b : Address) :
      (f.route cpu (w.request slot)).hub.ioBlock b =
        (f.hub.writeIo w.addr w.payload w.written).ioBlock b := by
    simp only [request, Fabric.route, Fabric.routeIoWrite, Fabric.complete, (Fabric.deliver_frame _ cpu _).1]
    rfl
  constructor
  · intro f cpu
    rw [routed, Pass.ioBlock_writeIo, if_pos rfl, gathers.overlay]
  · intro f cpu b apart
    rw [routed, Pass.ioBlock_writeIo, if_neg apart]

end IoWrite

namespace WriteBuffer

inductive Call
  | store (s : IoStore)
  | issue
  | complete (slot : Slot)

/-- A write buffer, with the stores that went to each slot since it was last taken, oldest first. -/
structure Ledger where
  stores : Slot → List IoStore
  buffer : WriteBuffer

namespace Ledger

def enter (stores : Slot → List IoStore) (s : IoStore) : Except Fault Placement → Slot → List IoStore
  | .ok p => Function.update stores p.slot (if p.merged then stores p.slot ++ [s] else [s])
  | .error _ => stores

def call (l : Ledger) : Call → Ledger
  | .store s => ⟨enter l.stores s (l.buffer.allocate s).1, (l.buffer.allocate s).2⟩
  | .issue => ⟨l.stores, l.buffer.issue.2⟩
  | .complete slot => ⟨l.stores, (l.buffer.complete slot).2⟩

def run (calls : List Call) : Ledger := calls.foldl call ⟨fun _ => [], .empty⟩

structure Balanced (l : Ledger) : Prop where
  gathers : ∀ slot w, l.buffer.get? slot = some w → w.Gathers (l.stores slot)
  bounded : ∀ slot, ∀ s ∈ l.stores slot, s.Bounded

end Ledger

variable {b : WriteBuffer}

theorem allocate_cases (b : WriteBuffer) (s : IoStore) :
    (∃ fault, b.allocate s = (.error fault, b)) ∨
    (∃ slot w, s.check = .ok () ∧ b.get? slot = some w ∧ w.accepts s ∧
      b.allocate s = (.ok ⟨slot, true⟩, ⟨b.slots.put slot (w.join s)⟩)) ∨
    (∃ slot, s.check = .ok () ∧
      b.allocate s = (.ok ⟨slot, false⟩, ⟨b.slots.put slot (.ofStore s)⟩)) := by
  unfold allocate
  split
  · exact .inl ⟨_, rfl⟩
  · rename_i checked
    split
    · rename_i target
      obtain ⟨present, accepts⟩ := Slots.find?_some target
      exact .inr (.inl ⟨_, _, checked, present, accepts, rfl⟩)
    · split
      · exact .inl ⟨_, rfl⟩
      · exact .inr (.inr ⟨_, checked, rfl⟩)

namespace Ledger

variable {l : Ledger}

theorem Balanced.put (balanced : l.Balanced) {slot : Slot} {w : IoWrite} {stores : List IoStore}
    (gathers : w.Gathers stores) (bounded : ∀ s ∈ stores, s.Bounded) :
    Balanced ⟨Function.update l.stores slot stores, ⟨l.buffer.slots.put slot w⟩⟩ := by
  constructor
  · intro i x present
    rw [get?, Slots.get?_put] at present
    split at present
    · rename_i here
      subst here
      cases present
      simpa using gathers
    · rename_i elsewhere
      simpa [Ne.symm elsewhere] using balanced.gathers i x present
  · intro i
    by_cases here : i = slot
    · subst here
      simpa using bounded
    · simpa [here] using balanced.bounded i

theorem Balanced.store (balanced : l.Balanced) {s : IoStore} (bounded : s.Bounded) :
    (l.call (.store s)).Balanced := by
  rcases allocate_cases l.buffer s with
    ⟨fault, refused⟩ | ⟨slot, w, checked, present, accepts, joined⟩ | ⟨slot, checked, alone⟩
  · simp only [call, refused, enter]
    exact balanced
  · simp only [call, joined, enter, if_true]
    have all := balanced.bounded slot
    exact balanced.put ((balanced.gathers slot w present).join all checked bounded accepts)
      (List.forall_mem_append.mpr ⟨all, List.forall_mem_singleton.mpr bounded⟩)
  · simp only [call, alone, enter, Bool.false_eq_true, if_false]
    exact balanced.put (IoWrite.gathers_ofStore checked) (List.forall_mem_singleton.mpr bounded)

/-- An entry that is issued or acknowledged is still what its stores came to. -/
theorem Balanced.advance (balanced : l.Balanced) {d : WriteBuffer} (advances : l.buffer.Advances d) :
    Balanced ⟨l.stores, d⟩ := by
  refine ⟨fun slot w present => ?_, balanced.bounded⟩
  obtain ⟨x, before, _, same⟩ := advances slot w present
  rw [same]
  exact (balanced.gathers slot x before).marked w.issued w.acknowledged

theorem Balanced.call (balanced : l.Balanced) (x : Call) (bounded : ∀ s, x = .store s → s.Bounded) :
    (l.call x).Balanced := by
  cases x with
  | store s => exact balanced.store (bounded s rfl)
  | issue => exact balanced.advance (advances_issue _)
  | complete slot => exact balanced.advance (advances_complete _ slot)

theorem balanced_run {calls : List Call} (bounded : ∀ s, .store s ∈ calls → s.Bounded) :
    (run calls).Balanced := by
  induction calls using List.reverseRecOn with
  | nil => exact ⟨fun slot w present => absurd present (by simp [run, get?, empty]), by simp [run]⟩
  | append_singleton earlier x ih =>
    rw [run, List.foldl_append]
    refine (ih fun s member => bounded s (List.mem_append_left _ member)).call x ?_
    rintro s rfl
    exact bounded s (List.mem_append_right _ List.mem_cons_self)

end Ledger

/-- After any calls, if address and length of each store have a sum, every entry is what the stores came
to that went to its slot since it was taken. The write that a flush makes of it does to the I/O space,
whatever that holds, what these stores would do. -/
theorem gathers_run (calls : List Call) (bounded : ∀ s, .store s ∈ calls → s.Bounded) {slot : Slot}
    {w : IoWrite} (present : (Ledger.run calls).buffer.get? slot = some w) :
    w.Gathers ((Ledger.run calls).stores slot) ∧
      w.addr.offset + w.length ≤ blockSize ∧ w.payload.length = w.length ∧
      (w.request slot).Delivers w.addr ((Ledger.run calls).stores slot) ∧
      ∀ c : Controller, c.writes = (Ledger.run calls).buffer → w.mergeable →
        w.request slot ∈ c.flush.2.outbound.drop c.outbound.length := by
  have gathers := (Ledger.balanced_run bounded).gathers slot w present
  refine ⟨gathers, gathers.inside, gathers.length_payload, gathers.delivers slot, ?_⟩
  intro c buffer isOpen
  rw [Controller.flush_eq, List.drop_left, buffer]
  exact mem_unsent.mpr ⟨w, slot, present, isOpen, rfl⟩

/-- Two stores with a gap of two bytes between them, the higher one first. -/
def gappedCalls : List Call :=
  [.store { addr := ⟨0x80000000013⟩, data := [0x33], mask := 4, length := 1, waiters := [1] },
   .store { addr := ⟨0x80000000010⟩, data := [0x30], mask := 4, length := 1, waiters := [2] }]

theorem gathers_gapped : (∀ s, .store s ∈ gappedCalls → s.Bounded) ∧
    ∃ w, (Ledger.run gappedCalls).buffer.get? 0 = some w ∧ w.addr = ⟨0x80000000010⟩ ∧
      w.payload = [0x30, 0, 0, 0x33] ∧ w.written = 0x90000 ∧
      w.Gathers ((Ledger.run gappedCalls).stores 0) ∧
      ∀ c : Controller, c.writes = (Ledger.run gappedCalls).buffer →
        w.request 0 ∈ c.flush.2.outbound.drop c.outbound.length := by
  have bounded (s : IoStore) (member : .store s ∈ gappedCalls) : s.Bounded := by
    simp only [gappedCalls, List.mem_cons, List.not_mem_nil, Call.store.injEq, or_false] at member
    rcases member with rfl | rfl
    · decide
    · decide
  obtain ⟨gathers, _, _, _, flushed⟩ :=
    gathers_run gappedCalls bounded (show (Ledger.run gappedCalls).buffer.get? 0 = some _ from rfl)
  exact ⟨bounded, _, rfl, by decide, by decide, by decide, gathers,
    fun c buffer => flushed c buffer (by decide)⟩

end WriteBuffer
end CacheCoherence
