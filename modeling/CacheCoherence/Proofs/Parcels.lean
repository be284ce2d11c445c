import CacheCoherence.Proofs.Operations

namespace CacheCoherence

/-- Data on its way to the hub, with the slot that keeps it until then. -/
inductive Parcel
  | block (slot : Slot) (addr : Address) (data : Option Block)
  | bytes (slot : Slot) (addr : Address) (data : List UInt8) (mask : UInt8) (written : UInt64)
  deriving DecidableEq

def Parcel.target : Parcel → CompletionTarget
  | .block slot _ _ => .victim slot
  | .bytes slot _ _ _ _ => .request (.ioWrite slot)

def Victim.parcel (v : Victim) (slot : Slot) : Parcel := .block slot v.addr (some v.data)

def IoWrite.parcel (w : IoWrite) (slot : Slot) : Parcel :=
  .bytes slot w.addr w.payload w.mask w.written

def IoWrite.request (w : IoWrite) (slot : Slot) : Request :=
  .ioWrite (.ioWrite slot) w.addr w.payload w.mask w.written

namespace Request

def parcel? : Request → Option Parcel
  | .victim slot a data => some (.block slot a (some data))
  | .reply r => r.victim.map (.block · r.addr r.data)
  | .ioWrite (.ioWrite slot) a data mask written => some (.bytes slot a data mask written)
  | .ioWrite (.miss _) _ _ _ _ | .read .. | .barrier _ => none

def isWrite : Request → Bool
  | .ioWrite .. => true
  | .read .. | .victim .. | .reply _ | .barrier _ => false

end Request

def parcels (x : CompletionTarget) (messages : List Request) : List Parcel :=
  (messages.filterMap Request.parcel?).filter (·.target == x)

@[simp] theorem parcels_nil (x : CompletionTarget) : parcels x [] = [] := rfl

@[simp] theorem parcels_append (x : CompletionTarget) (first rest : List Request) :
    parcels x (first ++ rest) = parcels x first ++ parcels x rest := by
  simp [parcels, List.filterMap_append]

theorem parcels_cons (x : CompletionTarget) (q : Request) (rest : List Request) :
    parcels x (q :: rest) = parcels x [q] ++ parcels x rest :=
  parcels_append x [q] rest

theorem parcels_request (v : Victim) (slot : Slot) (x : CompletionTarget) :
    parcels x [v.request slot] = if x = .victim slot then [v.parcel slot] else [] := by
  by_cases here : x = .victim slot
  · simp [parcels, Victim.request, Request.parcel?, Parcel.target, here, Victim.parcel]
  · simp [parcels, Victim.request, Request.parcel?, Parcel.target, here, Ne.symm here]

theorem parcels_write (w : IoWrite) (slot : Slot) (x : CompletionTarget) :
    parcels x [w.request slot] = if x = .request (.ioWrite slot) then [w.parcel slot] else [] := by
  by_cases here : x = .request (.ioWrite slot)
  · simp [parcels, IoWrite.request, Request.parcel?, Parcel.target, here, IoWrite.parcel]
  · simp [parcels, IoWrite.request, Request.parcel?, Parcel.target, here, Ne.symm here]

theorem parcels_miss (slot : Slot) (messages : List Request) :
    parcels (.request (.miss slot)) messages = [] := by
  rw [parcels, List.filter_eq_nil_iff]
  rintro (_ | _) _ same <;> cases beq_iff_eq.mp same

theorem parcels_eq_nil {x : CompletionTarget} {messages : List Request}
    (silent : ∀ q ∈ messages, parcels x [q] = []) : parcels x messages = [] := by
  induction messages with
  | nil => rfl
  | cons q rest ih =>
    rw [parcels_cons, silent q List.mem_cons_self, List.nil_append]
    exact ih fun r member => silent r (List.mem_cons_of_mem _ member)

theorem parcels_ioWrite {messages : List Request} (plain : ∀ q ∈ messages, q.isWrite = false)
    (slot : Slot) : parcels (.request (.ioWrite slot)) messages = [] := by
  refine parcels_eq_nil fun q member => ?_
  have other := plain q member
  cases q with
  | ioWrite => cases other
  | read | barrier => rfl
  | victim => simp [parcels, Request.parcel?, Parcel.target]
  | reply r => cases carried : r.victim <;> simp [parcels, Request.parcel?, Parcel.target, carried]

theorem filter_isWrite {messages : List Request} (plain : ∀ q ∈ messages, q.isWrite = false) :
    messages.filter Request.isWrite = [] := by
  rw [List.filter_eq_nil_iff]
  intro q member
  simp [plain q member]

def VictimBuffer.load (b : VictimBuffer) (i : Slot) : Option Parcel :=
  ((b.get? i).filter (·.phase == .inTransfer)).map (·.parcel i)

namespace WriteBuffer

def load (b : WriteBuffer) (i : Slot) : Option Parcel :=
  ((b.get? i).filter fun w => w.issued && !w.acknowledged).map (·.parcel i)

def unsent (b : WriteBuffer) : List Request :=
  (List.finRange 8).filterMap fun i => ((b.get? i).filter IoWrite.mergeable).map (·.request i)

def Advances (b d : WriteBuffer) : Prop :=
  ∀ i w, d.get? i = some w → ∃ x, b.get? i = some x ∧ (w.mergeable → x.mergeable) ∧
    w = { x with issued := w.issued, acknowledged := w.acknowledged }

theorem Advances.refl (b : WriteBuffer) : Advances b b := fun _ w present => ⟨w, present, id, rfl⟩

theorem Advances.trans {b d e : WriteBuffer} (first : Advances b d) (rest : Advances d e) :
    Advances b e := by
  intro i w present
  obtain ⟨x, between, opened, same⟩ := rest i w present
  obtain ⟨y, before, earlier, old⟩ := first i x between
  refine ⟨y, before, fun isOpen => earlier (opened isOpen), ?_⟩
  rw [same, old]

end WriteBuffer

structure Desk where
  misses : MissFile
  victims : VictimBuffer
  writes : WriteBuffer

namespace Desk

def empty : Desk := ⟨.empty, .empty, .empty⟩

def due (d : Desk) : CompletionTarget → Option Parcel
  | .victim i => d.victims.load i
  | .request (.ioWrite i) => d.writes.load i
  | .request (.miss _) => none

def waits (d : Desk) (i : Slot) : Bool := (d.misses.get? i).any (·.answer.isNone)

@[simp] theorem due_empty (x : CompletionTarget) : empty.due x = none := by
  rcases x with (_ | i) | i
  · rfl
  · simp [due, empty, WriteBuffer.load, WriteBuffer.empty, WriteBuffer.get?]
  · simp [due, empty, VictimBuffer.load, VictimBuffer.empty, VictimBuffer.get?]

end Desk

def Controller.desk (c : Controller) : Desk := ⟨c.misses, c.victims, c.writes⟩

theorem Controller.waits_desk (c : Controller) (i : Slot) :
    c.desk.waits i = (c.wanted i).isSome := by
  simp only [Desk.waits, desk, wanted]
  cases c.misses.get? i with
  | none => rfl
  | some m => cases waits : m.answer <;> simp [waits]

namespace VictimBuffer

variable {b : VictimBuffer}

theorem load_of_waiting {i : Slot} {v : Victim} (present : b.get? i = some v)
    (waiting : v.phase = .waiting) : b.load i = none := by
  simp [load, present, Option.filter, waiting]

theorem load_of_not_draining {i : Slot} (idle : ∀ v, b.get? i = some v → v.draining = false) :
    b.load i = none := by
  cases present : b.get? i with
  | none => simp [load, present]
  | some v =>
    have finished : v.phase = .finished := by simpa [Victim.draining] using idle v present
    simp [load, present, Option.filter, finished]

theorem load_congr {d : VictimBuffer} {i : Slot} (same : d.get? i = b.get? i) :
    d.load i = b.load i := by
  rw [load, load, same]

theorem Settled.load_eq (settled : b.Settled) (i : Slot) :
    b.load i = ((b.get? i).filter Victim.draining).map (·.parcel i) := by
  rw [load]
  cases present : b.get? i with
  | none => rfl
  | some v =>
    have resting := settled i v present
    cases phase : v.phase with
    | waiting => exact absurd phase resting
    | inTransfer => simp [Option.filter, phase, Victim.draining]
    | finished => simp [Option.filter, phase, Victim.draining]

theorem load_allocate (b : VictimBuffer) (a : Address) (data : Block) (d : Destination) (i : Slot) :
    (b.allocate a data d).2.load i = b.load i := by
  rcases allocate_cases b a data d with ⟨_, refused⟩ | ⟨_, slot, idle, taken⟩
  · rw [refused]
  · rw [taken]
    have cell := get?_put b.slots slot i { addr := a.block, data, destination := d }
    by_cases here : slot = i
    · subst here
      rw [if_pos rfl] at cell
      rw [load_of_waiting cell rfl, load_of_not_draining idle]
    · rw [if_neg here] at cell
      exact load_congr cell

theorem load_finish (b : VictimBuffer) (slot i : Slot) :
    (b.finish slot).2.load i = if slot = i then none else b.load i := by
  have cell := get?_finish b slot i
  split
  · rename_i here
    rw [if_pos here] at cell
    refine load_of_not_draining fun v present => ?_
    rw [cell, Option.map_eq_some_iff] at present
    obtain ⟨w, _, rfl⟩ := present
    rfl
  · rename_i apart
    rw [if_neg apart] at cell
    exact load_congr cell

end VictimBuffer

namespace Controller

variable {c d e : Controller}

structure Mails (c d : Controller) (sent : List Request) : Prop where
  outbound : d.outbound = c.outbound ++ sent
  due : ∀ x, (d.desk.due x).toList = (c.desk.due x).toList ++ parcels x sent
  unsent : sent.filter Request.isWrite ++ d.writes.unsent = c.writes.unsent
  entries : c.writes.Advances d.writes

theorem Mails.append {sent more : List Request} (first : Mails c d sent) (rest : Mails d e more) :
    Mails c e (sent ++ more) := by
  constructor
  · rw [rest.outbound, first.outbound, List.append_assoc]
  · intro x
    rw [rest.due, first.due, parcels_append, List.append_assoc]
  · rw [List.filter_append, List.append_assoc, rest.unsent, first.unsent]
  · exact first.entries.trans rest.entries

theorem Mails.of_plain {sent : List Request} (outbound : d.outbound = c.outbound ++ sent)
    (writes : d.writes = c.writes) (plain : ∀ q ∈ sent, q.isWrite = false)
    (loads : ∀ i, (d.victims.load i).toList =
      (c.victims.load i).toList ++ parcels (.victim i) sent) : Mails c d sent := by
  refine ⟨outbound, ?_, ?_, ?_⟩
  · rintro ((slot | slot) | slot)
    · rw [parcels_miss]
      rfl
    · rw [parcels_ioWrite plain, List.append_nil]
      simp only [Desk.due, desk, writes]
    · exact loads slot
  · rw [filter_isWrite plain, List.nil_append, writes]
  · rw [writes]
    exact .refl c.writes

theorem Mails.of_eq (outbound : d.outbound = c.outbound) (writes : d.writes = c.writes)
    (victims : d.victims = c.victims) : Mails c d [] := by
  refine .of_plain (by simpa using outbound) writes (by simp) fun i => ?_
  rw [victims, parcels_nil, List.append_nil]

structure Sheds (c d : Controller) (sent : List Request) : Prop where
  outbound : d.outbound = c.outbound ++ sent
  misses : d.misses = c.misses
  writes : d.writes = c.writes
  sends : ∀ q ∈ sent, ∃ (v : Victim) (slot : Slot), q = v.request slot
  loads : ∀ i, (d.victims.load i).toList = (c.victims.load i).toList ++ parcels (.victim i) sent

theorem Sheds.mails {sent : List Request} (sheds : Sheds c d sent) : Mails c d sent := by
  refine .of_plain sheds.outbound sheds.writes ?_ sheds.loads
  intro q member
  obtain ⟨v, slot, rfl⟩ := sheds.sends q member
  rfl

def Shed (c d : Controller) : Prop := ∃ sent, Sheds c d sent

theorem Shed.silent (outbound : d.outbound = c.outbound) (misses : d.misses = c.misses)
    (writes : d.writes = c.writes) (loads : ∀ i, d.victims.load i = c.victims.load i) :
    Shed c d := by
  refine ⟨[], by simpa using outbound, misses, writes, by simp, fun i => ?_⟩
  rw [loads, parcels_nil, List.append_nil]

theorem Shed.of_eq (outbound : d.outbound = c.outbound) (misses : d.misses = c.misses)
    (writes : d.writes = c.writes) (victims : d.victims = c.victims) : Shed c d :=
  .silent outbound misses writes fun _ => by rw [victims]

theorem Shed.refl (c : Controller) : Shed c c := .of_eq rfl rfl rfl rfl

theorem Shed.trans (first : Shed c d) (rest : Shed d e) : Shed c e := by
  obtain ⟨sent, first⟩ := first
  obtain ⟨more, rest⟩ := rest
  refine ⟨sent ++ more, ?_, ?_, ?_, ?_, ?_⟩
  · rw [rest.outbound, first.outbound, List.append_assoc]
  · rw [rest.misses, first.misses]
  · rw [rest.writes, first.writes]
  · intro q member
    rcases List.mem_append.mp member with early | late
    · exact first.sends q early
    · exact rest.sends q late
  · intro i
    rw [rest.loads, first.loads, parcels_append, List.append_assoc]

/-- Between `c` and `d` the victims in `picked` went on their way: each has come to rest or was sent. -/
structure Ships (c : Controller) (picked : List Slot) (d : Controller) (sent : List Request) :
    Prop where
  outbound : d.outbound = c.outbound ++ sent
  misses : d.misses = c.misses
  writes : d.writes = c.writes
  sends : ∀ q ∈ sent, ∃ (v : Victim) (slot : Slot), q = v.request slot
  others : ∀ i, i ∉ picked → d.victims.get? i = c.victims.get? i
  started : ∀ i ∈ picked, ∀ v, d.victims.get? i = some v → v.phase ≠ .waiting
  loads : ∀ i ∈ picked, (d.victims.load i).toList = parcels (.victim i) sent
  apart : ∀ i, i ∉ picked → parcels (.victim i) sent = []

theorem Ships.append {first rest : List Slot} {sent more : List Request}
    (apart : ∀ i ∈ first, i ∉ rest) (head : Ships c first d sent) (tail : Ships d rest e more) :
    Ships c (first ++ rest) e (sent ++ more) := by
  refine ⟨?_, ?_, ?_, ?_, ?_, ?_, ?_, ?_⟩
  · rw [tail.outbound, head.outbound, List.append_assoc]
  · rw [tail.misses, head.misses]
  · rw [tail.writes, head.writes]
  · intro q member
    rcases List.mem_append.mp member with early | late
    · exact head.sends q early
    · exact tail.sends q late
  · intro i outside
    simp only [List.mem_append, not_or] at outside
    rw [tail.others i outside.2, head.others i outside.1]
  · intro i member v present
    rcases List.mem_append.mp member with early | late
    · rw [tail.others i (apart i early)] at present
      exact head.started i early v present
    · exact tail.started i late v present
  · intro i member
    rw [parcels_append]
    rcases List.mem_append.mp member with early | late
    · have later := apart i early
      rw [tail.apart i later, List.append_nil, ← head.loads i early,
        VictimBuffer.load_congr (tail.others i later)]
    · have earlier : i ∉ first := fun early => apart i early late
      rw [head.apart i earlier, List.nil_append, tail.loads i late]
  · intro i outside
    simp only [List.mem_append, not_or] at outside
    rw [parcels_append, head.apart i outside.1, tail.apart i outside.2, List.append_nil]

theorem ships_send {slot : Slot} {v : Victim} (present : c.victims.get? slot = some v)
    (started : v.phase = .inTransfer) :
    Ships c [slot] (c.send (.victim slot v.addr v.data)) [v.request slot] := by
  refine ⟨rfl, rfl, rfl, fun q member => ⟨v, slot, List.mem_singleton.mp member⟩, fun _ _ => rfl,
    ?_, ?_, ?_⟩
  · intro i member w found
    rw [List.mem_singleton.mp member] at found
    cases present.symm.trans found
    simp [started]
  · intro i member
    rw [List.mem_singleton.mp member, parcels_request, if_pos rfl]
    simp [send, VictimBuffer.load, present, Option.filter, started]
  · intro i outside
    rw [parcels_request, if_neg]
    intro same
    cases same
    exact outside (List.mem_singleton_self _)

theorem ships_drainToCache (c : Controller) (slot : Slot) (v : Victim)
    (present : c.victims.get? slot = some v) (started : v.phase = .inTransfer) :
    ∃ sent, Ships c [slot] (c.drainToCache slot) sent := by
  unfold drainToCache
  simp only [present]
  split
  · refine ⟨[], (List.append_nil _).symm, rfl, rfl, by simp, ?_, ?_, ?_, fun _ _ => rfl⟩
    · intro i outside
      rw [VictimBuffer.get?_finish, if_neg]
      rintro rfl
      exact outside (List.mem_singleton_self _)
    · intro i member w found
      rw [List.mem_singleton.mp member, VictimBuffer.get?_finish, if_pos rfl, present] at found
      cases found
      simp
    · intro i member
      rw [List.mem_singleton.mp member, VictimBuffer.load_finish, if_pos rfl]
      rfl
  · exact ⟨_, ships_send present started⟩

theorem ships_sendVictim (c : Controller) (slot : Slot) (v : Victim)
    (present : c.victims.get? slot = some v) (started : v.phase = .inTransfer) :
    ∃ sent, Ships c [slot] (c.sendVictim slot) sent := by
  simp only [sendVictim, present]
  exact ⟨_, ships_send present started⟩

theorem ships_foldl (f : Controller → Slot → Controller)
    (one : ∀ (c : Controller) (slot : Slot) (v : Victim), c.victims.get? slot = some v →
      v.phase = .inTransfer → ∃ sent, Ships c [slot] (f c slot) sent)
    (picked : List Slot) (nodup : picked.Nodup) (c : Controller)
    (started : ∀ i ∈ picked, ∃ v, c.victims.get? i = some v ∧ v.phase = .inTransfer) :
    ∃ sent, Ships c picked (picked.foldl f c) sent := by
  induction picked generalizing c with
  | nil =>
    exact ⟨[], (List.append_nil _).symm, rfl, rfl, by simp, fun _ _ => rfl, by simp, by simp,
      fun _ _ => rfl⟩
  | cons slot rest ih =>
    obtain ⟨fresh, apart⟩ := List.nodup_cons.mp nodup
    obtain ⟨v, present, under_way⟩ := started slot List.mem_cons_self
    obtain ⟨sent, head⟩ := one c slot v present under_way
    have single (i : Slot) (member : i ∈ [slot]) : i ∉ rest := by
      rw [List.mem_singleton.mp member]
      exact fresh
    obtain ⟨more, tail⟩ := ih apart (f c slot) (by
      intro i member
      rw [head.others i fun here => single i here member]
      exact started i (List.mem_cons_of_mem _ member))
    exact ⟨sent ++ more, head.append single tail⟩

theorem phase_picked {b : VictimBuffer} {d : Destination} {i : Slot} (picked : i ∈ (b.startTransfers d).1) :
    ∃ v, (b.startTransfers d).2.get? i = some v ∧ v.phase = .inTransfer := by
  obtain ⟨v, present, waits⟩ := (VictimBuffer.mem_startTransfers b d i).mp picked
  refine ⟨{ v with phase := .inTransfer }, ?_, rfl⟩
  rw [VictimBuffer.get?_startTransfers, present, Option.map_some, if_pos waits]

theorem get?_of_not_picked {b : VictimBuffer} {d : Destination} {i : Slot}
    (outside : i ∉ (b.startTransfers d).1) : (b.startTransfers d).2.get? i = b.get? i := by
  rw [VictimBuffer.get?_startTransfers]
  cases present : b.get? i with
  | none => rfl
  | some v =>
    rw [Option.map_some, if_neg]
    exact fun waits => outside ((VictimBuffer.mem_startTransfers b d i).mpr ⟨v, present, waits⟩)

theorem load_picked {b : VictimBuffer} {d : Destination} {i : Slot} (picked : i ∈ (b.startTransfers d).1) :
    b.load i = none := by
  obtain ⟨v, present, waits⟩ := (VictimBuffer.mem_startTransfers b d i).mp picked
  simp only [Victim.waitsFor, Bool.and_eq_true, beq_iff_eq] at waits
  exact VictimBuffer.load_of_waiting present waits.1

theorem shed_transferVictims (c : Controller) : Shed c c.transferVictims := by
  let start : Controller := { c with victims := (c.victims.startTransfers .cache).2 }
  let down := (c.victims.startTransfers .cache).1
  let middle := down.foldl drainToCache start
  let away : Controller := { middle with victims := (middle.victims.startTransfers .memory).2 }
  let out := (middle.victims.startTransfers .memory).1
  obtain ⟨sent, first⟩ := ships_foldl drainToCache ships_drainToCache down (Slots.select_nodup _ _)
    start fun _ => phase_picked
  obtain ⟨more, last⟩ := ships_foldl sendVictim ships_sendVictim
    out (Slots.select_nodup _ _) away fun _ => phase_picked
  have whole : c.transferVictims = out.foldl sendVictim away := rfl
  rw [whole]
  refine ⟨sent ++ more, ?_, ?_, ?_, ?_, ?_⟩
  · rw [last.outbound, ← List.append_assoc]
    exact congrArg (· ++ more) first.outbound
  · rw [last.misses]
    exact first.misses
  · rw [last.writes]
    exact first.writes
  · intro q member
    rcases List.mem_append.mp member with early | late
    · exact first.sends q early
    · exact last.sends q late
  · intro i
    rw [parcels_append]
    by_cases early : i ∈ down
    · have later : i ∉ out := by
        intro member
        obtain ⟨v, present, waits⟩ := (VictimBuffer.mem_startTransfers _ _ _).mp member
        simp only [Victim.waitsFor, Bool.and_eq_true, beq_iff_eq] at waits
        exact first.started i early v present waits.1
      have cell : (out.foldl sendVictim away).victims.get? i = middle.victims.get? i :=
        (last.others i later).trans (get?_of_not_picked later)
      rw [load_picked early, last.apart i later, List.append_nil,
        VictimBuffer.load_congr cell]
      exact first.loads i early
    · have kept : middle.victims.get? i = c.victims.get? i :=
        (first.others i early).trans (get?_of_not_picked early)
      rw [first.apart i early, List.nil_append]
      by_cases late : i ∈ out
      · have empty : c.victims.load i = none := by
          rw [← VictimBuffer.load_congr kept]
          exact load_picked late
        rw [empty, last.loads i late]
        rfl
      · have cell : (out.foldl sendVictim away).victims.get? i = c.victims.get? i :=
          ((last.others i late).trans (get?_of_not_picked late)).trans kept
        rw [last.apart i late, List.append_nil, VictimBuffer.load_congr cell]

/-- A block that goes into the victim buffer has nothing under way yet. -/
theorem shed_allocate (c : Controller) (a : Address) (data : Block) (d : Destination)
    (counters : Counters) :
    Shed c { c with victims := (c.victims.allocate a data d).2, counters } :=
  .silent rfl rfl rfl fun i => VictimBuffer.load_allocate c.victims a data d i

theorem shed_noteFault {α : Type} (fault : Fault) (c : Controller) :
    Shed c (noteFault ((.error fault : Except Fault α), c)).2 :=
  .of_eq rfl rfl rfl rfl

theorem shed_allocateVictim (c : Controller) (a : Address) (data : Block) (d : Destination) :
    Shed c (c.allocateVictim a data d).2 := by
  unfold allocateVictim
  split
  · rename_i fault victims shape
    have taken := shed_allocate c a data d c.counters
    rw [shape] at taken
    exact taken.trans (shed_noteFault fault _)
  · rename_i slot victims shape
    have taken := shed_allocate c a data d (countVictim c.counters d)
    rw [shape] at taken
    exact taken.trans (shed_transferVictims _)

theorem shed_keepDisplaced (c : Controller) (displaced : Option Displaced) :
    Shed c (c.keepDisplaced displaced).2 := by
  unfold keepDisplaced
  split
  · exact .refl c
  · rename_i d
    split
    · split
      · exact .refl c
      · rename_i data _
        split
        · rename_i fault victims shape
          have taken := shed_allocate c d.addr data .cache c.counters
          rwa [shape] at taken
        · rename_i slot victims shape
          have taken := shed_allocate c d.addr data .cache (countVictim c.counters .cache)
          rwa [shape] at taken
    · exact .refl c

theorem shed_fillPrimary (c : Controller) (a : Address) (s : LineState) :
    Shed c (c.fillPrimary a s).2 := by
  have entered : Shed c { c with tags := (c.tags.fill a s).2 } := .of_eq rfl rfl rfl rfl
  have kept := entered.trans
    (shed_keepDisplaced { c with tags := (c.tags.fill a s).2 } (c.tags.fill a s).1)
  unfold fillPrimary
  simp only
  split
  · rename_i shape
    rwa [shape] at kept
  · rename_i shape
    rw [shape] at kept
    exact kept.trans (shed_transferVictims _)

theorem shed_pullDown (c : Controller) (a : Address) : Shed c (c.pullDown a) := by
  unfold pullDown
  split
  · exact .refl c
  · split
    · exact .refl c
    · split
      · exact .of_eq rfl rfl rfl rfl
      · split
        · exact .of_eq rfl rfl rfl rfl
        · exact .of_eq rfl rfl rfl rfl

theorem load_insert (cache : BackupCache) (a : Address) (data : Block) (s : LineState)
    (victims : VictimBuffer) (d : Destination) (i : Slot) :
    (cache.insert a data s victims d).2.2.load i = victims.load i := by
  unfold BackupCache.insert
  split
  · rfl
  · rename_i old _
    split
    · rfl
    · split
      · have taken := VictimBuffer.load_allocate victims old.addr old.data d i
        split
        · rename_i shape
          rwa [shape] at taken
        · rename_i shape
          rwa [shape] at taken
      · rfl

theorem shed_install (c : Controller) (a : Address) (data : Block) (s : LineState) :
    Shed c (c.install a data s).2 := by
  have pulled := shed_pullDown c a
  unfold install
  simp only
  generalize c.pullDown a = p at pulled ⊢
  have inserted (cache : BackupCache) (counters : Counters) : Shed c
      { p with
        cache, counters
        victims := (p.cache.insert a data { s with dirty := false } p.victims .memory).2.2 } :=
    pulled.trans (.silent rfl rfl rfl fun i => load_insert p.cache a data _ p.victims .memory i)
  split
  · rename_i fault cache victims shape
    have stays := inserted cache p.counters
    rwa [shape] at stays
  · rename_i evicted cache victims shape
    rw [shape] at inserted
    have entered := inserted cache
      (if (evicted.bind (·.victim)).isSome then countVictim p.counters .memory else p.counters)
    split
    · have filled := entered.trans (shed_fillPrimary _ a s)
      split
      · rename_i shape
        rwa [shape] at filled
      · rename_i shape
        rw [shape] at filled
        exact filled.trans (shed_transferVictims _)
    · exact (inserted _ _).trans (shed_transferVictims _)

theorem shed_installFill (c : Controller) (a : Address) (data : Option Block) (s : LineState) :
    Shed c (c.installFill a data s).2 := by
  unfold installFill
  split
  · exact .refl c
  · rename_i data
    split
    · exact .refl c
    · have installed := shed_install c a data s
      split
      · rename_i shape
        rwa [shape] at installed
      · rename_i shape
        rw [shape] at installed
        split
        · exact installed.trans (.of_eq rfl rfl rfl rfl)
        · exact installed

theorem shed_expel (c : Controller) (a : Address) (s : LineState) : Shed c (c.expel a s).2 := by
  unfold expel
  split
  · simp only
    split
    · exact .of_eq rfl rfl rfl rfl
    · rename_i held data cache _
      have dropped : Shed c { c with tags := (c.tags.drop a).2, cache } := .of_eq rfl rfl rfl rfl
      split
      · have taken := dropped.trans (shed_allocateVictim _ a data .memory)
        split
        · rename_i shape
          rwa [shape] at taken
        · rename_i shape
          rwa [shape] at taken
      · exact dropped
  · exact .refl c

theorem shed_refillPrimary (c : Controller) (a : Address) (s : LineState) :
    Shed c (c.refillPrimary a s).2 := by
  unfold refillPrimary
  split
  · exact shed_fillPrimary c a s
  · exact .refl c

theorem shed_retireVictim (c : Controller) (a : Address) (data : Block) :
    Shed c (c.retireVictim a data).2 := by
  unfold retireVictim
  split
  · exact .refl c
  · have taken := shed_allocateVictim c a data .cache
    split
    · rename_i shape
      rwa [shape] at taken
    · rename_i shape
      rw [shape] at taken
      exact taken.trans (.of_eq rfl rfl rfl rfl)

end Controller
end CacheCoherence
