import CacheCoherence.Controller.Referencing
import CacheCoherence.Proofs.Answers

/-! What a reference of the pipeline does. `Issued` lists the ways it may go: it is refused, it is
answered from the caches, it joins one that waits, or the hub is asked. A reference that is answered
from the caches after it has joined one that waits (`late`) answers that one too, although the hub
has been asked. -/

namespace CacheCoherence

def Access.readKind : Access → Option ReadKind
  | .load _ | .fetch => some .share
  | .store _ | .conditional _ => some .modify
  | .upgrade _ | .conditionalUpgrade _ => some .upgrade
  | .claim => some .claim
  | .purge | .barrier => none

theorem Access.readKind_upgrade {a : Access} (upgrade : a.isUpgrade) :
    a.readKind = some .upgrade := by
  cases a <;> first | rfl | cases upgrade

theorem Access.upgrade_of_readKind {a : Access} (reads : a.readKind = some .upgrade) : a.isUpgrade := by
  cases a <;> cases reads <;> rfl

theorem Access.readKind_claim_iff (a : Access) : a.readKind = some .claim ↔ a = .claim := by
  cases a <;> simp [Access.readKind]

namespace MissFile

variable {f : MissFile}

theorem mergeTarget_some {r : Reference} {slot : Slot} {m : Miss}
    (target : f.mergeTarget r = some (slot, m)) :
    r.access.merges ∧ f.get? slot = some m ∧ m.answer = none ∧ m.request.access = r.access ∧
      m.request.addr.block = r.addr.block := by
  unfold mergeTarget at target
  split at target
  · rename_i merges
    split at target
    · cases target
    · rename_i found
      split at target
      · cases target
        obtain ⟨present, awaits⟩ := Slots.find?_some found
        simp only [Miss.awaits, Bool.and_eq_true, Option.isNone_iff_eq_none, beq_iff_eq] at awaits
        exact ⟨merges, present, awaits.1.1, awaits.1.2, awaits.2⟩
      · cases target
  · cases target

theorem allocate_cases (f : MissFile) (r : Reference) :
    (∃ fault, f.allocate r = (.error fault, f)) ∨
    (∃ slot m, r.check = .ok () ∧ f.mergeTarget r = some (slot, m) ∧
      f.allocate r =
        (.ok ⟨slot, true⟩, ⟨f.slots.put slot { m with request := m.request.join r }⟩)) ∨
    (∃ slot, r.check = .ok () ∧ f.mergeTarget r = none ∧ f.get? slot = none ∧
      f.allocate r = (.ok ⟨slot, false⟩, ⟨f.slots.put slot { request := r }⟩)) := by
  unfold allocate
  split
  · exact .inl ⟨_, rfl⟩
  · rename_i checked
    split
    · rename_i target
      exact .inr (.inl ⟨_, _, checked, target, rfl⟩)
    · rename_i alone
      split
      · exact .inl ⟨_, rfl⟩
      · rename_i found
        exact .inr (.inr ⟨_, checked, alone, Slots.free?_some found, rfl⟩)

/-- A reference of a kind that never joins another takes a slot of its own. -/
theorem allocate_alone {r : Reference} (single : r.access.merges = false) :
    (∃ fault, f.allocate r = (.error fault, f)) ∨
    (∃ slot, f.get? slot = none ∧
      f.allocate r = (.ok ⟨slot, false⟩, ⟨f.slots.put slot { request := r }⟩)) := by
  rcases allocate_cases f r with refused | ⟨slot, m, _, target, _⟩ | ⟨slot, _, _, free, taken⟩
  · exact .inl refused
  · rw [(mergeTarget_some target).1] at single
    cases single
  · exact .inr ⟨slot, free, taken⟩

theorem complete_waiting {slot : Slot} {m : Miss} (present : f.get? slot = some m)
    (waits : m.answer = none) (answer : Answer) :
    f.complete slot answer =
      (.ok (), ⟨f.slots.put slot { m with answer := some answer }⟩) := by
  simp only [complete, present, waits, Option.isSome_none, Bool.false_eq_true, if_false]

end MissFile

namespace Controller

variable {c : Controller}

/-- A victim for memory leaves at once, and nothing comes back to the backup cache. -/
theorem Good.leaves_at_once (good : c.Good) (slot : Slot) (a : Address)
    (data : Block) (counters : Counters) :
    let middle : Controller :=
      { c with
        victims := ⟨c.victims.slots.put slot { addr := a, data, destination := .memory }⟩
        counters }
    middle.transferVictims.outbound = c.outbound ++ [.victim slot a data] ∧
      ∀ b, middle.transferVictims.cache.find? b = c.cache.find? b := by
  intro middle
  have aside (i : Slot) (w : Victim) (present : middle.victims.get? i = some w) :
      w.waitsFor .cache = false := by
    rcases VictimBuffer.cases_of_put present with ⟨_, same⟩ | old
    · rw [same]
      rfl
    · exact good.settled.not_waits old _
  have quiet (b : Address) : middle.victims.returns b = false := by
    rw [VictimBuffer.returns, List.any_eq_false]
    intro i _
    cases present : middle.victims.get? i with
    | none => simp
    | some w => simp [aside i w present]
  obtain ⟨outbound, lines⟩ := transferVictims_held (c := middle) (by
    intro i w present waits
    rw [aside i w present] at waits
    cases waits)
  constructor
  · rw [outbound]
    exact congrArg (c.outbound ++ ·) (VictimBuffer.leaving_put_memory good.settled slot a data)
  · intro b
    rw [lines, quiet]
    simp only [Bool.or_false]
    rw [Option.map_id']

/-- A victim that is taken in starts its transfer, and every line that was held still is. -/
theorem Good.allocateVictim (good : c.Good) (a : Address) (data : Block) {d : Destination}
    (bound : d ≠ .probe) :
    ((∃ fault, (c.allocateVictim a data d).1 = .error fault) ∧ c.victims.hasRoom = false ∧
      Quiet c (c.allocateVictim a data d).2) ∨
    ∃ slot sent, (c.allocateVictim a data d).1 = .ok slot ∧ (c.allocateVictim a data d).2.Good ∧
      Moves c (c.allocateVictim a data d).2 sent ∧
      (c.allocateVictim a data d).2.tags = c.tags ∧
      (∀ b, (c.allocateVictim a data d).2.cache.hit b = c.cache.hit b) ∧
      (d = .memory → sent = [.victim slot a.block data] ∧
        ∀ b, (c.allocateVictim a data d).2.line b = c.line b) := by
  rcases VictimBuffer.allocate_cases c.victims a data d with
    ⟨full, refused⟩ | ⟨_, slot, _, taken⟩
  · left
    have shape : c.allocateVictim a data d =
        noteFault (.error (.exhausted .victimBuffer), c) := by
      simp only [Controller.allocateVictim, refused]
    rw [shape]
    exact ⟨⟨_, rfl⟩, full, good.quiet rfl rfl rfl rfl fun _ => rfl⟩
  · right
    let v : Victim := { addr := a.block, data, destination := d }
    let middle : Controller :=
      { c with victims := ⟨c.victims.slots.put slot v⟩, counters := countVictim c.counters d }
    have shape : c.allocateVictim a data d = (.ok slot, middle.transferVictims) := by
      simp only [Controller.allocateVictim, taken, middle, v]
    obtain ⟨sent, moved⟩ := transfers middle
    have tags : middle.transferVictims.tags = c.tags := by rw [moved.frame]
    have settled : middle.transferVictims.victims.Settled := by
      intro i w present waiting
      obtain ⟨before, probed⟩ := moved.waiting i w present waiting
      rcases VictimBuffer.cases_of_put before with ⟨_, same⟩ | old
      · rw [same] at probed
        exact bound probed
      · exact good.settled i w old waiting
    rw [shape]
    refine ⟨slot, sent, rfl, ⟨⟨?_, moved.placed good.cache, ?_⟩, settled⟩, ⟨?_, moved.sends, ?_⟩,
      tags, moved.hit, ?_⟩
    · rw [tags]
      exact good.tags
    · intro b valid
      rw [tags] at valid
      rw [moved.hit]
      exact good.included b valid
    · rw [moved.frame]
    · intro i w present draining _
      rcases moved.carried i w present draining with before | member
      · rcases VictimBuffer.cases_of_put before with ⟨here, same⟩ | old
        · have waiting : w.phase = .waiting := by rw [same]
          exact absurd waiting (settled i w present)
        · exact .inl old
      · exact .inr member
    · rintro rfl
      obtain ⟨outbound, lines⟩ := good.leaves_at_once slot a.block data (countVictim c.counters .memory)
      constructor
      · rw [moved.frame] at outbound
        exact List.append_cancel_left outbound
      · intro b
        change middle.transferVictims.line b = _
        rw [line_eq, line_eq, tags, lines]

structure Expels (c : Controller) (a : Address) (d : Controller) (sent : List Request) : Prop where
  good : d.Good
  moved : Moves c d sent
  others : ∀ b, b.block ≠ a.block → d.line b = c.line b
  gone : d.line a = .absent
  fate : Fate a (c.line a) .absent sent
  silent : ∀ b, b.block ≠ a.block → onBlock b sent = []

theorem Good.expels_invalid (good : c.Good) {a : Address} (invalid : (c.lookup a).valid = false) :
    Expels c a c [] where
  good := good
  moved := .refl c
  others := fun _ _ => rfl
  gone := good.toLevels.absent_of_invalid invalid
  fate := .kept (good.toLevels.absent_of_invalid invalid).symm rfl
  silent := fun _ _ => rfl

theorem Good.expels_clean (good : c.Good) {a : Address} (clean : (c.lookup a).isDirty = false) :
    Expels c a { c with tags := (c.tags.drop a).2, cache := (c.cache.drop a).2 } [] where
  good := ⟨good.toLevels.dropped a, good.settled⟩
  moved := ⟨by simp, by simp, fun _ _ present _ _ => .inl present⟩
  others := fun b apart => (good.toLevels.line_dropped a b).trans (if_neg apart)
  gone := (good.toLevels.line_dropped a a).trans (if_pos rfl)
  fate := .clean rfl (by simpa [Controller.line] using clean) rfl
  silent := fun _ _ => rfl

/-- Dirty data of the block that goes are sent to the hub as a victim. -/
theorem Good.expels_dirty (good : c.Good) {a : Address} {data : Block} (room : c.victims.hasRoom)
    (dirty : (c.lookup a).isDirty) (copy : (c.line a).copy = some data) :
    ∃ slot d sent, { c with tags := (c.tags.drop a).2, cache := (c.cache.drop a).2 }.allocateVictim a data
      .memory = (.ok slot, d) ∧ Expels c a d sent := by
  have line (b : Address) := good.toLevels.line_dropped a b
  have tidy : { c with tags := (c.tags.drop a).2, cache := (c.cache.drop a).2 }.Good :=
    ⟨good.toLevels.dropped a, good.settled⟩
  rcases tidy.allocateVictim a data (d := .memory) (by simp) with
    ⟨_, full, _⟩ | ⟨slot, sent, taken, kept, moved, _, _, memory⟩
  · rw [room] at full
    cases full
  · obtain ⟨rfl, lines⟩ := memory rfl
    refine ⟨slot, _, _, Prod.ext taken rfl, kept, ⟨?_, moved.sends, moved.carried⟩, ?_, ?_, ?_, ?_⟩
    · exact moved.frame
    · exact fun b apart => (lines b).trans ((line b).trans (if_neg apart))
    · exact (lines a).trans ((line a).trans (if_pos rfl))
    · refine .dirty rfl dirty slot data copy ?_
      simp [Request.block?]
    · intro b apart
      simp [Request.block?, Ne.symm apart]

/-- The block is gone from both tag stores, with a victim if it was dirty. -/
theorem Good.expel (good : c.Good) (a : Address)
    (room : (c.lookup a).isDirty → c.victims.hasRoom) :
    ∃ sent, (c.expel a (c.lookup a)).1 = .ok () ∧
      Expels c a (c.expel a (c.lookup a)).2 sent := by
  unfold Controller.expel
  split
  · rename_i valid
    rw [good.toLevels.lookup_valid] at valid
    obtain ⟨l, found⟩ := Option.isSome_iff_exists.mp valid
    obtain ⟨cache, dropped⟩ : ∃ cache, c.cache.drop a = (some (l.state, l.data), cache) :=
      ⟨_, Prod.ext (by rw [BackupCache.drop_fst, found]; rfl) rfl⟩
    have copy : (c.line a).copy = some l.data := by simp [Controller.line, BackupCache.read_eq, found]
    have dirty : (c.lookup a).isDirty = ((c.lookup a).isDirty || l.state.isDirty) := by
      simp only [lookup, isDirty_merge, BackupCache.stateOf_eq, found, Option.map_some,
        Option.getD_some, Bool.or_assoc, Bool.or_self]
    have left : (c.cache.drop a).2 = cache := by rw [dropped]
    simp only [dropped]
    rw [← dirty]
    cases newer : (c.lookup a).isDirty with
    | true =>
      obtain ⟨slot, d, sent, taken, expels⟩ := good.expels_dirty (room newer) newer copy
      rw [left] at taken
      rw [if_pos rfl, taken]
      exact ⟨sent, rfl, expels⟩
    | false =>
      have expels := good.expels_clean newer
      rw [left] at expels
      exact ⟨[], rfl, expels⟩
  · rename_i invalid
    exact ⟨[], rfl, good.expels_invalid (eq_false_of_ne_true invalid)⟩

theorem Good.refillPrimary (good : c.Good) {a : Address} (valid : (c.lookup a).valid) :
    (c.refillPrimary a (c.lookup a)).1 = .ok () ∧ (c.refillPrimary a (c.lookup a)).2.Good ∧
      Moves c (c.refillPrimary a (c.lookup a)).2 [] ∧
      ∀ b, (c.refillPrimary a (c.lookup a)).2.line b = c.line b := by
  unfold Controller.refillPrimary
  split
  · rename_i enters
    simp only [Bool.and_eq_true, Bool.not_eq_true', DuplicateTags.hit_eq] at enters
    obtain ⟨untagged, room⟩ := enters
    rw [good.toLevels.lookup_valid] at valid
    obtain ⟨done, kept, moved, others, line⟩ :=
      fillPrimary_spec good.toLevels (.of_settled good.settled) room valid (c.lookup a)
    rw [good.settled.leaving_eq] at moved
    refine ⟨done, kept, moved, ?_⟩
    obtain ⟨l, found⟩ := Option.isSome_iff_exists.mp valid
    have tag : c.tags.stateOf a = .invalid := by
      rw [← DuplicateTags.settled_stateOf good.tags]
      simp [LineState.settled, untagged, LineState.invalid]
    have state : c.lookup a = l.state := by
      simp [lookup, tag, LineState.merge_comm LineState.invalid, BackupCache.stateOf_eq, found,
        LineState.settled, CacheLine.state]
    intro b
    by_cases same : b.block = a.block
    · rw [line_congr _ same, line, line_congr c same, line_eq, tag, state, found]
      simp [lineOf, LineState.settled, LineState.isDirty, CacheLine.state, LineState.invalid]
    · exact others b same
  · exact ⟨rfl, good, .refl c, fun _ => rfl⟩

theorem foldl_sendWrite (slots : List Slot) (c : Controller) :
    ∃ writes, slots.foldl sendWrite c = { c with outbound := c.outbound ++ writes } ∧
      ∀ r ∈ writes, ∃ slot a data mask written, r = .ioWrite (.ioWrite slot) a data mask written := by
  induction slots generalizing c with
  | nil => exact ⟨[], by simp, by simp⟩
  | cons slot rest ih =>
    obtain ⟨writes, shape, only⟩ := ih (c.sendWrite slot)
    rw [List.foldl_cons, shape]
    unfold sendWrite
    cases c.writes.get? slot with
    | none => exact ⟨writes, rfl, only⟩
    | some w =>
      refine ⟨.ioWrite (.ioWrite slot) w.addr w.payload w.mask w.written :: writes, ?_, ?_⟩
      · simp [send]
      · intro r member
        rcases List.mem_cons.mp member with rfl | later
        · exact ⟨_, _, _, _, _, rfl⟩
        · exact only r later

theorem flush_spec (c : Controller) :
    ∃ writes buffer, c.flush.2 = { c with writes := buffer, outbound := c.outbound ++ writes } ∧
      ∀ r ∈ writes, ∃ slot a data mask written, r = .ioWrite (.ioWrite slot) a data mask written := by
  obtain ⟨writes, shape, only⟩ := foldl_sendWrite c.writes.issue.1 { c with writes := c.writes.issue.2 }
  exact ⟨writes, c.writes.issue.2, shape, only⟩

theorem wanted_of_free {slot : Slot} (free : c.misses.get? slot = none) :
    c.wanted slot = none := by
  rw [wanted, free]
  rfl

/-- A reference that has a slot to itself and is answered at once leaves the others waiting. -/
theorem wanted_answered {d : Controller} {slot : Slot} {r : Reference} {m : Miss} {result : MissFile}
    (free : c.misses.get? slot = none) (misses : d.misses = ⟨c.misses.slots.put slot { request := r }⟩)
    (written : result = ⟨d.misses.slots.put slot m⟩) (done : m.answer.isSome) (i : Slot) :
    { d with misses := result }.wanted i = c.wanted i := by
  refine (wanted_put d written i).trans ?_
  by_cases here : slot = i
  · subst here
    rw [if_pos rfl, wanted_of_free free, Option.isNone_eq_false_iff.mpr done]
    rfl
  · rw [if_neg here, wanted_put c misses, if_neg here]

/-- The part of a controller that a reference leaves alone unless it evicts. -/
structure Held (c d : Controller) : Prop where
  good : d.Good
  lines : ∀ b, d.line b = c.line b
  carried : ∀ i v, d.victims.get? i = some v → v.draining → v.destination ≠ .probe →
    c.victims.get? i = some v

theorem Good.held (good : c.Good) {d : Controller} (tags : d.tags = c.tags)
    (cache : d.cache = c.cache) (victims : d.victims = c.victims) : Held c d := by
  refine ⟨good.of_eq tags cache victims, line_of_eq tags cache, ?_⟩
  intro i v found _ _
  rwa [victims] at found

theorem Held.of_eq {d e : Controller} (held : Held c d) (tags : e.tags = d.tags)
    (cache : e.cache = d.cache) (victims : e.victims = d.victims) : Held c e := by
  refine ⟨held.good.of_eq tags cache victims, ?_, ?_⟩
  · intro b
    rw [line_of_eq tags cache, held.lines]
  · intro i v found
    rw [victims] at found
    exact held.carried i v found

inductive Issued (c : Controller) (r : Reference) :
    Except Fault Slot → Controller → List Request → Prop
  | refused (fault : Fault) (d : Controller) (quiet : Quiet c d) : Issued c r (.error fault) d []
  | asked (slot : Slot) (access : Access) (kind : ReadKind) (d : Controller) (held : Held c d)
      (free : c.wanted slot = none) (reads : access.readKind = some kind) (named : r.access ≠ .barrier)
      (wanted : ∀ i, d.wanted i = if slot = i then some { r with access } else c.wanted i)
      (place : r.addr.isIo ∧ kind = .share ∨ r.addr.isIo = false ∧
        (kind = .share ∨ kind = .modify → c.line r.addr = .absent)) :
      Issued c r (.ok slot) d [.read (.miss slot) r.addr kind]
  | joined (slot : Slot) (old : Reference) (d : Controller) (held : Held c d)
      (present : c.wanted slot = some old) (access : old.access = r.access)
      (merges : r.access.merges) (block : old.addr.block = r.addr.block)
      (missing : r.addr.isIo ∨ (c.lookup r.addr).valid = false)
      (wanted : ∀ i, d.wanted i = if slot = i then some (old.join r) else c.wanted i) :
      Issued c r (.ok slot) d []
  | hit (slot : Slot) (answer : Answer) (d : Controller) (held : Held c d)
      (free : c.misses.get? slot = none)
      (answered : d.misses.get? slot = some { request := r, answer := some answer })
      (data : answer.data = (c.line r.addr).copy)
      (wanted : ∀ i, d.wanted i = c.wanted i) : Issued c r (.ok slot) d []
  | late (slot : Slot) (m : Miss) (d : Controller) (held : Held c d)
      (checked : r.check = .ok ()) (cacheable : r.addr.isIo = false)
      (valid : (c.lookup r.addr).valid) (target : c.misses.mergeTarget r = some (slot, m))
      (wanted : ∀ i, d.wanted i = if slot = i then none else c.wanted i) :
      Issued c r (.ok slot) d []
  | barrier (slot : Slot) (d : Controller) (held : Held c d) (free : c.wanted slot = none)
      (access : r.access = .barrier)
      (wanted : ∀ i, d.wanted i = if slot = i then some r else c.wanted i)
      (writes : List Request)
      (only : ∀ w ∈ writes, ∃ slot a data mask written, w = .ioWrite (.ioWrite slot) a data mask written) :
      Issued c r (.ok slot) d (writes ++ [.barrier (.miss slot)])
  | purged (slot : Slot) (d : Controller) (good : d.Good) (access : r.access = .purge)
      (wanted : ∀ i, d.wanted i = c.wanted i) (sent : List Request)
      (others : ∀ b, b.block ≠ r.addr.block → d.line b = c.line b ∧ onBlock b sent = [])
      (gone : d.line r.addr = .absent) (fate : Fate r.addr (c.line r.addr) .absent sent)
      (sends : ∀ q ∈ sent, ∃ (v : Victim) (slot : Slot), q = v.request slot)
      (carried : ∀ i v, d.victims.get? i = some v → v.draining → v.destination ≠ .probe →
        c.victims.get? i = some v ∨ v.request i ∈ sent) :
      Issued c r (.ok slot) d sent

def Went (c : Controller) (r : Reference) (result : Except Fault Slot × Controller) : Prop :=
  ∃ sent, Issued c r result.1 result.2 sent ∧ result.2.outbound = c.outbound ++ sent

theorem Good.went_refused (good : c.Good) (r : Reference) (fault : Fault) {d : Controller}
    (tags : d.tags = c.tags) (cache : d.cache = c.cache) (victims : d.victims = c.victims)
    (outbound : d.outbound = c.outbound) (misses : d.misses = c.misses) :
    Went c r (.error fault, d) := by
  refine ⟨[], .refused fault d ?_, by simpa using outbound⟩
  exact good.quiet tags cache victims outbound (wanted_of_misses misses)

theorem Good.request (good : c.Good) (r : Reference) (access : Access) {kind : ReadKind}
    (reads : access.readKind = some kind) (named : r.access ≠ .barrier)
    (place : r.addr.isIo ∧ kind = .share ∨ r.addr.isIo = false ∧
      (kind = .share ∨ kind = .modify → c.line r.addr = .absent))
    (joins : access.merges → access = r.access ∧
      (r.addr.isIo ∨ (c.lookup r.addr).valid = false)) :
    Went c r (c.request { r with access } kind) := by
  unfold Controller.request
  rcases MissFile.allocate_cases c.misses { r with access } with
    ⟨fault, refused⟩ | ⟨slot, m, _, target, taken⟩ | ⟨slot, _, _, free, taken⟩
  · rw [refused]
    exact good.went_refused r fault rfl rfl rfl rfl rfl
  · rw [taken]
    obtain ⟨merges, present, waits, same, block⟩ := MissFile.mergeTarget_some target
    obtain ⟨rfl, missing⟩ := joins merges
    refine ⟨[], ?_, by simp⟩
    refine .joined slot m.request _ ?_ ?_ same merges block missing ?_
    · exact good.held rfl rfl rfl
    · rw [wanted_eq_some_iff]
      exact ⟨m, present, waits, rfl⟩
    · intro i
      refine (wanted_put c rfl i).trans ?_
      simp [waits]
  · rw [taken]
    refine ⟨_, ?_, rfl⟩
    refine .asked slot access kind _ ?_ (wanted_of_free free) reads named ?_ place
    · exact good.held rfl rfl rfl
    · intro i
      refine (wanted_put c rfl i).trans ?_
      rfl

theorem Good.refill_first (good : c.Good) {a : Address} (valid : (c.lookup a).valid)
    (misses : MissFile) (counters : Counters) :
    ∃ d, Controller.refillPrimary { c with misses, counters } a (c.lookup a) = (.ok (), d) ∧
      Held c d ∧ d.misses = misses ∧ d.outbound = c.outbound := by
  let start : Controller := { c with misses, counters }
  have tidy : start.Good := good.of_eq rfl rfl rfl
  obtain ⟨done, kept, moved, lines⟩ := tidy.refillPrimary (a := a) valid
  obtain ⟨d, shape⟩ : ∃ d, start.refillPrimary a (start.lookup a) = (.ok (), d) :=
    ⟨_, Prod.ext done rfl⟩
  rw [shape] at kept moved lines
  have frame : d = _ := moved.frame
  refine ⟨d, shape, ⟨kept, ?_, ?_⟩, ?_, ?_⟩
  · intro b
    exact (lines b).trans (line_of_eq rfl rfl b)
  · intro i v present draining aside
    rcases moved.carried i v present draining aside with before | member
    · exact before
    · cases member
  · rw [frame]
  · rw [frame]
    exact List.append_nil _

/-- A reference that is answered from the caches answers the one that it has joined. -/
theorem Good.completeLocally_late (good : c.Good) {r : Reference} (checked : r.check = .ok ())
    (valid : (c.lookup r.addr).valid) {slot : Slot} {m : Miss}
    (target : c.misses.mergeTarget r = some (slot, m)) :
    ∃ d, c.completeLocally r (c.lookup r.addr) = (.ok slot, d) ∧ Held c d ∧
      d.outbound = c.outbound ∧ ∀ i, d.wanted i = if slot = i then none else c.wanted i := by
  obtain ⟨_, present, waits, _⟩ := MissFile.mergeTarget_some target
  have taken : c.misses.allocate r =
      (.ok ⟨slot, true⟩, ⟨c.misses.slots.put slot { m with request := m.request.join r }⟩) := by
    simp only [MissFile.allocate, checked, target]
  obtain ⟨d, refilled, held, misses, outbound⟩ := good.refill_first valid
    ⟨c.misses.slots.put slot { m with request := m.request.join r }⟩
    { countAllocation c.counters with localHits := c.counters.localHits + 1 }
  have cell : d.misses.get? slot = some { m with request := m.request.join r } := by
    rw [misses, MissFile.get?_put, if_pos rfl]
  have answered := MissFile.complete_waiting cell waits
    ⟨d.cache.read r.addr, (c.lookup r.addr).shared, false⟩
  refine ⟨{ d with misses := (d.misses.complete slot
    ⟨d.cache.read r.addr, (c.lookup r.addr).shared, false⟩).2 }, ?_, ?_, outbound, ?_⟩
  · simp only [Controller.completeLocally, taken, refilled, Controller.answerMiss, answered]
  · exact held.of_eq rfl rfl rfl
  · intro i
    refine (wanted_put d (by rw [answered]) i).trans ?_
    by_cases here : slot = i
    · simp [here]
    · rw [if_neg here, if_neg here, wanted_put c misses, if_neg here]

theorem Good.completeLocally (good : c.Good) (r : Reference) (cacheable : r.addr.isIo = false)
    (valid : (c.lookup r.addr).valid) : Went c r (c.completeLocally r (c.lookup r.addr)) := by
  rcases MissFile.allocate_cases c.misses r with
    ⟨fault, refused⟩ | ⟨slot, m, checked, target, _⟩ | ⟨slot, _, _, free, taken⟩
  · unfold Controller.completeLocally
    rw [refused]
    exact good.went_refused r fault rfl rfl rfl rfl rfl
  · obtain ⟨d, shape, held, outbound, wanted⟩ := good.completeLocally_late checked valid target
    rw [shape]
    exact ⟨[], .late slot m d held checked cacheable valid target wanted, by simpa using outbound⟩
  · unfold Controller.completeLocally
    rw [taken]
    obtain ⟨d, refilled, held, misses, outbound⟩ := good.refill_first valid
      ⟨c.misses.slots.put slot { request := r }⟩
      { countAllocation c.counters with localHits := c.counters.localHits + 1 }
    have cell : d.misses.get? slot = some { request := r } := by
      rw [misses, MissFile.get?_put, if_pos rfl]
    have answered := MissFile.complete_waiting cell rfl
      ⟨d.cache.read r.addr, (c.lookup r.addr).shared, false⟩
    have bytes : d.cache.read r.addr = (c.line r.addr).copy := by
      rw [← held.lines]
      rfl
    simp only [refilled, Controller.answerMiss, answered]
    refine ⟨[], ?_, by simpa using outbound⟩
    refine .hit slot ⟨d.cache.read r.addr, (c.lookup r.addr).shared, false⟩ _ ?_ free ?_ bytes ?_
    · exact held.of_eq rfl rfl rfl
    · change (MissFile.mk _).get? slot = _
      rw [MissFile.get?_put, if_pos rfl]
    · exact wanted_answered free misses rfl rfl

theorem Good.barrier (good : c.Good) {r : Reference} (access : r.access = .barrier) :
    Went c r (c.barrier r) := by
  unfold Controller.barrier
  rcases MissFile.allocate_alone (f := c.misses) (r := r) (by simp [access, Access.merges]) with
    ⟨fault, refused⟩ | ⟨slot, free, taken⟩
  · rw [refused]
    exact good.went_refused r fault rfl rfl rfl rfl rfl
  · rw [taken]
    obtain ⟨writes, buffer, flushed, only⟩ := flush_spec
      { c with misses := ⟨c.misses.slots.put slot { request := r }⟩
               counters := countAllocation c.counters }
    simp only [flushed]
    refine ⟨writes ++ [.barrier (.miss slot)], ?_, by simp [send]⟩
    refine .barrier slot _ ?_ (wanted_of_free free) access ?_ writes only
    · exact good.held rfl rfl rfl
    · intro i
      refine (wanted_put c rfl i).trans ?_
      rfl

theorem Good.purge (good : c.Good) {r : Reference} (access : r.access = .purge) :
    Went c r (c.purge r (c.lookup r.addr)) := by
  unfold Controller.purge
  split
  · exact good.went_refused r _ rfl rfl rfl rfl rfl
  · rename_i ready
    rcases MissFile.allocate_alone (f := c.misses) (r := r) (by simp [access, Access.merges]) with
      ⟨fault, refused⟩ | ⟨slot, free, taken⟩
    · rw [refused]
      exact good.went_refused r fault rfl rfl rfl rfl rfl
    · rw [taken]
      let start : Controller :=
        { c with
          misses := ⟨c.misses.slots.put slot { request := r }⟩
          counters := countAllocation c.counters }
      have tidy : start.Good := good.of_eq rfl rfl rfl
      obtain ⟨sent, done, kept, moved, others, gone, fate, aside⟩ := tidy.expel r.addr (by
        intro dirty
        change (c.lookup r.addr).isDirty at dirty
        simpa [dirty] using ready)
      have lines (b : Address) : start.line b = c.line b := line_of_eq rfl rfl b
      simp only
      split
      · rename_i fault d shape
        change start.expel r.addr (start.lookup r.addr) = _ at shape
        rw [shape] at done
        cases done
      · rename_i d shape
        change start.expel r.addr (start.lookup r.addr) = _ at shape
        rw [shape] at kept moved others gone
        have frame : d = _ := moved.frame
        have misses : d.misses = start.misses := by rw [frame]
        have cell : d.misses.get? slot = some { request := r } := by
          rw [misses, MissFile.get?_put, if_pos rfl]
        have answered := MissFile.complete_waiting cell rfl ⟨none, false, false⟩
        simp only [Controller.answerMiss, answered]
        refine ⟨sent, ?_, by simp only; rw [frame]⟩
        refine .purged slot _ ?_ access ?_ sent ?_ ?_ ?_ moved.sends moved.carried
        · exact kept.of_eq rfl rfl rfl
        · exact wanted_answered free misses rfl rfl
        · intro b apart
          refine ⟨?_, aside b apart⟩
          rw [← lines b, ← others b apart]
          exact line_of_eq rfl rfl b
        · rw [← gone]
          exact line_of_eq rfl rfl _
        · rw [← lines]
          exact fate

section dispatch

variable {r : Reference}

theorem Good.share (good : c.Good) (cacheable : r.addr.isIo = false)
    (reads : r.access.readKind = some .share) :
    Went c r (if (c.lookup r.addr).valid then c.completeLocally r (c.lookup r.addr)
      else c.request r .share) := by
  split
  · rename_i valid
    exact good.completeLocally r cacheable valid
  · rename_i invalid
    rw [Bool.not_eq_true] at invalid
    have named : r.access ≠ .barrier := by
      intro same
      rw [same] at reads
      cases reads
    exact good.request r _ reads named
      (.inr ⟨cacheable, fun _ => good.toLevels.absent_of_invalid invalid⟩)
      fun _ => ⟨rfl, .inr invalid⟩

theorem Good.own (good : c.Good) (cacheable : r.addr.isIo = false)
    (writable : (c.lookup r.addr).writable) : Went c r (c.completeLocally r (c.lookup r.addr)) := by
  simp only [LineState.writable, Bool.and_eq_true] at writable
  exact good.completeLocally r cacheable (LineState.valid_of_isDirty writable.1)

theorem Good.claim (good : c.Good) (cacheable : r.addr.isIo = false) (access : r.access = .claim) :
    Went c r (if (c.lookup r.addr).writable then c.completeLocally r (c.lookup r.addr)
      else c.request r .claim) := by
  split
  · rename_i writable
    exact good.own cacheable writable
  · refine good.request r r.access (by rw [access]; rfl) (by simp [access])
      (.inr ⟨cacheable, by simp⟩) fun merges => ?_
    rw [access] at merges
    cases merges

/-- A store raises a line that it hits and fetches one that it misses. -/
theorem Good.write (good : c.Good) (cacheable : r.addr.isIo = false) (named : r.access ≠ .barrier)
    {held missed : Access} (raise : held.readKind = some .upgrade)
    (fetch : missed.readKind = some .modify) (single : held.merges = false)
    (lone : missed.merges = false) :
    Went c r (if (c.lookup r.addr).writable then c.completeLocally r (c.lookup r.addr)
      else if (c.lookup r.addr).valid then c.request { r with access := held } .upgrade
      else c.request { r with access := missed } .modify) := by
  split
  · rename_i writable
    exact good.own cacheable writable
  · split
    · refine good.request r _ raise named (.inr ⟨cacheable, by simp⟩) fun merges => ?_
      rw [single] at merges
      cases merges
    · rename_i invalid
      rw [Bool.not_eq_true] at invalid
      have absent := good.toLevels.absent_of_invalid invalid
      refine good.request r _ fetch named (.inr ⟨cacheable, fun _ => absent⟩) fun merges => ?_
      rw [lone] at merges
      cases merges

theorem Good.dispatch_io (good : c.Good) (io : r.addr.isIo) (allowed : r.access.allowsIo) :
    Went c r (c.dispatch r .invalid) := by
  have fetch (reads : r.access.readKind = some .share) (named : r.access ≠ .barrier) :
      Went c r (c.request r .share) :=
    good.request r r.access reads named (.inl ⟨io, rfl⟩) fun _ => ⟨rfl, .inl io⟩
  unfold Controller.dispatch
  split
  · rename_i access
    exact good.barrier access
  · rename_i access
    simp [access, Access.allowsIo] at allowed
  · rename_i w access
    exact fetch (by rw [access]; rfl) (by simp [access])
  · rename_i access
    exact fetch (by rw [access]; rfl) (by simp [access])
  all_goals
    rename_i access
    simp [access, Access.allowsIo] at allowed

theorem Good.dispatch_cacheable (good : c.Good) (cacheable : r.addr.isIo = false) :
    Went c r (c.dispatch r (c.lookup r.addr)) := by
  unfold Controller.dispatch
  split
  · rename_i access
    exact good.barrier access
  · rename_i access
    exact good.purge access
  · rename_i w access
    exact good.share cacheable (by rw [access]; rfl)
  · rename_i access
    exact good.share cacheable (by rw [access]; rfl)
  · rename_i access
    exact good.claim cacheable access
  · rename_i access
    exact good.write cacheable (by simp [access]) rfl rfl rfl rfl
  · rename_i access
    exact good.write cacheable (by simp [access]) rfl rfl rfl rfl
  · rename_i access
    exact good.write cacheable (by simp [access]) rfl rfl rfl rfl
  · rename_i access
    exact good.write cacheable (by simp [access]) rfl rfl rfl rfl

theorem Good.issue (good : c.Good) (r : Reference) : Went c r (c.issue r) := by
  unfold Controller.issue
  split
  · exact good.went_refused r _ rfl rfl rfl rfl rfl
  · split
    · rename_i io
      split
      · rename_i allowed
        exact good.dispatch_io io allowed
      · exact good.went_refused r _ rfl rfl rfl rfl rfl
    · rename_i cacheable
      exact good.dispatch_cacheable (Bool.not_eq_true _ ▸ cacheable)

end dispatch

theorem Good.issue_late (good : c.Good) {r : Reference} (checked : r.check = .ok ())
    (cacheable : r.addr.isIo = false) (valid : (c.lookup r.addr).valid) {slot : Slot} {m : Miss}
    (target : c.misses.mergeTarget r = some (slot, m)) :
    (c.issue r).2.outbound = c.outbound ∧
      ∀ i, (c.issue r).2.wanted i = if slot = i then none else c.wanted i := by
  have local_hit : c.issue r = c.completeLocally r (c.lookup r.addr) := by
    have merges := (MissFile.mergeTarget_some target).1
    unfold Controller.issue Controller.dispatch
    simp only [checked, cacheable, Bool.false_eq_true, if_false, valid, if_true]
    split <;> rename_i access <;> simp_all [Access.merges]
  obtain ⟨d, shape, _, outbound, wanted⟩ := good.completeLocally_late checked valid target
  rw [local_hit, shape]
  exact ⟨outbound, wanted⟩

end Controller
end CacheCoherence
