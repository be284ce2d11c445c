import CacheCoherence.Proofs.Handovers
import CacheCoherence.Proofs.Shelving

namespace CacheCoherence.Controller

variable {c d : Controller}

/-- The action brings data of the block of `b`, or takes it to be out of date. -/
def renews (c : Controller) (b : Address) : Action → Bool
  | .operate (.store a _) | .operate (.retire a _) | .evict a _ .cache => a.block == b.block
  | .complete m =>
    match m.target with
    | .request (.miss slot) => (c.misses.get? slot).any (·.request.addr.block == b.block)
    | .request (.ioWrite _) | .victim _ => false
  | .operate _ | .evict .. | .snoop _ | .drain => false

/-- Where the data of a dirty block are when `c` has become `d`. -/
inductive Guarded (c d : Controller) (b : Address) (data : Block) : Prop
  | held (dirty : (d.lookup b).isDirty) (copy : d.cache.read b = some data)
  | handed (sent : List Request) (outbound : d.outbound = c.outbound ++ sent) (slot : Slot)
      (v : Victim) (present : d.victims.get? slot = some v) (draining : v.draining)
      (addr : v.addr = b.block) (bytes : v.data = data)
      (told : .victim slot b.block data ∈ sent ∨ ∃ r, .reply r ∈ sent ∧ r.addr = b.block ∧
        r.status = .hitDirty ∧ r.data = some data ∧ r.victim = some slot)

theorem draining_of_sent {sent : List Request} {slot : Slot} {a : Address} {data : Block}
    (due : ∀ x, (d.desk.due x).toList = (c.desk.due x).toList ++ parcels x sent)
    (told : .victim slot a data ∈ sent) :
    ∃ v, d.victims.get? slot = some v ∧ v.draining ∧ v.addr = a ∧ v.data = data := by
  have under_way : Parcel.block slot a (some data) ∈ parcels (.victim slot) sent := by
    simp only [parcels, List.mem_filter, List.mem_filterMap]
    exact ⟨⟨_, told, rfl⟩, by simp [Parcel.target]⟩
  have known : Parcel.block slot a (some data) ∈ (d.desk.due (.victim slot)).toList := by
    rw [due]
    exact List.mem_append_right _ under_way
  simp only [Desk.due, desk, VictimBuffer.load, Option.mem_toList, Option.map_eq_some_iff,
    Option.filter_eq_some_iff, beq_iff_eq] at known
  obtain ⟨v, ⟨present, moving⟩, same⟩ := known
  simp only [Victim.parcel, Parcel.block.injEq, Option.some.injEq, true_and] at same
  exact ⟨v, present, by simp [Victim.draining, moving], same⟩

section ways

variable {b : Address} {data : Block}

theorem guarded_of_line (dirty : (c.line b).dirty) (copy : (c.line b).copy = some data)
    (same : d.line b = c.line b) : Guarded c d b data := by
  rw [← same] at dirty copy
  exact .held dirty copy

theorem Guarded.of_eq {e : Controller} (guarded : Guarded c d b data) (tags : e.tags = d.tags)
    (cache : e.cache = d.cache) (victims : e.victims = d.victims) (outbound : e.outbound = d.outbound) :
    Guarded c e b data := by
  cases guarded with
  | held dirty copy =>
    have same := line_of_eq tags cache b
    refine .held ?_ ?_
    · exact (congrArg Holding.dirty same).trans dirty
    · exact (congrArg Holding.copy same).trans copy
  | handed sent went slot v present draining addr bytes told =>
    rw [← victims] at present
    exact .handed sent (outbound.trans went) slot v present draining addr bytes told

theorem Guarded.of_start {e : Controller} (guarded : Guarded e d b data)
    (outbound : e.outbound = c.outbound) : Guarded c d b data := by
  cases guarded with
  | held dirty copy => exact .held dirty copy
  | handed sent went slot v present draining addr bytes told =>
    rw [outbound] at went
    exact .handed sent went slot v present draining addr bytes told

theorem guarded_of_fate (dirty : (c.line b).dirty) (copy : (c.line b).copy = some data)
    {sent : List Request} (fate : Fate b (c.line b) (d.line b) sent)
    (outbound : d.outbound = c.outbound ++ sent)
    (due : ∀ x, (d.desk.due x).toList = (c.desk.due x).toList ++ parcels x sent) :
    Guarded c d b data := by
  cases fate with
  | kept same _ => exact guarded_of_line dirty copy same
  | clean _ clean _ =>
    rw [dirty] at clean
    cases clean
  | dirty _ _ slot bytes read left =>
    obtain rfl : data = bytes := Option.some.inj (copy.symm.trans read)
    have told : .victim slot b.block data ∈ sent := by
      have member : .victim slot b.block data ∈ onBlock b sent := by
        rw [left]
        exact List.mem_singleton_self _
      exact (List.mem_filter.mp member).1
    obtain ⟨v, present, draining, addr, bytes⟩ := draining_of_sent due told
    exact .handed sent outbound slot v present draining addr bytes (.inl told)

end ways

/-- A block that comes back to the backup cache changes no line but its own. -/
theorem find?_drainToCache (c : Controller) (slot : Slot) {b : Address}
    (apart : ∀ v, c.victims.get? slot = some v → v.addr.block ≠ b.block) :
    (c.drainToCache slot).cache.find? b = c.cache.find? b := by
  unfold drainToCache
  cases present : c.victims.get? slot with
  | none => rfl
  | some v =>
    simp only
    split
    · rename_i cache written
      have shape : cache = (c.cache.write v.addr v.data.toList).2 := by rw [written]
      simp only [shape, find?_restore]
      rw [if_neg (Ne.symm (apart v present))]
    · rfl

theorem addr_drainToCache (c : Controller) (slot i : Slot) :
    ((c.drainToCache slot).victims.get? i).map (·.addr) = (c.victims.get? i).map (·.addr) := by
  unfold drainToCache
  cases present : c.victims.get? slot with
  | none => rfl
  | some v =>
    simp only
    split
    · simp only [VictimBuffer.get?_finish]
      split
      · rw [Option.map_map]
        rfl
      · rfl
    · rfl

theorem find?_foldl_drainToCache (picked : List Slot) (c : Controller) {b : Address}
    (apart : ∀ i ∈ picked, ∀ v, c.victims.get? i = some v → v.addr.block ≠ b.block) :
    (picked.foldl drainToCache c).cache.find? b = c.cache.find? b := by
  induction picked generalizing c with
  | nil => rfl
  | cons slot rest ih =>
    rw [List.foldl_cons, ih, find?_drainToCache c slot (apart slot List.mem_cons_self)]
    intro i member v present
    have same := addr_drainToCache c slot i
    rw [present, Option.map_some, eq_comm, Option.map_eq_some_iff] at same
    obtain ⟨w, before, addr⟩ := same
    rw [← addr]
    exact apart i (List.mem_cons_of_mem _ member) w before

theorem find?_transferVictims (c : Controller) {b : Address} (quiet : c.victims.returns b = false) :
    c.transferVictims.cache.find? b = c.cache.find? b := by
  let start : Controller := { c with victims := (c.victims.startTransfers .cache).2 }
  let down := (c.victims.startTransfers .cache).1
  have whole : c.transferVictims.cache = (down.foldl drainToCache start).cache := by
    simp only [transferVictims, foldl_sendVictim]
    rfl
  rw [whole]
  refine find?_foldl_drainToCache down start ?_
  intro i member v present
  obtain ⟨w, before, waits⟩ := (VictimBuffer.mem_startTransfers _ _ _).mp member
  change (c.victims.startTransfers .cache).2.get? i = some v at present
  rw [VictimBuffer.get?_startTransfers, before, Option.map_some, if_pos waits] at present
  cases present
  simp only [VictimBuffer.returns, List.any_eq_false, List.mem_finRange, forall_const] at quiet
  simpa [before, waits] using quiet i

theorem Good.line_allocateVictim (good : c.Good) {a b : Address} (data : Block) (d : Destination)
    (apart : b.block ≠ a.block) : (c.allocateVictim a data d).2.line b = c.line b := by
  rcases VictimBuffer.allocate_cases c.victims a data d with ⟨_, refused⟩ | ⟨_, slot, free, taken⟩
  · simp only [Controller.allocateVictim, refused]
    exact line_of_eq rfl rfl b
  · let middle : Controller :=
      { c with
        victims := ⟨c.victims.slots.put slot { addr := a.block, data, destination := d }⟩
        counters := countVictim c.counters d }
    have shape : (c.allocateVictim a data d).2 = middle.transferVictims := by
      simp only [Controller.allocateVictim, taken, middle]
    obtain ⟨sent, moved⟩ := transfers middle
    have quiet : middle.victims.returns b = false := by
      rw [VictimBuffer.returns_put free, good.settled.returns_eq]
      simp [Ne.symm apart]
    have tags : middle.transferVictims.tags = c.tags := by rw [moved.frame]
    rw [shape, line_eq, line_eq, tags, find?_transferVictims middle quiet]

theorem Good.line_retireVictim (good : c.Good) {a b : Address} (data : Block)
    (apart : b.block ≠ a.block) : (c.retireVictim a data).2.line b = c.line b := by
  have taken := good.line_allocateVictim data .cache apart
  have placed : (c.allocateVictim a data .cache).2.tags.WellPlaced := by
    rcases good.allocateVictim a data (d := .cache) (by simp) with ⟨_, _, quiet⟩ | ⟨_, _, _, kept, _⟩
    · exact quiet.good.tags
    · exact kept.tags
  unfold retireVictim
  split
  · rfl
  · split
    · rename_i shape
      rwa [shape] at taken
    · rename_i e shape
      rw [shape] at taken placed
      rw [← taken, line_eq, line_eq]
      change lineOf ((e.tags.drop a).2.stateOf b) (e.cache.find? b) = _
      rw [DuplicateTags.stateOf_drop placed, if_neg apart]

section actions

variable {b : Address} {data : Block}

theorem Fate.congr {a : Address} (same : b.block = a.block) {before after : Holding}
    {sent : List Request} (fate : Fate a before after sent) : Fate b before after sent := by
  have about : onBlock b sent = onBlock a sent := by rw [onBlock, onBlock, same]
  cases fate with
  | kept kept quiet => exact .kept kept (about.trans quiet)
  | clean gone clean quiet => exact .clean gone clean (about.trans quiet)
  | dirty gone dirty slot data copy left =>
    refine .dirty gone dirty slot data copy (about.trans ?_)
    rw [left, same]

/-- The calls of a pipeline. Only one that evicts the block lets go of it. -/
theorem Good.guards_perform (good : c.Good) (op : Operation) (dirty : (c.line b).dirty)
    (copy : (c.line b).copy = some data) (old : c.renews b (.operate op) = false) :
    Guarded c (c.perform op) b data := by
  obtain ⟨sent, performed, outbound, due⟩ := good.performs op
  generalize after : c.perform op = d at performed outbound due
  cases performed with
  | quiet _ _ quiet _ => exact guarded_of_line dirty copy (quiet.lines b)
  | issued r _ _ _ issued =>
    cases issued with
    | refused _ _ quiet => exact guarded_of_line dirty copy (quiet.lines b)
    | asked _ _ _ _ held => exact guarded_of_line dirty copy (held.lines b)
    | joined _ _ _ held => exact guarded_of_line dirty copy (held.lines b)
    | hit _ _ _ held => exact guarded_of_line dirty copy (held.lines b)
    | late _ _ _ held => exact guarded_of_line dirty copy (held.lines b)
    | barrier _ _ held => exact guarded_of_line dirty copy (held.lines b)
    | purged _ _ _ _ _ _ others gone fate =>
      by_cases here : b.block = r.addr.block
      · refine guarded_of_fate dirty copy ?_ outbound due
        rw [line_congr c here, line_congr d here, gone]
        exact Fate.congr here fate
      · exact guarded_of_line dirty copy (others b here).1
  | stored a bytes _ _ _ _ _ lines =>
    have apart : b.block ≠ a.block := by
      intro here
      simp [renews, here] at old
    refine guarded_of_line dirty copy ?_
    rw [lines, if_neg apart]
  | flushed _ held => exact guarded_of_line dirty copy (held.lines b)
  | retired a bytes =>
    have apart : b.block ≠ a.block := by
      intro here
      simp [renews, here] at old
    refine guarded_of_line dirty copy ?_
    rw [← after]
    exact good.line_retireVictim bytes apart

/-- A victim of another block, or one that leaves the line where it is. -/
theorem Good.guards_evict (good : c.Good) (a : Address) (bytes : Block) (d : Destination)
    (dirty : (c.line b).dirty) (copy : (c.line b).copy = some data)
    (old : c.renews b (.evict a bytes d) = false) :
    Guarded c (c.allocateVictim a bytes d).2 b data := by
  refine guarded_of_line dirty copy ?_
  cases d with
  | cache =>
    refine good.line_allocateVictim bytes .cache fun here => ?_
    simp [renews, here] at old
  | memory =>
    rcases good.allocateVictim a bytes (d := .memory) (by simp) with
      ⟨_, _, quiet⟩ | ⟨_, _, _, _, _, _, _, memory⟩
    · exact quiet.lines b
    · exact (memory rfl).2 b
  | probe =>
    obtain ⟨victims, counters, shape, _⟩ := good.keepVictim a bytes
    have lines := congrArg (line · b) shape
    exact lines

theorem Good.fills (good : c.Good) (r : Reference) (m : Completion) (present : ¬ m.absent)
    (lost : r.access.isUpgrade → c.line r.addr = .absent) :
    ∃ sent e, c.installFill r.addr m.data
        (fillState r.access.needsOwnership (m.shared && !r.access.needsOwnership)) = (.ok (), e) ∧
      Moves c e sent ∧ Sheds c e sent ∧
      Taken c r m e ⟨m.data, m.shared && !r.access.needsOwnership, false⟩ sent := by
  have filled := good.installFill r m present lost
    ⟨m.data, m.shared && !r.access.needsOwnership, false⟩ rfl rfl
  have shed := shed_installFill c r.addr m.data
    (fillState r.access.needsOwnership (m.shared && !r.access.needsOwnership))
  generalize c.installFill r.addr m.data
    (fillState r.access.needsOwnership (m.shared && !r.access.needsOwnership)) = outcome at filled shed
  obtain ⟨result, e⟩ := outcome
  obtain ⟨sent, done, _, moved, taken⟩ := filled
  obtain ⟨told, sheds⟩ := shed
  have outbound : e.outbound = c.outbound ++ sent := congrArg outbound moved.frame
  obtain rfl : sent = told := List.append_cancel_left (outbound.symm.trans sheds.outbound)
  exact ⟨sent, e, by rw [← done], moved, sheds, taken⟩

theorem Good.guards_completeMiss (good : c.Good) (slot : Slot) (m : Completion)
    (dirty : (c.line b).dirty) (copy : (c.line b).copy = some data)
    (old : (c.misses.get? slot).any (·.request.addr.block == b.block) = false) :
    Guarded c (c.completeMiss slot m).2 b data := by
  unfold Controller.completeMiss
  split
  · exact guarded_of_line dirty copy rfl
  · rename_i miss occupied
    have apart : b.block ≠ miss.request.addr.block := by
      intro here
      simp [occupied, here] at old
    simp only
    split
    · exact guarded_of_line dirty copy rfl
    · rename_i present
      split
      · refine guarded_of_line dirty copy ?_
        have owned := (good.toLevels.takeOwnership miss.request.addr).line b
        rw [if_neg fun both => apart both.1] at owned
        exact owned
      · rename_i unready
        have lost (upgrade : miss.request.access.isUpgrade) : c.line miss.request.addr = .absent := by
          apply good.toLevels.absent_of_invalid
          simpa only [upgrade, Bool.true_and, Bool.not_eq_true] using unready
        obtain ⟨sent, e, done, moved, sheds, taken⟩ := good.fills miss.request m present lost
        rw [done]
        have outbound : e.outbound = c.outbound ++ sent := congrArg outbound moved.frame
        have fate : Fate b (c.line b) (e.line b) sent := by
          cases taken with
          | aside lines => exact .kept (lines b) rfl
          | owned _ _ _ _ lines => exact .kept ((lines b).trans (if_neg apart)) rfl
          | filled _ _ _ _ _ _ _ _ others => exact others b apart
        have kept := guarded_of_fate dirty copy fate outbound sheds.mails.due
        exact kept.of_eq rfl rfl rfl rfl

theorem Good.guards_complete (good : c.Good) (m : Completion) (dirty : (c.line b).dirty)
    (copy : (c.line b).copy = some data) (old : c.renews b (.complete m) = false) :
    Guarded c (c.complete m).2 b data := by
  obtain ⟨target, bytes, shared, absent⟩ := m
  cases target with
  | victim slot =>
    exact guarded_of_line dirty copy ((good.complete_aside _ (by simp)).lines b)
  | request id =>
    cases id with
    | ioWrite slot => exact guarded_of_line dirty copy ((good.complete_aside _ (by simp)).lines b)
    | miss slot =>
      have counted : Good { c with counters.completions := c.counters.completions + 1 } :=
        good.of_eq rfl rfl rfl
      have kept := counted.guards_completeMiss slot ⟨.request (.miss slot), bytes, shared, absent⟩
        dirty copy old
      exact kept.of_start rfl

theorem line_concludeProbe (c : Controller) (p : Probe) (s : LineState) (found : Option Block)
    (victim : Option Slot) (b : Address) :
    (c.concludeProbe p s found victim).2.line b =
      if p.command.movement.isHit s ∧ p.command.next ≠ .unchanged then
        (c.applyState p.addr.block (p.command.next.apply s)).line b
      else c.line b := by
  have moved (k : Counters) (a : Address) (next : LineState) :
      (applyState { c with counters := k } a next).line b = (c.applyState a next).line b := by
    unfold applyState
    split <;> rfl
  unfold concludeProbe
  simp only
  by_cases hit : p.command.movement.isHit s
  · rw [if_pos hit]
    by_cases stays : p.command.next = .unchanged
    · rw [if_pos stays, if_neg fun both => both.2 stays]
      exact line_of_eq rfl rfl b
    · rw [if_neg stays, if_pos ⟨hit, stays⟩]
      exact (line_of_eq rfl rfl b).trans (moved _ _ _)
  · rw [if_neg hit, if_neg fun both => hit both.1]
    exact line_of_eq rfl rfl b

/-- A probe that leaves its block dirty, or that is about another block, keeps a dirty line. -/
theorem Levels.guards_concludeProbe (levels : c.Levels) (p : Probe) (found : Option Block)
    (victim : Option Slot) (dirty : (c.line b).dirty) (copy : (c.line b).copy = some data)
    (stays : b.block = p.addr.block → (p.command.next.apply (c.lookup p.addr.block)).isDirty) :
    Guarded c (c.concludeProbe p (c.lookup p.addr.block) found victim).2 b data := by
  have line := c.line_concludeProbe p (c.lookup p.addr.block) found victim b
  by_cases moves : p.command.movement.isHit (c.lookup p.addr.block) ∧ p.command.next ≠ .unchanged
  · have held := DataMovement.valid_of_isHit moves.1
    rw [levels.lookup_valid] at held
    rw [if_pos moves, levels.line_applyState held, Address.block_block] at line
    by_cases here : b.block = p.addr.block
    · have newer := stays here
      have valid := LineState.valid_of_isDirty newer
      simp only [LineState.isDirty, Bool.and_eq_true] at newer
      rw [if_pos here, if_pos valid, newer.2] at line
      refine .held ?_ ?_
      · exact congrArg Holding.dirty line
      · have same : c.line b = c.line p.addr.block := line_congr c (by rw [here, Address.block_block])
        rw [same] at copy
        exact (congrArg Holding.copy line).trans copy
    · rw [if_neg here] at line
      exact guarded_of_line dirty copy line
  · rw [if_neg moves] at line
    exact guarded_of_line dirty copy line

/-- A probe that gets nothing from the owner of a block leaves it the owner. -/
theorem stays_of_unprobed {p : Probe} (dirty : (c.lookup p.addr.block).isDirty)
    (read : c.cache.read p.addr.block = some data)
    (probed : c.probedBlock p (c.lookup p.addr.block) = none) :
    (p.command.next.apply (c.lookup p.addr.block)).isDirty := by
  have silent : (p.command.movement.returnsData (c.lookup p.addr.block) ||
      (p.command.movement.isHit (c.lookup p.addr.block) && (c.lookup p.addr.block).isDirty &&
        !(p.command.next.apply (c.lookup p.addr.block)).isDirty)) = false := by
    rw [← Bool.not_eq_true]
    intro asks
    simp only [probedBlock, asks, if_true, read] at probed
    cases probed
  have valid := LineState.valid_of_isDirty dirty
  cases movement : p.command.movement <;>
    simp_all [DataMovement.returnsData, DataMovement.isHit]

def carrying (c : Controller) (p : Probe) (bytes : Block) (slot : Slot) : Controller :=
  { c with
    victims := (VictimBuffer.startTransfers ⟨c.victims.slots.put slot
      { addr := p.addr.block.block, data := bytes, destination := .probe }⟩ .probe).2
    counters := countVictim c.counters .probe }

/-- What an owner hands to a probe of its block goes out with the reply, and drains until then. -/
theorem guards_carrying (p : Probe) (slot : Slot) (here : b.block = p.addr.block)
    (dirty : (c.lookup p.addr.block).isDirty) :
    Guarded c ((c.carrying p data slot).concludeProbe p (c.lookup p.addr.block) (some data)
      (some slot)).2 b data := by
  have hit : p.command.movement.isHit (c.lookup p.addr.block) := by
    cases p.command.movement with
    | ifDirty => exact dirty
    | nothing | ifHit | always => exact LineState.valid_of_isDirty dirty
  obtain ⟨r, d, shape, _, addr, carried, victim, outbound, desk⟩ :=
    concludeProbe_sends (c.carrying p data slot) p (c.lookup p.addr.block) (some data) (some slot)
  have status : r.status = probeStatus (p.command.movement.isHit (c.lookup p.addr.block))
      (c.lookup p.addr.block).isDirty := by
    have answer := congrArg Prod.fst shape
    cases answer
    rfl
  have victims : d.victims = (c.carrying p data slot).victims := congrArg Desk.victims desk
  have cell := VictimBuffer.get?_startTransfers ⟨c.victims.slots.put slot
    { addr := p.addr.block.block, data, destination := .probe }⟩ .probe slot
  rw [VictimBuffer.get?_put, if_pos rfl] at cell
  rw [shape]
  refine .handed [.reply r] outbound slot
    { addr := p.addr.block.block, data, destination := .probe, phase := .inTransfer }
    ?_ rfl ?_ rfl (.inr ⟨r, List.mem_singleton_self _, ?_, ?_, carried, victim⟩)
  · rw [victims]
    exact cell
  · rw [here, Address.block_block]
  · rw [addr, here]
  · rw [status, hit, dirty]
    rfl

theorem Good.guards_answerProbe (good : c.Good) (p : Probe) (dirty : (c.line b).dirty)
    (copy : (c.line b).copy = some data) :
    Guarded c (c.answerProbe p (c.lookup p.addr.block)).2 b data := by
  have about (here : b.block = p.addr.block) :
      (c.lookup p.addr.block).isDirty ∧ c.cache.read p.addr.block = some data := by
    have same : c.line b = c.line p.addr.block := line_congr c (by rw [here, Address.block_block])
    rw [same] at dirty copy
    exact ⟨dirty, copy⟩
  unfold Controller.answerProbe
  cases probed : c.probedBlock p (c.lookup p.addr.block) with
  | none =>
    refine good.toLevels.guards_concludeProbe p none none dirty copy fun here => ?_
    exact stays_of_unprobed (about here).1 (about here).2 probed
  | some bytes =>
    simp only
    split
    · rcases VictimBuffer.allocate_cases c.victims p.addr.block bytes .probe with
        ⟨_, refused⟩ | ⟨_, slot, _, taken⟩
      · simp only [refused]
        exact guarded_of_line dirty copy (line_of_eq rfl rfl b)
      · simp only [taken]
        change Guarded c ((c.carrying p bytes slot).concludeProbe p (c.lookup p.addr.block)
          (some bytes) (some slot)).2 b data
        by_cases here : b.block = p.addr.block
        · have same : bytes = data := by
            rw [← Option.some.injEq, ← copy_of_probed probed, ← copy, line_congr c here]
          rw [same]
          exact guards_carrying p slot here (about here).1
        · have kept := Levels.guards_concludeProbe (c := c.carrying p bytes slot)
            (good.toLevels.of_eq rfl rfl) p (some bytes) (some slot) dirty copy
            fun same => absurd same here
          exact kept.of_start rfl
    · rename_i clean
      refine good.toLevels.guards_concludeProbe p (some bytes) none dirty copy fun here => ?_
      exact absurd (about here).1 clean

theorem Good.guards_handleProbe (good : c.Good) (p : Probe) (dirty : (c.line b).dirty)
    (copy : (c.line b).copy = some data) : Guarded c (c.handleProbe p).2 b data := by
  have answered := good.guards_answerProbe p dirty copy
  unfold Controller.handleProbe
  split
  · exact guarded_of_line dirty copy (line_of_eq rfl rfl b)
  · simp only
    split
    · split
      · exact guarded_of_line dirty copy (line_of_eq rfl rfl b)
      · exact answered
    · exact answered

theorem Good.guards_act (good : c.Good) (x : Action) (dirty : (c.line b).dirty)
    (copy : (c.line b).copy = some data) (old : c.renews b x = false) :
    Guarded c (c.act x) b data := by
  cases x with
  | operate op => exact good.guards_perform op dirty copy old
  | evict a bytes d => exact good.guards_evict a bytes d dirty copy old
  | snoop p => exact good.guards_handleProbe p dirty copy
  | complete m => exact good.guards_complete m dirty copy old
  | drain => exact guarded_of_line dirty copy rfl

theorem Guarded.of_shelve {x : Action} (guarded : Guarded c.shelve (c.shelve.act x) b data) :
    Guarded c (c.act x) b data := by
  have same := c.shelve_act x
  generalize c.act x = d at same
  generalize c.shelve.act x = e at same guarded
  have tags : d.tags = e.tags := (congrArg tags same).symm
  have cache : d.cache = e.cache := (congrArg cache same).symm
  cases guarded with
  | held dirty copy =>
    have lines := line_of_eq tags cache b
    refine .held ?_ ?_
    · exact (congrArg Holding.dirty lines).trans dirty
    · exact (congrArg Holding.copy lines).trans copy
  | handed sent outbound slot v present draining addr bytes told =>
    have out : d.outbound = e.outbound := (congrArg Controller.outbound same).symm
    have cell : (d.victims.get? slot).map Victim.shelved = some v.shelved := by
      rw [← VictimBuffer.get?_shelved, ← victims_shelve, ← same, victims_shelve,
        VictimBuffer.get?_shelved, present]
      rfl
    obtain ⟨w, found, alike⟩ := Option.map_eq_some_iff.mp cell
    refine .handed sent (out.trans outbound) slot w found ?_ ?_ ?_ told
    · rw [← w.draining_shelved, alike, v.draining_shelved]
      exact draining
    · rw [← w.addr_shelved, alike, v.addr_shelved]
      exact addr
    · rw [← w.data_shelved, alike, v.data_shelved]
      exact bytes

end actions

/-- Dirty data never disappear from a controller: in every state that actions lead to, and for every
action that brings no new data of the block. -/
theorem guarded_act {cpu : Nat} {registers : Registers} (built : ofRegisters cpu registers = .ok c)
    (actions : List Action) (x : Action) {b : Address} {data : Block}
    (dirty : ((c.follow actions).lookup b).isDirty)
    (copy : (c.follow actions).cache.read b = some data)
    (old : (c.follow actions).renews b x = false) :
    Guarded (c.follow actions) ((c.follow actions).act x) b data := by
  have start := good_ofRegisters built
  have good : (c.follow actions).shelve.Good := good_follow actions (by rwa [start.shelve_eq])
  exact (good.guards_act x dirty copy old).of_shelve

/-- Block 0 is stored to, and a load asks for the block that shares its place in the backup cache. -/
def displacing : List Action :=
  [.operate (.issue (.to (.store .quad) 0)), .complete { target := .request (.miss 0), data := some .zero },
   .operate (.consume 0), .operate (.store ⟨0⟩ [0x5a]), .operate (.issue (.to (.load .quad) 0x100000))]

/-- The answer to the load pushes block 0 out. -/
theorem guarded_displacing :
    ∃ c, ofSize 0 .mb1 = .ok c ∧
      Guarded (c.follow displacing)
        ((c.follow displacing).act (.complete { target := .request (.miss 0), data := some .zero }))
        ⟨0⟩ (Block.zero.write 0 [0x5a]) ∧
      (((c.follow displacing).act
        (.complete { target := .request (.miss 0), data := some .zero })).lookup ⟨0⟩).valid = false := by
  have built : ofRegisters 0 (.forCache .mb1) = .ok _ := rfl
  refine ⟨_, built, guarded_act built displacing _ ?_ ?_ ?_, ?_⟩
  · decide +kernel
  · decide +kernel
  · decide +kernel
  · decide +kernel

end CacheCoherence.Controller
