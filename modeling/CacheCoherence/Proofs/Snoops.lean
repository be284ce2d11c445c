import CacheCoherence.Controller.Snooping
import CacheCoherence.Proofs.Answers

namespace CacheCoherence

def Holding.after (l : Holding) : NextState → Holding
  | .invalid => .absent
  | .clean | .cleanShared => ⟨l.copy, false, false⟩
  | .dirtyShared => ⟨l.copy, l.copy.isSome, false⟩
  | .unchanged | .transient3 | .transient1 | .reserved => l

/-- The commands that a hub gives: the data of a line that is found is asked for or not, and the
line always moves. -/
structure ProbeCommand.Usual (command : ProbeCommand) : Prop where
  movement : command.movement = .always ∨ command.movement = .nothing
  next : command.next.isReserved = false
  moves : command.next ≠ .unchanged
  silent : command.movement = .nothing → command.next = .invalid

def ProbeReply.dirtyData (r : ProbeReply) : Option Block :=
  if r.status = .hitDirty then r.data else none

/-- Dirty data that a probe takes away are put aside at once, and no other slot changes. -/
theorem VictimBuffer.Settled.probed {b : VictimBuffer} (settled : b.Settled) (slot : Slot) (a : Address)
    (data : Block) (i : Slot) (v : Victim)
    (found : (VictimBuffer.startTransfers ⟨b.slots.put slot { addr := a, data, destination := .probe }⟩
      .probe).2.get? i = some v) :
    v.phase ≠ .waiting ∧ (v.destination ≠ .probe → b.get? i = some v) := by
  rw [VictimBuffer.get?_startTransfers, VictimBuffer.get?_put, Option.map_eq_some_iff] at found
  obtain ⟨w, found, same⟩ := found
  split at found
  · cases found
    simp only [Victim.waitsFor, beq_self_eq_true, Bool.and_self, if_true] at same
    rw [← same]
    simp
  · have rests : w.waitsFor .probe = false := settled.not_waits found _
    rw [if_neg (by simp [rests])] at same
    rw [← same]
    exact ⟨settled i w found, fun _ => found⟩

namespace Controller

variable {c : Controller}

theorem Levels.applyState (levels : c.Levels) (a : Address) (next : LineState) :
    (c.applyState a next).Levels := by
  unfold Controller.applyState
  split
  · rename_i valid
    constructor
    · exact levels.tags.setState a next
    · exact levels.cache.setState a next
    · intro b held
      change ((c.tags.setState a next).2.stateOf b).valid at held
      change ((c.cache.setState a next).2.find? b).isSome
      rw [DuplicateTags.stateOf_setState levels.tags] at held
      rw [BackupCache.find?_setState]
      split
      · rename_i same
        rw [Option.isSome_map]
        split at held
        · rename_i entered
          exact levels.included a entered.2
        · rw [DuplicateTags.stateOf_congr c.tags same] at held
          exact levels.included a held
      · rename_i apart
        rw [if_neg (fun both => apart both.1)] at held
        exact levels.included b held
  · exact levels.dropped a

theorem Levels.line_applyState (levels : c.Levels) {a : Address} (held : c.cache.hit a)
    (next : LineState) (b : Address) :
    (c.applyState a next).line b =
      if b.block = a.block then
        if next.valid then ⟨(c.line a).copy, next.dirty, next.dirty && !next.shared⟩ else .absent
      else c.line b := by
  obtain ⟨l, found⟩ := Option.isSome_iff_exists.mp held
  unfold Controller.applyState
  split
  · rename_i valid
    rw [line_eq]
    change lineOf ((c.tags.setState a next).2.stateOf b) ((c.cache.setState a next).2.find? b) = _
    rw [DuplicateTags.stateOf_setState levels.tags, BackupCache.find?_setState]
    by_cases same : b.block = a.block
    · have copy : (c.line a).copy = some l.data := by
        simp [Controller.line, BackupCache.read_eq, found]
      simp only [same, true_and, if_true, valid, found, Option.map_some, copy]
      by_cases tagged : (c.tags.stateOf a).valid
      · simp [tagged, lineOf, LineState.settled, LineState.isDirty, valid]
      · have untagged : (c.tags.stateOf b).isDirty = false := by
          rw [DuplicateTags.stateOf_congr c.tags same]
          simp [LineState.isDirty, tagged]
        simp [tagged, lineOf, untagged]
    · simp [same, line_eq]
  · exact levels.line_dropped a b

structure Snooped (c : Controller) (p : Probe) (reply : ProbeReply) (d : Controller) : Prop where
  good : d.Good
  outbound : d.outbound = c.outbound ++ [.reply reply]
  wanted : ∀ slot, d.wanted slot = c.wanted slot
  txn : reply.txn = p.txn
  addr : reply.addr = p.addr.block
  others : ∀ b, b.block ≠ p.addr.block → d.line b = c.line b
  line : d.line p.addr = (c.line p.addr).after p.command.next
  carried : ∀ i v, d.victims.get? i = some v → v.draining → v.destination ≠ .probe →
    c.victims.get? i = some v
  held : c.line p.addr ≠ .absent →
    reply.dirtyData = if (c.line p.addr).dirty then (c.line p.addr).copy else none
  missed : c.line p.addr = .absent → reply.dirtyData = none ∨
    ∃ i v, c.victims.get? i = some v ∧ v.draining ∧ v.destination ≠ .probe ∧
      v.addr = p.addr.block ∧ reply.dirtyData = some v.data

def Stalled (c : Controller) (result : Except Fault ProbeReply × Controller) : Prop :=
  (∃ fault, result.1 = .error fault ∧ fault.isBackpressure) ∧ Quiet c result.2

theorem after_apply (s : LineState) (valid : s.valid) {command : ProbeCommand} (usual : command.Usual)
    (l : Holding) (held : l.copy.isSome) :
    (if (command.next.apply s).valid then
        ⟨l.copy, (command.next.apply s).dirty,
          (command.next.apply s).dirty && !(command.next.apply s).shared⟩
      else Holding.absent) = l.after command.next := by
  have named := usual.next
  have moves := usual.moves
  cases next : command.next <;>
    simp_all [NextState.apply, Holding.after, LineState.invalid, NextState.isReserved]

theorem isHit_usual {command : ProbeCommand} (usual : command.Usual) (s : LineState) :
    command.movement.isHit s = s.valid := by
  rcases usual.movement with asks | silent
  · rw [asks]
    rfl
  · rw [silent]
    rfl

theorem Good.concludeProbe (good : c.Good) {p : Probe} (usual : p.command.Usual)
    (data : Option Block) (victim : Option Slot) :
    ∃ d, c.concludeProbe p (c.lookup p.addr.block) data victim =
        (.ok { txn := p.txn, addr := p.addr.block
               status := probeStatus (c.lookup p.addr).valid (c.lookup p.addr).isDirty
               data, victim }, d) ∧
      d.Good ∧ d.victims = c.victims ∧ d.misses = c.misses ∧
      d.outbound = c.outbound ++ [.reply
        { txn := p.txn, addr := p.addr.block
          status := probeStatus (c.lookup p.addr).valid (c.lookup p.addr).isDirty
          data, victim }] ∧
      (∀ b, b.block ≠ p.addr.block → d.line b = c.line b) ∧
      d.line p.addr = (c.line p.addr).after p.command.next := by
  have here := lookup_congr c (Address.block_block p.addr)
  have moves : (p.command.next == .unchanged) = false := by simpa using usual.moves
  simp only [Controller.concludeProbe, here, isHit_usual usual]
  cases valid : (c.lookup p.addr).valid with
  | false =>
    have absent := good.toLevels.absent_of_invalid valid
    refine ⟨_, rfl, good.of_eq rfl rfl rfl, rfl, rfl, rfl, ?_, ?_⟩
    · intro b _
      exact line_of_eq rfl rfl b
    · rw [absent]
      refine (line_of_eq (c := c) rfl rfl p.addr).trans ?_
      rw [absent]
      cases p.command.next <;> rfl
  | true =>
    let counted : Controller :=
      { c with counters := { c.counters with probeHits := c.counters.probeHits + 1 } }
    let next := p.command.next.apply (c.lookup p.addr)
    have levels : counted.Levels := good.toLevels.of_eq rfl rfl
    have held : counted.cache.hit p.addr.block := by
      change c.cache.hit p.addr.block
      rw [BackupCache.hit, BackupCache.find?_block]
      rw [good.toLevels.lookup_valid] at valid
      exact valid
    have lines := levels.line_applyState held next
    have frame := counted.applyState_frame p.addr.block next
    have victims : (counted.applyState p.addr.block next).victims = c.victims := by rw [frame]
    have misses : (counted.applyState p.addr.block next).misses = c.misses := by rw [frame]
    have outbound : (counted.applyState p.addr.block next).outbound = c.outbound := by rw [frame]
    have copy : (c.line p.addr).copy.isSome := by rw [good.toLevels.copy_isSome, valid]
    have whole (b : Address) :
        ((counted.applyState p.addr.block next).send (.reply
          { txn := p.txn, addr := p.addr.block
            status := probeStatus true (c.lookup p.addr).isDirty
            data, victim })).line b = (counted.applyState p.addr.block next).line b :=
      line_of_eq rfl rfl b
    refine ⟨(counted.applyState p.addr.block next).send (.reply
      { txn := p.txn, addr := p.addr.block
        status := probeStatus true (c.lookup p.addr).isDirty
        data, victim }), ?_, ?_, ?_, ?_, ?_, ?_, ?_⟩
    · simp only [if_true, if_neg usual.moves]
      rfl
    · refine ⟨(levels.applyState _ _).of_eq rfl rfl, ?_⟩
      change (counted.applyState p.addr.block next).victims.Settled
      rw [victims]
      exact good.settled
    · exact victims
    · exact misses
    · change (counted.applyState p.addr.block next).outbound ++ _ = _
      rw [outbound]
    · intro b apart
      rw [whole, lines, Address.block_block, if_neg apart]
      exact line_of_eq rfl rfl b
    · have same : counted.line p.addr.block = c.line p.addr :=
        (line_of_eq (c := c) rfl rfl _).trans (line_congr c (Address.block_block p.addr))
      rw [whole, lines, Address.block_block, if_pos rfl, same]
      exact after_apply _ valid usual _ copy

/-- A clean line is answered without a victim, and its data are none that the hub keeps. -/
theorem Good.concludes_clean (good : c.Good) {p : Probe} (usual : p.command.Usual)
    (dirty : (c.line p.addr).dirty = false) (data : Option Block) :
    ∃ reply, (c.concludeProbe p (c.lookup p.addr.block) data none).1 = .ok reply ∧
      Snooped c p reply (c.concludeProbe p (c.lookup p.addr.block) data none).2 := by
  obtain ⟨d, shape, kept, victims, misses, outbound, others, line⟩ := good.concludeProbe usual data none
  rw [shape]
  refine ⟨_, rfl, ?_⟩
  have kept_data : (ProbeReply.mk p.txn p.addr.block
      (probeStatus (c.lookup p.addr).valid (c.lookup p.addr).isDirty) data none false).dirtyData =
      none := by
    change (c.lookup p.addr).isDirty = false at dirty
    simp only [ProbeReply.dirtyData, probeStatus, dirty]
    split <;> simp_all
  refine ⟨kept, outbound, wanted_of_misses misses, rfl, rfl, others, line, ?_, ?_, ?_⟩
  · intro i v found _ _
    rwa [victims] at found
  · intro _
    rw [kept_data, dirty]
    rfl
  · intro _
    exact .inl kept_data

theorem copy_of_probed {p : Probe} {data : Block}
    (probed : c.probedBlock p (c.lookup p.addr.block) = some data) :
    (c.line p.addr).copy = some data := by
  have bytes : (c.line p.addr).copy = c.cache.read p.addr.block := by
    simp [Controller.line, BackupCache.read_eq]
  simp only [Controller.probedBlock] at probed
  split at probed
  · rw [bytes]
    exact probed
  · cases probed

theorem Good.probed_of_dirty (good : c.Good) {p : Probe} (usual : p.command.Usual)
    (dirty : (c.line p.addr).dirty) : (c.probedBlock p (c.lookup p.addr.block)).isSome := by
  obtain ⟨data, copy⟩ := good.toLevels.copy_of_dirty dirty
  have here := lookup_congr c (Address.block_block p.addr)
  have bytes : c.cache.read p.addr.block = some data := by
    rw [← copy]
    simp [Controller.line, BackupCache.read_eq]
  have state : (c.lookup p.addr).isDirty := dirty
  have valid := LineState.valid_of_isDirty state
  have asks : (p.command.movement.returnsData (c.lookup p.addr) ||
      (p.command.movement.isHit (c.lookup p.addr) && (c.lookup p.addr).isDirty &&
        !(p.command.next.apply (c.lookup p.addr)).isDirty)) = true := by
    rcases usual.movement with asks | silent
    · simp [asks, DataMovement.returnsData, valid]
    · simp only [LineState.isDirty, Bool.and_eq_true] at state
      simp [silent, usual.silent silent, DataMovement.isHit, state, NextState.apply,
        LineState.isDirty, LineState.invalid]
  simp only [Controller.probedBlock, here, asks, if_true, bytes, Option.isSome_some]

theorem Good.answerProbe (good : c.Good) {p : Probe} (usual : p.command.Usual) :
    Stalled c (c.answerProbe p (c.lookup p.addr.block)) ∨
    ∃ reply, (c.answerProbe p (c.lookup p.addr.block)).1 = .ok reply ∧
      Snooped c p reply (c.answerProbe p (c.lookup p.addr.block)).2 := by
  have here := lookup_congr c (Address.block_block p.addr)
  unfold Controller.answerProbe
  cases probed : c.probedBlock p (c.lookup p.addr.block) with
  | none =>
    have clean : (c.line p.addr).dirty = false := by
      apply eq_false_of_ne_true
      intro dirty
      have gives := good.probed_of_dirty usual dirty
      rw [probed] at gives
      cases gives
    exact .inr (good.concludes_clean usual clean none)
  | some data =>
    simp only
    split
    · rename_i dirty
      rw [here] at dirty
      have read := copy_of_probed probed
      rcases VictimBuffer.allocate_cases c.victims p.addr.block data .probe with
        ⟨_, refused⟩ | ⟨_, slot, free, taken⟩
      · rw [refused]
        exact .inl ⟨⟨_, rfl, rfl⟩, good.quiet rfl rfl rfl rfl fun _ => rfl⟩
      · right
        rw [taken]
        let started : Controller := { c with
          victims := (VictimBuffer.startTransfers ⟨c.victims.slots.put slot
            { addr := p.addr.block.block, data, destination := .probe }⟩ .probe).2
          counters := countVictim c.counters .probe }
        have cell := good.settled.probed slot p.addr.block.block data
        have tidy : started.Good :=
          ⟨good.toLevels.of_eq rfl rfl, fun i v found => (cell i v found).1⟩
        obtain ⟨d, shape, kept, same, misses, outbound, others, line⟩ :=
          tidy.concludeProbe usual (some data) (some slot)
        change ∃ reply, (started.concludeProbe p (started.lookup p.addr.block) _ _).1 = .ok reply ∧
          Snooped c p reply (started.concludeProbe p (started.lookup p.addr.block) _ _).2
        rw [shape]
        have lines (b : Address) : started.line b = c.line b := line_of_eq rfl rfl b
        have valid := LineState.valid_of_isDirty dirty
        refine ⟨_, rfl, kept, outbound, wanted_of_misses misses, rfl, rfl, ?_, ?_, ?_, ?_, ?_⟩
        · intro b apart
          rw [others b apart, lines]
        · rw [line, lines]
        · intro i v found _ aside
          rw [same] at found
          exact (cell i v found).2 aside
        · intro _
          change (if probeStatus (c.lookup p.addr).valid (c.lookup p.addr).isDirty = .hitDirty
            then some data else none) = if (c.lookup p.addr).isDirty then _ else none
          rw [valid, dirty, read]
          rfl
        · intro absent
          rw [absent] at read
          cases read
    · rename_i unchanged
      rw [here, Bool.not_eq_true] at unchanged
      exact .inr (good.concludes_clean usual unchanged (some data))

theorem Good.handleProbe (good : c.Good) {p : Probe} (usual : p.command.Usual) :
    Stalled c (c.handleProbe p) ∨
    ∃ reply, (c.handleProbe p).1 = .ok reply ∧ Snooped c p reply (c.handleProbe p).2 := by
  have here := lookup_congr c (Address.block_block p.addr)
  unfold Controller.handleProbe
  rw [if_neg (by simp [usual.next])]
  simp only
  split
  · rename_i away
    simp only [Bool.and_eq_true, Bool.not_eq_true', bne_iff_ne, here] at away
    have absent := good.toLevels.absent_of_invalid away.1
    split
    · rename_i data evicted
      right
      unfold Controller.evictedBlock at evicted
      split at evicted
      · cases evicted
      · rename_i i v found
        obtain ⟨present, holds⟩ := Slots.find?_some found
        simp only [Bool.and_eq_true, beq_iff_eq, Address.block_block] at holds
        split at evicted
        · cases evicted
        · rename_i aside
          cases evicted
          refine ⟨_, rfl, ?_⟩
          constructor
          · exact good.of_eq rfl rfl rfl
          · rfl
          · intro slot
            rfl
          · rfl
          · rfl
          · intro b _
            exact line_of_eq rfl rfl b
          · refine (line_of_eq (c := c) rfl rfl p.addr).trans ?_
            rw [absent]
            cases p.command.next <;> rfl
          · intro j w found _ _
            exact found
          · intro held
            exact absurd absent held
          · intro _
            exact .inr ⟨i, v, present, holds.1, aside, holds.2, rfl⟩
    · exact good.answerProbe usual
  · exact good.answerProbe usual

theorem Levels.concludeProbe (levels : c.Levels) (settled : c.victims.Settled) (p : Probe) (s : LineState)
    (data : Option Block) (victim : Option Slot) : (c.concludeProbe p s data victim).2.Good := by
  have moved (d : Controller) (kept : d.Levels) (same : d.victims = c.victims) (r : ProbeReply) :
      (d.reply r).2.Good := by
    refine ⟨kept.of_eq rfl rfl, ?_⟩
    change d.victims.Settled
    rwa [same]
  unfold Controller.concludeProbe
  simp only
  split
  · split
    · refine moved _ ?_ ?_ _
      · exact levels.of_eq rfl rfl
      · rfl
    · refine moved _ (Levels.applyState ?_ _ _) ?_ _
      · exact levels.of_eq rfl rfl
      · rw [applyState_frame]
  · refine moved _ ?_ ?_ _
    · exact levels.of_eq rfl rfl
    · rfl

/-- Any probe keeps a controller good, also one that the hub does not send. -/
theorem Good.handleProbe_good (good : c.Good) (p : Probe) : (c.handleProbe p).2.Good := by
  have answered (s : LineState) : (c.answerProbe p s).2.Good := by
    unfold Controller.answerProbe
    split
    · exact good.toLevels.concludeProbe good.settled p s none none
    · rename_i data _
      split
      · rcases VictimBuffer.allocate_cases c.victims p.addr.block data .probe with
          ⟨_, refused⟩ | ⟨_, slot, free, taken⟩
        · rw [refused]
          exact good.of_eq rfl rfl rfl
        · rw [taken]
          refine Levels.concludeProbe ?_ ?_ p s (some data) (some slot)
          · exact good.toLevels.of_eq rfl rfl
          · intro i v found
            exact (good.settled.probed slot p.addr.block.block data i v found).1
      · exact good.toLevels.concludeProbe good.settled p s (some data) none
  unfold Controller.handleProbe
  split
  · exact good.of_eq rfl rfl rfl
  · simp only
    split
    · split
      · exact good.of_eq rfl rfl rfl
      · exact answered _
    · exact answered _

end Controller
end CacheCoherence
