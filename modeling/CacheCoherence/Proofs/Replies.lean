import CacheCoherence.Proofs.Inclusion
import CacheCoherence.Proofs.Snoops

namespace CacheCoherence

namespace ProbeCommand

/-- The state in which a probe leaves a line: one that it does not find stays as it is. -/
def leaves (k : ProbeCommand) (s : LineState) : LineState :=
  if k.movement.isHit s then k.next.apply s else s

/-- The data go with the answer: the probe asks for them, or it makes a dirty line clean. -/
def takes (k : ProbeCommand) (s : LineState) : Bool :=
  k.movement.returnsData s || (k.movement.isHit s && s.isDirty && !(k.leaves s).isDirty)

theorem takes_eq (k : ProbeCommand) (s : LineState) :
    k.takes s = (k.movement.returnsData s ||
      (k.movement.isHit s && s.isDirty && !(k.next.apply s).isDirty)) := by
  unfold takes leaves
  cases k.movement.isHit s <;> rfl

end ProbeCommand

theorem NextState.settled_apply (n : NextState) {s : LineState} (settled : s.settled = s) :
    (n.apply s).settled = n.apply s := by
  cases valid : s.valid with
  | false => simpa [apply, valid] using settled
  | true =>
    have same : LineState.mk true s.dirty s.shared = s := by rw [← valid]
    cases n <;> simp [apply, valid, LineState.settled, LineState.invalid, same]

namespace Controller

variable {c d : Controller}

theorem settled_lookup (c : Controller) (a : Address) : (c.lookup a).settled = c.lookup a := by
  cases tagged : (c.tags.stateOf a).valid <;> cases cached : (c.cache.stateOf a).valid <;>
    simp [lookup, LineState.merge, LineState.settled, LineState.isDirty, tagged, cached]

theorem Levels.lookup_applyState (levels : c.Levels) {a : Address} (held : c.cache.hit a)
    {next : LineState} (settled : next.settled = next) (b : Address) :
    (c.applyState a next).lookup b = if b.block = a.block then next else c.lookup b := by
  obtain ⟨l, found⟩ := Option.isSome_iff_exists.mp held
  unfold Controller.applyState
  split
  · rename_i valid
    change ((c.tags.setState a next).2.stateOf b).merge ((c.cache.setState a next).2.stateOf b) = _
    rw [DuplicateTags.stateOf_setState levels.tags, BackupCache.stateOf_eq,
      BackupCache.find?_setState]
    by_cases same : b.block = a.block
    · have untagged : (c.tags.stateOf b).valid = (c.tags.stateOf a).valid := by
        rw [DuplicateTags.stateOf_congr c.tags same]
      obtain ⟨v, d, s⟩ := next
      cases tagged : (c.tags.stateOf a).valid <;>
        simp_all [LineState.merge, LineState.settled, LineState.isDirty, CacheLine.state]
    · simp [same, lookup, BackupCache.stateOf_eq]
  · rename_i gone
    change ((c.tags.drop a).2.stateOf b).merge ((c.cache.drop a).2.stateOf b) = _
    rw [DuplicateTags.stateOf_drop levels.tags, BackupCache.stateOf_eq, BackupCache.find?_drop]
    by_cases same : b.block = a.block
    · rw [if_pos same, if_pos same, if_pos same, ← settled]
      simp [LineState.settled, gone, LineState.merge, LineState.invalid, LineState.isDirty]
    · rw [if_neg same, if_neg same, if_neg same, lookup, BackupCache.stateOf_eq]

theorem Levels.read_applyState (levels : c.Levels) {a : Address} (held : c.cache.hit a)
    (next : LineState) (b : Address) :
    (c.applyState a next).cache.read b =
      if b.block = a.block then if next.valid then c.cache.read a else none else c.cache.read b := by
  have copy := congrArg Holding.copy (levels.line_applyState held next b)
  simp only [line, apply_ite Holding.copy, Holding.absent] at copy
  exact copy

structure Concluded (c : Controller) (p : Probe) (r : ProbeReply) (d : Controller) : Prop where
  victims : d.victims = c.victims
  queued : d.outbound = c.outbound ++ [.reply r]
  counted : d.counters.probeHits + d.counters.probeMisses + d.counters.anomalies =
    c.counters.probeHits + c.counters.probeMisses + c.counters.anomalies + 1
  lookup : ∀ b, d.lookup b =
    if b.block = p.addr.block then p.command.leaves (c.lookup p.addr) else c.lookup b
  read : ∀ b, d.cache.read b =
    if b.block = p.addr.block then
      if (p.command.leaves (c.lookup p.addr)).valid then c.cache.read p.addr else none
    else c.cache.read b

theorem Levels.concluded_still (levels : c.Levels) {p : Probe}
    (still : p.command.leaves (c.lookup p.addr) = c.lookup p.addr) {k : Counters}
    (counted : k.probeHits + k.probeMisses + k.anomalies =
      c.counters.probeHits + c.counters.probeMisses + c.counters.anomalies + 1) (r : ProbeReply) :
    Concluded c p r (send { c with counters := k } (.reply r)) := by
  refine ⟨rfl, rfl, counted, fun b => ?_, fun b => ?_⟩
  · change c.lookup b = _
    split
    · rename_i same
      rw [still, lookup_congr c same]
    · rfl
  · change c.cache.read b = _
    split
    · rename_i same
      have copy := levels.copy_isSome p.addr
      rw [still, BackupCache.read_eq, BackupCache.find?_congr c.cache same, ← BackupCache.read_eq]
      split
      · rfl
      · rename_i gone
        simpa [gone, line] using copy
    · rfl

theorem Levels.concludeProbe_spec (levels : c.Levels) (p : Probe) (data : Option Block)
    (victim : Option Slot) :
    ∃ r d, c.concludeProbe p (c.lookup p.addr) data victim = (.ok r, d) ∧
      r = { txn := p.txn, addr := p.addr.block, data, victim
            status := probeStatus (p.command.movement.isHit (c.lookup p.addr))
              (c.lookup p.addr).isDirty } ∧
      Concluded c p r d := by
  cases hit : p.command.movement.isHit (c.lookup p.addr) with
  | false =>
    have still : p.command.leaves (c.lookup p.addr) = c.lookup p.addr := by
      simp [ProbeCommand.leaves, hit]
    simp only [Controller.concludeProbe, hit]
    exact ⟨_, _, rfl, rfl, levels.concluded_still still (by simp only; omega) _⟩
  | true =>
    have moved : p.command.leaves (c.lookup p.addr) = p.command.next.apply (c.lookup p.addr) := by
      simp [ProbeCommand.leaves, hit]
    simp only [Controller.concludeProbe, hit, if_true]
    by_cases stays : p.command.next = .unchanged
    · have still : p.command.leaves (c.lookup p.addr) = c.lookup p.addr := by
        simp [moved, stays, NextState.apply]
      rw [if_pos stays]
      exact ⟨_, _, rfl, rfl, levels.concluded_still still (by simp only; omega) _⟩
    · rw [if_neg stays]
      let counted : Controller :=
        { c with counters := { c.counters with probeHits := c.counters.probeHits + 1 } }
      let next := p.command.next.apply (c.lookup p.addr)
      have below : counted.Levels := levels.of_eq rfl rfl
      have held : counted.cache.hit p.addr.block := by
        change c.cache.hit p.addr.block
        rw [← levels.lookup_valid, lookup_congr c (Address.block_block p.addr)]
        exact DataMovement.valid_of_isHit hit
      have frame : (counted.applyState p.addr.block next).victims = c.victims ∧
          (counted.applyState p.addr.block next).outbound = c.outbound ∧
          (counted.applyState p.addr.block next).counters = counted.counters := by
        rw [counted.applyState_frame p.addr.block next]
        exact ⟨rfl, rfl, rfl⟩
      refine ⟨_, _, rfl, rfl, frame.1, ?_, ?_, fun b => ?_, fun b => ?_⟩
      · exact congrArg (· ++ _) frame.2.1
      · change (counted.applyState p.addr.block next).counters.probeHits +
          (counted.applyState p.addr.block next).counters.probeMisses +
          (counted.applyState p.addr.block next).counters.anomalies = _
        rw [frame.2.2]
        simp only [counted]
        omega
      · have settled : next.settled = next := NextState.settled_apply _ (settled_lookup c p.addr)
        rw [moved]
        refine (below.lookup_applyState held settled b).trans ?_
        rw [Address.block_block]
        rfl
      · rw [moved]
        refine (below.read_applyState held next b).trans ?_
        rw [Address.block_block]
        have bytes : c.cache.read p.addr.block = c.cache.read p.addr := by
          simp only [BackupCache.read_eq, BackupCache.find?_block]
        rw [← bytes]

structure Met (p : Probe) (s : LineState) (bytes : Block) (r : ProbeReply) (d : Controller) :
    Prop where
  status : r.status = if p.command.movement.isHit s then
    if s.dirty then .hitDirty else .hitClean else .miss
  data : r.data = if p.command.takes s then some bytes else none
  named : r.victim.isSome ↔ r.data.isSome ∧ s.dirty
  victim : ∀ slot, r.victim = some slot →
    ∃ v, d.victims.get? slot = some v ∧ v.draining ∧ v.addr = p.addr.block ∧ v.data = bytes
  state : d.lookup p.addr = p.command.leaves s
  block : (p.command.leaves s).valid → d.cache.read p.addr = some bytes

/-- A probe that was answered. Only its own block may change, one answer is queued for the hub, and
the probe is counted once. -/
structure Replied (c : Controller) (p : Probe) (r : ProbeReply) (d : Controller) : Prop where
  reserved : p.command.next.isReserved →
    r = { txn := p.txn, addr := p.addr.block, status := .miss, anomaly := true } ∧
    d.anomalies = c.anomalies ++ [⟨p.addr.block, p.raw, p.command.movement.code, p.command.next.code⟩] ∧
    d.tags = c.tags ∧ d.cache = c.cache ∧ d.victims = c.victims
  held : p.command.next.isReserved = false → (c.lookup p.addr).valid →
    ∃ bytes, c.cache.read p.addr = some bytes ∧ Met p (c.lookup p.addr) bytes r d
  others : ∀ b, b.block ≠ p.addr.block → d.lookup b = c.lookup b ∧ d.cache.read b = c.cache.read b
  queued : d.outbound = c.outbound ++ [.reply r]
  counted : d.counters.probeHits + d.counters.probeMisses + d.counters.anomalies =
    c.counters.probeHits + c.counters.probeMisses + c.counters.anomalies + 1

/-- The end of a probe, when the data to be given up and their slot are settled. -/
theorem Levels.replied (levels : c.Levels) {e : Controller} (tags : e.tags = c.tags)
    (cache : e.cache = c.cache) (outbound : e.outbound = c.outbound)
    (counters : e.counters.probeHits + e.counters.probeMisses + e.counters.anomalies =
      c.counters.probeHits + c.counters.probeMisses + c.counters.anomalies)
    {p : Probe} (named : p.command.next.isReserved = false)
    {data : Option Block} {victim : Option Slot} {r : ProbeReply}
    (answered : e.concludeProbe p (c.lookup p.addr) data victim = (.ok r, d))
    (taken : ∀ bytes, c.cache.read p.addr = some bytes →
      data = if p.command.takes (c.lookup p.addr) then some bytes else none)
    (aside : victim.isSome ↔ data.isSome ∧ (c.lookup p.addr).isDirty)
    (kept : ∀ slot bytes, victim = some slot → c.cache.read p.addr = some bytes →
      ∃ v, e.victims.get? slot = some v ∧ v.draining ∧ v.addr = p.addr.block ∧ v.data = bytes) :
    Replied c p r d := by
  have lookup (b : Address) : e.lookup b = c.lookup b := by simp only [Controller.lookup, tags, cache]
  obtain ⟨_, _, shape, answer, done⟩ := (levels.of_eq tags cache).concludeProbe_spec p data victim
  rw [lookup] at shape answer
  rw [shape] at answered
  cases answered
  refine ⟨?_, ?_, ?_, ?_, ?_⟩
  · intro reserved
    rw [reserved] at named
    cases named
  · intro _ valid
    obtain ⟨bytes, read⟩ := Option.isSome_iff_exists.mp ((levels.copy_isSome p.addr).trans valid)
    have dirty : (c.lookup p.addr).isDirty = (c.lookup p.addr).dirty := by
      simp [LineState.isDirty, valid]
    refine ⟨bytes, read, ?_, ?_, ?_, ?_, ?_, ?_⟩
    · rw [answer, ← dirty]
      rfl
    · rw [answer]
      exact taken bytes read
    · rw [answer, ← dirty]
      exact aside
    · intro slot chosen
      rw [answer] at chosen
      rw [done.victims]
      exact kept slot bytes chosen read
    · rw [done.lookup, if_pos rfl, lookup]
    · intro stays
      rw [done.read, if_pos rfl, lookup, if_pos stays, cache]
      exact read
  · intro b apart
    rw [done.lookup, if_neg apart, done.read, if_neg apart, lookup, cache]
    exact ⟨rfl, rfl⟩
  · rw [done.queued, outbound]
  · rw [done.counted, counters]

theorem Levels.answerProbe_replied (levels : c.Levels) {p : Probe} {r : ProbeReply}
    (named : p.command.next.isReserved = false)
    (answered : c.answerProbe p (c.lookup p.addr) = (.ok r, d)) : Replied c p r d := by
  have probed : c.probedBlock p (c.lookup p.addr) =
      if p.command.takes (c.lookup p.addr) then c.cache.read p.addr else none := by
    rw [probedBlock, ← ProbeCommand.takes_eq, BackupCache.read_eq, BackupCache.find?_block]
    rfl
  unfold Controller.answerProbe at answered
  split at answered
  · rename_i nothing
    refine levels.replied rfl rfl rfl rfl named answered ?_ (by simp) (by simp)
    intro bytes read
    rw [← read, ← probed, nothing]
  · rename_i data given
    have taken (bytes : Block) (read : c.cache.read p.addr = some bytes) :
        some data = if p.command.takes (c.lookup p.addr) then some bytes else none := by
      rw [← read, ← probed, given]
    split at answered
    · rename_i dirty
      rcases VictimBuffer.allocate_cases c.victims p.addr.block data .probe with
        ⟨_, refused⟩ | ⟨_, slot, _, put⟩
      · rw [refused] at answered
        cases answered
      · rw [put] at answered
        refine levels.replied ?_ ?_ ?_ ?_ named answered taken (by simp [dirty]) ?_
        · rfl
        · rfl
        · rfl
        · rfl
        · intro i bytes chosen read
          cases chosen
          have same : data = bytes := by
            have both := taken bytes read
            split at both
            · cases both
              rfl
            · cases both
          refine ⟨{ addr := p.addr.block.block, data, destination := .probe, phase := .inTransfer },
            ?_, rfl, Address.block_block _, same⟩
          rw [VictimBuffer.get?_startTransfers, VictimBuffer.get?_put, if_pos rfl]
          rfl
    · rename_i clean
      exact levels.replied rfl rfl rfl rfl named answered taken (by simp [clean]) (by simp)

theorem Levels.handleProbe_replied (levels : c.Levels) {p : Probe} {r : ProbeReply}
    (answered : c.handleProbe p = (.ok r, d)) : Replied c p r d := by
  unfold Controller.handleProbe at answered
  split at answered
  · rename_i reserved
    cases answered
    refine ⟨fun _ => ⟨rfl, rfl, rfl, rfl, rfl⟩, ?_, fun _ _ => ⟨rfl, rfl⟩, rfl, rfl⟩
    intro named
    rw [reserved] at named
    cases named
  · rename_i named
    rw [Bool.not_eq_true] at named
    simp only [lookup_congr c (Address.block_block p.addr)] at answered
    split at answered
    · rename_i gone
      simp only [Bool.and_eq_true, Bool.not_eq_true'] at gone
      split at answered
      · cases answered
        refine ⟨?_, ?_, fun _ _ => ⟨rfl, rfl⟩, rfl, ?_⟩
        · intro reserved
          rw [reserved] at named
          cases named
        · intro _ valid
          rw [gone.1] at valid
          cases valid
        · simp only [send]
          omega
      · exact levels.answerProbe_replied named answered
    · exact levels.answerProbe_replied named answered

/-- What a controller answers to a probe, whatever was asked of it before. -/
theorem replied_follow {cpu : Nat} {registers : Registers}
    (built : ofRegisters cpu registers = .ok c) (actions : List Action) {p : Probe} {r : ProbeReply}
    (answered : (c.follow actions).handleProbe p = (.ok r, d)) : Replied (c.follow actions) p r d :=
  ((nested_ofRegisters built).follow actions).toLevels.handleProbe_replied answered

/-- A probe that asks for no data but makes the line clean is given the data all the same. -/
theorem replied_owning :
    ∃ c r d, ofSize 0 .mb1 = .ok c ∧
      (c.follow owning).handleProbe ⟨7, ⟨8⟩, ProbeCommand.encode ⟨.nothing, .clean⟩⟩ = (.ok r, d) ∧
      Replied (c.follow owning) ⟨7, ⟨8⟩, ProbeCommand.encode ⟨.nothing, .clean⟩⟩ r d ∧
      r.status = .hitDirty ∧ r.data = some .zero ∧ r.victim = some 0 ∧ d.lookup ⟨0⟩ = .clean := by
  have built : ofRegisters 0 (.forCache .mb1) = .ok _ := rfl
  refine ⟨_, { txn := 7, addr := ⟨0⟩, status := .hitDirty, data := some .zero, victim := some 0 }, _,
    built, Prod.ext ?_ rfl, replied_follow built owning (Prod.ext ?_ rfl), rfl, rfl, rfl, ?_⟩
  · decide +kernel
  · decide +kernel
  · decide +kernel

end Controller
end CacheCoherence
