import CacheCoherence.Proofs.Acquisitions
import CacheCoherence.Proofs.Refusals

/-! Completions that are rejected. They name a slot that is not in use, or one that has its answer, and
for most of them nothing is done but to count them. An answer to a reference that has been answered is
worked into the caches all the same before its slot turns it away, so the line is as it was only if it was
still as that answer would make it. -/

namespace CacheCoherence

namespace DuplicateTags

structure ReadsLike (t u : DuplicateTags) : Prop where
  line : ∀ i, u.line i = t.line i
  primaryLine : ∀ i, u.primaryLine i = t.primaryLine i
  nextWay : ∀ i, u.nextWay.get? i = t.nextWay.get? i

variable {t u : DuplicateTags} {a : Address}

theorem ReadsLike.refl (t : DuplicateTags) : t.ReadsLike t := ⟨fun _ => rfl, fun _ => rfl, fun _ => rfl⟩

theorem ReadsLike.stateOf (same : t.ReadsLike u) (a : Address) : u.stateOf a = t.stateOf a := by
  simp only [DuplicateTags.stateOf, find?, same.line]

theorem readsLike_write_iff (placed : t.WellPlaced) (paired : t.Paired) {i : Nat}
    (found : t.find? a = some i) {s : LineState} (settled : s.settled = s) :
    t.ReadsLike (t.write i a s) ↔ t.stateOf a = s := by
  obtain ⟨valid, block⟩ := (find?_eq_some_iff placed a i).mp found
  constructor
  · intro same
    rw [← same.stateOf, stateOf_write_found placed found, if_pos rfl, settled]
  · rintro rfl
    have line (j : Nat) : (t.write i a (t.stateOf a)).line j = t.line j := by
      rw [line_write]
      split
      · rename_i here
        rw [← here, stateOf_eq_line placed valid block, placed.settled, ← tagOf_block, ← block,
          ← placed.tag i valid]
      · rfl
    refine ⟨line, fun j => ?_, fun _ => rfl⟩
    rw [(paired.write i a _).same, line, paired.same]

end DuplicateTags

theorem CacheLine.eq_refilled_iff (l : CacheLine) (data : Block) {s : LineState} (valid : s.valid) :
    l = { l with dirty := s.dirty, shared := s.shared, data } ↔ l.data = data ∧ l.state = s := by
  obtain ⟨tag, addr, dirty, shared, bytes⟩ := l
  obtain ⟨_, d, h⟩ := s
  cases valid
  simp only [CacheLine.mk.injEq, CacheLine.state, LineState.mk.injEq, true_and]
  constructor
  · rintro ⟨dirty, shared, bytes⟩
    exact ⟨bytes, dirty, shared⟩
  · rintro ⟨bytes, dirty, shared⟩
    exact ⟨dirty, shared, bytes⟩

namespace BackupCache

structure ReadsLike (c d : BackupCache) : Prop where
  size : d.size = c.size
  cell : ∀ i, d.lines.get? i = c.lines.get? i

variable {c d e : BackupCache} {a : Address} {l m : CacheLine}

theorem ReadsLike.find? (same : c.ReadsLike d) (a : Address) : d.find? a = c.find? a := by
  simp only [BackupCache.find?, occupant, indexOf, same.size, same.cell]

theorem readsLike_put_iff (found : c.find? a = some l) (addr : m.addr = l.addr) (tag : m.tag = l.tag) :
    c.ReadsLike (c.put a m) ↔ l = m := by
  constructor
  · intro same
    have here := same.find? a
    rw [find?_put_found found (addr.trans (addr_of_find? found)) (tag.trans (tag_of_find? found)),
      if_pos rfl, found] at here
    exact (Option.some.inj here).symm
  · rintro rfl
    refine ⟨rfl, fun i => ?_⟩
    change (c.lines.set _ l).get? i = _
    rw [Sparse.get?_set]
    split
    · rename_i here
      rw [← here]
      exact (occupant_of_find? found).symm
    · rfl

theorem readsLike_setState_iff (found : c.find? a = some l) {s : LineState} (valid : s.valid) :
    c.ReadsLike (c.setState a s).2 ↔ l.state = s := by
  have shape : (c.setState a s).2 = c.put a { l with dirty := s.dirty, shared := s.shared } := by
    rw [setState_eq, found]
    simp only [valid, if_true]
  rw [shape, readsLike_put_iff (m := { l with dirty := s.dirty, shared := s.shared }) found rfl rfl,
    l.eq_refilled_iff l.data valid]
  exact and_iff_right rfl

theorem readsLike_install_iff (found : c.find? a = some l) (data : Block) {s : LineState}
    (valid : s.valid) : c.ReadsLike (c.install a data s) ↔ l.data = data ∧ l.state = s := by
  have shape : c.install a data s = c.put a { l with dirty := s.dirty, shared := s.shared, data } := by
    rw [install, put, ← addr_of_find? found, ← tag_of_find? found]
  rw [shape, readsLike_put_iff (m := { l with dirty := s.dirty, shared := s.shared, data }) found rfl rfl]
  exact l.eq_refilled_iff data valid

/-- A line that was installed in one state and put in another reads like one installed in that. -/
theorem cell_setState_install (c : BackupCache) (a : Address) (data : Block) (t : LineState)
    {s : LineState} (valid : s.valid) (i : Nat) :
    ((c.install a data t).setState a s).2.lines.get? i = (c.install a data s).lines.get? i := by
  have found := find?_install c a a data t
  rw [if_pos rfl] at found
  rw [setState_eq, found]
  simp only [valid, if_true, put, install, indexOf, Sparse.get?_set]
  split
  · rfl
  · rfl

end BackupCache

namespace Controller

variable {c d : Controller}

/-- `d` is like `c`: its tag stores and its backup cache read like those of `c`, and all the rest is the
same. -/
structure Same (c d : Controller) : Prop where
  frame : d = { c with tags := d.tags, cache := d.cache }
  tags : c.tags.ReadsLike d.tags
  cache : c.cache.ReadsLike d.cache

/-- The completion names a slot that is not in use, or one that has its answer. -/
def stale (c : Controller) (m : Completion) : Bool :=
  match m.target with
  | .victim slot => (c.victims.get? slot).isNone
  | .request (.ioWrite slot) => (c.writes.get? slot).all (·.acknowledged)
  | .request (.miss slot) => (c.misses.get? slot).all (·.answer.isSome)

def isOwned (c : Controller) (a : Address) : Bool :=
  if c.tags.hit a then c.tags.stateOf a == .modified && !(c.cache.stateOf a).shared
  else c.cache.stateOf a == .modified

def isFilled (c : Controller) (a : Address) (data : Block) (s : LineState) : Bool :=
  c.cache.read a == some data &&
    if c.victims.hasRoom then c.cache.stateOf a == { s with dirty := false } && c.tags.stateOf a == s
    else c.cache.stateOf a == s

/-- An answer to the reference `r`, worked into the caches, would not leave its line as it is. -/
def disturbs (c : Controller) (r : Reference) (m : Completion) : Bool :=
  if m.absent then false
  else if c.survives r then !c.isOwned r.addr
  else
    m.data.any fun data => !r.addr.isIo && !c.isFilled r.addr data
      (fillState r.access.needsOwnership (m.shared && !r.access.needsOwnership))

/-- The completion is an answer that would change the line of a reference that has its answer. -/
def redoes (c : Controller) (m : Completion) : Bool :=
  match m.target with
  | .request (.miss slot) => (c.misses.get? slot).any fun miss => c.disturbs miss.request m
  | .request (.ioWrite _) | .victim _ => false

theorem Same.refl (c : Controller) : Same c c := ⟨rfl, .refl _, rfl, fun _ => rfl⟩

/-! An answer to a reference that asked for ownership only. -/

theorem same_takeOwnership_iff (nested : c.Nested) {a : Address} (valid : (c.lookup a).valid) :
    Same c (c.takeOwnership a) ↔ c.isOwned a := by
  obtain ⟨l, held⟩ : ∃ l, c.cache.find? a = some l := by
    rw [nested.toLevels.lookup_valid] at valid
    exact Option.isSome_iff_exists.mp valid
  have state : c.cache.stateOf a = l.state := by simp only [BackupCache.stateOf, held]
  cases found : c.tags.find? a with
  | some i =>
    have shape : c.takeOwnership a = { c with
        tags := c.tags.write i a .modified,
        cache := (c.cache.setState a { l.state with shared := false }).2 } := by
      simp only [takeOwnership, DuplicateTags.setState, found, state]
    have tagged := DuplicateTags.readsLike_write_iff nested.tags nested.paired found
      (s := .modified) rfl
    have cached := BackupCache.readsLike_setState_iff held (s := { l.state with shared := false }) rfl
    rw [shape, isOwned, DuplicateTags.hit, found, state]
    simp only [Option.isSome_some, if_true, Bool.and_eq_true, beq_iff_eq, Bool.not_eq_true']
    constructor
    · intro same
      exact ⟨tagged.mp same.tags, congrArg LineState.shared (cached.mp same.cache)⟩
    · rintro ⟨owned, unshared⟩
      refine ⟨rfl, tagged.mpr owned, cached.mpr ?_⟩
      rw [← unshared]
  | none =>
    have shape : c.takeOwnership a = { c with cache := (c.cache.setState a .modified).2 } := by
      simp only [takeOwnership, DuplicateTags.setState, found]
    have cached := BackupCache.readsLike_setState_iff held (s := .modified) rfl
    rw [shape, isOwned, DuplicateTags.hit, found, state]
    simp only [Option.isSome_none, Bool.false_eq_true, if_false, beq_iff_eq]
    exact ⟨fun same => cached.mp same.cache, fun owned => ⟨rfl, .refl _, cached.mpr owned⟩⟩

/-! An answer that brings data. -/

section filling

variable {a : Address} {data : Block} {s : LineState} {l : CacheLine}

theorem install_held (held : c.cache.find? a = some l) (data : Block) (s : LineState) :
    (c.install a data s).2 =
      if c.victims.hasRoom then
        transferVictims
          (fillPrimary { c with cache := c.cache.install a data { s with dirty := false } } a s).2
      else
        transferVictims
          { c with cache := ((c.cache.install a data { s with dirty := false }).setState a s).2 } := by
  have occupies := BackupCache.occupant_of_find? held
  have addr := BackupCache.addr_of_find? held
  have pulled : c.pullDown a = c := by
    simp only [pullDown, occupies, addr, if_true]
  have inserted : c.cache.insert a data { s with dirty := false } c.victims .memory =
      (.ok none, c.cache.install a data { s with dirty := false }, c.victims) := by
    simp only [BackupCache.insert, occupies, addr, if_true]
  let replaced : Controller := { c with cache := c.cache.install a data { s with dirty := false } }
  simp only [install, pulled, inserted, Option.bind_none, Option.isSome_none, Bool.false_eq_true, if_false]
  by_cases room : c.victims.hasRoom = true
  · have entered : (replaced.fillPrimary a s).1 = .ok () := fillPrimary_fst (c := replaced) room a s
    rw [if_pos room, if_pos room]
    split
    · rename_i refused
      cases entered.symm.trans (congrArg Prod.fst refused)
    · rename_i d shape
      rw [shape]
  · rw [if_neg room, if_neg room]

theorem install_held_tags (held : c.cache.find? a = some l) (room : c.victims.hasRoom) (data : Block)
    (s : LineState) : (c.install a data s).2.tags = (c.tags.fill a s).2 := by
  rw [install_held held, if_pos room, transferVictims_tags, fillPrimary_tags]

theorem install_held_entered (settled : c.victims.shelved.Settled) (held : c.cache.find? a = some l)
    (room : c.victims.hasRoom) {i : Nat} (found : c.tags.find? a = some i) (data : Block) (s : LineState) :
    (c.install a data s).2 = { c with
      tags := c.tags.write i a s, cache := c.cache.install a data { s with dirty := false } } := by
  let entered : Controller := { c with
    tags := c.tags.write i a s, cache := c.cache.install a data { s with dirty := false } }
  have idle : entered.transferVictims = entered := transferVictims_shelved settled
  have filled : fillPrimary { c with cache := c.cache.install a data { s with dirty := false } } a s =
      (.ok (), entered.transferVictims) := by
    simp only [fillPrimary, DuplicateTags.fill, found, keepDisplaced]
    rfl
  rw [install_held held, if_pos room, filled, idle]
  exact idle

theorem install_held_crowded (settled : c.victims.shelved.Settled) (held : c.cache.find? a = some l)
    (full : c.victims.hasRoom = false) (data : Block) (s : LineState) :
    (c.install a data s).2 =
      { c with cache := ((c.cache.install a data { s with dirty := false }).setState a s).2 } := by
  rw [install_held held, if_neg (by simp [full])]
  exact transferVictims_shelved settled

theorem same_install_iff (nested : c.Nested) (settled : c.victims.shelved.Settled)
    (held : c.cache.find? a = some l) (data : Block) (valid : s.valid) (plain : s.settled = s) :
    Same c (c.install a data s).2 ↔ c.isFilled a data s := by
  have state : c.cache.stateOf a = l.state := by simp only [BackupCache.stateOf, held]
  have read : c.cache.read a = some l.data := by rw [BackupCache.read_eq, held, Option.map_some]
  simp only [isFilled, state, read, Bool.and_eq_true, beq_iff_eq, Option.some.injEq]
  cases room : c.victims.hasRoom with
  | false =>
    have cached := BackupCache.readsLike_install_iff held data valid
    have cell := c.cache.cell_setState_install a data { s with dirty := false } valid
    rw [install_held_crowded settled held room]
    simp only [Bool.false_eq_true, if_false, beq_iff_eq]
    constructor
    · intro same
      exact cached.mp ⟨rfl, fun i => (cell i).symm.trans (same.cache.cell i)⟩
    · intro filled
      have same := cached.mpr filled
      exact ⟨rfl, .refl _, BackupCache.size_setState .., fun i => (cell i).trans (same.cell i)⟩
  | true =>
    simp only [if_true, Bool.and_eq_true, beq_iff_eq]
    cases found : c.tags.find? a with
    | some i =>
      have cached := BackupCache.readsLike_install_iff held data (s := { s with dirty := false }) valid
      have tagged := DuplicateTags.readsLike_write_iff nested.tags nested.paired found plain
      rw [install_held_entered settled held room found]
      constructor
      · intro same
        obtain ⟨bytes, clean⟩ := cached.mp same.cache
        exact ⟨bytes, clean, tagged.mp same.tags⟩
      · rintro ⟨bytes, clean, entered⟩
        exact ⟨rfl, tagged.mpr entered, cached.mpr ⟨bytes, clean⟩⟩
    | none =>
      have missing : c.tags.stateOf a = .invalid := by simp only [DuplicateTags.stateOf, found]
      have apart : c.tags.stateOf a ≠ s := by
        rw [missing]
        rintro rfl
        cases valid
      have entered := (nested.tags.fill a s).state a
      rw [if_pos rfl, plain, ← install_held_tags held room data s] at entered
      constructor
      · intro same
        exact absurd ((same.tags.stateOf a).symm.trans entered) apart
      · rintro ⟨_, _, entered⟩
        exact absurd entered apart

theorem install_error {fault : Fault} (refused : (c.install a data s).1 = .error fault) :
    (c.install a data s).2.counters = c.counters := by
  have pulled : (c.pullDown a).counters = c.counters := by
    unfold pullDown
    split
    · rfl
    · split
      · rfl
      · split
        · rfl
        · split <;> rfl
  unfold install at refused ⊢
  simp only at refused ⊢
  split at refused
  · exact pulled
  · split at refused
    · rename_i room
      split at refused
      · rename_i shape
        have entered := congrArg Prod.fst shape
        rw [fillPrimary_fst] at entered
        · cases entered
        · exact room
      · cases refused
    · cases refused

/-- A fill is taken, and leaves everything as it is only if the line was filled like that. -/
theorem installFill_spec (good : c.shelve.Good) (nested : c.Nested) (cacheable : a.isIo = false)
    (data : Block) (valid : s.valid) (plain : s.settled = s) :
    (c.installFill a (some data) s).1 = .ok () ∧
      (Same c (c.installFill a (some data) s).2 ↔ c.isFilled a data s) := by
  have shelved := c.shelve_install a data s
  rcases good.install a data valid with ⟨refused, _, _, _, absent⟩ | ⟨_, done, installed⟩
  · rw [shelved] at refused
    have refused : (c.install a data s).1 = .error (.exhausted .victimBuffer) := refused
    have shape : c.installFill a (some data) s = (.ok (), { (c.install a data s).2 with
        counters := (c.install a data s).2.counters.noteRefusal true }) := by
      simp only [installFill, cacheable, Bool.false_eq_true, if_false]
      split
      · rename_i taken
        cases refused.symm.trans (congrArg Prod.fst taken)
      · rename_i other
        cases refused.symm.trans (congrArg Prod.fst other)
        rw [other]
        rfl
    have missing : c.cache.read a = none := congrArg Holding.copy absent
    rw [shape]
    refine ⟨rfl, fun same => ?_, fun filled => ?_⟩
    · have counted := congrArg (·.counters.backpressure) same.frame
      simp only [install_error refused, Counters.noteRefusal, if_true] at counted
      omega
    · simp [isFilled, missing] at filled
  · rw [shelved] at done installed
    have done : (c.install a data s).1 = .ok () := done
    have shape : c.installFill a (some data) s = (.ok (), (c.install a data s).2) := by
      simp only [installFill, cacheable, Bool.false_eq_true, if_false]
      split
      · rename_i taken
        rw [taken]
      · rename_i other
        cases done.symm.trans (congrArg Prod.fst other)
    rw [shape]
    refine ⟨rfl, ?_⟩
    cases held : c.cache.find? a with
    | some l => exact same_install_iff nested good.settled held data valid plain
    | none =>
      have missing : c.cache.read a = none := by rw [BackupCache.read_eq, held, Option.map_none]
      refine ⟨fun same => ?_, fun filled => ?_⟩
      · have copy : (c.install a data s).2.cache.read a = some data :=
          congrArg Holding.copy installed.line
        rw [BackupCache.read_eq, same.cache.find?, held] at copy
        cases copy
      · simp [isFilled, missing] at filled

/-- The same for an answer that may bring nothing, or something for the I/O space. -/
theorem installFill_fills (good : c.shelve.Good) (nested : c.Nested) (a : Address) (data : Option Block)
    (valid : s.valid) (plain : s.settled = s) :
    (c.installFill a data s).1 = .ok () ∧
      (Same c (c.installFill a data s).2 ↔
        (data.any fun data => !a.isIo && !c.isFilled a data s) = false) := by
  cases data with
  | none => exact ⟨rfl, fun _ => rfl, fun _ => .refl c⟩
  | some data =>
    cases io : a.isIo with
    | true =>
      have shape : c.installFill a (some data) s = (.ok (), c) := by
        simp only [installFill, io, if_true]
      rw [shape]
      exact ⟨rfl, fun _ => rfl, fun _ => .refl c⟩
    | false =>
      obtain ⟨taken, same⟩ := installFill_spec good nested io data valid plain
      exact ⟨taken, by simpa using same⟩

end filling

theorem settled_fillState (owned shared : Bool) :
    (fillState owned shared).settled = fillState owned shared := by
  cases owned <;> cases shared <;> rfl

theorem takeOwnership_frame (c : Controller) (a : Address) :
    c.takeOwnership a =
      { c with tags := (c.takeOwnership a).tags, cache := (c.takeOwnership a).cache } := by
  unfold takeOwnership
  split <;> rfl

/-- An answer to a reference is worked into the caches first, and then its slot is asked. -/
theorem completeMiss_spec (good : c.shelve.Good) (nested : c.Nested) {slot : Slot} {miss : Miss}
    (present : c.misses.get? slot = some miss) (m : Completion) :
    ∃ d answer, c.completeMiss slot m = d.answerMiss slot answer ∧ d.misses = c.misses ∧
      d.writes = c.writes ∧ (Same c d ↔ c.disturbs miss.request m = false) := by
  let a := miss.request.addr
  let owned := miss.request.access.needsOwnership
  let state := fillState owned (m.shared && !owned)
  rw [disturbs]
  by_cases absent : m.absent = true
  · have shape : c.completeMiss slot m = c.answerMiss slot ⟨none, false, true⟩ := by
      simp only [completeMiss, present, absent, if_true]
    rw [if_pos absent]
    exact ⟨c, _, shape, rfl, rfl, fun _ => rfl, fun _ => .refl c⟩
  rw [if_neg absent]
  by_cases survives : c.survives miss.request = true
  · have shape : c.completeMiss slot m = (c.takeOwnership a).answerMiss slot
        ⟨((c.takeOwnership a).cache.read a).or m.data, false, false⟩ := by
      simp only [completeMiss, present, absent, Bool.false_eq_true, if_false]
      exact if_pos survives
    rw [if_pos survives]
    refine ⟨c.takeOwnership a, _, shape, ?_, ?_, ?_⟩
    · rw [takeOwnership_frame]
    · rw [takeOwnership_frame]
    · rw [same_takeOwnership_iff nested (Bool.and_eq_true_iff.mp survives).2, Bool.not_eq_false']
  · obtain ⟨taken, same⟩ := installFill_fills good nested a m.data
      (fillState_valid owned (m.shared && !owned)) (settled_fillState owned (m.shared && !owned))
    obtain ⟨_, shed⟩ := shed_installFill c a m.data state
    have shape : c.completeMiss slot m =
        (c.installFill a m.data state).2.answerMiss slot ⟨m.data, m.shared && !owned, false⟩ := by
      simp only [completeMiss, present, absent, Bool.false_eq_true, if_false]
      refine (if_neg survives).trans ?_
      split
      · rename_i refused
        cases taken.symm.trans (congrArg Prod.fst refused)
      · rename_i filled
        rw [filled]
    rw [if_neg survives]
    exact ⟨_, _, shape, shed.misses, shed.writes, same⟩

/-- A reference that waits takes the answer, and one that has its answer turns it away. -/
theorem completeMiss_fst (good : c.shelve.Good) (nested : c.Nested) {slot : Slot} {miss : Miss}
    (present : c.misses.get? slot = some miss) (waits : miss.answer = none) (m : Completion) :
    (c.completeMiss slot m).1 = .ok () := by
  obtain ⟨d, answer, shape, misses, _⟩ := completeMiss_spec good nested present m
  rw [shape]
  exact answerMiss_waiting (by rw [misses, present]) waits answer

theorem completeMiss_answered (good : c.shelve.Good) (nested : c.Nested) {slot : Slot} {miss : Miss}
    (present : c.misses.get? slot = some miss) (answered : miss.answer.isSome) (m : Completion) :
    (c.completeMiss slot m).1 = .error (.rejected (.alreadyComplete slot)) ∧
      (c.completeMiss slot m).2.misses = c.misses ∧ (c.completeMiss slot m).2.writes = c.writes ∧
      (Same c (c.completeMiss slot m).2 ↔ c.disturbs miss.request m = false) := by
  obtain ⟨d, answer, shape, misses, writes, same⟩ := completeMiss_spec good nested present m
  have refused : d.answerMiss slot answer = (.error (.rejected (.alreadyComplete slot)), d) := by
    simp only [answerMiss, MissFile.complete, misses, present, answered, if_true]
    rw [← misses]
  rw [shape, refused]
  exact ⟨rfl, misses, writes, same⟩

inductive Judged (c : Controller) (m : Completion) (result : Except Fault Unit × Controller) : Prop
  | taken (fresh : c.stale m = false) (done : result.1 = .ok ())
  | rejected (reason : Rejection) (stale : c.stale m) (refused : result.1 = .error (.rejected reason))
      (misses : result.2.misses = c.misses) (writes : result.2.writes = c.writes)
      (same : Same c.counting result.2 ↔ c.redoes m = false)

theorem judged_victim (c : Controller) {m : Completion} {slot : Slot} (target : m.target = .victim slot) :
    Judged c m (c.complete m) := by
  have redoes : c.redoes m = false := by simp only [Controller.redoes, target]
  simp only [complete, target, completeVictim, VictimBuffer.finish]
  cases present : c.victims.get? slot with
  | none =>
    refine .rejected (.staleSlot slot) (by simp [stale, target, present]) rfl rfl rfl ?_
    exact ⟨fun _ => redoes, fun _ => .refl c.counting⟩
  | some v =>
    refine .taken (by simp [stale, target, present]) ?_
    simp only [VictimBuffer.release, VictimBuffer.get?_put, if_true]

theorem judged_ioWrite (c : Controller) {m : Completion} {slot : Slot}
    (target : m.target = .request (.ioWrite slot)) : Judged c m (c.complete m) := by
  have redoes : c.redoes m = false := by simp only [Controller.redoes, target]
  have same : Same c.counting c.counting ↔ c.redoes m = false := ⟨fun _ => redoes, fun _ => .refl _⟩
  simp only [complete, target]
  cases present : c.writes.get? slot with
  | none =>
    have refused : c.writes.complete slot = (.error (.rejected (.staleSlot slot)), c.writes) := by
      simp only [WriteBuffer.complete, present]
    rw [refused]
    exact .rejected (.staleSlot slot) (by simp [stale, target, present]) rfl rfl rfl same
  | some w =>
    cases acknowledged : w.acknowledged with
    | true =>
      have refused : c.writes.complete slot = (.error (.rejected (.alreadyComplete slot)), c.writes) := by
        simp only [WriteBuffer.complete, present, acknowledged, if_true]
      rw [refused]
      exact .rejected (.alreadyComplete slot) (by simp [stale, target, present, acknowledged]) rfl rfl rfl
        same
    | false =>
      refine .taken (by simp [stale, target, present, acknowledged]) ?_
      simp only [WriteBuffer.complete, present, acknowledged, Bool.false_eq_true, if_false]

theorem judged_miss (good : c.shelve.Good) (nested : c.Nested) {m : Completion} {slot : Slot}
    (target : m.target = .request (.miss slot)) : Judged c m (c.complete m) := by
  have whole : c.complete m = c.counting.completeMiss slot m := by
    simp only [complete, target]
    rfl
  have counted : c.counting.shelve.Good := good.of_eq rfl rfl rfl
  have below : c.counting.Nested := nested.of_eq rfl rfl
  rw [whole]
  cases present : c.misses.get? slot with
  | none =>
    have refused : c.counting.completeMiss slot m = (.error (.rejected (.staleSlot slot)), c.counting) := by
      simp only [completeMiss, show c.counting.misses.get? slot = none from present]
    have redoes : c.redoes m = false := by simp [Controller.redoes, target, present]
    rw [refused]
    exact .rejected (.staleSlot slot) (by simp [stale, target, present]) rfl rfl rfl
      ⟨fun _ => redoes, fun _ => .refl _⟩
  | some miss =>
    cases answered : miss.answer with
    | none =>
      exact .taken (by simp [stale, target, present, answered])
        (completeMiss_fst counted below present answered m)
    | some answer =>
      obtain ⟨refused, misses, writes, same⟩ :=
        completeMiss_answered counted below present (by rw [answered]; rfl) m
      refine .rejected (.alreadyComplete slot) (by simp [stale, target, present, answered]) refused misses
        writes ?_
      rw [same]
      simp only [Controller.redoes, target, present, Option.any_some]
      rfl

theorem judged (good : c.shelve.Good) (nested : c.Nested) (m : Completion) :
    Judged c m (c.complete m) := by
  cases target : m.target with
  | victim slot => exact judged_victim c target
  | request id =>
    cases id with
    | ioWrite slot => exact judged_ioWrite c target
    | miss slot => exact judged_miss good nested target

/-- A completion is rejected if and only if it is stale, and then nothing has changed but the count of
completions if and only if it would not redo an answer. -/
theorem same_follow_iff {cpu : Nat} {registers : Registers} (built : ofRegisters cpu registers = .ok c)
    (actions : List Action) (m : Completion) :
    ((∃ reason, ((c.follow actions).complete m).1 = .error (.rejected reason)) ↔
        (c.follow actions).stale m) ∧
      ((c.follow actions).stale m →
        ((c.follow actions).complete m).2.misses = (c.follow actions).misses ∧
        ((c.follow actions).complete m).2.writes = (c.follow actions).writes ∧
        (Same (c.follow actions).counting ((c.follow actions).complete m).2 ↔
          (c.follow actions).redoes m = false)) := by
  have start := good_ofRegisters built
  have good : (c.follow actions).shelve.Good := good_follow actions (by rwa [start.shelve_eq])
  have nested := (nested_ofRegisters built).follow actions
  cases judged good nested m with
  | taken fresh done =>
    rw [done, fresh]
    exact ⟨⟨nofun, nofun⟩, nofun⟩
  | rejected reason stale refused misses writes same =>
    exact ⟨⟨fun _ => stale, fun _ => ⟨reason, refused⟩⟩, fun _ => ⟨misses, writes, same⟩⟩

def loaded : List Action :=
  [.operate (.issue (.to (.load .quad) 0)), .complete (grant 0 (.replicate 64 0x11) false)]

/-- The same answer again is rejected, and nothing has changed. -/
theorem same_answered :
    ∃ c, ofSize 0 .mb1 = .ok c ∧
      (c.follow loaded).stale (grant 0 (.replicate 64 0x11) false) ∧
      Same (c.follow loaded).counting
        ((c.follow loaded).complete (grant 0 (.replicate 64 0x11) false)).2 := by
  have built : ofRegisters 0 (.forCache .mb1) = .ok _ := rfl
  have settled := same_follow_iff built loaded (grant 0 (.replicate 64 0x11) false)
  refine ⟨_, built, ?_, (settled.2 ?_).2.2.mpr ?_⟩
  · decide +kernel
  · decide +kernel
  · decide +kernel

/-- Another answer is rejected too, but its bytes are in the cache. -/
theorem not_same_answered :
    ∃ c, ofSize 0 .mb1 = .ok c ∧
      ((c.follow loaded).complete (grant 0 (.replicate 64 0x22) false)).1 =
        .error (.rejected (.alreadyComplete 0)) ∧
      (c.follow loaded).cache.read ⟨0⟩ = some (.replicate 64 0x11) ∧
      ((c.follow loaded).complete (grant 0 (.replicate 64 0x22) false)).2.cache.read ⟨0⟩ =
        some (.replicate 64 0x22) ∧
      ¬ Same (c.follow loaded).counting
        ((c.follow loaded).complete (grant 0 (.replicate 64 0x22) false)).2 := by
  have built : ofRegisters 0 (.forCache .mb1) = .ok _ := rfl
  have apart {c d : Controller} (before : c.cache.read ⟨0⟩ = some (.replicate 64 0x11))
      (after : d.cache.read ⟨0⟩ = some (.replicate 64 0x22)) : ¬ Same c d := by
    intro same
    rw [BackupCache.read_eq, same.cache.find?, ← BackupCache.read_eq, before] at after
    exact absurd after (by decide)
  refine ⟨_, built, ?_, ?_, ?_, apart ?_ ?_⟩
  · decide +kernel
  · decide +kernel
  · decide +kernel
  · decide +kernel
  · decide +kernel

end Controller
end CacheCoherence
