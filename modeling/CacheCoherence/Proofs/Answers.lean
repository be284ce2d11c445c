import CacheCoherence.Proofs.Fills

namespace CacheCoherence

def Completion.brings (m : Completion) : Option Block := if m.absent then none else m.data

theorem MissFile.get?_put (slots : Slots Miss) (i j : Slot) (m : Miss) :
    (MissFile.mk (slots.put i m)).get? j = if i = j then some m else (MissFile.mk slots).get? j :=
  Slots.get?_put slots i j m

namespace Controller

variable {c : Controller}

structure Owned (c : Controller) (a : Address) (d : Controller) : Prop where
  frame : d = { c with cache := d.cache, tags := d.tags }
  levels : d.Levels
  read : ∀ b, d.cache.read b = c.cache.read b
  line : ∀ b, d.line b =
    if b.block = a.block ∧ (c.lookup a).valid then ⟨c.cache.read a, true, true⟩ else c.line b

theorem Levels.owned_entered (levels : c.Levels) {a : Address} (valid : (c.tags.stateOf a).valid) :
    Owned c a { c with
      tags := (c.tags.setState a .modified).2
      cache := (c.cache.setState a { c.cache.stateOf a with shared := false }).2 } := by
  have held := levels.lookup_valid a
  have present : c.cache.hit a := levels.included a valid
  obtain ⟨l, found⟩ := Option.isSome_iff_exists.mp present
  have states (b : Address) : (c.tags.setState a .modified).2.stateOf b =
      if b.block = a.block then .modified else c.tags.stateOf b := by
    rw [DuplicateTags.stateOf_setState levels.tags]
    simp only [valid, and_true]
    rfl
  have cells (b : Address) :
      (c.cache.setState a { c.cache.stateOf a with shared := false }).2.find? b =
        if b.block = a.block then some { l with shared := false } else c.cache.find? b := by
    rw [BackupCache.find?_setState, BackupCache.stateOf_eq, found]
    simp [CacheLine.state]
  constructor
  · rfl
  · refine ⟨levels.tags.setState a _, levels.cache.setState a _, fun b valid => ?_⟩
    change ((c.tags.setState a .modified).2.stateOf b).valid at valid
    change (BackupCache.find? _ b).isSome
    rw [cells]
    rw [states] at valid
    split
    · rfl
    · rename_i apart
      rw [if_neg apart] at valid
      exact levels.included b valid
  · intro b
    rw [BackupCache.read_eq, BackupCache.read_eq, cells]
    split
    · rename_i same
      rw [BackupCache.find?_congr c.cache same, found]
      rfl
    · rfl
  · intro b
    rw [line_eq]
    change lineOf ((c.tags.setState a .modified).2.stateOf b) (BackupCache.find? _ b) = _
    rw [states, cells, held, present]
    by_cases same : b.block = a.block
    · simp [same, lineOf, LineState.modified, LineState.isDirty, BackupCache.read_eq, found]
    · simp [same, line_eq]

theorem Levels.owned_beside (levels : c.Levels) {a : Address}
    (invalid : (c.tags.stateOf a).valid = false) :
    Owned c a { c with
      tags := (c.tags.setState a .modified).2, cache := (c.cache.setState a .modified).2 } := by
  have held := levels.lookup_valid a
  have states (b : Address) : (c.tags.setState a .modified).2.stateOf b = c.tags.stateOf b := by
    rw [DuplicateTags.stateOf_setState levels.tags]
    simp [invalid]
  have cells (b : Address) : (c.cache.setState a .modified).2.find? b =
      if b.block = a.block then
        (c.cache.find? a).map fun l => { l with dirty := true, shared := false }
      else c.cache.find? b := by
    rw [BackupCache.find?_setState]
    rfl
  constructor
  · rfl
  · refine ⟨levels.tags.setState a _, levels.cache.setState a _, fun b valid => ?_⟩
    change ((c.tags.setState a .modified).2.stateOf b).valid at valid
    change (BackupCache.find? _ b).isSome
    rw [cells]
    rw [states] at valid
    have present := levels.included b valid
    split
    · rename_i same
      rw [Option.isSome_map, ← BackupCache.find?_congr c.cache same]
      exact present
    · exact present
  · intro b
    rw [BackupCache.read_eq, BackupCache.read_eq, cells]
    split
    · rename_i same
      rw [BackupCache.find?_congr c.cache same, Option.map_map]
      rfl
    · rfl
  · intro b
    rw [line_eq]
    change lineOf ((c.tags.setState a .modified).2.stateOf b) (BackupCache.find? _ b) = _
    rw [states, cells, held, BackupCache.hit]
    by_cases same : b.block = a.block
    · rw [DuplicateTags.stateOf_congr c.tags same]
      cases found : c.cache.find? a with
      | none =>
        have gone := levels.invalid_of_not_hit found
        have other := found
        rw [← BackupCache.find?_congr c.cache same] at other
        simp [line_eq, gone, other, DuplicateTags.stateOf_congr c.tags same]
      | some l => simp [same, lineOf, BackupCache.read_eq, found]
    · simp [same, line_eq]

theorem Levels.takeOwnership (levels : c.Levels) (a : Address) : Owned c a (c.takeOwnership a) := by
  have entered := DuplicateTags.setState_fst c.tags a .modified
  unfold Controller.takeOwnership
  split
  · rename_i tags shape
    rw [shape] at entered
    have owned := levels.owned_entered entered.symm
    rwa [shape] at owned
  · rename_i tags shape
    rw [shape] at entered
    have owned := levels.owned_beside entered.symm
    rwa [shape] at owned

inductive Taken (c : Controller) (r : Reference) (m : Completion) (d : Controller) (answer : Answer) :
    List Request → Prop
  | aside (lines : ∀ b, d.line b = c.line b)
      (unfilled : m.brings = none ∨ r.addr.isIo ∨ c.line r.addr = .absent)
      (data : answer.data = m.brings) : Taken c r m d answer []
  | owned (upgrade : r.access.isUpgrade) (data : Block) (present : (c.line r.addr).copy = some data)
      (answered : answer.data = some data)
      (lines : ∀ b, d.line b =
        if b.block = r.addr.block then ⟨some data, true, true⟩ else c.line b) :
      Taken c r m d answer []
  | filled (data : Block) (delivered : m.brings = some data) (cacheable : r.addr.isIo = false)
      (lost : r.access.isUpgrade → c.line r.addr = .absent)
      (answered : answer.data = some data)
      (line : d.line r.addr =
        lineOf ⟨!c.victims.hasRoom, (c.tags.stateOf r.addr).isDirty, false⟩
          (some { tag := BackupCache.tagOf r.addr, addr := r.addr.block
                  dirty := r.access.needsOwnership
                  shared := m.shared && !r.access.needsOwnership, data }))
      (sent : List Request) (quiet : onBlock r.addr sent = [])
      (others : ∀ b, b.block ≠ r.addr.block → Fate b (c.line b) (d.line b) sent) :
      Taken c r m d answer sent

theorem Taken.of_lines {r : Reference} {m : Completion} {d e : Controller} {answer : Answer}
    {sent : List Request} (taken : Taken c r m d answer sent) (same : ∀ b, e.line b = d.line b) :
    Taken c r m e answer sent := by
  cases taken with
  | aside lines unfilled data => exact .aside (fun b => (same b).trans (lines b)) unfilled data
  | owned upgrade data present answered lines =>
    exact .owned upgrade data present answered fun b => (same b).trans (lines b)
  | filled data delivered cacheable lost answered line _ quiet others =>
    refine .filled data delivered cacheable lost answered ((same _).trans line) sent quiet ?_
    intro b apart
    rw [same b]
    exact others b apart

theorem fillState_valid (owned shared : Bool) : (fillState owned shared).valid := by
  cases owned <;> cases shared <;> rfl

theorem fillState_eq (owned shared : Bool) :
    fillState owned (shared && !owned) = ⟨true, owned, shared && !owned⟩ := by
  cases owned <;> cases shared <;> rfl

/-- A fill never fails: what is refused for want of room stays uncached. -/
theorem Good.installFill (good : c.Good) (r : Reference) (m : Completion) (present : ¬ m.absent)
    (ready : r.access.isUpgrade → c.line r.addr = .absent) (answer : Answer)
    (data : answer.data = m.data) {result : Except Fault Unit × Controller}
    (run : c.installFill r.addr m.data (fillState r.access.needsOwnership
      (m.shared && !r.access.needsOwnership)) = result) :
    ∃ sent, result.1 = .ok () ∧ result.2.Good ∧ Moves c result.2 sent ∧
      Taken c r m result.2 answer sent := by
  subst run
  have given : m.brings = m.data := if_neg present
  have told : answer.data = m.brings := data.trans given.symm
  unfold Controller.installFill
  cases delivered : m.data with
  | none =>
    exact ⟨[], rfl, good, .refl c, .aside (fun _ => rfl) (.inl (given.trans delivered)) told⟩
  | some block =>
    simp only
    by_cases io : r.addr.isIo
    · rw [if_pos io]
      exact ⟨[], rfl, good, .refl c, .aside (fun _ => rfl) (.inr (.inl io)) told⟩
    · rw [if_neg io]
      have uncached : r.addr.isIo = false := by simpa using io
      rcases good.install r.addr block (fillState_valid r.access.needsOwnership
          (m.shared && !r.access.needsOwnership)) with
        ⟨refused, kept, moved, lines, absent⟩ | ⟨sent, done, installed⟩
      · split
        · rename_i d shape
          rw [shape] at refused
          cases refused
        · rename_i fault d shape
          rw [shape] at refused kept moved lines
          cases refused
          rw [if_pos (by rfl)]
          refine ⟨[], rfl, kept.of_eq rfl rfl rfl, ⟨?_, moved.sends, moved.carried⟩, ?_⟩
          · have frame : d = _ := moved.frame
            simp only
            rw [frame]
          · refine .aside ?_ (.inr (.inr absent)) told
            intro b
            rw [← lines b]
            exact line_of_eq rfl rfl b
      · split
        · rename_i d shape
          rw [shape] at installed
          refine ⟨sent, rfl, installed.good, installed.moves, ?_⟩
          have line := installed.line
          rw [fillState_eq] at line
          exact .filled block (given.trans delivered) uncached ready (data.trans delivered) line sent
            installed.quiet installed.fate
        · rename_i fault d shape
          rw [shape] at done
          cases done

theorem answerMiss_eq {d : Controller} (same : d.misses = c.misses) {slot : Slot} {miss : Miss}
    (occupied : c.misses.get? slot = some miss) (waits : miss.answer = none) (answer : Answer) :
    (d.answerMiss slot answer).2 =
      { d with misses := ⟨c.misses.slots.put slot { miss with answer := some answer }⟩ } := by
  simp only [answerMiss, MissFile.complete, same, occupied, waits, Option.isSome_none,
    Bool.false_eq_true, if_false]

/-- A reference that raises a line that is still held gets the data of that line. -/
theorem Good.raises (good : c.Good) {r : Reference} (upgrade : r.access.isUpgrade)
    (valid : (c.lookup r.addr).valid) (m : Completion) :
    ∃ data, (c.takeOwnership r.addr).cache.read r.addr = some data ∧
      ∀ misses shared absent, { c.takeOwnership r.addr with misses }.Good ∧
        Moves { c with misses } { c.takeOwnership r.addr with misses } [] ∧
        Taken c r m { c.takeOwnership r.addr with misses } ⟨some data, shared, absent⟩ [] := by
  have owned := good.toLevels.takeOwnership r.addr
  have victims : (c.takeOwnership r.addr).victims = c.victims := by rw [owned.frame]
  obtain ⟨data, copy⟩ := Option.isSome_iff_exists.mp ((good.toLevels.copy_isSome r.addr).trans valid)
  have read : c.cache.read r.addr = some data := copy
  refine ⟨data, by rw [owned.read, read], fun misses shared absent => ⟨?_, ⟨?_, by simp, ?_⟩, ?_⟩⟩
  · refine ⟨owned.levels.of_eq rfl rfl, ?_⟩
    change (c.takeOwnership r.addr).victims.Settled
    rw [victims]
    exact good.settled
  · rw [owned.frame]
    simp
  · intro i v found _ _
    change (c.takeOwnership r.addr).victims.get? i = some v at found
    rw [victims] at found
    exact .inl found
  · refine .owned upgrade data copy rfl fun b => ?_
    have line := owned.line b
    rw [read] at line
    simp only [valid, and_true] at line
    rw [← line]
    exact line_of_eq rfl rfl b

/-- The answer to a reference that waits is recorded, whatever it brings. -/
theorem Good.completeMiss (good : c.Good) {slot : Slot} {miss : Miss}
    (occupied : c.misses.get? slot = some miss) (waits : miss.answer = none) (m : Completion) :
    ∃ answer sent,
      (c.completeMiss slot m).2.misses =
        ⟨c.misses.slots.put slot { miss with answer := some answer }⟩ ∧
      (c.completeMiss slot m).2.Good ∧
      Moves { c with misses := (c.completeMiss slot m).2.misses } (c.completeMiss slot m).2 sent ∧
      Taken c miss.request m (c.completeMiss slot m).2 answer sent := by
  unfold Controller.completeMiss
  simp only [occupied]
  split
  · rename_i absent
    rw [answerMiss_eq rfl occupied waits]
    refine ⟨_, [], rfl, good.of_eq rfl rfl rfl, ?_, ?_⟩
    · exact .refl _
    · have nothing : m.brings = none := if_pos absent
      exact .aside (fun b => line_of_eq rfl rfl b) (.inl nothing) nothing.symm
  · rename_i present
    split
    · rename_i upgrade
      simp only [Bool.and_eq_true] at upgrade
      obtain ⟨upgrade, valid⟩ := upgrade
      have misses : (c.takeOwnership miss.request.addr).misses = c.misses := by
        rw [(good.toLevels.takeOwnership miss.request.addr).frame]
      obtain ⟨data, read, raised⟩ := good.raises upgrade valid m
      rw [answerMiss_eq misses occupied waits, read]
      exact ⟨_, [], rfl, raised ..⟩
    · rename_i unready
      have lost (upgrade : miss.request.access.isUpgrade) : c.line miss.request.addr = .absent := by
        apply good.toLevels.absent_of_invalid
        simpa only [upgrade, Bool.true_and, Bool.not_eq_true] using unready
      obtain ⟨sent, done, kept, moved, taken⟩ :=
        good.installFill miss.request m present lost
          ⟨m.data, m.shared && !miss.request.access.needsOwnership, false⟩ rfl rfl
      split
      · rename_i fault d shape
        rw [shape] at done
        cases done
      · rename_i d shape
        rw [shape] at kept moved taken
        have same : d.misses = c.misses := by
          have frame : d = _ := moved.frame
          rw [frame]
        rw [answerMiss_eq same occupied waits]
        refine ⟨_, sent, rfl, kept.of_eq rfl rfl rfl, ⟨?_, moved.sends, moved.carried⟩, ?_⟩
        · have frame : d = _ := moved.frame
          simp only
          rw [frame]
        · exact taken.of_lines fun b => line_of_eq rfl rfl b

theorem Good.answerMiss (good : c.Good) (slot : Slot) (answer : Answer) :
    (c.answerMiss slot answer).2.Good := good.of_eq rfl rfl rfl

/-- An answer keeps a controller good also when no reference waits for it. -/
theorem Good.completeMiss_good (good : c.Good) (slot : Slot) (m : Completion) :
    (c.completeMiss slot m).2.Good := by
  unfold Controller.completeMiss
  split
  · exact good
  · rename_i miss _
    simp only
    split
    · exact good.answerMiss _ _
    · rename_i present
      split
      · have owned := good.toLevels.takeOwnership miss.request.addr
        apply Good.answerMiss
        refine ⟨owned.levels, ?_⟩
        rw [owned.frame]
        exact good.settled
      · rename_i unready
        have lost (upgrade : miss.request.access.isUpgrade) : c.line miss.request.addr = .absent := by
          apply good.toLevels.absent_of_invalid
          simpa only [upgrade, Bool.true_and, Bool.not_eq_true] using unready
        obtain ⟨_, _, kept, _, _⟩ := good.installFill miss.request m present lost
          ⟨m.data, m.shared && !miss.request.access.needsOwnership, false⟩ rfl rfl
        split
        · rename_i shape
          rw [shape] at kept
          exact kept
        · rename_i shape
          rw [shape] at kept
          exact kept.answerMiss _ _

def wanted (c : Controller) (slot : Slot) : Option Reference :=
  (c.misses.get? slot).bind fun m => if m.answer.isNone then some m.request else none

theorem wanted_of_misses {d : Controller} (same : d.misses = c.misses) (slot : Slot) :
    d.wanted slot = c.wanted slot := by
  rw [wanted, wanted, same]

theorem wanted_eq_some_iff (c : Controller) (slot : Slot) (r : Reference) :
    c.wanted slot = some r ↔
      ∃ miss, c.misses.get? slot = some miss ∧ miss.answer = none ∧ miss.request = r := by
  simp [wanted, Option.bind_eq_some_iff]

theorem wanted_put (c : Controller) {d : Controller} {slot : Slot} {m : Miss}
    (written : d.misses = ⟨c.misses.slots.put slot m⟩) (i : Slot) :
    d.wanted i =
      if slot = i then (if m.answer.isNone then some m.request else none) else c.wanted i := by
  rw [wanted, written, MissFile.get?_put]
  split
  · rfl
  · rfl

/-- Nothing has changed that the hub or the lines could tell. -/
structure Quiet (c d : Controller) : Prop where
  good : d.Good
  wanted : ∀ slot, d.wanted slot = c.wanted slot
  outbound : d.outbound = c.outbound
  lines : ∀ b, d.line b = c.line b
  carried : ∀ i v, d.victims.get? i = some v → v.draining → v.destination ≠ .probe →
    c.victims.get? i = some v

theorem Good.quiet (good : c.Good) {d : Controller} (tags : d.tags = c.tags)
    (cache : d.cache = c.cache) (victims : d.victims = c.victims) (outbound : d.outbound = c.outbound)
    (wanted : ∀ slot, d.wanted slot = c.wanted slot) : Quiet c d := by
  refine ⟨good.of_eq tags cache victims, wanted, outbound, line_of_eq tags cache, ?_⟩
  intro i v found _ _
  rwa [victims] at found

theorem get?_of_completeVictim {slot i : Slot} {v : Victim}
    (found : (c.completeVictim slot).2.victims.get? i = some v) :
    c.victims.get? i = some v ∧ i ≠ slot := by
  unfold Controller.completeVictim at found
  split at found
  · rename_i fault victims refused
    unfold VictimBuffer.finish at refused
    split at refused
    · rename_i vacant
      cases refused
      refine ⟨found, ?_⟩
      rintro rfl
      rw [vacant] at found
      cases found
    · cases refused
  · rename_i victims finished
    have shape : victims = (c.victims.finish slot).2 := by rw [finished]
    obtain ⟨before, apart⟩ := VictimBuffer.get?_of_release found
    rw [shape, VictimBuffer.get?_finish, if_neg (Ne.symm apart)] at before
    exact ⟨before, apart⟩

theorem Good.completeVictim (good : c.Good) (slot : Slot) :
    Quiet c (c.completeVictim slot).2 := by
  have frame : ∃ victims, (c.completeVictim slot).2 = { c with victims } := by
    unfold Controller.completeVictim
    split
    · exact ⟨_, rfl⟩
    · exact ⟨_, rfl⟩
  obtain ⟨victims, frame⟩ := frame
  constructor
  · refine ⟨good.toLevels.of_eq (by rw [frame]) (by rw [frame]), ?_⟩
    intro i v found
    exact good.settled i v (get?_of_completeVictim found).1
  · intro i
    exact wanted_of_misses (by rw [frame]) i
  · rw [frame]
  · exact line_of_eq (by rw [frame]) (by rw [frame])
  · intro i v found _ _
    exact (get?_of_completeVictim found).1

theorem Good.complete_aside (good : c.Good) (m : Completion)
    (aside : ∀ slot, m.target ≠ .request (.miss slot)) : Quiet c (c.complete m).2 := by
  obtain ⟨target, data, shared, absent⟩ := m
  unfold Controller.complete
  cases target with
  | victim slot =>
    have counted : Controller.Good { c with counters.completions := c.counters.completions + 1 } :=
      good.of_eq rfl rfl rfl
    have quiet := counted.completeVictim slot
    exact ⟨quiet.good, quiet.wanted, quiet.outbound, quiet.lines, quiet.carried⟩
  | request id =>
    cases id with
    | miss slot => exact absurd rfl (aside slot)
    | ioWrite slot => exact good.quiet rfl rfl rfl rfl fun _ => rfl

theorem Good.complete (good : c.Good) (m : Completion) : (c.complete m).2.Good := by
  obtain ⟨target, data, shared, absent⟩ := m
  cases target with
  | victim slot => exact (good.complete_aside _ (by simp)).good
  | request id =>
    cases id with
    | miss slot =>
      have counted : Controller.Good
          { c with counters.completions := c.counters.completions + 1 } := good.of_eq rfl rfl rfl
      exact counted.completeMiss_good slot _
    | ioWrite slot => exact (good.complete_aside _ (by simp)).good

def told (c : Controller) (slot : Slot) : Option Block :=
  ((c.misses.get? slot).bind (·.answer)).bind (·.data)

theorem told_of_wanted {slot : Slot} {r : Reference} (waits : c.wanted slot = some r) :
    c.told slot = none := by
  obtain ⟨miss, present, unanswered, _⟩ := (wanted_eq_some_iff c slot r).mp waits
  simp [told, present, unanswered]

structure Answered (c : Controller) (slot : Slot) (r : Reference) (m : Completion) (d : Controller)
    (sent : List Request) : Prop where
  good : d.Good
  outbound : d.outbound = c.outbound ++ sent
  wanted : ∀ i, d.wanted i = if slot = i then none else c.wanted i
  taken : ∃ answer, d.told slot = answer.data ∧ Taken c r m d answer sent
  sends : ∀ q ∈ sent, ∃ (v : Victim) (i : Slot), q = v.request i
  carried : ∀ i v, d.victims.get? i = some v → v.draining → v.destination ≠ .probe →
    c.victims.get? i = some v ∨ v.request i ∈ sent

theorem Taken.recount {r : Reference} {m : Completion} {d : Controller} {answer : Answer}
    {sent : List Request} {k : Counters}
    (taken : Taken { c with counters := k } r m d answer sent) : Taken c r m d answer sent := by
  cases taken with
  | aside lines unfilled data => exact .aside lines unfilled data
  | owned upgrade data present answered lines => exact .owned upgrade data present answered lines
  | filled data delivered cacheable lost answered line _ quiet others =>
    exact Taken.filled (c := c) data delivered cacheable lost answered line sent quiet others

theorem Good.complete_wanted (good : c.Good) {slot : Slot} {r : Reference}
    (waits : c.wanted slot = some r) {m : Completion} (target : m.target = .request (.miss slot)) :
    ∃ sent, Answered c slot r m (c.complete m).2 sent := by
  obtain ⟨miss, present, unanswered, rfl⟩ := (wanted_eq_some_iff c slot r).mp waits
  have counted : Controller.Good { c with counters.completions := c.counters.completions + 1 } :=
    good.of_eq rfl rfl rfl
  obtain ⟨answer, sent, misses, kept, moves, taken⟩ :=
    counted.completeMiss present unanswered m
  have shape : (c.complete m).2 = (Controller.completeMiss
      { c with counters.completions := c.counters.completions + 1 } slot m).2 := by
    simp only [Controller.complete, target]
  rw [shape]
  generalize (Controller.completeMiss _ slot m).2 = d at misses kept moves taken
  refine ⟨sent, kept, by rw [moves.frame], ?_, ⟨answer, ?_, taken.recount⟩, moves.sends, ?_⟩
  · intro i
    rw [wanted_put c misses]
    rfl
  · simp [told, misses, MissFile.get?_put]
  · exact moves.carried

end Controller
end CacheCoherence
