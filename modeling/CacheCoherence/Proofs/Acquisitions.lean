import CacheCoherence.Proofs.Custody

/-! Answers that make a node the owner of a block. The line ends up owned, or it stays uncached when
there is no room for what it would push out. One case escapes: when the duplicate tags hold the line
shared and cannot be entered for want of room, they go on saying so. -/

namespace CacheCoherence

theorem Access.not_needsOwnership_of_share {a : Access} (reads : a.readKind = some .share) :
    a.needsOwnership = false := by
  cases a <;> first | rfl | cases reads

namespace Controller

variable {c d : Controller}

/-! References that need ownership are to blocks that may be cached. -/

def Sited (c : Controller) : Prop :=
  ∀ slot r, c.wanted slot = some r → r.access.needsOwnership → r.addr.isIo = false

theorem Sited.of_wanted (sited : c.Sited)
    (wanted : ∀ slot r, d.wanted slot = some r → c.wanted slot = some r) : d.Sited :=
  fun slot r waits => sited slot r (wanted slot r waits)

theorem Good.sited_perform (good : c.Good) (sited : c.Sited) (op : Operation) :
    (c.perform op).Sited := by
  have same {d : Controller} (wanted : ∀ slot, d.wanted slot = c.wanted slot) : d.Sited :=
    sited.of_wanted fun slot r waits => (wanted slot).symm.trans waits
  obtain ⟨sent, performed, _⟩ := good.perform op
  cases performed with
  | quiet _ _ quiet _ => exact same quiet.wanted
  | stored _ _ _ _ _ _ wanted => exact same wanted
  | flushed _ _ wanted => exact same wanted
  | retired _ _ _ _ wanted => exact same wanted
  | issued r result d sent issued =>
    cases issued with
    | refused _ _ quiet => exact same quiet.wanted
    | hit _ _ _ _ _ _ _ wanted => exact same wanted
    | purged _ _ _ _ wanted => exact same wanted
    | asked slot access kind _ _ _ reads _ wanted place =>
      intro i q waits owner
      rw [wanted] at waits
      split at waits
      · cases waits
        rcases place with ⟨_, rfl⟩ | ⟨cacheable, _⟩
        · rw [show Access.needsOwnership access = false from
            Access.not_needsOwnership_of_share reads] at owner
          cases owner
        · exact cacheable
      · exact sited i q waits owner
    | joined slot old _ _ present _ _ _ _ wanted =>
      intro i q waits owner
      rw [wanted] at waits
      split at waits
      · cases waits
        exact sited slot old present owner
      · exact sited i q waits owner
    | late slot _ _ _ _ _ _ _ wanted =>
      refine sited.of_wanted fun i q waits => ?_
      rw [wanted] at waits
      split at waits
      · cases waits
      · exact waits
    | barrier slot _ _ _ access wanted =>
      intro i q waits owner
      rw [wanted] at waits
      split at waits
      · cases waits
        rw [access] at owner
        cases owner
      · exact sited i q waits owner

theorem wanted_answerMiss {slot i : Slot} {answer : Answer} {r : Reference}
    (waits : (c.answerMiss slot answer).2.wanted i = some r) : c.wanted i = some r := by
  unfold answerMiss MissFile.complete at waits
  cases occupied : c.misses.get? slot with
  | none =>
    rw [occupied] at waits
    exact waits
  | some m =>
    rw [occupied] at waits
    simp only at waits
    split at waits
    · exact waits
    · have put := wanted_put c (d := { c with
        misses := ⟨c.misses.slots.put slot { m with answer := some answer }⟩ }) rfl i
      rw [put] at waits
      split at waits
      · cases waits
      · exact waits

theorem wanted_completeMiss {slot i : Slot} {m : Completion} {r : Reference}
    (waits : (c.completeMiss slot m).2.wanted i = some r) : c.wanted i = some r := by
  obtain ⟨d, ⟨_, shed⟩, shape⟩ := shed_completeMiss c slot m
  rw [← wanted_of_misses shed.misses]
  rcases shape with plain | ⟨answer, recorded⟩
  · rwa [plain] at waits
  · rw [recorded] at waits
    exact wanted_answerMiss waits

theorem Good.sited_act (good : c.Good) (sited : c.Sited) (x : Action) : (c.act x).Sited := by
  have same {d : Controller} (misses : d.misses = c.misses) : d.Sited :=
    sited.of_wanted fun slot r waits => by rwa [wanted_of_misses misses] at waits
  cases x with
  | operate op => exact good.sited_perform sited op
  | evict a data bound =>
    obtain ⟨_, shed⟩ := shed_allocateVictim c a data bound
    exact same shed.misses
  | snoop p =>
    rcases good.handleProbe_replies p with ⟨_, d, shape, replied⟩ | ⟨_, d, shape, _, desk, _⟩
    · rw [act, shape]
      exact same replied.misses
    · rw [act, shape]
      exact same (congrArg Desk.misses desk)
  | drain => exact same rfl
  | complete m =>
    unfold Controller.act Controller.complete
    simp only
    split
    · unfold Controller.completeVictim
      split <;> exact same rfl
    · exact same rfl
    · exact sited.of_wanted fun i r waits => wanted_completeMiss (c := { c with
        counters.completions := c.counters.completions + 1 }) waits

theorem sited_follow (actions : List Action) (good : c.shelve.Good) (sited : c.Sited) :
    (c.follow actions).Sited := by
  induction actions generalizing c with
  | nil => exact sited
  | cons x rest ih =>
    have kept := good.of_act x
    rw [shelve_act] at kept
    refine ih kept ?_
    have moved := good.sited_act sited x
    intro slot r waits
    refine moved slot r ?_
    have same := congrArg (wanted · slot) (shelve_act c x)
    exact same.trans waits

theorem sited_ofRegisters {cpu : Nat} {registers : Registers}
    (built : ofRegisters cpu registers = .ok c) : c.Sited := by
  unfold ofRegisters at built
  split at built
  · cases built
  · cases built
    intro slot r waits
    simp [wanted, MissFile.empty, MissFile.get?] at waits

/-! The line after the answer. -/

/-- A sole holder's line is dirty, and shared only as far as the duplicate tags say so. -/
theorem Levels.lookup_of_sole (levels : c.Levels) {a : Address} (sole : (c.line a).sole) :
    c.lookup a = ⟨true, true, (c.tags.stateOf a).shared⟩ := by
  simp only [line, Bool.and_eq_true, Bool.not_eq_true'] at sole
  obtain ⟨dirty, unshared⟩ := sole
  have valid := LineState.valid_of_isDirty dirty
  have settled := congrArg LineState.shared (DuplicateTags.settled_stateOf levels.tags a)
  simp only [LineState.settled] at settled
  simp only [LineState.isDirty, Bool.and_eq_true] at dirty
  have shared : (c.lookup a).shared = (c.tags.stateOf a).shared := by
    simp [lookup, LineState.merge, unshared, settled]
  calc
    c.lookup a = ⟨(c.lookup a).valid, (c.lookup a).dirty, (c.lookup a).shared⟩ := rfl
    _ = ⟨true, true, (c.tags.stateOf a).shared⟩ := by rw [dirty.1, dirty.2, shared]

theorem Levels.lookup_of_absent (levels : c.Levels) {a : Address} (absent : c.line a = .absent) :
    c.lookup a = .invalid := by
  have missing := (levels.absent_iff a).mp absent
  rw [lookup, levels.invalid_of_not_hit missing, BackupCache.stateOf_eq, missing]
  rfl

theorem transferVictims_tags (c : Controller) : c.transferVictims.tags = c.tags := by
  obtain ⟨_, moved⟩ := transfers c
  rw [moved.frame]

theorem fillPrimary_tags (c : Controller) (a : Address) (s : LineState) :
    (c.fillPrimary a s).2.tags = (c.tags.fill a s).2 := by
  have kept := (keepDisplaced_stores { c with tags := (c.tags.fill a s).2 } (c.tags.fill a s).1).1
  unfold fillPrimary
  simp only
  split
  · rename_i shape
    rwa [shape] at kept
  · rename_i shape
    rw [shape] at kept
    exact (transferVictims_tags _).trans kept

/-- Only without room do the duplicate tags keep a shared state that they had. -/
theorem Good.install_shared (good : c.Good) (a : Address) (data : Block) {s : LineState}
    (alone : s.shared = false) (done : (c.install a data s).1 = .ok ()) :
    ((c.install a data s).2.tags.stateOf a).shared =
      (!c.victims.hasRoom && (c.tags.stateOf a).shared) := by
  have victims : (c.pullDown a).victims = c.victims := by
    rw [(good.toLevels.pullDown a).frame]
  rcases good.replaced a data { s with dirty := false } with
    ⟨_, refused⟩ | ⟨evicted, cache, after, inserted, replaced⟩
  · simp only [Controller.install, victims, refused] at done
    cases done
  · obtain ⟨counters, counted⟩ : ∃ counters, counters = if (evicted.bind (·.victim)).isSome then
      countVictim (c.pullDown a).counters .memory else (c.pullDown a).counters := ⟨_, rfl⟩
    let middle : Controller := { c.pullDown a with cache, victims := after, counters }
    have replaced : Replaced c a _ middle := replaced counters
    have room : (c.tags.stateOf a).shared → middle.victims.hasRoom = c.victims.hasRoom := by
      intro shared
      apply replaced.room
      apply good.included
      rw [← DuplicateTags.settled_stateOf good.tags] at shared
      simp only [LineState.settled, Bool.and_eq_true] at shared
      exact shared.1
    have tags : (c.install a data s).2.tags =
        if middle.victims.hasRoom then (middle.tags.fill a s).2 else middle.tags := by
      simp only [Controller.install, victims, inserted, ← counted]
      split
      · rw [← fillPrimary_tags middle a s]
        split
        · rename_i shape
          exact (congrArg (·.2.tags) shape).symm
        · rename_i shape
          exact (transferVictims_tags _).trans (congrArg (·.2.tags) shape).symm
      · exact transferVictims_tags _
    rw [tags]
    split
    · rename_i free
      rw [(replaced.levels.tags.fill a s).state, if_pos rfl]
      cases shared : (c.tags.stateOf a).shared with
      | false => simp [LineState.settled, alone]
      | true =>
        rw [← room shared, free]
        simp [LineState.settled, alone]
    · rename_i full
      rw [replaced.tag]
      cases shared : (c.tags.stateOf a).shared with
      | false => simp
      | true =>
        rw [← room shared]
        simpa using full

/-- A reference that asked for ownership only and still has its line. -/
def survives (c : Controller) (r : Reference) : Bool :=
  r.access.isUpgrade && (c.lookup r.addr).valid

/-- The duplicate tags hold the line shared, and there is no room to enter it anew. -/
def withholds (c : Controller) (r : Reference) : Bool :=
  !c.survives r && !c.victims.hasRoom && (c.tags.stateOf r.addr).shared

def grant (slot : Slot) (data : Block) (shared : Bool) : Completion :=
  { target := .request (.miss slot), data := some data, shared }

inductive Granted (c : Controller) (r : Reference) (data : Block) (d : Controller) : Prop
  | upgraded (kept : c.survives r) (state : d.lookup r.addr = .modified)
      (read : d.cache.read r.addr = c.cache.read r.addr)
  | filled (lost : c.survives r = false)
      (state : d.lookup r.addr = ⟨true, true, !c.victims.hasRoom && (c.tags.stateOf r.addr).shared⟩)
      (read : d.cache.read r.addr = some data)
  | uncached (lost : c.survives r = false)
      (refused : (c.install r.addr data .modified).1 = .error (.exhausted .victimBuffer))
      (untagged : (c.tags.stateOf r.addr).valid = false) (state : d.lookup r.addr = .invalid)

theorem Levels.upgraded (levels : c.Levels) {r : Reference} (kept : c.survives r) (data : Block)
    {d : Controller} (tags : d.tags = (c.takeOwnership r.addr).tags)
    (cache : d.cache = (c.takeOwnership r.addr).cache) : Granted c r data d := by
  have owned := levels.takeOwnership r.addr
  have valid : (c.lookup r.addr).valid := by
    simp only [survives, Bool.and_eq_true] at kept
    exact kept.2
  have line : d.line r.addr = ⟨c.cache.read r.addr, true, true⟩ := by
    rw [line_of_eq tags cache, owned.line, if_pos ⟨rfl, valid⟩]
  have state := (owned.levels.of_eq tags cache).lookup_of_sole (a := r.addr) (by rw [line])
  refine .upgraded kept ?_ ?_
  · rw [state, tags, takeOwnership_tags, DuplicateTags.stateOf_setState levels.tags]
    cases tagged : (c.tags.stateOf r.addr).valid with
    | false =>
      have gone := DuplicateTags.settled_stateOf levels.tags r.addr
      rw [← gone]
      simp [tagged, LineState.settled, LineState.modified]
    | true => simp [LineState.settled, LineState.modified]
  · rw [cache, owned.read]

theorem Good.filled (good : c.Good) {r : Reference} (lost : c.survives r = false) (data : Block)
    (cacheable : r.addr.isIo = false) :
    ∃ d, c.installFill r.addr (some data) .modified = (.ok (), d) ∧ d.misses = c.misses ∧
      Granted c r data d := by
  unfold Controller.installFill
  simp only [cacheable, Bool.false_eq_true, if_false]
  rcases good.install r.addr data (s := .modified) rfl with
    ⟨refused, kept, moved, lines, absent⟩ | ⟨sent, done, installed⟩
  · have missing := (good.toLevels.absent_iff r.addr).mp absent
    have untagged : (c.tags.stateOf r.addr).valid = false := by
      rw [good.toLevels.invalid_of_not_hit missing]
      rfl
    have misses : (c.install r.addr data .modified).2.misses = c.misses := by rw [moved.frame]
    have outcome (k : Counters) : Granted c r data
        { (c.install r.addr data .modified).2 with counters := k } := by
      refine .uncached lost refused untagged (Levels.lookup_of_absent (kept.toLevels.of_eq rfl rfl) ?_)
      rw [← absent, ← lines]
    split
    · rename_i shape
      rw [shape] at refused
      cases refused
    · rename_i fault d shape
      rw [shape] at refused misses outcome
      cases refused
      exact ⟨_, rfl, misses, outcome _⟩
  · have shared := good.install_shared r.addr data (s := .modified) rfl done
    have misses : (c.install r.addr data .modified).2.misses = c.misses := by
      rw [installed.moves.frame]
    have line : (c.install r.addr data .modified).2.line r.addr = ⟨some data, true, true⟩ := by
      rw [installed.line]
      simp [lineOf, LineState.modified]
    split
    · rename_i d shape
      have levels := installed.good.toLevels
      rw [shape] at line shared misses levels
      refine ⟨d, rfl, misses, .filled lost ?_ ?_⟩
      · rw [levels.lookup_of_sole (by rw [line]), shared]
      · exact congrArg Holding.copy line
    · rename_i shape
      rw [shape] at done
      cases done

/-- The reference is answered, and its block is in one of the three situations. -/
theorem Good.completeMiss_granted (good : c.Good) {slot : Slot} {miss : Miss}
    (present : c.misses.get? slot = some miss) (waits : miss.answer = none)
    (owner : miss.request.access.needsOwnership) (cacheable : miss.request.addr.isIo = false)
    (data : Block) (shared : Bool) :
    ∃ answer d, c.completeMiss slot (grant slot data shared) = (.ok (), d) ∧
      d.misses.get? slot = some { miss with answer := some answer } ∧
      answer.shared = false ∧ answer.absent = false ∧ d.Levels ∧ Granted c miss.request data d := by
  have kept := (good.completeMiss_good slot (grant slot data shared)).toLevels
  have recorded (e : Controller) (misses : e.misses = c.misses) (answer : Answer) :
      e.answerMiss slot answer = (.ok (), { e with
        misses := ⟨c.misses.slots.put slot { miss with answer := some answer }⟩ }) := by
    simp only [Controller.answerMiss, misses, MissFile.complete_waiting present waits]
  cases survives : c.survives miss.request with
  | true =>
    let held := (c.takeOwnership miss.request.addr).cache.read miss.request.addr
    have shape : c.completeMiss slot (grant slot data shared) =
        (c.takeOwnership miss.request.addr).answerMiss slot ⟨held.or (some data), false, false⟩ := by
      simp only [Controller.completeMiss, present, grant, Bool.false_eq_true, if_false]
      exact if_pos survives
    have owned := good.toLevels.takeOwnership miss.request.addr
    have misses : (c.takeOwnership miss.request.addr).misses = c.misses := by rw [owned.frame]
    rw [shape, recorded _ misses] at kept ⊢
    refine ⟨⟨held.or (some data), false, false⟩, _, rfl, ?_, rfl, rfl, kept,
      good.toLevels.upgraded survives data rfl rfl⟩
    rw [MissFile.get?_put, if_pos rfl]
  | false =>
    obtain ⟨d, filled, misses, granted⟩ := good.filled survives data (r := miss.request) cacheable
    have shape : c.completeMiss slot (grant slot data shared) =
        d.answerMiss slot ⟨some data, false, false⟩ := by
      simp only [Controller.completeMiss, present, grant, owner, fillState, Bool.not_true, Bool.and_false,
        Bool.false_eq_true, if_false, if_true]
      exact (if_neg (Bool.eq_false_iff.mp survives)).trans (by rw [filled])
    rw [shape, recorded d misses] at kept ⊢
    refine ⟨⟨some data, false, false⟩, _, rfl, ?_, rfl, rfl, kept, ?_⟩
    · rw [MissFile.get?_put, if_pos rfl]
    · cases granted with
      | upgraded survived => exact absurd survived (Bool.eq_false_iff.mp survives)
      | filled lost state read => exact .filled lost state read
      | uncached lost refused untagged state => exact .uncached lost refused untagged state

/-- The two ways in which such an answer should end: the node owns the line, with the bytes it kept
or those it got, or there was no room and the line is nowhere. -/
inductive Acquired (c : Controller) (r : Reference) (data : Block) (d : Controller) : Prop
  | owned (state : d.lookup r.addr = .modified) (bytes : Block)
      (read : d.cache.read r.addr = some bytes)
      (origin : if c.survives r then c.cache.read r.addr = some bytes else bytes = data)
      (accepts : ∀ stored, r.addr.fits stored.length → (d.store r.addr stored).1 = .ok ())
  | uncached (lost : c.survives r = false)
      (refused : (c.install r.addr data .modified).1 = .error (.exhausted .victimBuffer))
      (state : d.lookup r.addr = .invalid)

theorem store_owned {a : Address} {bytes : List UInt8} (state : c.lookup a = .modified)
    (held : c.cache.hit a) (fits : a.fits bytes.length) : (c.store a bytes).1 = .ok () := by
  have written : (c.cache.write a bytes).1 = true := by rw [BackupCache.write_fst, held]
  simp only [store, fits, state, LineState.writable, LineState.modified, LineState.isDirty, if_true,
    Bool.and_self, Bool.not_false]
  split
  · rfl
  · rename_i shape
    rw [shape] at written
    cases written

theorem Levels.acquired_iff (before : c.Levels) {r : Reference} {data : Block} (levels : d.Levels)
    (granted : Granted c r data d) : Acquired c r data d ↔ c.withholds r = false := by
  have owned {bytes : Block} (state : d.lookup r.addr = .modified)
      (read : d.cache.read r.addr = some bytes)
      (origin : if c.survives r then c.cache.read r.addr = some bytes else bytes = data) :
      Acquired c r data d := by
    refine .owned state bytes read origin fun stored fits => store_owned state ?_ fits
    rw [← levels.lookup_valid, state]
    rfl
  cases granted with
  | upgraded kept state read =>
    obtain ⟨bytes, copy⟩ : ∃ bytes, c.cache.read r.addr = some bytes := by
      simp only [survives, Bool.and_eq_true] at kept
      exact Option.isSome_iff_exists.mp ((before.copy_isSome r.addr).trans kept.2)
    refine ⟨fun _ => by simp [withholds, kept], fun _ => ?_⟩
    refine owned state (read.trans copy) ?_
    rw [if_pos kept]
    exact copy
  | filled lost state read =>
    have same : c.withholds r = (!c.victims.hasRoom && (c.tags.stateOf r.addr).shared) := by
      simp [withholds, lost]
    rw [← same] at state
    constructor
    · intro acquired
      cases acquired with
      | owned owned =>
        rw [owned] at state
        exact (congrArg LineState.shared state).symm
      | uncached _ _ gone =>
        rw [gone] at state
        cases congrArg LineState.valid state
    · intro entered
      rw [entered] at state
      exact owned state read (by simp [lost])
  | uncached lost refused untagged state =>
    have settled := DuplicateTags.settled_stateOf before.tags r.addr
    have unshared : (c.tags.stateOf r.addr).shared = false := by
      rw [← settled]
      simp [LineState.settled, untagged]
    exact ⟨fun _ => by simp [withholds, unshared], fun _ => .uncached lost refused state⟩

def counting (c : Controller) : Controller :=
  { c with counters.completions := c.counters.completions + 1 }

theorem Good.granted (good : c.Good) (sited : c.Sited) {slot : Slot} {miss : Miss}
    (present : c.misses.get? slot = some miss) (waits : miss.answer = none)
    (owner : miss.request.access.needsOwnership) (data : Block) (shared : Bool) :
    (c.complete (grant slot data shared)).1 = .ok () ∧
      (∃ answer, (c.complete (grant slot data shared)).2.misses.get? slot =
        some { miss with answer := some answer } ∧ answer.shared = false ∧ answer.absent = false) ∧
      (Acquired c.counting miss.request data (c.complete (grant slot data shared)).2 ↔
        c.withholds miss.request = false) := by
  have cacheable : miss.request.addr.isIo = false :=
    sited slot miss.request ((wanted_eq_some_iff c slot _).mpr ⟨miss, present, waits, rfl⟩) owner
  have counted : c.counting.Good := good.of_eq rfl rfl rfl
  obtain ⟨answer, d, shape, recorded, unshared, there, levels, granted⟩ :=
    counted.completeMiss_granted present waits owner cacheable data shared
  have whole : c.complete (grant slot data shared) = (.ok (), d) := shape
  rw [whole]
  exact ⟨rfl, ⟨answer, recorded, unshared, there⟩, counted.toLevels.acquired_iff levels granted⟩

/-- Whether kept victims are under way makes no difference to what an answer does. -/
theorem acquired_shelve {r : Reference} {data : Block} :
    Acquired c.shelve r data d.shelve ↔ Acquired c r data d := by
  have install : (c.shelve.install r.addr data .modified).1 = (c.install r.addr data .modified).1 := by
    rw [shelve_install]
    rfl
  have store (bytes : List UInt8) : (d.shelve.store r.addr bytes).1 = (d.store r.addr bytes).1 := by
    rw [shelve_store]
    rfl
  constructor
  · intro acquired
    cases acquired with
    | owned state bytes read origin accepts =>
      refine .owned state bytes read origin fun stored fits => ?_
      rw [← store]
      exact accepts stored fits
    | uncached lost refused state => exact .uncached lost (install ▸ refused) state
  · intro acquired
    cases acquired with
    | owned state bytes read origin accepts =>
      refine .owned state bytes read origin fun stored fits => ?_
      rw [store]
      exact accepts stored fits
    | uncached lost refused state => exact .uncached lost (install.trans refused) state

/-- The answer to a reference that needs ownership is taken and recorded, and it ends as it should
exactly when the duplicate tags do not go on saying that the line is shared. -/
theorem acquired_follow_iff {cpu : Nat} {registers : Registers}
    (built : ofRegisters cpu registers = .ok c) (actions : List Action) {slot : Slot} {miss : Miss}
    (present : (c.follow actions).misses.get? slot = some miss) (waits : miss.answer = none)
    (owner : miss.request.access.needsOwnership) (data : Block) (shared : Bool) :
    ((c.follow actions).complete (grant slot data shared)).1 = .ok () ∧
      (∃ answer, ((c.follow actions).complete (grant slot data shared)).2.misses.get? slot =
        some { miss with answer := some answer } ∧ answer.shared = false ∧ answer.absent = false) ∧
      (Acquired (c.follow actions).counting miss.request data
          ((c.follow actions).complete (grant slot data shared)).2 ↔
        (c.follow actions).withholds miss.request = false) := by
  have start := good_ofRegisters built
  have good : (c.follow actions).shelve.Good := good_follow actions (by rwa [start.shelve_eq])
  have sited := sited_follow actions (by rwa [start.shelve_eq]) (sited_ofRegisters built)
  obtain ⟨taken, recorded, ended⟩ := good.granted sited present waits owner data shared
  rw [shelve_complete] at taken recorded ended
  have withheld : (c.follow actions).shelve.withholds miss.request =
      (c.follow actions).withholds miss.request := by
    simp only [withholds, victims_shelve, VictimBuffer.hasRoom_shelved]
    rfl
  rw [withheld] at ended
  exact ⟨taken, recorded, acquired_shelve.symm.trans ended⟩

theorem acquired_owning :
    ∃ c, ofSize 0 .mb1 = .ok c ∧
      (c.follow [.operate (.issue (.to (.store .quad) 0))]).misses.get? 0 =
        some { request := .to (.store .quad) 0 } ∧
      Acquired (c.follow [.operate (.issue (.to (.store .quad) 0))]).counting (.to (.store .quad) 0) .zero
        ((c.follow [.operate (.issue (.to (.store .quad) 0))]).complete (grant 0 .zero true)).2 := by
  have built : ofRegisters 0 (.forCache .mb1) = .ok _ := rfl
  refine ⟨_, built, ?_, (acquired_follow_iff built _
    (show MissFile.get? _ 0 = some { request := .to (.store .quad) 0 } from ?_) rfl rfl .zero true).2.2.mpr ?_⟩
  · decide +kernel
  · decide +kernel
  · decide +kernel

/-- Block 0 is held clean and shared and then claimed, while victims fill the buffer. -/
def claiming : List Action :=
  [.operate (.issue (.to (.load .quad) 0)),
   .complete { target := .request (.miss 0), data := some .zero, shared := true },
   .operate (.consume 0), .operate (.issue (.to .claim 0))] ++ crowd

/-- The claim is answered, yet its line is left shared and cannot be stored to. -/
theorem not_acquired_claiming :
    ∃ c, ofSize 0 .mb1 = .ok c ∧
      (c.follow claiming).misses.get? 0 = some { request := .to .claim 0 } ∧
      ¬ Acquired (c.follow claiming).counting (.to .claim 0) .zero
        ((c.follow claiming).complete (grant 0 .zero false)).2 ∧
      ((c.follow claiming).complete (grant 0 .zero false)).2.lookup ⟨0⟩ = .modifiedShared ∧
      (((c.follow claiming).complete (grant 0 .zero false)).2.store ⟨0⟩ [0x5a]).1 =
        .error (.rejected (.notOwned ⟨0⟩)) := by
  have built : ofRegisters 0 (.forCache .mb1) = .ok _ := rfl
  have apart {c d : Controller} (left : d.lookup ⟨0⟩ = .modifiedShared) :
      ¬ Acquired c (.to .claim 0) .zero d := by
    intro acquired
    cases acquired with
    | owned state => cases left.symm.trans state
    | uncached _ _ state => cases left.symm.trans state
  refine ⟨_, built, ?_, apart ?_, ?_, ?_⟩
  · decide +kernel
  · decide +kernel
  · decide +kernel
  · decide +kernel

end Controller
end CacheCoherence
