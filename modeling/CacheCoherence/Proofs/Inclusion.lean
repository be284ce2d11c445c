import CacheCoherence.Proofs.Operations
import CacheCoherence.Proofs.Starts
import CacheCoherence.Proofs.Storage

namespace CacheCoherence

namespace DuplicateTags

structure Paired (t : DuplicateTags) : Prop where
  partner : ∀ i, (t.line i).partner = i
  same : ∀ i, t.primaryLine i = ⟨(t.line i).tag, (t.line i).state⟩

theorem paired_empty : empty.Paired := by
  constructor
  · intro i
    rw [line_empty]
  · intro i
    rw [line_empty]
    simp [primaryLine, empty]

variable {t : DuplicateTags}

theorem Paired.write (paired : t.Paired) (i : Nat) (a : Address) (s : LineState) :
    (t.write i a s).Paired := by
  constructor
  · intro j
    rw [line_write]
    split
    · rename_i here
      rw [← here]
      exact paired.partner i
    · exact paired.partner j
  · intro j
    have cell : (t.write i a s).primaryLine j =
        if i = j then ⟨tagOf a, s.settled⟩ else t.primaryLine j := by
      simp only [primaryLine, DuplicateTags.write, paired.partner, Sparse.get?_set]
      split <;> rfl
    rw [cell, line_write]
    split
    · rfl
    · exact paired.same j

theorem Paired.setState (paired : t.Paired) (a : Address) (s : LineState) :
    (t.setState a s).2.Paired := by
  unfold DuplicateTags.setState
  split
  · exact paired.write _ a s
  · exact paired

theorem Paired.drop (paired : t.Paired) (a : Address) : (t.drop a).2.Paired := by
  unfold DuplicateTags.drop
  split
  · exact paired.write _ a .invalid
  · exact paired

theorem Paired.placeFor (paired : t.Paired) (a : Address) : (t.placeFor a).2.Paired := by
  unfold DuplicateTags.placeFor
  split
  · exact paired
  · exact ⟨paired.partner, paired.same⟩

theorem Paired.fill (paired : t.Paired) (a : Address) (s : LineState) : (t.fill a s).2.Paired := by
  unfold DuplicateTags.fill
  split
  · exact paired.write _ a s
  · exact (paired.placeFor a).write _ a s

theorem Paired.isConsistent (paired : t.Paired) : t.isConsistent := by
  rw [DuplicateTags.isConsistent, List.all_eq_true]
  intro i _
  simp [agrees, paired.partner, paired.same]

end DuplicateTags

inductive Action
  | operate (op : Operation)
  | evict (a : Address) (data : Block) (d : Destination)
  | snoop (p : Probe)
  | complete (m : Completion)
  | drain

namespace Controller

variable {c : Controller}

def act (c : Controller) : Action → Controller
  | .operate op => c.perform op
  | .evict a data d => (c.allocateVictim a data d).2
  | .snoop p => (c.handleProbe p).2
  | .complete m => (c.complete m).2
  | .drain => c.takeRequests.2

def follow (c : Controller) (actions : List Action) : Controller := actions.foldl act c

/-- The structure that the data paths of a controller rely on. Entries that stand in a table are the
ones that a lookup of their block finds. -/
structure Inclusive (c : Controller) : Prop where
  entered : ∀ i, (c.tags.line i).state.valid →
    c.tags.stateOf (c.tags.line i).addr = (c.tags.line i).state
  cached : ∀ i l, c.cache.lines.get? i = some l → c.cache.find? l.addr = some l
  resident : ∀ a, (c.tags.stateOf a).valid → (c.cache.stateOf a).valid
  cacheable : ∀ a, a.isIo → (c.tags.stateOf a).valid = false ∧ (c.cache.stateOf a).valid = false
  consistent : c.tags.isConsistent
  readable : ∀ a, (c.lookup a).valid → (c.cache.read a).isSome

structure Nested (c : Controller) : Prop extends c.Levels where
  paired : c.tags.Paired
  cacheable : ∀ a, c.cache.hit a → a.isIo = false

theorem Nested.inclusive (nested : c.Nested) : c.Inclusive := by
  have cached (a : Address) (io : a.isIo) : (c.cache.stateOf a).valid = false := by
    rw [← BackupCache.hit_eq]
    cases held : c.cache.hit a with
    | false => rfl
    | true =>
      rw [nested.cacheable a held] at io
      cases io
  have resident (a : Address) (valid : (c.tags.stateOf a).valid) : (c.cache.stateOf a).valid := by
    rw [← BackupCache.hit_eq]
    exact nested.included a valid
  refine ⟨?_, ?_, resident, fun a io => ⟨?_, cached a io⟩, nested.paired.isConsistent, ?_⟩
  · intro i valid
    exact DuplicateTags.stateOf_eq_line nested.tags valid (nested.tags.block i valid).symm
  · intro i l present
    apply BackupCache.find?_of_occupant nested.cache (a := l.addr)
    rw [BackupCache.occupant, nested.cache.index i l present]
    exact present
  · cases tagged : (c.tags.stateOf a).valid with
    | false => rfl
    | true =>
      have held := resident a tagged
      rw [cached a io] at held
      cases held
  · intro a valid
    rw [nested.toLevels.lookup_valid, hit_iff_copy] at valid
    exact valid

theorem Nested.of_hits {d : Controller} (nested : c.Nested) (levels : d.Levels)
    (paired : d.tags.Paired) (hits : ∀ b, d.cache.hit b → c.cache.hit b) : d.Nested :=
  ⟨levels, paired, fun b held => nested.cacheable b (hits b held)⟩

theorem Nested.of_eq {d : Controller} (nested : c.Nested) (tags : d.tags = c.tags)
    (cache : d.cache = c.cache) : d.Nested := by
  refine nested.of_hits (nested.toLevels.of_eq tags cache) ?_ ?_
  · rw [tags]
    exact nested.paired
  · rw [cache]
    exact fun _ held => held

theorem Nested.restate (nested : c.Nested) {d : Controller} (tags : d.tags = c.tags)
    (placed : d.cache.WellPlaced) (hit : ∀ b, d.cache.hit b = c.cache.hit b) : d.Nested := by
  refine nested.of_hits ⟨?_, placed, ?_⟩ ?_ ?_
  · rw [tags]
    exact nested.tags
  · intro b valid
    rw [tags] at valid
    rw [hit]
    exact nested.included b valid
  · rw [tags]
    exact nested.paired
  · intro b held
    rwa [hit] at held

theorem Nested.transferVictims (nested : c.Nested) : c.transferVictims.Nested := by
  obtain ⟨sent, moved⟩ := transfers c
  exact nested.restate (by rw [moved.frame]) (moved.placed nested.cache) moved.hit

theorem Nested.allocateVictim (nested : c.Nested) (a : Address) (data : Block) (d : Destination) :
    (c.allocateVictim a data d).2.Nested := by
  unfold Controller.allocateVictim
  split
  · exact nested.of_eq rfl rfl
  · apply Nested.transferVictims
    exact nested.of_eq rfl rfl

theorem Nested.dropTag (nested : c.Nested) (a : Address) :
    Nested { c with tags := (c.tags.drop a).2 } := by
  refine nested.of_hits ⟨nested.tags.drop a, nested.cache, ?_⟩ (nested.paired.drop a)
    fun _ held => held
  intro b valid
  change ((c.tags.drop a).2.stateOf b).valid at valid
  rw [DuplicateTags.stateOf_drop nested.tags] at valid
  split at valid
  · cases valid
  · exact nested.included b valid

/-- The backup cache may drop a line that the duplicate tags do not hold. -/
theorem Nested.dropLine (nested : c.Nested) {a : Address}
    (untagged : (c.tags.stateOf a).valid = false) : Nested { c with cache := (c.cache.drop a).2 } := by
  refine nested.of_hits ⟨nested.tags, nested.cache.drop a, ?_⟩ nested.paired ?_
  · intro b valid
    change (c.tags.stateOf b).valid at valid
    change ((c.cache.drop a).2.find? b).isSome
    rw [BackupCache.find?_drop]
    split
    · rename_i same
      rw [DuplicateTags.stateOf_congr c.tags same, untagged] at valid
      cases valid
    · exact nested.included b valid
  · intro b held
    change ((c.cache.drop a).2.find? b).isSome at held
    rw [BackupCache.find?_drop] at held
    split at held
    · cases held
    · exact held

theorem keepDisplaced_stores (c : Controller) (displaced : Option Displaced) :
    (c.keepDisplaced displaced).2.tags = c.tags ∧ (c.keepDisplaced displaced).2.cache = c.cache := by
  unfold keepDisplaced
  split
  · exact ⟨rfl, rfl⟩
  · split
    · split
      · exact ⟨rfl, rfl⟩
      · split <;> exact ⟨rfl, rfl⟩
    · exact ⟨rfl, rfl⟩

/-- The duplicate tags may enter a line that the backup cache holds, whatever becomes of the line
that they displace. -/
theorem Nested.fillPrimary (nested : c.Nested) {a : Address} (held : c.cache.hit a) (s : LineState) :
    (c.fillPrimary a s).2.Nested := by
  have filled := nested.tags.fill a s
  let entered : Controller := { c with tags := (c.tags.fill a s).2 }
  have entry : entered.Nested := by
    refine nested.of_hits ⟨filled.placed, nested.cache, ?_⟩ (nested.paired.fill a s) fun _ held => held
    intro b valid
    change ((c.tags.fill a s).2.stateOf b).valid at valid
    rw [filled.state] at valid
    split at valid
    · rename_i same
      change (c.cache.find? b).isSome
      rw [BackupCache.find?_congr c.cache same]
      exact held
    · split at valid
      · cases valid
      · exact nested.included b valid
  obtain ⟨tags, cache⟩ := keepDisplaced_stores entered (c.tags.fill a s).1
  have kept : (entered.keepDisplaced (c.tags.fill a s).1).2.Nested := entry.of_eq tags cache
  unfold Controller.fillPrimary
  simp only
  split
  · rename_i refused
    rw [show entered.keepDisplaced _ = _ from refused] at kept
    exact kept
  · rename_i done
    rw [show entered.keepDisplaced _ = _ from done] at kept
    exact kept.transferVictims

theorem paired_pullDown (paired : c.tags.Paired) (a : Address) : (c.pullDown a).tags.Paired := by
  unfold pullDown
  split
  · exact paired
  · rename_i old _
    split
    · exact paired
    · have dropped := paired.drop old.addr
      split
      · rename_i shape
        rwa [shape] at dropped
      · rename_i shape
        rw [shape] at dropped
        split <;> exact dropped

theorem Nested.pullDown (nested : c.Nested) (a : Address) : (c.pullDown a).Nested := by
  have pulled := nested.toLevels.pullDown a
  refine nested.of_hits pulled.levels (paired_pullDown nested.paired a) ?_
  intro b held
  rwa [hit_iff_copy, pulled.line, ← hit_iff_copy] at held

/-- Once the line that gives way is out of the duplicate tags, the backup cache may replace it. -/
theorem Nested.replaced (nested : c.Nested) {a : Address} (cacheable : a.isIo = false) (data : Block)
    (s : LineState) :
    Nested { c.pullDown a with cache := (c.pullDown a).cache.install a data s } := by
  have pulled := nested.toLevels.pullDown a
  have below := nested.pullDown a
  have lines := ((c.pullDown a).cache.find?_install a · data s)
  constructor
  · exact pulled.levels_install data s
  · exact below.paired
  · intro b held
    change (((c.pullDown a).cache.install a data s).find? b).isSome at held
    rw [lines] at held
    split at held
    · rename_i same
      rw [← Memory.isIo_block, same, Memory.isIo_block]
      exact cacheable
    · split at held
      · cases held
      · exact below.cacheable b held

theorem BackupCache.hit_setState (cache : BackupCache) (a : Address) {s : LineState} (valid : s.valid)
    (b : Address) : (cache.setState a s).2.hit b = cache.hit b := by
  rw [BackupCache.hit, BackupCache.find?_setState]
  split
  · rename_i same
    simp [BackupCache.hit, BackupCache.find?_congr cache same]
  · rfl

theorem Nested.install (nested : c.Nested) {a : Address} (cacheable : a.isIo = false) (data : Block)
    {s : LineState} (valid : s.valid) : (c.install a data s).2.Nested := by
  -- the two ways to go on once the line stands in the backup cache
  have entered (victims : VictimBuffer) (counters : Counters) :
      ∀ d, d = { c.pullDown a with
        cache := (c.pullDown a).cache.install a data { s with dirty := false }, victims, counters } →
      (d.fillPrimary a s).2.Nested ∧
        Nested (Controller.transferVictims { d with cache := (d.cache.setState a s).2 }) := by
    rintro d rfl
    have below := (nested.replaced cacheable data { s with dirty := false }).of_eq
      (d := { c.pullDown a with
        cache := (c.pullDown a).cache.install a data { s with dirty := false }, victims, counters })
      rfl rfl
    refine ⟨below.fillPrimary ?_ s, Nested.transferVictims ?_⟩
    · change (((c.pullDown a).cache.install a data { s with dirty := false }).find? a).isSome
      rw [BackupCache.find?_install, if_pos rfl]
      rfl
    · exact below.restate rfl (below.cache.setState a s) (BackupCache.hit_setState _ a valid)
  have written : (∃ fault, (c.pullDown a).cache.insert a data { s with dirty := false }
      (c.pullDown a).victims .memory = (.error fault, (c.pullDown a).cache, (c.pullDown a).victims)) ∨
      ∃ evicted victims, (c.pullDown a).cache.insert a data { s with dirty := false }
        (c.pullDown a).victims .memory = (.ok evicted,
          (c.pullDown a).cache.install a data { s with dirty := false }, victims) := by
    rcases insert_cases (c.pullDown a).cache a data { s with dirty := false } (c.pullDown a).victims with
      ⟨_, _, refused⟩ | ⟨_, evicted, done⟩ | ⟨_, _, _, _, _, _, evicted, done⟩
    · exact .inl ⟨_, refused⟩
    · exact .inr ⟨evicted, _, done⟩
    · exact .inr ⟨evicted, _, done⟩
  unfold Controller.install
  rcases written with ⟨fault, refused⟩ | ⟨evicted, victims, done⟩
  · simp only [refused]
    exact (nested.pullDown a).of_eq rfl rfl
  · simp only [done]
    obtain ⟨filled, withheld⟩ := entered victims _ _ rfl
    split
    · split
      · rename_i refused
        rw [refused] at filled
        exact filled
      · rename_i shape
        rw [shape] at filled
        exact filled.transferVictims
    · exact withheld

theorem takeOwnership_tags (c : Controller) (a : Address) :
    (c.takeOwnership a).tags = (c.tags.setState a .modified).2 := by
  unfold takeOwnership
  split
  · rename_i shape
    rw [shape]
  · rename_i shape
    rw [shape]

theorem Nested.takeOwnership (nested : c.Nested) (a : Address) : (c.takeOwnership a).Nested := by
  have owned := nested.toLevels.takeOwnership a
  refine nested.of_hits owned.levels ?_ ?_
  · rw [takeOwnership_tags]
    exact nested.paired.setState a .modified
  · intro b held
    have read := owned.read b
    rw [BackupCache.read_eq, BackupCache.read_eq] at read
    rw [BackupCache.hit, ← Option.isSome_map (f := fun l : CacheLine => l.data)] at held ⊢
    rwa [read] at held

theorem Nested.installFill (nested : c.Nested) (a : Address) (data : Option Block) {s : LineState}
    (valid : s.valid) : (c.installFill a data s).2.Nested := by
  unfold Controller.installFill
  split
  · exact nested
  · rename_i block
    split
    · exact nested
    · rename_i cacheable
      have installed := nested.install (by simpa using cacheable) block valid
      split
      · rename_i shape
        rwa [shape] at installed
      · rename_i shape
        rw [shape] at installed
        split
        · exact installed.of_eq rfl rfl
        · exact installed

theorem Nested.answerMiss (nested : c.Nested) (slot : Slot) (answer : Answer) :
    (c.answerMiss slot answer).2.Nested := nested.of_eq rfl rfl

theorem Nested.completeMiss (nested : c.Nested) (slot : Slot) (m : Completion) :
    (c.completeMiss slot m).2.Nested := by
  unfold Controller.completeMiss
  split
  · exact nested
  · rename_i miss _
    simp only
    split
    · exact nested.answerMiss _ _
    · split
      · exact (nested.takeOwnership _).answerMiss _ _
      · have filled := nested.installFill miss.request.addr m.data
          (fillState_valid miss.request.access.needsOwnership
            (m.shared && !miss.request.access.needsOwnership))
        split
        · rename_i shape
          rwa [shape] at filled
        · rename_i shape
          rw [shape] at filled
          exact filled.answerMiss _ _

theorem Nested.complete (nested : c.Nested) (m : Completion) : (c.complete m).2.Nested := by
  have counted : Nested { c with counters.completions := c.counters.completions + 1 } :=
    nested.of_eq rfl rfl
  unfold Controller.complete
  simp only
  split
  · unfold Controller.completeVictim
    split <;> exact nested.of_eq rfl rfl
  · exact nested.of_eq rfl rfl
  · exact counted.completeMiss _ m

theorem Nested.refillPrimary (nested : c.Nested) {a : Address} (valid : (c.lookup a).valid)
    (s : LineState) : (c.refillPrimary a s).2.Nested := by
  unfold Controller.refillPrimary
  split
  · rw [nested.toLevels.lookup_valid] at valid
    exact nested.fillPrimary valid s
  · exact nested

theorem Nested.completeLocally (nested : c.Nested) (r : Reference) (valid : (c.lookup r.addr).valid)
    (s : LineState) : (c.completeLocally r s).2.Nested := by
  unfold Controller.completeLocally
  split
  · exact nested.of_eq rfl rfl
  · rename_i p misses _
    simp only
    have start : Nested { c with misses, counters :=
        { countAllocation c.counters with localHits := c.counters.localHits + 1 } } :=
      nested.of_eq rfl rfl
    have refilled := start.refillPrimary (a := r.addr) valid s
    split
    · rename_i shape
      rwa [shape] at refilled
    · rename_i d shape
      rw [shape] at refilled
      have answered := refilled.answerMiss p.slot ⟨d.cache.read r.addr, s.shared, false⟩
      split
      · rename_i done
        rwa [done] at answered
      · rename_i done
        rwa [done] at answered

theorem Nested.expel (nested : c.Nested) (a : Address) (s : LineState) : (c.expel a s).2.Nested := by
  have untagged : ((c.tags.drop a).2.stateOf a).valid = false := by
    rw [DuplicateTags.stateOf_drop nested.tags, if_pos rfl]
    rfl
  have dropped := (nested.dropTag a).dropLine untagged
  unfold Controller.expel
  split
  · simp only
    split
    · rename_i shape
      rwa [shape] at dropped
    · rename_i held data cache shape
      rw [shape] at dropped
      have sent := dropped.allocateVictim a data .memory
      split
      · split
        · rename_i answer
          rwa [answer] at sent
        · rename_i answer
          rwa [answer] at sent
      · exact dropped
  · exact nested

theorem Nested.purge (nested : c.Nested) (r : Reference) (s : LineState) : (c.purge r s).2.Nested := by
  unfold Controller.purge
  split
  · exact nested
  · split
    · exact nested.of_eq rfl rfl
    · rename_i p misses _
      have start : Nested { c with misses, counters := countAllocation c.counters } :=
        nested.of_eq rfl rfl
      have gone := start.expel r.addr s
      split
      · rename_i shape
        rwa [shape] at gone
      · rename_i shape
        rw [shape] at gone
        have answered := gone.answerMiss p.slot ⟨none, false, false⟩
        split
        · rename_i done
          rwa [done] at answered
        · rename_i done
          rwa [done] at answered

theorem Nested.flush (nested : c.Nested) : c.flush.2.Nested := by
  obtain ⟨writes, buffer, shape, _⟩ := flush_spec c
  rw [shape]
  exact nested.of_eq rfl rfl

theorem Nested.barrier (nested : c.Nested) (r : Reference) : (c.barrier r).2.Nested := by
  unfold Controller.barrier
  split
  · exact nested.of_eq rfl rfl
  · rename_i p misses _
    have start : Nested { c with misses, counters := countAllocation c.counters } :=
      nested.of_eq rfl rfl
    exact start.flush.of_eq rfl rfl

theorem Nested.request (nested : c.Nested) (r : Reference) (kind : ReadKind) :
    (c.request r kind).2.Nested := by
  unfold Controller.request
  split
  · exact nested.of_eq rfl rfl
  · split <;> exact nested.of_eq rfl rfl

theorem writable_valid {s : LineState} (writable : s.writable) : s.valid := by
  simp only [LineState.writable, Bool.and_eq_true] at writable
  exact LineState.valid_of_isDirty writable.1

/-- A reference that is answered from the caches finds its line there. -/
theorem Nested.dispatch (nested : c.Nested) (r : Reference) {s : LineState}
    (known : s.valid → (c.lookup r.addr).valid) : (c.dispatch r s).2.Nested := by
  unfold Controller.dispatch
  split
  · exact nested.barrier r
  · exact nested.purge r s
  · split
    · rename_i valid
      exact nested.completeLocally r (known valid) s
    · exact nested.request r _
  · split
    · rename_i valid
      exact nested.completeLocally r (known valid) s
    · exact nested.request r _
  · split
    · rename_i writable
      exact nested.completeLocally r (known (writable_valid writable)) s
    · exact nested.request r _
  all_goals
    split
    · rename_i writable
      exact nested.completeLocally r (known (writable_valid writable)) s
    · split <;> exact nested.request _ _

theorem Nested.issue (nested : c.Nested) (r : Reference) : (c.issue r).2.Nested := by
  unfold Controller.issue
  split
  · exact nested
  · split
    · split
      · exact nested.dispatch r fun valid => by cases valid
      · exact nested
    · exact nested.dispatch r id

theorem noteFault_stores {α : Type} (result : Except Fault α × Controller) :
    (noteFault result).2.tags = result.2.tags ∧ (noteFault result).2.cache = result.2.cache := by
  unfold noteFault
  split <;> exact ⟨rfl, rfl⟩

theorem Nested.store (nested : c.Nested) (a : Address) (bytes : List UInt8) :
    (c.store a bytes).2.Nested := by
  have written : Nested { c with cache := (c.cache.write a bytes).2 } := by
    refine nested.restate rfl (nested.cache.write a bytes) fun b => ?_
    change ((c.cache.write a bytes).2.find? b).isSome = _
    rw [BackupCache.find?_write]
    split
    · rename_i same
      rw [Option.isSome_map, BackupCache.hit, BackupCache.find?_congr c.cache same]
    · rfl
  unfold Controller.store
  split
  · split
    · split
      · rename_i shape
        rwa [shape] at written
      · rename_i shape
        rwa [shape] at written
    · exact nested
  · exact nested

theorem Nested.retireVictim (nested : c.Nested) (a : Address) (data : Block) :
    (c.retireVictim a data).2.Nested := by
  have taken := nested.allocateVictim a data .cache
  unfold Controller.retireVictim
  split
  · exact nested
  · split
    · rename_i shape
      rwa [shape] at taken
    · rename_i shape
      rw [shape] at taken
      exact taken.dropTag a

theorem Nested.perform (nested : c.Nested) (op : Operation) : (c.perform op).Nested := by
  cases op with
  | issue r =>
    obtain ⟨tags, cache⟩ := noteFault_stores (c.issue r)
    exact (nested.issue r).of_eq tags cache
  | consume slot => exact nested.of_eq rfl rfl
  | store a bytes => exact nested.store a bytes
  | storeIo s =>
    change (c.storeIo s).2.Nested
    unfold Controller.storeIo
    split <;> exact nested.of_eq rfl rfl
  | flush => exact nested.flush
  | retire a data => exact nested.retireVictim a data

theorem Nested.applyState (nested : c.Nested) (a : Address) (next : LineState) :
    (c.applyState a next).Nested := by
  unfold Controller.applyState
  split
  · rename_i valid
    have levels := nested.toLevels.applyState a next
    unfold Controller.applyState at levels
    rw [if_pos valid] at levels
    refine nested.of_hits levels (nested.paired.setState a next) fun b held => ?_
    rwa [show BackupCache.hit _ b = _ from BackupCache.hit_setState c.cache a valid b] at held
  · apply Nested.dropLine (nested.dropTag a)
    change ((c.tags.drop a).2.stateOf a).valid = false
    rw [DuplicateTags.stateOf_drop nested.tags, if_pos rfl]
    rfl

theorem Nested.concludeProbe (nested : c.Nested) (p : Probe) (s : LineState) (data : Option Block)
    (victim : Option Slot) : (c.concludeProbe p s data victim).2.Nested := by
  have counted : Nested { c with counters := { c.counters with probeHits := c.counters.probeHits + 1 } } :=
    nested.of_eq rfl rfl
  unfold Controller.concludeProbe
  simp only
  split
  · split
    · exact nested.of_eq rfl rfl
    · exact (counted.applyState _ _).of_eq rfl rfl
  · exact nested.of_eq rfl rfl

theorem Nested.answerProbe (nested : c.Nested) (p : Probe) (s : LineState) :
    (c.answerProbe p s).2.Nested := by
  unfold Controller.answerProbe
  split
  · exact nested.concludeProbe p s none none
  · rename_i data _
    split
    · split
      · exact nested.of_eq rfl rfl
      · rename_i slot victims _
        have started : Nested { c with
            victims := (victims.startTransfers .probe).2
            counters := countVictim c.counters .probe } := nested.of_eq rfl rfl
        exact started.concludeProbe p s (some data) (some slot)
    · exact nested.concludeProbe p s (some data) none

theorem Nested.handleProbe (nested : c.Nested) (p : Probe) : (c.handleProbe p).2.Nested := by
  unfold Controller.handleProbe
  split
  · exact nested.of_eq rfl rfl
  · simp only
    split
    · split
      · exact nested.of_eq rfl rfl
      · exact nested.answerProbe p _
    · exact nested.answerProbe p _

theorem Nested.act (nested : c.Nested) (x : Action) : (c.act x).Nested := by
  cases x with
  | operate op => exact nested.perform op
  | evict a data d => exact nested.allocateVictim a data d
  | snoop p => exact nested.handleProbe p
  | complete m => exact nested.complete m
  | drain => exact nested.of_eq rfl rfl

theorem Nested.follow (nested : c.Nested) (actions : List Action) : (c.follow actions).Nested := by
  induction actions generalizing c with
  | nil => exact nested
  | cons x rest ih => exact ih (nested.act x)

theorem nested_ofRegisters {cpu : Nat} {registers : Registers}
    (built : ofRegisters cpu registers = .ok c) : c.Nested := by
  unfold ofRegisters at built
  split at built
  · cases built
  · cases built
    refine ⟨⟨DuplicateTags.wellPlaced_empty, BackupCache.wellPlaced_empty _, ?_⟩,
      DuplicateTags.paired_empty, ?_⟩
    · intro a valid
      simp [DuplicateTags.stateOf_eq_invalid DuplicateTags.wellPlaced_empty, LineState.invalid] at valid
    · intro a held
      simp [BackupCache.hit, BackupCache.find?, BackupCache.occupant, BackupCache.empty] at held

/-- A controller keeps its structure whatever is asked of it. -/
theorem inclusive_follow {cpu : Nat} {registers : Registers}
    (built : ofRegisters cpu registers = .ok c) (actions : List Action) :
    (c.follow actions).Inclusive :=
  ((nested_ofRegisters built).follow actions).inclusive

/-- Block 0 is stored to and held dirty. -/
def owning : List Action :=
  [.operate (.issue (.to (.store .quad) 0)), .complete { target := .request (.miss 0), data := some .zero },
   .operate (.consume 0)]

/-- Eight victims that the backup cache does not hold fill the victim buffer. -/
def crowd : List Action :=
  (List.range 8).map fun i => .operate (.retire ⟨0x4000 + 0x40 * i.toUInt64⟩ .zero)

/-- Block 0 is stored to, and then a load brings the block that shares its place in the backup cache. -/
def conflicting : List Action :=
  [.operate (.issue (.to (.store .quad) 0)), .complete { target := .request (.miss 0), data := some .zero },
   .operate (.consume 0), .operate (.issue (.to (.load .quad) 0x100000)),
   .complete { target := .request (.miss 0), data := some .zero }]

theorem inclusive_conflicting :
    ∃ c, ofSize 0 .mb1 = .ok c ∧ (c.follow conflicting).Inclusive ∧
      ((c.follow conflicting).lookup ⟨0x100000⟩).valid ∧
      ((c.follow conflicting).lookup ⟨0⟩).valid = false ∧
      (c.follow conflicting).victims.draining = 1 := by
  have built : ofRegisters 0 (.forCache .mb1) = .ok _ := rfl
  refine ⟨_, built, inclusive_follow built conflicting, ?_, ?_, ?_⟩
  · decide +kernel
  · decide +kernel
  · decide +kernel

end Controller
end CacheCoherence
