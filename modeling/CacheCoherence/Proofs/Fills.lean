import CacheCoherence.Proofs.Lines

namespace CacheCoherence

open VictimBuffer (not_waits_of_not_draining)

theorem BackupCache.size_setState (c : BackupCache) (a : Address) (s : LineState) :
    (c.setState a s).2.size = c.size := by
  unfold setState
  split
  · rfl
  · split <;> rfl

namespace Controller

variable {c : Controller}

structure PulledDown (c : Controller) (a : Address) (d : Controller) : Prop where
  frame : d = { c with tags := d.tags, cache := d.cache }
  levels : d.Levels
  line : ∀ b, d.line b = c.line b
  lone : ∀ l, d.cache.occupant a = some l → l.addr ≠ a.block → d.tags.stateOf l.addr = .invalid
  tag : d.tags.stateOf a = c.tags.stateOf a
  hit : d.cache.hit a = c.cache.hit a

theorem Levels.pullDown_other (levels : c.Levels) {a : Address} {old : CacheLine}
    (present : c.cache.occupant a = some old) (apart : old.addr ≠ a.block) {cache : BackupCache}
    (placed : cache.WellPlaced) (size : cache.size = c.cache.size)
    (lines : ∀ b, cache.find? b =
      (c.cache.find? b).map fun l =>
        { l with dirty := l.dirty || (b.block == old.addr && (c.tags.stateOf old.addr).isDirty) }) :
    PulledDown c a { c with tags := (c.tags.drop old.addr).2, cache } := by
  have aligned : old.addr.block = old.addr := levels.cache.block _ _ present
  have found := BackupCache.find?_of_occupant levels.cache present
  have hit (b : Address) : cache.hit b = c.cache.hit b := by
    simp only [BackupCache.hit, lines, Option.isSome_map]
  have tags (b : Address) : (c.tags.drop old.addr).2.stateOf b =
      if b.block = old.addr then .invalid else c.tags.stateOf b := by
    rw [DuplicateTags.stateOf_drop levels.tags, aligned]
  constructor
  · rfl
  · constructor
    · exact levels.tags.drop _
    · exact placed
    · intro b valid
      change ((c.tags.drop old.addr).2.stateOf b).valid at valid
      rw [tags] at valid
      rw [hit]
      split at valid
      · cases valid
      · exact levels.included b valid
  · intro b
    rw [line_eq, line_eq]
    change lineOf ((c.tags.drop old.addr).2.stateOf b) (cache.find? b) = _
    rw [tags, lines]
    by_cases same : b.block = old.addr
    · have here : c.cache.find? b = some old := by
        rw [← found]
        exact BackupCache.find?_congr _ (same.trans aligned.symm)
      rw [if_pos same, here, DuplicateTags.stateOf_congr c.tags (same.trans aligned.symm)]
      simp [lineOf, same, LineState.invalid, LineState.isDirty, Bool.or_comm]
    · have other : (b.block == old.addr) = false := by simpa using same
      rw [if_neg same]
      simp only [other, Bool.false_and, Bool.or_false]
      rw [Option.map_id']
  · intro l occupies _
    change cache.occupant a = some l at occupies
    change (c.tags.drop old.addr).2.stateOf l.addr = .invalid
    have straight : l.addr.block = l.addr := placed.block _ _ occupies
    have here := BackupCache.find?_of_occupant placed occupies
    rw [lines, Option.map_eq_some_iff] at here
    obtain ⟨m, at_l, _⟩ := here
    have index : c.cache.indexOf l.addr = c.cache.indexOf a := by
      have place := placed.index _ _ occupies
      simpa only [BackupCache.indexOf, size] using place
    have standing := BackupCache.occupant_of_find? at_l
    simp only [BackupCache.occupant, index] at standing
    rw [BackupCache.occupant, standing] at present
    cases present
    rw [tags, if_pos]
    exact (BackupCache.addr_of_find? at_l).symm
  · change (c.tags.drop old.addr).2.stateOf a = _
    rw [tags, if_neg (Ne.symm apart)]
  · exact hit a

theorem Levels.pullDown (levels : c.Levels) (a : Address) : PulledDown c a (c.pullDown a) := by
  have idle (quiet : ∀ l, c.cache.occupant a = some l → l.addr = a.block) : PulledDown c a c := by
    refine ⟨rfl, levels, fun _ => rfl, ?_, rfl, rfl⟩
    intro l occupies apart
    exact absurd (quiet l occupies) apart
  unfold Controller.pullDown
  cases present : c.cache.occupant a with
  | none =>
    apply idle
    intro l occupies
    rw [present] at occupies
    cases occupies
  | some old =>
    simp only
    split
    · rename_i own
      apply idle
      intro l occupies
      rw [present] at occupies
      cases occupies
      exact own
    · rename_i apart
      have answer := DuplicateTags.drop_fst c.tags old.addr
      have found := BackupCache.find?_of_occupant levels.cache present
      have aligned : old.addr.block = old.addr := levels.cache.block _ _ present
      split
      · rename_i tags dropped
        rw [dropped] at answer
        have missing : (c.tags.stateOf old.addr).valid = false := by
          cases valid : (c.tags.stateOf old.addr).valid with
          | false => rfl
          | true => simp [valid] at answer
        have result := levels.pullDown_other present apart levels.cache rfl (by
          intro b
          simp only [LineState.isDirty, missing, Bool.false_and, Bool.and_false, Bool.or_false]
          exact Option.map_id'.symm)
        rwa [dropped] at result
      · rename_i before tags dropped
        rw [dropped] at answer
        have state : before = c.tags.stateOf old.addr := by
          split at answer
          · cases answer
            rfl
          · cases answer
        split
        · rename_i dirty
          rw [state] at dirty
          have result := levels.pullDown_other present apart
            (levels.cache.setState old.addr { old.state with dirty := true })
            (BackupCache.size_setState _ _ _) (by
              intro b
              rw [BackupCache.find?_setState, aligned, found, dirty]
              by_cases same : b.block = old.addr
              · have here : c.cache.find? b = some old := by
                  rw [← found]
                  exact BackupCache.find?_congr _ (same.trans aligned.symm)
                rw [if_pos same, here]
                simp [CacheLine.state, same]
              · have other : (b.block == old.addr) = false := by simpa using same
                rw [if_neg same]
                simp only [other, Bool.false_and, Bool.or_false]
                exact Option.map_id'.symm)
          rwa [dropped] at result
        · rename_i clean
          rw [state, Bool.not_eq_true] at clean
          have result := levels.pullDown_other present apart levels.cache rfl (by
            intro b
            simp only [clean, Bool.and_false, Bool.or_false]
            exact Option.map_id'.symm)
          rwa [dropped] at result

/-- What work on lines leaves of the rest of a controller: victims are sent, and what still drains
drained before or was sent. -/
structure Moves (c d : Controller) (sent : List Request) : Prop where
  frame : d = { c with
    cache := d.cache, tags := d.tags, victims := d.victims, counters := d.counters,
    outbound := c.outbound ++ sent }
  sends : ∀ r ∈ sent, ∃ (v : Victim) (slot : Slot), r = v.request slot
  carried : ∀ i v, d.victims.get? i = some v → v.draining → v.destination ≠ .probe →
    c.victims.get? i = some v ∨ v.request i ∈ sent

theorem Moves.refl (c : Controller) : Moves c c [] := by
  constructor
  · simp
  · simp
  · intro i v present _ _
    exact .inl present

def OnlyLeaving (b : VictimBuffer) : Prop :=
  ∀ i v, b.get? i = some v → v.phase = .waiting → v.destination = .memory

theorem OnlyLeaving.of_settled {b : VictimBuffer} (settled : b.Settled) : OnlyLeaving b := by
  intro i v present waiting
  exact absurd waiting (settled i v present)

theorem OnlyLeaving.not_returning {b : VictimBuffer} (only : OnlyLeaving b) {i : Slot} {v : Victim}
    (present : b.get? i = some v) : v.waitsFor .cache = false := by
  by_cases waiting : v.phase = .waiting
  · simp [Victim.waitsFor, only i v present waiting]
  · simp [Victim.waitsFor, waiting]

theorem OnlyLeaving.returns_eq {b : VictimBuffer} (only : OnlyLeaving b) (a : Address) :
    b.returns a = false := by
  rw [VictimBuffer.returns, List.any_eq_false]
  intro i _
  cases present : b.get? i with
  | none => simp
  | some v => simp [only.not_returning present]

/-- With room for it, the data of a displaced line that was dirty is kept, to come back at once. -/
structure Keeps (c : Controller) (displaced : Option Displaced) (victims : VictimBuffer) : Prop where
  held : ∀ i v, victims.get? i = some v → v.waitsFor .cache →
    v.addr.block = v.addr ∧ c.cache.read v.addr = some v.data
  leaving : victims.leaving = c.victims.leaving
  returns : ∀ b, victims.returns b =
    displaced.any fun d => d.addr == b.block && d.state.isDirty
  carried : ∀ i v, victims.get? i = some v → v.draining →
    c.victims.get? i = some v ∨ v.waitsFor .cache

theorem keepDisplaced_spec (only : OnlyLeaving c.victims) (room : c.victims.hasRoom)
    (displaced : Option Displaced)
    (known : ∀ d, displaced = some d → d.addr.block = d.addr ∧ c.cache.hit d.addr) :
    ∃ victims counters,
      c.keepDisplaced displaced = (.ok (), { c with victims, counters }) ∧
      Keeps c displaced victims := by
  have idle (quiet : ∀ d, displaced = some d → d.state.isDirty = false) :
      Keeps c displaced c.victims := by
    constructor
    · intro i v present waits
      rw [only.not_returning present] at waits
      cases waits
    · rfl
    · intro b
      rw [only.returns_eq]
      cases displaced with
      | none => rfl
      | some d => simp [quiet d rfl]
    · intro i v present _
      exact .inl present
  unfold keepDisplaced
  cases displaced with
  | none => exact ⟨_, _, rfl, idle (by simp)⟩
  | some d =>
    obtain ⟨aligned, held⟩ := known d rfl
    simp only
    split
    · rename_i dirty
      cases bytes : c.cache.read d.addr with
      | none =>
        rw [hit_iff_copy] at held
        simp [line, bytes] at held
      | some data =>
        simp only
        rcases VictimBuffer.allocate_cases c.victims d.addr data .cache with
          ⟨full, _⟩ | ⟨_, slot, free, taken⟩
        · rw [room] at full
          cases full
        · rw [taken]
          refine ⟨_, _, rfl, ?_⟩
          constructor
          · intro i v present waits
            rcases VictimBuffer.cases_of_put present with ⟨_, rfl⟩ | before
            · simp only [aligned]
              exact ⟨trivial, bytes⟩
            · rw [only.not_returning before] at waits
              cases waits
          · exact VictimBuffer.leaving_put_other (by simp [Victim.waitsFor]) free
          · intro b
            rw [VictimBuffer.returns_put free, only.returns_eq]
            simp [Victim.waitsFor, aligned, dirty]
          · intro i v present draining
            rcases VictimBuffer.cases_of_put present with ⟨_, rfl⟩ | before
            · exact .inr (by simp [Victim.waitsFor])
            · exact .inl before
    · rename_i clean
      exact ⟨_, _, rfl, idle (by
        intro e same
        cases same
        simpa using clean)⟩

/-- A displaced line is held in the backup cache alone, which learns that it was dirty: the line of another
block is as it was. -/
theorem Levels.line_beside_fill (levels : c.Levels) {a b : Address} (s : LineState)
    (apart : b.block ≠ a.block) :
    lineOf ((c.tags.fill a s).2.stateOf b) ((c.cache.find? b).map fun l =>
      { l with dirty := l.dirty || (c.tags.fill a s).1.any fun d => d.addr == b.block && d.state.isDirty }) =
      c.line b := by
  have filled := levels.tags.fill a s
  rw [line_eq, filled.state, if_neg apart]
  cases displaced : (c.tags.fill a s).1 with
  | none =>
    simp only [Option.map_none, reduceCtorEq, if_false, Option.any_none, Bool.or_false]
    rw [Option.map_id']
  | some d =>
    obtain ⟨aligned, _, state, valid⟩ := filled.displaced d displaced
    simp only [Option.map_some, Option.some.injEq, Option.any_some]
    by_cases same : d.addr = b.block
    · rw [if_pos same]
      have before : c.tags.stateOf b = d.state := by
        rw [state, same, DuplicateTags.stateOf_block]
      rw [before]
      have present := levels.included b (by rw [before]; exact valid)
      cases found : c.cache.find? b with
      | none =>
        rw [BackupCache.hit, found] at present
        cases present
      | some l => simp [lineOf, same, LineState.invalid, LineState.isDirty, Bool.or_comm]
    · have other : (d.addr == b.block) = false := by simpa using same
      rw [if_neg same]
      simp only [other, Bool.false_and, Bool.or_false]
      rw [Option.map_id']

theorem Levels.line_fill (levels : c.Levels) (a : Address) (s : LineState) :
    lineOf ((c.tags.fill a s).2.stateOf a) ((c.cache.find? a).map fun l =>
      { l with dirty := l.dirty || (c.tags.fill a s).1.any fun d => d.addr == a.block && d.state.isDirty }) =
      lineOf s.settled (c.cache.find? a) := by
  have filled := levels.tags.fill a s
  have quiet : ((c.tags.fill a s).1.any fun d => d.addr == a.block && d.state.isDirty) = false := by
    cases displaced : (c.tags.fill a s).1 with
    | none => rfl
    | some d =>
      obtain ⟨_, apart, _, _⟩ := filled.displaced d displaced
      simp [apart]
  rw [filled.state, if_pos rfl, quiet]
  simp only [Bool.or_false]
  rw [Option.map_id']

/-- With room for what it displaces, entering a line in the duplicate tags changes no other line. -/
theorem fillPrimary_spec (levels : c.Levels) (only : OnlyLeaving c.victims)
    (room : c.victims.hasRoom) {a : Address} (held : c.cache.hit a) (s : LineState) :
    (c.fillPrimary a s).1 = .ok () ∧
    (c.fillPrimary a s).2.Good ∧
    Moves c (c.fillPrimary a s).2 c.victims.leaving ∧
    (∀ b, b.block ≠ a.block → (c.fillPrimary a s).2.line b = c.line b) ∧
    (c.fillPrimary a s).2.line a = lineOf s.settled (c.cache.find? a) := by
  have filled := levels.tags.fill a s
  obtain ⟨victims, counters, kept, keeps⟩ :=
    keepDisplaced_spec (c := { c with tags := (c.tags.fill a s).2 }) only room (c.tags.fill a s).1 (by
      intro d displaced
      obtain ⟨aligned, _, state, valid⟩ := filled.displaced d displaced
      rw [state] at valid
      exact ⟨aligned, levels.included _ valid⟩)
  let middle : Controller := { c with tags := (c.tags.fill a s).2, victims, counters }
  have shape : c.fillPrimary a s = (.ok (), middle.transferVictims) := by
    simp only [fillPrimary, kept, middle]
  obtain ⟨sent, moved⟩ := transfers middle
  obtain ⟨outbound, lines⟩ := transferVictims_held (c := middle) keeps.held
  have left : sent = c.victims.leaving := by
    rw [moved.frame] at outbound
    exact (List.append_cancel_left outbound).trans keeps.leaving
  subst left
  have tags : middle.transferVictims.tags = (c.tags.fill a s).2 := by rw [moved.frame]
  have hit (b : Address) : middle.transferVictims.cache.hit b = c.cache.hit b := moved.hit b
  rw [shape]
  refine ⟨rfl, ⟨⟨?_, moved.placed levels.cache, ?_⟩, ?_⟩, ⟨?_, moved.sends, ?_⟩, ?_, ?_⟩
  · rw [tags]
    exact filled.placed
  · intro b valid
    rw [tags, filled.state] at valid
    rw [hit]
    split at valid
    · rename_i same
      rw [BackupCache.hit, BackupCache.find?_congr c.cache same]
      exact held
    · split at valid
      · cases valid
      · exact levels.included b valid
  · intro i v present waiting
    obtain ⟨before, bound⟩ := moved.waiting i v present waiting
    rcases keeps.carried i v before (by simp [Victim.draining, waiting]) with old | waits
    · have leaves := only i v old waiting
      rw [bound] at leaves
      cases leaves
    · simp [Victim.waitsFor, bound] at waits
  · rw [moved.frame]
  · intro i v present draining _
    rcases moved.carried i v present draining with before | member
    · rcases keeps.carried i v before draining with old | waits
      · exact .inl old
      · right
        -- a slot that waits after the transfer was never bound for the backup cache
        simp only [Victim.waitsFor, Bool.and_eq_true, beq_iff_eq] at waits
        have bound := (moved.waiting i v present waits.1).2
        rw [waits.2] at bound
        cases bound
    · exact .inr member
  · intro b apart
    rw [line_eq, tags, lines, keeps.returns]
    exact levels.line_beside_fill s apart
  · rw [line_eq, tags, lines, keeps.returns]
    exact levels.line_fill a s

/-- The backup cache and the victim buffer after a line was written over the occupant of its index.
Only a dirty line of another block leaves a victim. -/
theorem insert_cases (cache : BackupCache) (a : Address) (data : Block) (s : LineState)
    (victims : VictimBuffer) :
    (victims.hasRoom = false ∧ (∃ old, cache.occupant a = some old ∧ old.addr ≠ a.block) ∧
      cache.insert a data s victims .memory =
        (.error (.exhausted .victimBuffer), cache, victims)) ∨
    ((∀ old, cache.occupant a = some old → old.addr ≠ a.block → old.dirty = false) ∧
      ∃ evicted, cache.insert a data s victims .memory =
        (.ok evicted, cache.install a data s, victims)) ∨
    (∃ old slot, cache.occupant a = some old ∧ old.addr ≠ a.block ∧ old.dirty = true ∧
      (∀ v, victims.get? slot = some v → v.draining = false) ∧
      ∃ evicted, cache.insert a data s victims .memory =
        (.ok evicted, cache.install a data s,
          ⟨victims.slots.put slot
            { addr := old.addr.block, data := old.data, destination := .memory }⟩)) := by
  unfold BackupCache.insert
  cases present : cache.occupant a with
  | none => exact .inr (.inl ⟨by simp, _, rfl⟩)
  | some old =>
    simp only
    split
    · rename_i own
      refine .inr (.inl ⟨?_, _, rfl⟩)
      intro l same apart
      cases same
      exact absurd own apart
    · rename_i apart
      split
      · rename_i dirty
        rcases VictimBuffer.allocate_cases victims old.addr old.data .memory with
          ⟨full, refused⟩ | ⟨_, slot, free, taken⟩
        · rw [refused]
          exact .inl ⟨full, ⟨old, rfl, apart⟩, rfl⟩
        · rw [taken]
          exact .inr (.inr ⟨old, slot, rfl, apart, dirty, free, _, rfl⟩)
      · rename_i clean
        refine .inr (.inl ⟨?_, _, rfl⟩)
        intro l same _
        cases same
        simpa using clean

/-- The controller between the write of the backup cache and the rest of an installation. -/
structure Replaced (c : Controller) (a : Address) (l : CacheLine) (d : Controller) : Prop where
  frame : d = { c with cache := d.cache, tags := d.tags, victims := d.victims, counters := d.counters }
  levels : d.Levels
  only : OnlyLeaving d.victims
  found : d.cache.find? a = some l
  tag : d.tags.stateOf a = c.tags.stateOf a
  fate : ∀ b, b.block ≠ a.block → Fate b (c.line b) (d.line b) d.victims.leaving
  quiet : onBlock a d.victims.leaving = []
  sends : ∀ r ∈ d.victims.leaving, ∃ (v : Victim) (slot : Slot), r = v.request slot
  carried : ∀ i v, d.victims.get? i = some v → v.draining →
    c.victims.get? i = some v ∨ v.request i ∈ d.victims.leaving
  room : c.cache.hit a → d.victims.hasRoom = c.victims.hasRoom

/-- What a cache sends when the line at the index of `a` is replaced: nothing, and then no dirty line
of another block is there, or that line. -/
def Displaces (cache : BackupCache) (a : Address) (sent : List Request) : Prop :=
  (sent = [] ∧ ∀ old, cache.occupant a = some old → old.addr ≠ a.block → old.dirty = false) ∨
    ∃ old slot, cache.occupant a = some old ∧ old.addr ≠ a.block ∧ old.dirty = true ∧
      sent = [.victim slot old.addr old.data]

section displaces

variable {cache : BackupCache} {a b : Address} {sent : List Request}

theorem Displaces.silent (displaces : Displaces cache a sent) (placed : cache.WellPlaced)
    (apart : ∀ old, cache.occupant a = some old → old.addr ≠ b.block) : onBlock b sent = [] := by
  rcases displaces with ⟨rfl, _⟩ | ⟨old, slot, present, _, _, rfl⟩
  · rfl
  · have aligned : old.addr.block = old.addr := placed.block _ _ present
    simp [Request.block?, aligned, apart old present]

theorem Displaces.quiet (displaces : Displaces cache a sent) (placed : cache.WellPlaced) : onBlock a sent = [] := by
  rcases displaces with ⟨rfl, _⟩ | ⟨old, slot, present, apart, _, rfl⟩
  · rfl
  · have aligned : old.addr.block = old.addr := placed.block _ _ present
    simp [Request.block?, aligned, apart]

theorem Displaces.sends (displaces : Displaces cache a sent) :
    ∀ r ∈ sent, ∃ (v : Victim) (slot : Slot), r = v.request slot := by
  rcases displaces with ⟨rfl, _⟩ | ⟨old, slot, _, _, _, rfl⟩
  · simp
  · intro r member
    rw [List.mem_singleton.mp member]
    exact ⟨{ addr := old.addr, data := old.data, destination := .memory }, slot, rfl⟩

/-- A block at the index of `a` has no line but the one that is there. -/
theorem find?_beside (placed : cache.WellPlaced) (index : cache.indexOf b = cache.indexOf a)
    (other : ∀ old, cache.occupant a = some old → old.addr ≠ b.block) : cache.find? b = none := by
  have same : cache.occupant b = cache.occupant a := by simp only [BackupCache.occupant, index]
  cases occupies : cache.occupant a with
  | none => simp [BackupCache.find?, same, occupies]
  | some old =>
    exact BackupCache.find?_eq_none_of_occupant placed (same.trans occupies) (other old occupies)

theorem indexOf_of_occupant (placed : cache.WellPlaced) {old : CacheLine}
    (occupies : cache.occupant a = some old) (same : old.addr = b.block) :
    cache.indexOf b = cache.indexOf a := by
  rw [← BackupCache.indexOf_block, ← same]
  exact placed.index _ _ occupies

end displaces

/-- A line whose block is not in the duplicate tags gives way to another. -/
theorem PulledDown.fate_replaced {a b : Address} {d : Controller} (pulled : PulledDown c a d)
    {sent : List Request} (displaces : Displaces d.cache a sent) (apart : b.block ≠ a.block) :
    Fate b (d.line b)
      (lineOf (d.tags.stateOf b)
        (if d.cache.indexOf b = d.cache.indexOf a then none else d.cache.find? b)) sent := by
  have levels := pulled.levels
  by_cases here : ∃ old, d.cache.occupant a = some old ∧ old.addr = b.block
  · obtain ⟨old, occupies, same⟩ := here
    have aligned : old.addr.block = old.addr := levels.cache.block _ _ occupies
    have other : old.addr ≠ a.block := by rw [same]; exact apart
    have tag : d.tags.stateOf b = .invalid := by
      rw [← DuplicateTags.stateOf_block, ← same]
      exact pulled.lone old occupies other
    have found : d.cache.find? b = some old := by
      rw [BackupCache.find?_congr d.cache (same.symm.trans aligned.symm)]
      exact BackupCache.find?_of_occupant levels.cache occupies
    have before : d.line b = ⟨some old.data, old.dirty, old.dirty && !old.shared⟩ := by
      rw [line_eq, tag, found]
      simp [lineOf, LineState.invalid, LineState.isDirty]
    rw [if_pos (indexOf_of_occupant levels.cache occupies same), tag]
    rcases displaces with ⟨rfl, clean⟩ | ⟨l, slot, present, _, dirty, rfl⟩
    · refine .clean rfl ?_ rfl
      rw [before]
      exact clean old occupies other
    · rw [occupies] at present
      cases present
      refine .dirty rfl ?_ slot old.data ?_ ?_
      · rw [before]
        exact dirty
      · rw [before]
      · simp [Request.block?, same]
  · have elsewhere (old : CacheLine) (occupies : d.cache.occupant a = some old) :
        old.addr ≠ b.block := fun same => here ⟨old, occupies, same⟩
    refine .kept ?_ (displaces.silent levels.cache elsewhere)
    rw [line_eq]
    split
    · rename_i index
      rw [find?_beside levels.cache index elsewhere]
    · rfl

theorem PulledDown.included {a b : Address} {d : Controller} (pulled : PulledDown c a d)
    (apart : b.block ≠ a.block) (valid : (d.tags.stateOf b).valid) :
    d.cache.indexOf b ≠ d.cache.indexOf a := by
  intro index
  have present := pulled.levels.included b valid
  rw [BackupCache.hit, find?_beside pulled.levels.cache index] at present
  · cases present
  · intro old occupies same
    have gone := pulled.lone old occupies (by rw [same]; exact apart)
    rw [same, DuplicateTags.stateOf_block] at gone
    rw [gone] at valid
    cases valid

theorem PulledDown.levels_install {a : Address} {d : Controller} (pulled : PulledDown c a d)
    (data : Block) (s : LineState) : Levels { d with cache := d.cache.install a data s } := by
  have levels := pulled.levels
  refine ⟨levels.tags, levels.cache.install a data s, fun b valid => ?_⟩
  change (d.tags.stateOf b).valid at valid
  change ((d.cache.install a data s).find? b).isSome
  rw [BackupCache.find?_install]
  split
  · rfl
  · rename_i apart
    rw [if_neg (pulled.included apart valid)]
    exact levels.included b valid

theorem PulledDown.replace {a : Address} {d : Controller} (pulled : PulledDown c a d)
    (data : Block) (s : LineState) {victims : VictimBuffer} (counters : Counters)
    (only : OnlyLeaving victims)
    (room : c.cache.hit a → victims.hasRoom = c.victims.hasRoom)
    (displaces : Displaces d.cache a victims.leaving)
    (carried : ∀ i v, victims.get? i = some v → v.draining →
      c.victims.get? i = some v ∨ v.request i ∈ victims.leaving) :
    Replaced c a
      { tag := BackupCache.tagOf a, addr := a.block, dirty := s.dirty, shared := s.shared, data }
      { d with cache := d.cache.install a data s, victims, counters } := by
  have levels := pulled.levels
  have lines := (BackupCache.find?_install d.cache a · data s)
  constructor
  · rw [pulled.frame]
  · exact (pulled.levels_install data s).of_eq rfl rfl
  · exact only
  · change (d.cache.install a data s).find? a = _
    rw [lines, if_pos rfl]
  · exact pulled.tag
  · intro b apart
    have after : Controller.line { d with cache := d.cache.install a data s, victims, counters } b =
        lineOf (d.tags.stateOf b)
          (if d.cache.indexOf b = d.cache.indexOf a then none else d.cache.find? b) := by
      rw [line_eq]
      change lineOf _ ((d.cache.install a data s).find? b) = _
      rw [lines, if_neg apart]
    rw [← pulled.line b, after]
    exact pulled.fate_replaced displaces apart
  · exact displaces.quiet levels.cache
  · exact displaces.sends
  · exact carried
  · exact room

theorem Good.replaced (good : c.Good) (a : Address) (data : Block) (s : LineState) :
    (c.line a = .absent ∧
      (c.pullDown a).cache.insert a data s c.victims .memory =
        (.error (.exhausted .victimBuffer), (c.pullDown a).cache, c.victims)) ∨
    ∃ evicted cache victims,
      (c.pullDown a).cache.insert a data s c.victims .memory = (.ok evicted, cache, victims) ∧
      ∀ counters, Replaced c a
        { tag := BackupCache.tagOf a, addr := a.block, dirty := s.dirty, shared := s.shared, data }
        { c.pullDown a with cache, victims, counters } := by
  have pulled := good.toLevels.pullDown a
  have only := OnlyLeaving.of_settled good.settled
  rcases insert_cases (c.pullDown a).cache a data s c.victims with
    ⟨_, ⟨old, present, apart⟩, refused⟩ | ⟨clean, evicted, done⟩ |
    ⟨old, slot, present, apart, dirty, free, evicted, done⟩
  · refine .inl ⟨?_, refused⟩
    rw [← pulled.line, pulled.levels.absent_iff]
    exact BackupCache.find?_eq_none_of_occupant pulled.levels.cache present apart
  · refine .inr ⟨evicted, _, _, done, fun counters => ?_⟩
    apply pulled.replace data s counters only (fun _ => rfl)
    · exact .inl ⟨good.settled.leaving_eq, clean⟩
    · intro i v found _
      exact .inl found
  · have aligned : old.addr.block = old.addr := pulled.levels.cache.block _ _ present
    have left := VictimBuffer.leaving_put_memory good.settled slot old.addr.block old.data
    refine .inr ⟨evicted, _, _, done, fun counters => ?_⟩
    apply pulled.replace data s counters
    · intro i v found waiting
      rcases VictimBuffer.cases_of_put found with ⟨_, rfl⟩ | before
      · rfl
      · exact only i v before waiting
    · intro held
      rw [← pulled.hit, BackupCache.hit,
        BackupCache.find?_eq_none_of_occupant pulled.levels.cache present apart] at held
      cases held
    · refine .inr ⟨old, slot, present, apart, dirty, ?_⟩
      rw [left, aligned]
    · intro i v found _
      rcases VictimBuffer.cases_of_put found with ⟨rfl, rfl⟩ | before
      · rw [left]
        exact .inr (by simp [Victim.request])
      · exact .inl before

/-- A controller in which line `l` was installed for the block of `a`. The duplicate tags keep an old
dirty state only when they cannot be entered. -/
structure Installed (c : Controller) (a : Address) (l : CacheLine) (d : Controller)
    (sent : List Request) : Prop where
  good : d.Good
  moves : Moves c d sent
  fate : ∀ b, b.block ≠ a.block → Fate b (c.line b) (d.line b) sent
  quiet : onBlock a sent = []
  line : d.line a = lineOf ⟨!c.victims.hasRoom, (c.tags.stateOf a).isDirty, false⟩ (some l)

/-- A dirty state in the duplicate tags means that the backup cache had the line, and so that the
replacement took no slot. -/
theorem Replaced.keeps {a : Address} {l : CacheLine} {d : Controller} (replaced : Replaced c a l d)
    (good : c.Good) :
    (!c.victims.hasRoom && (c.tags.stateOf a).isDirty) =
      (!d.victims.hasRoom && (c.tags.stateOf a).isDirty) := by
  cases dirty : (c.tags.stateOf a).isDirty with
  | false => simp
  | true =>
    have present := good.included a (LineState.valid_of_isDirty dirty)
    rw [← replaced.room present]

section installing

variable {a : Address} {data : Block} {s : LineState} {d : Controller}

theorem Replaced.entered (replaced : Replaced c a
      { tag := BackupCache.tagOf a, addr := a.block, dirty := false, shared := s.shared, data } d)
    (good : c.Good) (room : d.victims.hasRoom) (valid : s.valid) :
    ∃ e, d.fillPrimary a s = (.ok (), e) ∧ e.transferVictims = e ∧
      Installed c a
        { tag := BackupCache.tagOf a, addr := a.block, dirty := s.dirty, shared := s.shared, data } e
        d.victims.leaving := by
  have held : d.cache.hit a := by rw [BackupCache.hit, replaced.found]; rfl
  obtain ⟨entered, tidy, moved, others, line⟩ :=
    fillPrimary_spec replaced.levels replaced.only room held s
  have settled := transferVictims_settled tidy.settled
  have shape : d.fillPrimary a s = (.ok (), (d.fillPrimary a s).2) := by rw [← entered]
  refine ⟨_, shape, settled, tidy, ⟨?_, replaced.sends, ?_⟩, ?_, replaced.quiet, ?_⟩
  · rw [moved.frame, replaced.frame]
  · intro i v present draining aside
    rcases moved.carried i v present draining aside with before | member
    · exact replaced.carried i v before draining
    · exact .inr member
  · intro b apart
    rw [others b apart]
    exact replaced.fate b apart
  · have keeps := replaced.keeps good
    rw [room, Bool.not_true, Bool.false_and] at keeps
    rw [line, replaced.found]
    simp only [LineState.isDirty] at keeps
    simp [lineOf, LineState.isDirty, LineState.settled, keeps, valid]

theorem Replaced.withheld (replaced : Replaced c a
      { tag := BackupCache.tagOf a, addr := a.block, dirty := false, shared := s.shared, data } d)
    (good : c.Good) (full : d.victims.hasRoom = false) (valid : s.valid) :
    Installed c a
      { tag := BackupCache.tagOf a, addr := a.block, dirty := s.dirty, shared := s.shared, data }
      (transferVictims { d with cache := (d.cache.setState a s).2 }) d.victims.leaving := by
  let last : Controller := { d with cache := (d.cache.setState a s).2 }
  change Installed c a _ last.transferVictims d.victims.leaving
  obtain ⟨sent, moved⟩ := transfers last
  obtain ⟨outbound, lines⟩ := transferVictims_held (c := last) (by
    intro i v present waits
    rw [replaced.only.not_returning present] at waits
    cases waits)
  obtain rfl : sent = d.victims.leaving := by
    rw [moved.frame] at outbound
    exact List.append_cancel_left outbound
  have cells (b : Address) : last.cache.find? b =
      if b.block = a.block then
        some { tag := BackupCache.tagOf a, addr := a.block, dirty := s.dirty,
               shared := s.shared, data }
      else d.cache.find? b := by
    rw [BackupCache.find?_setState, replaced.found, if_pos valid]
    rfl
  have tags : last.transferVictims.tags = d.tags := by rw [moved.frame]
  have same (b : Address) : last.transferVictims.cache.find? b = last.cache.find? b := by
    rw [lines, show last.victims.returns b = false from replaced.only.returns_eq b]
    simp only [Bool.or_false]
    exact Option.map_id'
  refine ⟨⟨⟨?_, ?_, ?_⟩, ?_⟩, ⟨?_, replaced.sends, ?_⟩, ?_, replaced.quiet, ?_⟩
  · rw [tags]
    exact replaced.levels.tags
  · exact moved.placed (replaced.levels.cache.setState a s)
  · intro b present
    rw [tags] at present
    rw [BackupCache.hit, same, cells]
    split
    · rfl
    · exact replaced.levels.included b present
  · intro i v present waiting
    obtain ⟨before, bound⟩ := moved.waiting i v present waiting
    have leaves := replaced.only i v before waiting
    rw [bound] at leaves
    cases leaves
  · have rest := replaced.frame
    rw [moved.frame]
    simp only [last]
    rw [rest]
  · intro i v present draining _
    rcases moved.carried i v present draining with before | member
    · exact replaced.carried i v before draining
    · exact .inr member
  · intro b apart
    have reads : last.transferVictims.line b = d.line b := by
      rw [line_eq, line_eq, tags, same, cells, if_neg apart]
    rw [reads]
    exact replaced.fate b apart
  · have keeps := replaced.keeps good
    rw [full, Bool.not_false, Bool.true_and] at keeps
    have view : LineState.isDirty ⟨!c.victims.hasRoom, (c.tags.stateOf a).isDirty, false⟩ =
        (c.tags.stateOf a).isDirty := keeps
    rw [line_eq, tags, same, cells, if_pos rfl, replaced.tag]
    simp only [lineOf, view]

end installing

/-- A fill is refused for want of room, and then nothing changes, or it makes the line of its block. -/
theorem Good.install (good : c.Good) (a : Address) (data : Block) {s : LineState}
    (valid : s.valid) :
    ((c.install a data s).1 = .error (.exhausted .victimBuffer) ∧ (c.install a data s).2.Good ∧
      Moves c (c.install a data s).2 [] ∧ (∀ b, (c.install a data s).2.line b = c.line b) ∧
      c.line a = .absent) ∨
    ∃ sent, (c.install a data s).1 = .ok () ∧
      Installed c a
        { tag := BackupCache.tagOf a, addr := a.block, dirty := s.dirty, shared := s.shared, data }
        (c.install a data s).2 sent := by
  have pulled := good.toLevels.pullDown a
  have victims : (c.pullDown a).victims = c.victims := by rw [pulled.frame]
  rcases good.replaced a data { s with dirty := false } with
    ⟨absent, refused⟩ | ⟨evicted, cache, after, done, replaced⟩
  · have shape : c.install a data s = (.error (.exhausted .victimBuffer), c.pullDown a) := by
      simp only [Controller.install, victims, refused]
      rw [← victims]
    rw [shape]
    refine .inl ⟨rfl, ⟨pulled.levels, ?_⟩, ⟨?_, ?_, ?_⟩, pulled.line, absent⟩
    · rw [victims]
      exact good.settled
    · rw [pulled.frame]
      simp
    · simp
    · intro i v present _ _
      rw [victims] at present
      exact .inl present
  · right
    let counters := if (evicted.bind (·.victim)).isSome then
      countVictim (c.pullDown a).counters .memory else (c.pullDown a).counters
    let middle : Controller := { c.pullDown a with cache, victims := after, counters }
    have replaced : Replaced c a _ middle := replaced counters
    refine ⟨middle.victims.leaving, ?_⟩
    by_cases room : middle.victims.hasRoom
    · obtain ⟨e, entered, settled, installed⟩ := replaced.entered (s := s) good room valid
      have whole : c.install a data s = (.ok (), e) := by
        simp only [Controller.install, victims, done]
        rw [if_pos room, show Controller.fillPrimary _ a s = _ from entered]
        simp only [settled]
      rw [whole]
      exact ⟨rfl, installed⟩
    · have whole : c.install a data s =
          (.ok (), transferVictims { middle with cache := (middle.cache.setState a s).2 }) := by
        simp only [Controller.install, victims, done]
        rw [if_neg room]
      rw [whole]
      exact ⟨rfl, replaced.withheld (s := s) good (by simpa using room) valid⟩

end Controller
end CacheCoherence
