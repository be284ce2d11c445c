import CacheCoherence.Controller.Filling
import CacheCoherence.Proofs.Tags
import CacheCoherence.Proofs.Transfers

/-! A node's copy of a block as one line: the two tag stores together. `Good` is what every call
keeps of a controller. The lemmas here say how the line of each block changes when a line is pulled
down, entered in the duplicate tags or installed: other blocks keep their line, or lose it to a
victim that was sent. -/

namespace CacheCoherence

/-- What a node holds of a block. A node is the sole holder when it may write the line. -/
structure Holding where
  copy : Option Block
  dirty : Bool
  sole : Bool
  deriving DecidableEq

def Holding.absent : Holding := ⟨none, false, false⟩

def Request.block? : Request → Option Address
  | .read _ a _ => some a.block
  | .victim _ a _ => some a.block
  | .reply r => some r.addr.block
  | .ioWrite .. | .barrier _ => none

def onBlock (a : Address) (queue : List Request) : List Request :=
  queue.filter (·.block? == some a.block)

@[simp] theorem onBlock_nil (a : Address) : onBlock a [] = [] := rfl

@[simp] theorem onBlock_append (a : Address) (first rest : List Request) :
    onBlock a (first ++ rest) = onBlock a first ++ onBlock a rest :=
  List.filter_append ..

@[simp] theorem onBlock_cons (a : Address) (r : Request) (rest : List Request) :
    onBlock a (r :: rest) =
      if r.block? = some a.block then r :: onBlock a rest else onBlock a rest := by
  simp [onBlock, List.filter_cons]

namespace Controller

def line (c : Controller) (a : Address) : Holding where
  copy := c.cache.read a
  dirty := (c.lookup a).isDirty
  sole := (c.lookup a).isDirty && !(c.cache.stateOf a).shared

/-- Both levels are well placed, and the backup cache holds what the duplicate tags hold. -/
structure Levels (c : Controller) : Prop where
  tags : c.tags.WellPlaced
  cache : c.cache.WellPlaced
  included : ∀ a, (c.tags.stateOf a).valid → c.cache.hit a

structure Good (c : Controller) : Prop extends c.Levels where
  settled : c.victims.Settled

def lineOf (s : LineState) : Option CacheLine → Holding
  | none => ⟨none, s.isDirty, s.isDirty⟩
  | some l => ⟨some l.data, s.isDirty || l.dirty, (s.isDirty || l.dirty) && !l.shared⟩

@[simp] theorem isDirty_merge (s t : LineState) : (s.merge t).isDirty = (s.isDirty || t.isDirty) := by
  obtain ⟨v, d, h⟩ := s
  obtain ⟨w, e, k⟩ := t
  cases v <;> cases w <;> simp [LineState.merge, LineState.isDirty]

theorem line_eq (c : Controller) (a : Address) :
    c.line a = lineOf (c.tags.stateOf a) (c.cache.find? a) := by
  simp only [line, lookup, BackupCache.read_eq, BackupCache.stateOf_eq, isDirty_merge]
  cases c.cache.find? a with
  | none => simp [lineOf, LineState.isDirty, LineState.invalid]
  | some l => simp [lineOf, LineState.isDirty, CacheLine.state]

theorem lookup_congr (c : Controller) {a b : Address} (same : a.block = b.block) :
    c.lookup a = c.lookup b := by
  simp only [lookup, DuplicateTags.stateOf_congr c.tags same, BackupCache.stateOf_eq,
    BackupCache.find?_congr c.cache same]

theorem line_congr (c : Controller) {a b : Address} (same : a.block = b.block) :
    c.line a = c.line b := by
  rw [line_eq, line_eq, DuplicateTags.stateOf_congr c.tags same, BackupCache.find?_congr c.cache same]

variable {c : Controller}

theorem Levels.lookup_valid (levels : c.Levels) (a : Address) :
    (c.lookup a).valid = c.cache.hit a := by
  have held := levels.included a
  rw [BackupCache.hit_eq] at held ⊢
  simp only [lookup, LineState.merge]
  cases valid : (c.tags.stateOf a).valid with
  | false => rfl
  | true => simp [held valid]

theorem hit_iff_copy (c : Controller) (a : Address) :
    c.cache.hit a = (c.line a).copy.isSome := by
  simp [line, BackupCache.read_eq, BackupCache.hit]

theorem Levels.copy_isSome (levels : c.Levels) (a : Address) :
    (c.line a).copy.isSome = (c.lookup a).valid := by
  rw [levels.lookup_valid, hit_iff_copy]

theorem Levels.invalid_of_not_hit (levels : c.Levels) {a : Address} (missing : c.cache.find? a = none) :
    c.tags.stateOf a = .invalid := by
  have settled := DuplicateTags.settled_stateOf levels.tags a
  have held := levels.included a
  simp only [BackupCache.hit, missing, Option.isSome_none, Bool.false_eq_true, imp_false,
    Bool.not_eq_true] at held
  rw [← settled]
  simp [LineState.settled, held, LineState.invalid]

theorem Levels.absent_iff (levels : c.Levels) (a : Address) :
    c.line a = .absent ↔ c.cache.find? a = none := by
  rw [line_eq]
  constructor
  · intro gone
    cases found : c.cache.find? a with
    | none => rfl
    | some l => simp [found, lineOf, Holding.absent] at gone
  · intro missing
    rw [missing, levels.invalid_of_not_hit missing]
    rfl

theorem Levels.absent_of_invalid (levels : c.Levels) {a : Address} (invalid : (c.lookup a).valid = false) :
    c.line a = .absent := by
  rw [levels.lookup_valid] at invalid
  rw [levels.absent_iff]
  simpa [BackupCache.hit] using invalid

theorem Levels.dropped (levels : c.Levels) (a : Address) :
    { c with tags := (c.tags.drop a).2, cache := (c.cache.drop a).2 }.Levels := by
  constructor
  · exact levels.tags.drop a
  · exact levels.cache.drop a
  · intro b held
    change ((c.tags.drop a).2.stateOf b).valid at held
    change ((c.cache.drop a).2.find? b).isSome
    rw [DuplicateTags.stateOf_drop levels.tags] at held
    rw [BackupCache.find?_drop]
    split at held
    · cases held
    · rename_i apart
      rw [if_neg apart]
      exact levels.included b held

theorem Levels.line_dropped (levels : c.Levels) (a b : Address) :
    { c with tags := (c.tags.drop a).2, cache := (c.cache.drop a).2 }.line b =
      if b.block = a.block then .absent else c.line b := by
  rw [line_eq]
  change lineOf ((c.tags.drop a).2.stateOf b) ((c.cache.drop a).2.find? b) = _
  rw [DuplicateTags.stateOf_drop levels.tags, BackupCache.find?_drop]
  split
  · rfl
  · rw [line_eq]

theorem dirty_of_sole (a : Address) (sole : (c.line a).sole) : (c.line a).dirty := by
  simp only [line, Bool.and_eq_true] at sole
  exact sole.1

theorem Levels.copy_of_dirty (levels : c.Levels) {a : Address} (dirty : (c.line a).dirty) :
    ∃ data, (c.line a).copy = some data := by
  have valid := LineState.valid_of_isDirty dirty
  rw [← levels.copy_isSome, Option.isSome_iff_exists] at valid
  exact valid

theorem Levels.sole_of_writable (levels : c.Levels) {a : Address} (writable : (c.lookup a).writable) :
    (c.line a).sole := by
  simp only [LineState.writable, Bool.and_eq_true, Bool.not_eq_true'] at writable
  obtain ⟨dirty, unshared⟩ := writable
  have valid := LineState.valid_of_isDirty dirty
  rw [levels.lookup_valid, BackupCache.hit_eq] at valid
  simp only [lookup, LineState.merge, valid, Bool.true_and, Bool.or_eq_false_iff] at unshared
  simp [line, dirty, unshared.2]

theorem Levels.of_eq {d : Controller} (levels : c.Levels) (tags : d.tags = c.tags)
    (cache : d.cache = c.cache) : d.Levels := by
  constructor
  · rw [tags]
    exact levels.tags
  · rw [cache]
    exact levels.cache
  · rw [tags, cache]
    exact levels.included

theorem Good.of_eq {d : Controller} (good : c.Good) (tags : d.tags = c.tags)
    (cache : d.cache = c.cache) (victims : d.victims = c.victims) : d.Good := by
  refine ⟨good.toLevels.of_eq tags cache, ?_⟩
  rw [victims]
  exact good.settled

theorem line_of_eq {d : Controller} (tags : d.tags = c.tags) (cache : d.cache = c.cache)
    (a : Address) : d.line a = c.line a := by
  rw [line_eq, line_eq, tags, cache]

inductive Fate (a : Address) (before after : Holding) (sent : List Request) : Prop
  | kept (same : after = before) (quiet : onBlock a sent = [])
  | clean (gone : after = .absent) (clean : before.dirty = false) (quiet : onBlock a sent = [])
  | dirty (gone : after = .absent) (dirty : before.dirty = true) (slot : Slot) (data : Block)
      (copy : before.copy = some data) (left : onBlock a sent = [.victim slot a.block data])

end Controller
end CacheCoherence
