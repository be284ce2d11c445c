import CacheCoherence.Proofs.Transfers
import Mathlib.Algebra.GroupWithZero.Nat
import Mathlib.Data.List.Induction

namespace CacheCoherence

/-- How events bear on something that may be held: they bring it in, take it away or change it. What is
brought in does not depend on what was there. -/
structure Bearing (ε α : Type) where
  enters : ε → Option α
  clears : ε → Bool
  revise : ε → α → α
  fresh : ∀ e x, enters e = some x → clears e = true ∨ ∀ y, revise e y = x

namespace Bearing

variable {ε α : Type} (b : Bearing ε α)

def after (held : Option α) (e : ε) : Option α :=
  (b.enters e).or (if b.clears e then none else held.map (b.revise e))

def held (log : List ε) : Option α := log.foldl b.after none

theorem held_append (log : List ε) (e : ε) : b.held (log ++ [e]) = b.after (b.held log) e := by
  rw [held, List.foldl_append]
  rfl

theorem after_kept {e : ε} (stays : b.clears e = false) (x : α) : b.after (some x) e = some (b.revise e x) := by
  cases came : b.enters e with
  | none => simp [after, came, stays]
  | some y =>
    rcases b.fresh e y came with cleared | fresh
    · rw [stays] at cleared
      cases cleared
    · rw [after, came, fresh, Option.some_or]

theorem foldl_after_kept {later : List ε} (stays : ∀ z ∈ later, b.clears z = false) (x : α) :
    later.foldl b.after (some x) = some (later.foldl (fun x z => b.revise z x) x) := by
  induction later generalizing x with
  | nil => rfl
  | cons z rest ih =>
    rw [List.foldl_cons, b.after_kept (stays z List.mem_cons_self), List.foldl_cons]
    exact ih (fun y member => stays y (List.mem_cons_of_mem z member)) (b.revise z x)

theorem exists_of_held {log : List ε} {y : α} (found : b.held log = some y) :
    ∃ earlier e later x, log = earlier ++ e :: later ∧ b.enters e = some x ∧
      (∀ z ∈ later, b.clears z = false) ∧ y = later.foldl (fun x z => b.revise z x) x := by
  -- on the last event, which brought the thing in or left it, perhaps revised
  induction log using List.reverseRecOn generalizing y with
  | nil => cases found
  | append_singleton log last ih =>
    rw [held_append, after] at found
    cases came : b.enters last with
    | some x =>
      rw [came, Option.some_or, Option.some.injEq] at found
      exact ⟨log, last, [], x, rfl, came, by simp, found.symm⟩
    | none =>
      rw [came, Option.none_or, Option.ite_none_left_eq_some, Option.map_eq_some_iff] at found
      obtain ⟨stays, w, before, rfl⟩ := found
      obtain ⟨earlier, e, later, x, rfl, entered, since, rfl⟩ := ih before
      refine ⟨earlier, e, later ++ [last], x, by simp, entered, ?_, by simp⟩
      exact List.forall_mem_append.mpr ⟨since, List.forall_mem_singleton.mpr (by simpa using stays)⟩

/-- It came in, was not taken away since, and is as the events since have left it. -/
theorem held_eq_some_iff (log : List ε) (y : α) :
    b.held log = some y ↔
      ∃ earlier e later x, log = earlier ++ e :: later ∧ b.enters e = some x ∧
        (∀ z ∈ later, b.clears z = false) ∧ y = later.foldl (fun x z => b.revise z x) x := by
  constructor
  · exact b.exists_of_held
  · rintro ⟨earlier, e, later, x, rfl, entered, since, rfl⟩
    have here : b.after (b.held earlier) e = some x := by rw [after, entered, Option.some_or]
    rw [held, List.foldl_append, ← held, List.foldl_cons, here]
    exact b.foldl_after_kept since x

end Bearing

namespace VictimBuffer

inductive Call
  | allocate (a : Address) (data : Block) (d : Destination)
  | startTransfers (d : Destination)
  | finish (slot : Slot)
  | release (slot : Slot)

def call (b : VictimBuffer) : Call → VictimBuffer
  | .allocate a data d => (b.allocate a data d).2
  | .startTransfers d => (b.startTransfers d).2
  | .finish slot => (b.finish slot).2
  | .release slot => (b.release slot).2

end VictimBuffer

/-- The index is as many low bits of the block number as the cache has lines for. -/
theorem CacheSize.indexMask_eq (s : CacheSize) :
    ∃ k, 14 ≤ k ∧ s.lines = 2 ^ k ∧ s.indexMask = 2 ^ k - 1 := by
  cases s with
  | mb1 => exact ⟨14, by decide⟩
  | mb2 => exact ⟨15, by decide⟩
  | mb4 => exact ⟨16, by decide⟩
  | mb8 => exact ⟨17, by decide⟩
  | mb16 => exact ⟨18, by decide⟩

namespace BackupCache

theorem indexOf_lt (c : BackupCache) (a : Address) : c.indexOf a < c.size.lines := by
  obtain ⟨k, _, lines, mask⟩ := c.size.indexMask_eq
  rw [indexOf, mask, Nat.and_two_pow_sub_one_eq_mod, lines]
  exact Nat.mod_lt _ (Nat.two_pow_pos k)

theorem tagOf_eq (a : Address) : tagOf a = a.toNat / 2 ^ 20 := by
  have bound : a.toNat < 2 ^ 64 := a.raw.toNat_lt
  have mask : tagMask = 2 ^ 44 - 1 := rfl
  rw [tagOf, mask, Nat.and_two_pow_sub_one_eq_mod, Nat.shiftRight_eq_div_pow]
  exact Nat.mod_eq_of_lt (by simp only [tagShift]; omega)

theorem block_eq_of_index_tag (c : BackupCache) {a b : Address} (index : c.indexOf a = c.indexOf b)
    (tag : tagOf a = tagOf b) : a.block = b.block := by
  obtain ⟨k, wide, _, mask⟩ := c.size.indexMask_eq
  rw [indexOf, indexOf, mask, Nat.and_two_pow_sub_one_eq_mod, Nat.and_two_pow_sub_one_eq_mod] at index
  rw [tagOf_eq, tagOf_eq] at tag
  have low : a.toNat / 64 % 2 ^ 14 = b.toNat / 64 % 2 ^ 14 := by
    have divides : 2 ^ 14 ∣ 2 ^ k := Nat.pow_dvd_pow 2 wide
    have reduced := congrArg (· % 2 ^ 14) index
    simpa only [blockSize, Nat.mod_mod_of_dvd _ divides] using reduced
  rw [Address.block_eq_iff]
  omega

inductive Call
  | insert (a : Address) (data : Block) (s : LineState) (d : Destination)
  | write (a : Address) (bytes : List UInt8)
  | setState (a : Address) (s : LineState)
  | drop (a : Address)
  | victims (x : VictimBuffer.Call)

inductive Event
  | inserted (a : Address) (data : Block) (s : LineState) (outcome : Except Fault (Option Eviction))
  | written (a : Address) (bytes : List UInt8)
  | changed (a : Address) (s : LineState)
  | dropped (a : Address)
  | aside

/-- A backup cache, its victim buffer, and what was done to them, oldest first. -/
structure Record where
  log : List Event
  cache : BackupCache
  victims : VictimBuffer

namespace Record

def call (r : Record) : Call → Record
  | .insert a data s d =>
    let after := r.cache.insert a data s r.victims d
    ⟨r.log ++ [.inserted a data s after.1], after.2.1, after.2.2⟩
  | .write a bytes => { r with log := r.log ++ [.written a bytes], cache := (r.cache.write a bytes).2 }
  | .setState a s => { r with log := r.log ++ [.changed a s], cache := (r.cache.setState a s).2 }
  | .drop a => { r with log := r.log ++ [.dropped a], cache := (r.cache.drop a).2 }
  | .victims x => { r with log := r.log ++ [.aside], victims := r.victims.call x }

def run (size : CacheSize) (calls : List Call) : Record := calls.foldl call ⟨[], .empty size, .empty⟩

end Record

namespace Event

def installsAt (c : BackupCache) (a : Address) : Event → Bool
  | .inserted b _ _ (.ok _) => c.indexOf b == c.indexOf a
  | .inserted _ _ _ (.error _) | .written .. | .changed .. | .dropped _ | .aside => false

def drops (a : Address) : Event → Bool
  | .dropped b => b.block == a.block
  | .changed b s => b.block == a.block && !s.valid
  | .inserted .. | .written .. | .aside => false

def revise (a : Address) : Event → LineState × Block → LineState × Block
  | .written b bytes, (s, data) => if b.block = a.block then (s, data.write b.offset bytes) else (s, data)
  | .changed b s, (old, data) => if b.block = a.block then (s, data) else (old, data)
  | .inserted .., kept | .dropped _, kept | .aside, kept => kept

end Event

/-- At the index of `a` its own block was the last to be installed, it was not dropped since, and `kept` is
what the events since have made of it. -/
def Stands (c : BackupCache) (log : List Event) (a : Address) (kept : LineState × Block) : Prop :=
  ∃ earlier b data s evicted later, log = earlier ++ .inserted b data s (.ok evicted) :: later ∧
    b.block = a.block ∧ (∀ e ∈ later, e.installsAt c a = false ∧ e.drops a = false) ∧
    kept = later.foldl (fun kept e => e.revise a kept) ({ s with valid := true }, data)

/-- What an insertion comes to. Only a dirty line of another block is saved, in a slot that did not drain. -/
inductive Inserts (c : BackupCache) (a : Address) (data : Block) (s : LineState) (v : VictimBuffer)
    (d : Destination) : Except Fault (Option Eviction) × BackupCache × VictimBuffer → Prop
  | saved (old : CacheLine) (slot : Slot) (w : VictimBuffer) (present : c.occupant a = some old)
      (other : old.addr ≠ a.block) (dirty : old.dirty = true)
      (idle : ∀ u, v.get? slot = some u → u.draining = false)
      (taken : w.get? slot = some { addr := old.addr, data := old.data, destination := d })
      (same : ∀ i, i ≠ slot → w.get? i = v.get? i) :
      Inserts c a data s v d (.ok (some ⟨old.addr, old.state, some slot⟩), c.install a data s, w)
  | refused (old : CacheLine) (present : c.occupant a = some old) (other : old.addr ≠ a.block)
      (dirty : old.dirty = true) (full : v.hasRoom = false) :
      Inserts c a data s v d (.error (.exhausted .victimBuffer), c, v)
  | replaced (old : CacheLine) (present : c.occupant a = some old) (other : old.addr ≠ a.block)
      (clean : old.dirty = false) :
      Inserts c a data s v d (.ok (some ⟨old.addr, old.state, none⟩), c.install a data s, v)
  | entered (own : ∀ old, c.occupant a = some old → old.addr = a.block) :
      Inserts c a data s v d (.ok none, c.install a data s, v)

variable {c : BackupCache} {a : Address}

theorem WellPlaced.inserts (placed : c.WellPlaced) (a : Address) (data : Block) (s : LineState)
    (v : VictimBuffer) (d : Destination) : c.Inserts a data s v d (c.insert a data s v d) := by
  cases present : c.occupant a with
  | none =>
    simp only [insert, present]
    exact .entered (by simp [present])
  | some old =>
    by_cases own : old.addr = a.block
    · simp only [insert, present, own, if_true]
      exact .entered (by simp [present, own])
    cases dirty : old.dirty with
    | false =>
      simp only [insert, present, own, dirty, if_false, Bool.false_eq_true]
      exact .replaced old present own dirty
    | true =>
      have aligned := placed.block _ _ present
      rcases v.allocate_cases old.addr old.data d with ⟨full, none⟩ | ⟨_, slot, idle, taken⟩
      · simp only [insert, present, own, dirty, none, if_false, if_true]
        exact .refused old present own dirty full
      · simp only [insert, present, own, dirty, taken, if_false, if_true, aligned]
        refine .saved old slot _ present own dirty idle ?_ ?_
        · rw [VictimBuffer.get?_put, if_pos rfl]
        · intro i apart
          rw [VictimBuffer.get?_put, if_neg (Ne.symm apart)]

/-- An insertion installs the block, or it is refused and leaves the cache alone. -/
theorem insert_installs (c : BackupCache) (a : Address) (data : Block) (s : LineState) (v : VictimBuffer)
    (d : Destination) :
    (∃ evicted, (c.insert a data s v d).1 = .ok evicted ∧ (c.insert a data s v d).2.1 = c.install a data s) ∨
      ∃ fault, (c.insert a data s v d).1 = .error fault ∧ (c.insert a data s v d).2.1 = c := by
  unfold insert
  split
  · exact .inl ⟨_, rfl, rfl⟩
  split
  · exact .inl ⟨_, rfl, rfl⟩
  split
  · split
    · exact .inr ⟨_, rfl, rfl⟩
    · exact .inl ⟨_, rfl, rfl⟩
  · exact .inl ⟨_, rfl, rfl⟩

def kept (c : BackupCache) (a : Address) : Option (LineState × Block) :=
  (c.find? a).map fun l => (l.state, l.data)

def bearing (c : BackupCache) (a : Address) : Bearing Event (LineState × Block) where
  enters
    | .inserted b data s (.ok _) => if b.block = a.block then some ({ s with valid := true }, data) else none
    | .inserted _ _ _ (.error _) | .written .. | .changed .. | .dropped _ | .aside => none
  clears e := e.installsAt c a || e.drops a
  revise := Event.revise a
  fresh e x came := by
    split at came
    · rw [Option.ite_none_right_eq_some] at came
      -- a block that is installed is installed at its own index
      simp [Event.installsAt, indexOf_congr c came.1]
    all_goals cases came

theorem bearing_of_size {d : BackupCache} (same : d.size = c.size) (a : Address) :
    d.bearing a = c.bearing a := by
  have index (b : Address) : d.indexOf b = c.indexOf b := by simp only [indexOf, same]
  simp only [bearing, Event.installsAt, index]

theorem stands_iff (c : BackupCache) (log : List Event) (a : Address) (kept : LineState × Block) :
    (c.bearing a).held log = some kept ↔ c.Stands log a kept := by
  rw [Bearing.held_eq_some_iff]
  simp only [bearing, Bool.or_eq_false_iff]
  constructor
  · rintro ⟨earlier, e, later, x, rfl, entered, since, rfl⟩
    split at entered
    · rw [Option.ite_none_right_eq_some, Option.some.injEq] at entered
      obtain ⟨own, rfl⟩ := entered
      exact ⟨earlier, _, _, _, _, later, rfl, own, since, rfl⟩
    all_goals cases entered
  · rintro ⟨earlier, b, data, s, evicted, later, rfl, own, since, rfl⟩
    exact ⟨earlier, _, later, _, rfl, if_pos own, since, rfl⟩

theorem kept_install (c : BackupCache) (a b : Address) (data : Block) (s : LineState) :
    (c.install b data s).kept a =
      if b.block = a.block then some ({ s with valid := true }, data)
      else if c.indexOf b = c.indexOf a then none else c.kept a := by
  simp only [kept, find?_install, eq_comm (a := a.block), eq_comm (a := c.indexOf a)]
  split
  · rfl
  · split
    · rfl
    · rfl

theorem kept_write (c : BackupCache) (a b : Address) (bytes : List UInt8) :
    (c.write b bytes).2.kept a = (c.kept a).map (Event.revise a (.written b bytes)) := by
  simp only [kept, find?_write, eq_comm (a := a.block)]
  split
  · rename_i own
    rw [find?_congr c own]
    cases c.find? a with
    | none => rfl
    | some l => simp [Event.revise, own, CacheLine.state]
  · rename_i other
    cases c.find? a with
    | none => rfl
    | some l => simp [Event.revise, other]

theorem kept_setState (c : BackupCache) (a b : Address) (s : LineState) :
    (c.setState b s).2.kept a =
      if Event.drops a (.changed b s) then none else (c.kept a).map (Event.revise a (.changed b s)) := by
  simp only [kept, find?_setState, eq_comm (a := a.block)]
  by_cases own : b.block = a.block
  · rw [if_pos own, find?_congr c own]
    obtain ⟨valid, dirty, shared⟩ := s
    cases valid with
    | false => simp [Event.drops, own]
    | true =>
      cases c.find? a with
      | none => simp [Event.drops]
      | some l => simp [Event.drops, Event.revise, own, CacheLine.state]
  · rw [if_neg own]
    cases c.find? a with
    | none => simp
    | some l => simp [Event.drops, Event.revise, own]

theorem kept_drop (c : BackupCache) (a b : Address) :
    (c.drop b).2.kept a = if b.block = a.block then none else c.kept a := by
  simp only [kept, find?_drop, eq_comm (a := a.block)]
  split
  · rfl
  · rfl

namespace Record

variable {r : Record}

theorem kept_call (r : Record) (x : Call) (a : Address) :
    ∃ e, (r.call x).log = r.log ++ [e] ∧
      (r.call x).cache.kept a = (r.cache.bearing a).after (r.cache.kept a) e := by
  cases x with
  | insert b data s d =>
    refine ⟨_, rfl, ?_⟩
    simp only [call]
    rcases r.cache.insert_installs b data s r.victims d with ⟨evicted, done, cache⟩ | ⟨fault, refused, cache⟩
    · rw [done, cache, kept_install]
      by_cases own : b.block = a.block
      · simp [Bearing.after, bearing, own]
      · cases r.cache.kept a <;> simp [Bearing.after, bearing, own, Event.installsAt, Event.drops, Event.revise]
    · rw [refused, cache]
      cases r.cache.kept a <;> simp [Bearing.after, bearing, Event.installsAt, Event.drops, Event.revise]
  | write b bytes =>
    refine ⟨_, rfl, ?_⟩
    simp [call, kept_write, Bearing.after, bearing, Event.installsAt, Event.drops]
  | setState b s =>
    refine ⟨_, rfl, ?_⟩
    simp [call, kept_setState, Bearing.after, bearing, Event.installsAt]
  | drop b =>
    refine ⟨_, rfl, ?_⟩
    cases kept : r.cache.kept a <;>
      simp [call, kept_drop, kept, Bearing.after, bearing, Event.installsAt, Event.drops, Event.revise]
  | victims x =>
    refine ⟨_, rfl, ?_⟩
    cases kept : r.cache.kept a <;>
      simp [call, kept, Bearing.after, bearing, Event.installsAt, Event.drops, Event.revise]

theorem size_call (r : Record) (x : Call) : (r.call x).cache.size = r.cache.size := by
  cases x with
  | insert b data s d =>
    rcases r.cache.insert_installs b data s r.victims d with ⟨_, _, cache⟩ | ⟨_, _, cache⟩
    · simp only [call, cache, install]
    · simp only [call, cache]
  | write b bytes =>
    simp only [call, write_eq]
    split <;> rfl
  | setState b s =>
    simp only [call, setState_eq]
    split
    · rfl
    · split <;> rfl
  | drop b =>
    simp only [call, drop_eq]
    split <;> rfl
  | victims x => rfl

theorem placed_call (placed : r.cache.WellPlaced) (x : Call) : (r.call x).cache.WellPlaced := by
  cases x with
  | insert b data s d =>
    rcases r.cache.insert_installs b data s r.victims d with ⟨_, _, cache⟩ | ⟨_, _, cache⟩
    · simp only [call, cache]
      exact placed.install b data s
    · simp only [call, cache]
      exact placed
  | write b bytes => exact placed.write b bytes
  | setState b s => exact placed.setState b s
  | drop b => exact placed.drop b
  | victims x => exact placed

theorem run_append (size : CacheSize) (calls : List Call) (x : Call) :
    run size (calls ++ [x]) = (run size calls).call x := List.foldl_append

theorem size_run (size : CacheSize) (calls : List Call) : (run size calls).cache.size = size := by
  induction calls using List.reverseRecOn with
  | nil => rfl
  | append_singleton earlier x ih => rw [run_append, size_call, ih]

theorem placed_run (size : CacheSize) (calls : List Call) : (run size calls).cache.WellPlaced := by
  induction calls using List.reverseRecOn with
  | nil => exact wellPlaced_empty size
  | append_singleton earlier x ih =>
    rw [run_append]
    exact placed_call ih x

theorem kept_run (size : CacheSize) (calls : List Call) (a : Address) :
    (run size calls).cache.kept a = ((run size calls).cache.bearing a).held (run size calls).log := by
  induction calls using List.reverseRecOn with
  | nil => simp [run, kept, find?, occupant, empty, Bearing.held]
  | append_singleton earlier x ih =>
    obtain ⟨e, log, kept⟩ := kept_call (run size earlier) x a
    rw [run_append, bearing_of_size (size_call _ x), log, kept, ih, Bearing.held_append]

end Record

/-- A map from indices to blocks, without losses: where a block stands is found again by its address, what
stands there is what was installed last, and dirty lines are saved before others take their place. -/
structure Record.DirectMapped (r : Record) : Prop where
  inside : ∀ a, r.cache.indexOf a < r.cache.size.lines
  exact : ∀ a b, r.cache.indexOf a = r.cache.indexOf b → tagOf a = tagOf b → a.block = b.block
  hit : ∀ a, r.cache.hit a ↔ ∃ kept, r.cache.Stands r.log a kept
  held : ∀ a kept, r.cache.Stands r.log a kept →
    r.cache.stateOf a = kept.1 ∧ r.cache.read a = some kept.2
  insert : ∀ a data s d, r.cache.Inserts a data s r.victims d (r.cache.insert a data s r.victims d)

/-- So it is after any calls to a cache of any size and to its victim buffer. -/
theorem directMapped_run (size : CacheSize) (calls : List Call) :
    (Record.run size calls).cache.size = size ∧ (Record.run size calls).DirectMapped := by
  refine ⟨Record.size_run size calls, ?_⟩
  have stands (a : Address) (kept : LineState × Block) :
      (Record.run size calls).cache.Stands (Record.run size calls).log a kept ↔
        (Record.run size calls).cache.kept a = some kept := by
    rw [← stands_iff, ← Record.kept_run]
  constructor
  · exact indexOf_lt _
  · intro a b
    exact block_eq_of_index_tag _
  · intro a
    simp only [stands, ← Option.isSome_iff_exists]
    simp [hit, kept]
  · intro a held found
    rw [stands, kept, Option.map_eq_some_iff] at found
    obtain ⟨l, found, rfl⟩ := found
    simp [stateOf, read, found]
  · intro a data s d
    exact (Record.placed_run size calls).inserts a data s _ d

end BackupCache
end CacheCoherence
