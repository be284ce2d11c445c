import CacheCoherence.Controller.Eviction
import CacheCoherence.Proofs.Backing
import Mathlib.Logic.Basic

namespace CacheCoherence

theorem Slots.select_nodup {α : Type} (s : Slots α) (p : α → Bool) : (s.select p).Nodup :=
  (List.nodup_finRange 8).filter _

theorem Slots.mem_select {α : Type} (s : Slots α) (p : α → Bool) (i : Slot) :
    i ∈ s.select p ↔ (s.get? i).any p := by
  simp [select]

theorem Slots.filterMap_single {α : Type} (slot : Slot) (x : α) :
    ((List.finRange 8).filterMap fun i => if i = slot then some x else none) = [x] := by
  have alone : ∀ slot : Slot, (List.finRange 8).filter (· == slot) = [slot] := by decide
  calc
    _ = ((List.finRange 8).filter (· == slot)).filterMap fun _ => some x := by
      rw [List.filterMap_filter]
      simp only [beq_iff_eq]
    _ = [x] := by rw [alone]; rfl

def Victim.request (v : Victim) (slot : Slot) : Request := .victim slot v.addr v.data

namespace VictimBuffer

def Settled (b : VictimBuffer) : Prop :=
  ∀ slot v, b.get? slot = some v → v.phase ≠ .waiting

def leaving (b : VictimBuffer) : List Request :=
  (List.finRange 8).filterMap fun i =>
    ((b.get? i).filter (·.waitsFor .memory)).map (·.request i)

def returns (b : VictimBuffer) (a : Address) : Bool :=
  (List.finRange 8).any fun i =>
    (b.get? i).any fun v => v.waitsFor .cache && v.addr.block == a.block

theorem settled_empty : empty.Settled := by
  intro slot v present
  simp [empty, get?] at present

variable {b : VictimBuffer}

theorem get?_put (slots : Slots Victim) (i j : Slot) (v : Victim) :
    (VictimBuffer.mk (slots.put i v)).get? j =
      if i = j then some v else (VictimBuffer.mk slots).get? j :=
  Slots.get?_put slots i j v

theorem cases_of_put {slots : Slots Victim} {i j : Slot} {v w : Victim}
    (present : (VictimBuffer.mk (slots.put i v)).get? j = some w) :
    j = i ∧ w = v ∨ (VictimBuffer.mk slots).get? j = some w := by
  rw [get?_put] at present
  split at present
  · rename_i here
    cases present
    exact .inl ⟨here.symm, rfl⟩
  · exact .inr present

theorem Settled.not_waits (settled : b.Settled) {slot : Slot} {v : Victim}
    (present : b.get? slot = some v) (d : Destination) : v.waitsFor d = false := by
  have resting := settled slot v present
  simp [Victim.waitsFor, resting]

theorem Settled.leaving_eq (settled : b.Settled) : b.leaving = [] := by
  rw [leaving, List.filterMap_eq_nil_iff]
  intro i _
  cases present : b.get? i with
  | none => rfl
  | some v => simp [Option.filter, settled.not_waits present]

theorem Settled.returns_eq (settled : b.Settled) (a : Address) : b.returns a = false := by
  rw [returns, List.any_eq_false]
  intro i _
  cases present : b.get? i with
  | none => simp
  | some v => simp [settled.not_waits present]

theorem hasRoom_eq_false_iff (b : VictimBuffer) :
    b.hasRoom = false ↔ ∀ i, ∃ v, b.get? i = some v ∧ v.draining := by
  simp only [hasRoom, Option.isSome_eq_false_iff, Option.isNone_iff_eq_none, Slots.first?_eq_none,
    Bool.not_eq_false', Option.any_eq_true, get?]

theorem free?_eq_none_iff (b : VictimBuffer) : b.slots.free? = none ↔ ∀ i, (b.get? i).isSome := by
  simp only [Slots.free?, Slots.first?_eq_none, get?, Option.isNone_eq_false_iff]

theorem target_eq_none_iff (b : VictimBuffer) : b.target = none ↔ b.hasRoom = false := by
  rw [hasRoom_eq_false_iff]
  unfold target
  split
  · rename_i slot found
    have vacant := Slots.free?_some found
    simp only [reduceCtorEq, false_iff, not_forall]
    exact ⟨slot, by simp [get?, vacant]⟩
  · rename_i full
    have occupied := (free?_eq_none_iff b).mp full
    rw [Option.map_eq_none_iff, Slots.find?_eq_none]
    constructor
    · intro drains i
      obtain ⟨v, present⟩ := Option.isSome_iff_exists.mp (occupied i)
      exact ⟨v, present, by simpa using drains i v present⟩
    · intro drains i v present
      obtain ⟨w, found, busy⟩ := drains i
      rw [get?, present] at found
      cases found
      simp [busy]

theorem not_draining_of_target {slot : Slot} (found : b.target = some slot) :
    ∀ v, b.get? slot = some v → v.draining = false := by
  intro v present
  unfold target at found
  split at found
  · rename_i vacant
    cases found
    have empty := Slots.free?_some vacant
    rw [get?, empty] at present
    cases present
  · rw [Option.map_eq_some_iff] at found
    obtain ⟨⟨i, w⟩, found, rfl⟩ := found
    have holds := Slots.find?_some found
    rw [get?, holds.1] at present
    cases present
    simpa using holds.2

theorem allocate_cases (b : VictimBuffer) (a : Address) (data : Block) (d : Destination) :
    (b.hasRoom = false ∧ b.allocate a data d = (.error (.exhausted .victimBuffer), b)) ∨
    (b.hasRoom = true ∧ ∃ slot, (∀ v, b.get? slot = some v → v.draining = false) ∧
      b.allocate a data d =
        (.ok slot, ⟨b.slots.put slot { addr := a.block, data, destination := d }⟩)) := by
  cases found : b.target with
  | none =>
    refine .inl ⟨(target_eq_none_iff b).mp found, ?_⟩
    simp only [allocate, found]
  | some slot =>
    refine .inr ⟨?_, slot, not_draining_of_target found, ?_⟩
    · cases room : b.hasRoom with
      | true => rfl
      | false =>
        rw [(target_eq_none_iff b).mpr room] at found
        cases found
    · simp only [allocate, found]

theorem not_waits_of_not_draining {v : Victim} (idle : v.draining = false) (d : Destination) :
    v.waitsFor d = false := by
  have finished : v.phase = .finished := by simpa [Victim.draining] using idle
  simp [Victim.waitsFor, finished]

theorem leaving_put_memory (settled : b.Settled) (slot : Slot) (a : Address) (data : Block) :
    (VictimBuffer.mk (b.slots.put slot { addr := a, data, destination := .memory })).leaving =
      [.victim slot a data] := by
  have cell (i : Slot) :
      (((VictimBuffer.mk (b.slots.put slot { addr := a, data, destination := .memory })).get? i).filter
        (·.waitsFor .memory)).map (·.request i) =
      if i = slot then some (.victim slot a data) else none := by
    rw [get?_put]
    by_cases here : slot = i
    · subst here
      simp [Option.filter, Victim.waitsFor, Victim.request]
    · rw [if_neg here, if_neg (Ne.symm here)]
      cases present : (VictimBuffer.mk b.slots).get? i with
      | none => rfl
      | some v => simp [Option.filter, settled.not_waits present]
  simp only [leaving, cell]
  exact Slots.filterMap_single slot _

theorem leaving_put_other {slot : Slot} {v : Victim} (idle : v.waitsFor .memory = false)
    (free : ∀ v, b.get? slot = some v → v.draining = false) :
    (VictimBuffer.mk (b.slots.put slot v)).leaving = b.leaving := by
  rw [leaving, leaving]
  congr 1
  funext i
  rw [get?_put]
  by_cases here : slot = i
  · subst here
    rw [if_pos rfl]
    cases present : b.get? slot with
    | none => simp [Option.filter, idle]
    | some w => simp [Option.filter, idle, not_waits_of_not_draining (free w present)]
  · rw [if_neg here]

theorem returns_put {slot : Slot} {v : Victim} (free : ∀ v, b.get? slot = some v → v.draining = false)
    (a : Address) :
    (VictimBuffer.mk (b.slots.put slot v)).returns a =
      ((v.waitsFor .cache && v.addr.block == a.block) || b.returns a) := by
  have old : ((b.get? slot).any fun v => v.waitsFor .cache && v.addr.block == a.block) = false := by
    cases present : b.get? slot with
    | none => rfl
    | some w => simp [not_waits_of_not_draining (free w present)]
  rw [Bool.eq_iff_iff]
  simp only [returns, List.any_eq_true, List.mem_finRange, true_and, Bool.or_eq_true, get?_put]
  constructor
  · rintro ⟨i, holds⟩
    by_cases here : slot = i
    · rw [if_pos here] at holds
      exact .inl holds
    · rw [if_neg here] at holds
      exact .inr ⟨i, holds⟩
  · rintro (holds | ⟨i, holds⟩)
    · exact ⟨slot, by rw [if_pos rfl]; exact holds⟩
    · by_cases here : slot = i
      · subst here
        rw [old] at holds
        cases holds
      · exact ⟨i, by rw [if_neg here]; exact holds⟩

theorem get?_finish (b : VictimBuffer) (slot i : Slot) :
    (b.finish slot).2.get? i =
      if slot = i then (b.get? i).map fun v => { v with phase := .finished } else b.get? i := by
  unfold finish
  split
  · rename_i missing
    split
    · rename_i same
      rw [← same, missing]
      rfl
    · rfl
  · rename_i v present
    rw [get?_put]
    split
    · rename_i same
      rw [← same, present]
      rfl
    · rfl

theorem get?_release (b : VictimBuffer) (slot i : Slot) :
    (b.release slot).2.get? i = if slot = i then none else b.get? i := by
  unfold release
  split
  · rename_i vacant
    split
    · rename_i same
      rw [← same, vacant]
    · rfl
  · exact Slots.get?_clear b.slots slot i

theorem get?_of_release {b : VictimBuffer} {slot i : Slot} {v : Victim}
    (found : (b.release slot).2.get? i = some v) : b.get? i = some v ∧ i ≠ slot := by
  rw [get?_release, Option.ite_none_left_eq_some] at found
  exact ⟨found.2, Ne.symm found.1⟩

theorem get?_startTransfers (b : VictimBuffer) (d : Destination) (i : Slot) :
    (b.startTransfers d).2.get? i =
      (b.get? i).map fun v => if v.waitsFor d then { v with phase := .inTransfer } else v :=
  Slots.get?_map _ _ _

theorem mem_startTransfers (b : VictimBuffer) (d : Destination) (i : Slot) :
    i ∈ (b.startTransfers d).1 ↔ ∃ v, b.get? i = some v ∧ v.waitsFor d := by
  simp only [startTransfers, Slots.mem_select, Option.any_eq_true, get?]

theorem ext_get? {b d : VictimBuffer} (same : ∀ i, b.get? i = d.get? i) : b = d := by
  cases b
  cases d
  congr 1
  exact Slots.ext_get? same

theorem startTransfers_idle {d : Destination}
    (idle : ∀ i v, b.get? i = some v → v.waitsFor d = false) : b.startTransfers d = ([], b) := by
  apply Prod.ext
  · rw [List.eq_nil_iff_forall_not_mem]
    intro i member
    obtain ⟨v, present, waits⟩ := (mem_startTransfers b d i).mp member
    rw [idle i v present] at waits
    cases waits
  · apply ext_get?
    intro i
    rw [get?_startTransfers]
    cases present : b.get? i with
    | none => rfl
    | some v => simp [idle i v present]

theorem Settled.startTransfers (settled : b.Settled) (d : Destination) :
    b.startTransfers d = ([], b) :=
  startTransfers_idle fun _ _ present => settled.not_waits present d

end VictimBuffer

theorem BackupCache.read_eq (c : BackupCache) (a : Address) :
    c.read a = (c.find? a).map (·.data) := rfl

theorem Block.write_all {a : Address} (aligned : a.block = a) (old new : Block) :
    old.write a.offset new.toList = new := by
  have start : a.offset = 0 := by
    have place := congrArg Address.toNat aligned
    rw [Address.toNat_block] at place
    simp only [Address.offset, blockSize]
    omega
  apply Vector.ext
  intro i bound
  simp [getElem_write, start, bound]

namespace Controller

open VictimBuffer (not_waits_of_not_draining)

variable {c : Controller}

/-- What a run of transfers may change: lines are kept, and only victims are sent. A slot that was
picked and still drains has been sent. -/
structure Drains (c : Controller) (picked : List Slot) (d : Controller) (sent : List Request) :
    Prop where
  frame : d = { c with cache := d.cache, victims := d.victims, outbound := c.outbound ++ sent }
  sends : ∀ r ∈ sent, ∃ (v : Victim) (slot : Slot), r = v.request slot
  placed : c.cache.WellPlaced → d.cache.WellPlaced
  hit : ∀ a, d.cache.hit a = c.cache.hit a
  kept : ∀ i v, d.victims.get? i = some v → v.draining →
    c.victims.get? i = some v ∧ (i ∈ picked → v.request i ∈ sent)

theorem Drains.refl (c : Controller) : Drains c [] c [] := by
  constructor
  · simp
  · simp
  · exact id
  · intro a
    rfl
  · intro i v present _
    exact ⟨present, by simp⟩

theorem Drains.append {c d e : Controller} {first rest : List Slot} {sent more : List Request}
    (head : Drains c first d sent) (tail : Drains d rest e more) :
    Drains c (first ++ rest) e (sent ++ more) := by
  constructor
  · rw [tail.frame, head.frame]
    simp
  · intro r member
    rcases List.mem_append.mp member with early | late
    · exact head.sends r early
    · exact tail.sends r late
  · exact fun placed => tail.placed (head.placed placed)
  · intro a
    rw [tail.hit, head.hit]
  · intro i v present draining
    obtain ⟨between, late⟩ := tail.kept i v present draining
    obtain ⟨before, early⟩ := head.kept i v between draining
    refine ⟨before, fun member => ?_⟩
    rcases List.mem_append.mp member with here | there
    · exact List.mem_append_left _ (early here)
    · exact List.mem_append_right _ (late there)

theorem drains_sendVictim (c : Controller) (slot : Slot) :
    Drains c [slot] (c.sendVictim slot) (((c.victims.get? slot).map (·.request slot)).toList) := by
  unfold sendVictim
  cases present : c.victims.get? slot with
  | none =>
    constructor
    · simp
    · simp
    · exact id
    · intro a
      rfl
    · intro i v found _
      refine ⟨found, fun member => ?_⟩
      rw [List.mem_singleton.mp member, present] at found
      cases found
  | some v =>
    constructor
    · rfl
    · intro r member
      exact ⟨v, slot, by simpa using member⟩
    · exact id
    · intro a
      rfl
    · intro i w found _
      refine ⟨found, fun member => ?_⟩
      have here := List.mem_singleton.mp member
      change c.victims.get? i = some w at found
      rw [here, present] at found
      cases found
      simp [here]

theorem find?_restore (c : BackupCache) (a b : Address) (bytes : List UInt8) :
    ((c.write a bytes).2.setState a
      { (c.write a bytes).2.stateOf a with dirty := true }).2.find? b =
      if b.block = a.block then
        (c.find? a).map fun l => { l with data := l.data.write a.offset bytes, dirty := true }
      else c.find? b := by
  rw [BackupCache.find?_setState, BackupCache.find?_write c a b]
  have after := BackupCache.find?_write c a a bytes
  rw [if_pos rfl] at after
  cases found : c.find? a with
  | none =>
    rw [found] at after
    rw [after, BackupCache.stateOf_eq, after]
    split <;> simp [LineState.invalid]
  | some l =>
    rw [found] at after
    rw [after, BackupCache.stateOf_eq, after]
    split <;> simp [CacheLine.state]

theorem drains_drainToCache (c : Controller) (slot : Slot) :
    ∃ sent, Drains c [slot] (c.drainToCache slot) sent := by
  unfold drainToCache
  cases present : c.victims.get? slot with
  | none =>
    refine ⟨[], ?_⟩
    have idle := drains_sendVictim c slot
    simpa only [sendVictim, present, Option.map_none, Option.toList_none] using idle
  | some v =>
    simp only
    split
    · rename_i cache written
      have shape : cache = (c.cache.write v.addr v.data.toList).2 := by rw [written]
      refine ⟨[], ?_⟩
      constructor
      · simp
      · simp
      · intro placed
        rw [shape]
        exact (placed.write _ _).setState _ _
      · intro a
        simp only [BackupCache.hit, shape, find?_restore]
        split
        · rename_i same
          rw [Option.isSome_map, BackupCache.find?_congr c.cache same]
        · rfl
      · intro i w found draining
        simp only [VictimBuffer.get?_finish] at found
        split at found
        · rw [Option.map_eq_some_iff] at found
          obtain ⟨old, _, rfl⟩ := found
          simp [Victim.draining] at draining
        · rename_i apart
          exact ⟨found, fun member => absurd (List.mem_singleton.mp member).symm apart⟩
    · have out := drains_sendVictim c slot
      simp only [sendVictim, present] at out
      exact ⟨_, out⟩

theorem drains_foldl (f : Controller → Slot → Controller)
    (one : ∀ c slot, ∃ sent, Drains c [slot] (f c slot) sent) (picked : List Slot) (c : Controller) :
    ∃ sent, Drains c picked (picked.foldl f c) sent := by
  induction picked generalizing c with
  | nil => exact ⟨[], .refl c⟩
  | cons slot rest ih =>
    obtain ⟨sent, head⟩ := one c slot
    obtain ⟨more, tail⟩ := ih (f c slot)
    exact ⟨sent ++ more, head.append tail⟩

structure Transfers (c d : Controller) (sent : List Request) : Prop where
  frame : d = { c with cache := d.cache, victims := d.victims, outbound := c.outbound ++ sent }
  sends : ∀ r ∈ sent, ∃ (v : Victim) (slot : Slot), r = v.request slot
  placed : c.cache.WellPlaced → d.cache.WellPlaced
  hit : ∀ a, d.cache.hit a = c.cache.hit a
  carried : ∀ i v, d.victims.get? i = some v → v.draining →
    c.victims.get? i = some v ∨ v.request i ∈ sent
  waiting : ∀ i v, d.victims.get? i = some v → v.phase = .waiting →
    c.victims.get? i = some v ∧ v.destination = .probe

theorem transfers (c : Controller) : ∃ sent, Transfers c c.transferVictims sent := by
  let start : Controller := { c with victims := (c.victims.startTransfers .cache).2 }
  let down := (c.victims.startTransfers .cache).1
  obtain ⟨sent, first⟩ := drains_foldl drainToCache drains_drainToCache down start
  let middle := down.foldl drainToCache start
  let away : Controller := { middle with victims := (middle.victims.startTransfers .memory).2 }
  let out := (middle.victims.startTransfers .memory).1
  obtain ⟨more, last⟩ := drains_foldl sendVictim (fun c i => ⟨_, drains_sendVictim c i⟩) out away
  have whole : c.transferVictims = out.foldl sendVictim away := rfl
  rw [whole]
  -- a slot that drains at the end was picked by one of the two passes or never waited
  have origin (i : Slot) (v : Victim) (present : (out.foldl sendVictim away).victims.get? i = some v)
      (draining : v.draining) :
      (v.phase ≠ .waiting ∧ v.request i ∈ sent ++ more) ∨
        (c.victims.get? i = some v ∧ v.waitsFor .cache = false ∧ v.waitsFor .memory = false) := by
    obtain ⟨at_away, late⟩ := last.kept i v present draining
    change (middle.victims.startTransfers .memory).2.get? i = some v at at_away
    rw [VictimBuffer.get?_startTransfers, Option.map_eq_some_iff] at at_away
    obtain ⟨w, at_middle, same⟩ := at_away
    by_cases leaves : w.waitsFor .memory
    · have picked : i ∈ out := (VictimBuffer.mem_startTransfers _ _ _).mpr ⟨w, at_middle, leaves⟩
      rw [if_pos leaves] at same
      refine .inl ⟨?_, List.mem_append_right _ (late picked)⟩
      rw [← same]
      simp
    · rw [if_neg leaves] at same
      subst same
      obtain ⟨at_start, early⟩ := first.kept i w at_middle draining
      change (c.victims.startTransfers .cache).2.get? i = some w at at_start
      rw [VictimBuffer.get?_startTransfers, Option.map_eq_some_iff] at at_start
      obtain ⟨u, at_c, same⟩ := at_start
      by_cases returns : u.waitsFor .cache
      · have picked : i ∈ down := (VictimBuffer.mem_startTransfers _ _ _).mpr ⟨u, at_c, returns⟩
        rw [if_pos returns] at same
        refine .inl ⟨?_, List.mem_append_left _ (early picked)⟩
        rw [← same]
        simp
      · rw [if_neg returns] at same
        subst same
        exact .inr ⟨at_c, by simpa using returns, by simpa using leaves⟩
  refine ⟨sent ++ more, ?_⟩
  constructor
  · rw [last.frame]
    simp only [away]
    rw [show middle = _ from first.frame]
    simp [start]
  · intro r member
    rcases List.mem_append.mp member with early | late
    · exact first.sends r early
    · exact last.sends r late
  · intro placed
    exact last.placed (first.placed placed)
  · intro a
    exact (last.hit a).trans (first.hit a)
  · intro i v present draining
    rcases origin i v present draining with ⟨_, member⟩ | ⟨before, _⟩
    · exact .inr member
    · exact .inl before
  · intro i v present waiting
    have draining : v.draining := by simp [Victim.draining, waiting]
    rcases origin i v present draining with ⟨started, _⟩ | ⟨before, stays, rests⟩
    · exact absurd waiting started
    · refine ⟨before, ?_⟩
      simp only [Victim.waitsFor, waiting, beq_self_eq_true, Bool.true_and, beq_eq_false_iff_ne,
        ne_eq] at stays rests
      cases bound : v.destination with
      | cache => exact absurd bound stays
      | memory => exact absurd bound rests
      | probe => rfl

theorem transferVictims_settled (settled : c.victims.Settled) : c.transferVictims = c := by
  simp [transferVictims, settled.startTransfers]

theorem foldl_sendVictim (picked : List Slot) (c : Controller) :
    picked.foldl sendVictim c =
      { c with
        outbound := c.outbound ++ picked.filterMap fun i => (c.victims.get? i).map (·.request i) } := by
  induction picked generalizing c with
  | nil => simp
  | cons slot rest ih =>
    rw [List.foldl_cons, ih]
    cases present : c.victims.get? slot with
    | none => simp [sendVictim, present]
    | some v => simp [sendVictim, present, send, Victim.request]

/-- A block that the cache still holds comes back to it: its line is dirty again, with the same bytes. -/
theorem drainToCache_held {c : Controller} {slot : Slot} {v : Victim}
    (present : c.victims.get? slot = some v) (aligned : v.addr.block = v.addr)
    (bytes : c.cache.read v.addr = some v.data) :
    (c.drainToCache slot).outbound = c.outbound ∧
    (∀ i, (c.drainToCache slot).victims.get? i =
      if slot = i then (c.victims.get? i).map fun v => { v with phase := .finished }
      else c.victims.get? i) ∧
    ∀ b, (c.drainToCache slot).cache.find? b =
      (c.cache.find? b).map fun l => { l with dirty := l.dirty || v.addr.block == b.block } := by
  have written : (c.cache.write v.addr v.data.toList).1 = true := by
    rw [BackupCache.write_fst, BackupCache.hit]
    rw [BackupCache.read_eq] at bytes
    cases found : c.cache.find? v.addr with
    | none => simp [found] at bytes
    | some l => rfl
  have one : c.drainToCache slot =
      { c with
        cache := ((c.cache.write v.addr v.data.toList).2.setState v.addr
          { (c.cache.write v.addr v.data.toList).2.stateOf v.addr with dirty := true }).2
        victims := (c.victims.finish slot).2 } := by
    simp only [drainToCache, present]
    split
    · rename_i cache shape
      rw [show cache = (c.cache.write v.addr v.data.toList).2 by rw [shape]]
    · rename_i cache shape
      rw [shape] at written
      cases written
  rw [one]
  refine ⟨rfl, VictimBuffer.get?_finish c.victims slot, fun b => ?_⟩
  simp only
  rw [find?_restore]
  by_cases same : b.block = v.addr.block
  · rw [if_pos same, ← BackupCache.find?_congr c.cache same]
    rw [BackupCache.read_eq, ← BackupCache.find?_congr c.cache same] at bytes
    cases found : c.cache.find? b with
    | none => rfl
    | some l =>
      have data : l.data = v.data := by simpa [found] using bytes
      simp [Block.write_all aligned, data, same]
  · have apart : (v.addr.block == b.block) = false := by simpa using Ne.symm same
    rw [if_neg same]
    simp only [apart, Bool.or_false]
    exact Option.map_id'.symm

/-- Blocks that the cache still holds come back to it: their lines are dirty again, with the same
bytes. -/
theorem foldl_drainToCache (picked : List Slot) (nodup : picked.Nodup) (c : Controller)
    (held : ∀ i ∈ picked, ∀ v, c.victims.get? i = some v →
      v.addr.block = v.addr ∧ c.cache.read v.addr = some v.data) :
    (picked.foldl drainToCache c).outbound = c.outbound ∧
    (∀ i, (picked.foldl drainToCache c).victims.get? i =
      if picked.contains i then (c.victims.get? i).map fun v => { v with phase := .finished }
      else c.victims.get? i) ∧
    ∀ b, (picked.foldl drainToCache c).cache.find? b = (c.cache.find? b).map fun l =>
      { l with
        dirty := l.dirty ||
          picked.any fun i => (c.victims.get? i).any fun v => v.addr.block == b.block } := by
  induction picked generalizing c with
  | nil => simp
  | cons slot rest ih =>
    obtain ⟨fresh, nodup⟩ := List.nodup_cons.mp nodup
    cases present : c.victims.get? slot with
    | none =>
      have idle : c.drainToCache slot = c := by simp only [drainToCache, present]
      obtain ⟨out, cells, lines⟩ := ih nodup c fun i member => held i (List.mem_cons_of_mem _ member)
      rw [List.foldl_cons, idle]
      refine ⟨out, ?_, ?_⟩
      · intro i
        rw [cells i]
        by_cases here : i = slot
        · subst here
          simp [present]
        · simp [here]
      · intro b
        rw [lines b]
        simp [present]
    | some v =>
      obtain ⟨aligned, bytes⟩ := held slot List.mem_cons_self v present
      obtain ⟨outbound, cell, line⟩ := drainToCache_held present aligned bytes
      have other (i : Slot) (member : i ∈ rest) :
          (c.drainToCache slot).victims.get? i = c.victims.get? i := by
        rw [cell, if_neg]
        rintro rfl
        exact fresh member
      obtain ⟨out, cells, lines⟩ := ih nodup (c.drainToCache slot) (by
        intro i member w found
        rw [other i member] at found
        obtain ⟨straight, data⟩ := held i (List.mem_cons_of_mem _ member) w found
        refine ⟨straight, ?_⟩
        rw [BackupCache.read_eq, line, Option.map_map]
        exact data)
      rw [List.foldl_cons]
      refine ⟨?_, ?_, ?_⟩
      · rw [out, outbound]
      · intro i
        rw [cells i, cell i]
        by_cases here : slot = i
        · subst here
          simp [fresh]
        · simp [here, Ne.symm here]
      · intro b
        have later : (rest.any fun i =>
            ((c.drainToCache slot).victims.get? i).any fun v => v.addr.block == b.block) =
            rest.any fun i => (c.victims.get? i).any fun v => v.addr.block == b.block := by
          rw [Bool.eq_iff_iff]
          simp only [List.any_eq_true]
          constructor
          · rintro ⟨i, member, holds⟩
            exact ⟨i, member, by rwa [other i member] at holds⟩
          · rintro ⟨i, member, holds⟩
            exact ⟨i, member, by rwa [other i member]⟩
        rw [lines b, line b, later, Option.map_map]
        simp [Function.comp_def, present, Bool.or_assoc]

/-- The first half of a transfer: what waits for the backup cache goes there. -/
def broughtBack (c : Controller) : Controller :=
  (c.victims.startTransfers .cache).1.foldl drainToCache
    { c with victims := (c.victims.startTransfers .cache).2 }

theorem transferVictims_eq (c : Controller) :
    c.transferVictims = (c.broughtBack.victims.startTransfers .memory).1.foldl sendVictim
      { c.broughtBack with victims := (c.broughtBack.victims.startTransfers .memory).2 } := rfl

theorem broughtBack_held
    (held : ∀ i v, c.victims.get? i = some v → v.waitsFor .cache →
      v.addr.block = v.addr ∧ c.cache.read v.addr = some v.data) :
    c.broughtBack.outbound = c.outbound ∧
    (∀ i, c.broughtBack.victims.get? i = (c.victims.get? i).map fun v =>
      if v.waitsFor .cache then { v with phase := .finished } else v) ∧
    ∀ b, c.broughtBack.cache.find? b = (c.cache.find? b).map fun l =>
      { l with dirty := l.dirty || c.victims.returns b } := by
  let start : Controller := { c with victims := (c.victims.startTransfers .cache).2 }
  let down := (c.victims.startTransfers .cache).1
  have picked (i : Slot) : i ∈ down ↔ ∃ v, c.victims.get? i = some v ∧ v.waitsFor .cache :=
    VictimBuffer.mem_startTransfers _ _ _
  have at_start (i : Slot) : start.victims.get? i = (c.victims.get? i).map fun v =>
      if v.waitsFor .cache then { v with phase := .inTransfer } else v :=
    VictimBuffer.get?_startTransfers _ _ _
  obtain ⟨out, cells, lines⟩ := foldl_drainToCache down (Slots.select_nodup _ _) start (by
    intro i member v present
    obtain ⟨w, found, waits⟩ := (picked i).mp member
    rw [at_start, found] at present
    simp only [Option.map_some, waits, if_true, Option.some.injEq] at present
    subst present
    exact held i w found waits)
  refine ⟨out, fun i => ?_, fun b => ?_⟩
  · refine (cells i).trans ?_
    rw [at_start]
    cases present : c.victims.get? i with
    | none => simp
    | some v =>
      by_cases back : v.waitsFor .cache
      · have member : i ∈ down := (picked i).mpr ⟨v, present, back⟩
        simp [member, back]
      · have aside : i ∉ down := by
          intro member
          obtain ⟨w, found, waits⟩ := (picked i).mp member
          rw [present] at found
          cases found
          exact back waits
        simp [aside, back]
  · have same : (down.any fun i => (start.victims.get? i).any fun v => v.addr.block == b.block) =
        c.victims.returns b := by
      rw [Bool.eq_iff_iff]
      simp only [List.any_eq_true, VictimBuffer.returns, List.mem_finRange, true_and, at_start,
        picked, Option.any_eq_true, Option.map_eq_some_iff, Bool.and_eq_true, beq_iff_eq]
      constructor
      · rintro ⟨i, ⟨v, found, waits⟩, _, ⟨w, present, rfl⟩, at_b⟩
        rw [found] at present
        cases present
        rw [if_pos waits] at at_b
        exact ⟨i, v, found, waits, at_b⟩
      · rintro ⟨i, v, found, waits, at_b⟩
        exact ⟨i, ⟨v, found, waits⟩, _, ⟨v, found, rfl⟩, by rw [if_pos waits]; exact at_b⟩
    rw [← same]
    exact lines b

theorem transferVictims_held
    (held : ∀ i v, c.victims.get? i = some v → v.waitsFor .cache →
      v.addr.block = v.addr ∧ c.cache.read v.addr = some v.data) :
    c.transferVictims.outbound = c.outbound ++ c.victims.leaving ∧
    ∀ b, c.transferVictims.cache.find? b = (c.cache.find? b).map fun l =>
      { l with dirty := l.dirty || c.victims.returns b } := by
  obtain ⟨out, cells, lines⟩ := broughtBack_held held
  rw [transferVictims_eq, foldl_sendVictim]
  refine ⟨?_, lines⟩
  change c.broughtBack.outbound ++ _ = _
  rw [out, VictimBuffer.startTransfers, Slots.select, List.filterMap_filter, VictimBuffer.leaving]
  congr 2
  funext i
  have cell := cells i
  change (if (c.broughtBack.victims.get? i).any _ = true then _ else _) = _
  have after := VictimBuffer.get?_startTransfers c.broughtBack.victims .memory i
  change (if (c.broughtBack.victims.get? i).any _ = true then
    ((c.broughtBack.victims.startTransfers .memory).2.get? i).map _ else _) = _
  rw [after, cell]
  cases present : c.victims.get? i with
  | none => simp
  | some v =>
    by_cases back : v.waitsFor .cache
    · have stays : v.waitsFor .memory = false := by
        simp only [Victim.waitsFor, Bool.and_eq_true, beq_iff_eq] at back
        simp [Victim.waitsFor, back.2]
      simp [back, Option.filter, stays, not_waits_of_not_draining, Victim.draining]
    · by_cases leaves : v.waitsFor .memory
      · simp [back, Option.filter, leaves, Victim.request]
      · simp [back, Option.filter, leaves]

end Controller
end CacheCoherence
