import CacheCoherence.Proofs.Residence
import Mathlib.Data.List.Induction

namespace CacheCoherence

namespace Victim

theorem draining_iff (v : Victim) : v.draining = true ↔ v.phase ≠ .finished := by
  rw [draining, bne_iff_ne]

theorem waitsFor_iff (v : Victim) (d : Destination) :
    v.waitsFor d = true ↔ v.phase = .waiting ∧ v.destination = d := by
  rw [waitsFor, Bool.and_eq_true, beq_iff_eq, beq_iff_eq]

end Victim

namespace VictimBuffer

def run (calls : List Call) : VictimBuffer := calls.foldl call .empty

def Call.ends (i : Slot) : Call → Bool
  | .finish slot | .release slot => slot == i
  | .allocate .. | .startTransfers _ => false

/-- The slot was picked for a transfer, and nothing has ended it since. -/
def Marked (calls : List Call) (i : Slot) : Prop :=
  ∃ before d after, calls = before ++ .startTransfers d :: after ∧
    i ∈ ((run before).startTransfers d).1 ∧ ∀ x ∈ after, x.ends i = false

/-- What an allocation comes to. A finished entry gives way only where no slot is free, and where every slot
drains nothing changes. -/
inductive Allocates (b : VictimBuffer) (a : Address) (data : Block) (d : Destination) :
    Except Fault Slot × VictimBuffer → Prop
  | refused (full : b.hasRoom = false) : Allocates b a data d (.error (.exhausted .victimBuffer), b)
  | entered (slot : Slot) (w : VictimBuffer) (room : b.hasRoom = true) (free : b.get? slot = none)
      (taken : w.get? slot = some { addr := a.block, data, destination := d })
      (same : ∀ i, i ≠ slot → w.get? i = b.get? i) : Allocates b a data d (.ok slot, w)
  | reclaimed (slot : Slot) (old : Victim) (w : VictimBuffer) (room : b.hasRoom = true)
      (present : b.get? slot = some old) (finished : old.phase = .finished)
      (crowded : ∀ i, (b.get? i).isSome)
      (taken : w.get? slot = some { addr := a.block, data, destination := d })
      (same : ∀ i, i ≠ slot → w.get? i = b.get? i) : Allocates b a data d (.ok slot, w)

/-- What holds of a victim buffer after the calls, and of its slots over the calls to come. -/
structure LifeCycle (calls : List Call) : Prop where
  marked : ∀ i, Marked calls i ↔ ∃ v, (run calls).get? i = some v ∧ v.phase = .inTransfer
  drains : ∀ i, Marked calls i → ∃ v, (run calls).get? i = some v ∧ v.draining = true
  kept : ∀ i v later, (run calls).get? i = some v → v.draining = true → (∀ x ∈ later, x.ends i = false) →
    ∃ phase, (run (calls ++ later)).get? i = some { v with phase } ∧ phase ≠ .finished
  ended : ∀ i x, x.ends i = true → ∀ v, (run (calls ++ [x])).get? i = some v → v.draining = false
  allocates : ∀ a data d, Allocates (run calls) a data d ((run calls).allocate a data d)
  room : (run calls).hasRoom = true ↔ ∃ i, ∀ v, (run calls).get? i = some v → v.draining = false
  finds : ∀ a, ((run calls).findDraining a).isSome = true ↔
    ∃ i v, (run calls).get? i = some v ∧ v.draining = true ∧ v.addr.block = a.block
  found : ∀ a i v, (run calls).findDraining a = some (i, v) →
    (run calls).get? i = some v ∧ v.draining = true ∧ v.addr.block = a.block
  once : ∀ d, ((run calls).startTransfers d).1.Nodup
  picked : ∀ a data d i, ((run calls).allocate a data d).1 = .ok i →
    ∀ before d', (∀ x ∈ before, x.ends i = false) →
      (i ∈ ((run (calls ++ .allocate a data d :: before)).startTransfers d').1 ↔
        d' = d ∧ .startTransfers d ∉ before)

variable {b : VictimBuffer} {calls : List Call} {i : Slot} {v : Victim}

theorem hasRoom_iff (b : VictimBuffer) :
    b.hasRoom = true ↔ ∃ i, ∀ v, b.get? i = some v → v.draining = false := by
  rw [← Bool.not_eq_false, hasRoom_eq_false_iff, not_forall]
  apply exists_congr
  intro i
  simp only [not_exists, not_and, Bool.not_eq_true]

theorem allocates (b : VictimBuffer) (a : Address) (data : Block) (d : Destination) :
    Allocates b a data d (b.allocate a data d) := by
  cases target : b.target with
  | none =>
    have full := (target_eq_none_iff b).mp target
    rw [allocate, target]
    exact .refused full
  | some slot =>
    have room : b.hasRoom = true := by
      rw [← Bool.not_eq_false, ← target_eq_none_iff, target]
      exact Option.some_ne_none slot
    have taken := (get?_put b.slots slot slot { addr := a.block, data, destination := d }).trans (if_pos rfl)
    have same (i : Slot) (apart : i ≠ slot) :=
      (get?_put b.slots slot i { addr := a.block, data, destination := d }).trans (if_neg apart.symm)
    rw [allocate, target]
    cases free : b.slots.free? with
    | some first =>
      rw [VictimBuffer.target, free, Option.some.injEq] at target
      subst target
      exact .entered first _ room (Slots.free?_some free) taken same
    | none =>
      have idle := not_draining_of_target target
      have crowded := (free?_eq_none_iff b).mp free
      obtain ⟨old, present⟩ := Option.isSome_iff_exists.mp (crowded slot)
      have finished : old.phase = .finished := by
        have rests := idle old present
        rwa [← Bool.not_eq_true, Victim.draining_iff, not_not] at rests
      exact .reclaimed slot old _ room present finished crowded taken same

/-- An allocation leaves a slot alone, or puts a waiting entry where nothing drained. -/
theorem Allocates.cell {a : Address} {data : Block} {d : Destination}
    {outcome : Except Fault Slot × VictimBuffer} (allocated : Allocates b a data d outcome) (i : Slot) :
    outcome.2.get? i = b.get? i ∨
      outcome.2.get? i = some { addr := a.block, data, destination := d } ∧
        ∀ v, b.get? i = some v → v.draining = false := by
  cases allocated with
  | refused full => exact .inl rfl
  | entered slot w room free taken same =>
    by_cases here : i = slot
    · subst here
      refine .inr ⟨taken, fun v present => ?_⟩
      rw [free] at present
      cases present
    · exact .inl (same i here)
  | reclaimed slot old w room there finished crowded taken same =>
    by_cases here : i = slot
    · subst here
      refine .inr ⟨taken, fun v present => ?_⟩
      rw [there, Option.some.injEq] at present
      rw [← present, Victim.draining, finished]
      rfl
    · exact .inl (same i here)

/-! ## A slot as flags -/

/-- What a slot says of its entry. No search reads `victim`, which goes with `valid`, nor `probe`, which
goes with the destination. -/
structure Flags where
  valid : Bool := false
  victim : Bool := false
  probe : Bool := false
  marked : Bool := false
  processed : Bool := false
  deriving DecidableEq

def Flags.draining (f : Flags) : Bool := f.valid && !f.processed

def flagsOf (v : Victim) : Flags where
  valid := true
  victim := true
  probe := v.destination == .probe
  marked := v.phase == .inTransfer
  processed := v.phase == .finished

def flags (b : VictimBuffer) (i : Slot) : Flags := ((b.get? i).map flagsOf).getD {}

theorem draining_flags (b : VictimBuffer) (i : Slot) :
    (b.flags i).draining = (b.get? i).any Victim.draining := by
  rw [flags]
  cases b.get? i with
  | none => rfl
  | some v => rfl

theorem valid_flags (b : VictimBuffer) (i : Slot) : (b.flags i).valid = (b.get? i).isSome := by
  rw [flags]
  cases b.get? i <;> rfl

theorem flags_lawful (b : VictimBuffer) (i : Slot) :
    (b.flags i).victim = (b.flags i).valid ∧ ((b.flags i).probe = true → (b.flags i).valid = true) ∧
      ((b.flags i).processed = true → (b.flags i).valid = true) ∧
      ((b.flags i).marked = true → (b.flags i).draining = true) := by
  rw [flags]
  cases b.get? i with
  | none => decide
  | some v =>
    refine ⟨rfl, fun _ => rfl, fun _ => rfl, fun marked => ?_⟩
    have phase : v.phase = .inTransfer := beq_iff_eq.mp marked
    simp [Flags.draining, flagsOf, phase]

theorem hasRoom_iff_flags (b : VictimBuffer) :
    b.hasRoom = true ↔ ∃ i, (b.flags i).draining = false := by
  rw [hasRoom_iff]
  refine exists_congr fun i => ?_
  rw [draining_flags]
  cases b.get? i with
  | none => simp
  | some v => simp

theorem target_eq_flags (b : VictimBuffer) :
    b.target = ((List.finRange 8).find? fun i => !(b.flags i).valid).or
      ((List.finRange 8).find? fun i => (b.flags i).valid && (b.flags i).processed) := by
  have free : b.slots.free? = (List.finRange 8).find? fun i => !(b.flags i).valid := by
    simp only [Slots.free?, Slots.first?, valid_flags, Option.not_isSome]
    rfl
  have finished : (b.slots.find? (!·.draining)).map (·.1) =
      (List.finRange 8).find? fun i => (b.flags i).valid && (b.flags i).processed := by
    rw [Slots.find?, List.map_findSome?, ← List.findSome?_guard]
    congr 1
    funext i
    have cell : b.flags i = ((b.slots.get? i).map flagsOf).getD {} := rfl
    simp only [Function.comp_apply, Option.guard, cell]
    cases b.slots.get? i with
    | none => rfl
    | some v => cases phase : v.phase <;> simp [Option.filter, flagsOf, Victim.draining, phase]
  rw [target, free, finished]
  cases (List.finRange 8).find? fun i => !(b.flags i).valid <;> rfl

theorem mem_startTransfers_iff_flags (b : VictimBuffer) (d : Destination) (i : Slot) :
    i ∈ (b.startTransfers d).1 ↔ (b.flags i).draining = true ∧ (b.flags i).marked = false ∧
      (b.get? i).any (·.destination == d) = true := by
  rw [mem_startTransfers, flags]
  cases b.get? i with
  | none => simp
  | some v => cases phase : v.phase <;> simp [Flags.draining, flagsOf, Victim.waitsFor, phase]

theorem flags_allocate {a : Address} {data : Block} {d : Destination} {slot : Slot} {w : VictimBuffer}
    (allocated : b.allocate a data d = (.ok slot, w)) (i : Slot) :
    w.flags i =
      if i = slot then { valid := true, victim := true, probe := d == .probe } else b.flags i := by
  have cell : w.get? slot = some { addr := a.block, data, destination := d } ∧
      ∀ i, i ≠ slot → w.get? i = b.get? i := by
    cases allocated ▸ allocates b a data d with
    | entered _ _ _ _ taken same => exact ⟨taken, same⟩
    | reclaimed _ _ _ _ _ _ _ taken same => exact ⟨taken, same⟩
  split
  · rename_i here
    rw [here, flags, cell.1]
    rfl
  · rename_i apart
    rw [flags, cell.2 i apart, flags]

theorem flags_startTransfers (b : VictimBuffer) (d : Destination) (i : Slot) :
    (b.startTransfers d).2.flags i =
      if (b.startTransfers d).1.contains i then { b.flags i with marked := true }
      else b.flags i := by
  simp only [flags, get?_startTransfers, List.contains_iff_mem, mem_startTransfers]
  cases b.get? i with
  | none => simp
  | some v =>
    by_cases waits : v.waitsFor d
    · have rests := (v.waitsFor_iff d).mp waits
      simp [waits, rests.1, flagsOf]
    · simp [waits]

theorem flags_finish (b : VictimBuffer) (slot i : Slot) :
    (b.finish slot).2.flags i =
      if i = slot ∧ (b.flags i).valid then { b.flags i with processed := true, marked := false }
      else b.flags i := by
  rw [valid_flags]
  simp only [flags, get?_finish, eq_comm (a := slot)]
  by_cases here : i = slot
  · cases b.get? i <;> simp [here, flagsOf]
  · simp [here]

theorem flags_release (b : VictimBuffer) (slot i : Slot) :
    (b.release slot).2.flags i = if i = slot then {} else b.flags i := by
  rw [flags, get?_release, flags]
  by_cases here : i = slot
  · rw [if_pos here.symm, if_pos here]
    rfl
  · rw [if_neg (Ne.symm here), if_neg here]

/-! ## The life of an entry -/

/-- A call keeps a draining entry that it does not end, and only a transfer to its destination ends the wait. -/
theorem get?_call (present : b.get? i = some v) (drains : v.draining = true) {x : Call}
    (goes_on : x.ends i = false) :
    ∃ phase, (b.call x).get? i = some { v with phase } ∧ phase ≠ .finished ∧
      (phase = .waiting ↔ v.phase = .waiting ∧ x ≠ .startTransfers v.destination) := by
  have unfinished := v.draining_iff.mp drains
  cases x with
  | allocate a data d =>
    refine ⟨v.phase, ?_, unfinished, by simp⟩
    rcases (allocates b a data d).cell i with same | ⟨_, idle⟩
    · exact same.trans present
    · rw [idle v present] at drains
      cases drains
  | startTransfers d =>
    rw [call, get?_startTransfers, present, Option.map_some]
    by_cases waits : v.waitsFor d = true
    · obtain ⟨waiting, bound⟩ := (v.waitsFor_iff d).mp waits
      refine ⟨.inTransfer, by rw [if_pos waits], nofun, ?_⟩
      simp [bound]
    · refine ⟨v.phase, by rw [if_neg waits], unfinished, ?_⟩
      rw [Victim.waitsFor_iff, not_and] at waits
      constructor
      · intro waiting
        refine ⟨waiting, ?_⟩
        rintro ⟨⟩
        exact waits waiting rfl
      · exact And.left
  | finish slot =>
    have apart : slot ≠ i := by simpa [Call.ends] using goes_on
    refine ⟨v.phase, ?_, unfinished, by simp⟩
    rw [call, get?_finish, if_neg apart, present]
  | release slot =>
    have apart : slot ≠ i := by simpa [Call.ends] using goes_on
    refine ⟨v.phase, ?_, unfinished, by simp⟩
    rw [call, get?_release, if_neg apart, present]

theorem get?_foldl (present : b.get? i = some v) (drains : v.draining = true) {later : List Call}
    (goes_on : ∀ x ∈ later, x.ends i = false) :
    ∃ phase, (later.foldl call b).get? i = some { v with phase } ∧ phase ≠ .finished ∧
      (phase = .waiting ↔ v.phase = .waiting ∧ .startTransfers v.destination ∉ later) := by
  induction later generalizing b v with
  | nil => exact ⟨v.phase, present, v.draining_iff.mp drains, by simp⟩
  | cons x rest ih =>
    obtain ⟨phase, next, unfinished, waits⟩ := get?_call present drains (goes_on x List.mem_cons_self)
    obtain ⟨last, found, ends, stays⟩ := ih next ((Victim.draining_iff _).mpr unfinished)
      fun y member => goes_on y (List.mem_cons_of_mem x member)
    refine ⟨last, found, ends, ?_⟩
    rw [stays, waits, List.mem_cons, not_or, and_assoc, ne_comm, ne_eq]

theorem not_draining_of_ends {x : Call} (ends : x.ends i = true) (present : (b.call x).get? i = some v) :
    v.draining = false := by
  cases x with
  | allocate | startTransfers => cases ends
  | finish slot =>
    rw [call, get?_finish, if_pos (beq_iff_eq.mp ends), Option.map_eq_some_iff] at present
    obtain ⟨w, _, rfl⟩ := present
    rfl
  | release slot =>
    rw [call, get?_release, if_pos (beq_iff_eq.mp ends)] at present
    cases present

theorem get?_run_nil (i : Slot) : (run []).get? i = none := Slots.get?_empty i

theorem run_append (calls later : List Call) : run (calls ++ later) = later.foldl call (run calls) := by
  rw [run, List.foldl_append]
  rfl

theorem run_concat (calls : List Call) (x : Call) : run (calls ++ [x]) = (run calls).call x :=
  run_append calls [x]

theorem Marked.inTransfer (marked : Marked calls i) :
    ∃ v, (run calls).get? i = some v ∧ v.phase = .inTransfer := by
  obtain ⟨before, d, after, rfl, member, since⟩ := marked
  obtain ⟨v, present, waits⟩ := (mem_startTransfers _ _ _).mp member
  have started : ((run before).call (.startTransfers d)).get? i = some { v with phase := .inTransfer } := by
    rw [call, get?_startTransfers, present, Option.map_some, if_pos waits]
  obtain ⟨phase, found, unfinished, waiting⟩ := get?_foldl started rfl since
  refine ⟨_, (congrArg (get? · i) (run_append before _)).trans found, ?_⟩
  cases phase with
  | waiting => exact absurd (waiting.mp rfl).1 nofun
  | inTransfer => rfl
  | finished => exact absurd rfl unfinished

theorem Marked.concat (marked : Marked calls i) {x : Call} (goes_on : x.ends i = false) :
    Marked (calls ++ [x]) i := by
  obtain ⟨before, d, after, rfl, member, since⟩ := marked
  refine ⟨before, d, after ++ [x], by simp, member, ?_⟩
  exact List.forall_mem_append.mpr ⟨since, List.forall_mem_singleton.mpr goes_on⟩

theorem marked_of_inTransfer (present : (run calls).get? i = some v) (moving : v.phase = .inTransfer) :
    Marked calls i := by
  induction calls using List.reverseRecOn generalizing v with
  | nil =>
    rw [get?_run_nil] at present
    cases present
  | append_singleton earlier x ih =>
    rw [run_concat] at present
    cases x with
    | allocate a data d =>
      -- a new entry waits, so the entry in transfer is an old one
      have before : (run earlier).get? i = some v := by
        rcases (allocates (run earlier) a data d).cell i with same | ⟨fresh, _⟩
        · exact same.symm.trans present
        · rw [call, fresh, Option.some.injEq] at present
          rw [← present] at moving
          cases moving
      exact (ih before moving).concat rfl
    | startTransfers d =>
      rw [call, get?_startTransfers, Option.map_eq_some_iff] at present
      obtain ⟨w, before, rfl⟩ := present
      by_cases waits : w.waitsFor d = true
      · have member := (mem_startTransfers (run earlier) d i).mpr ⟨w, before, waits⟩
        exact ⟨earlier, d, [], rfl, member, by simp⟩
      · rw [if_neg waits] at moving
        exact (ih before moving).concat rfl
    | finish slot =>
      rw [call, get?_finish] at present
      split at present
      · rw [Option.map_eq_some_iff] at present
        obtain ⟨w, _, rfl⟩ := present
        cases moving
      · rename_i apart
        exact (ih present moving).concat (beq_false_of_ne apart)
    | release slot =>
      obtain ⟨before, apart⟩ := get?_of_release present
      exact (ih before moving).concat (beq_false_of_ne apart.symm)

theorem marked_iff_flags (calls : List Call) (i : Slot) :
    Marked calls i ↔ ((run calls).flags i).marked = true := by
  constructor
  · intro marked
    obtain ⟨v, present, moving⟩ := marked.inTransfer
    rw [flags, present]
    exact beq_iff_eq.mpr moving
  · intro marked
    cases present : (run calls).get? i with
    | none =>
      rw [flags, present] at marked
      cases marked
    | some v =>
      rw [flags, present] at marked
      exact marked_of_inTransfer present (beq_iff_eq.mp marked)

theorem addr_run (present : (run calls).get? i = some v) : v.addr.block = v.addr := by
  induction calls using List.reverseRecOn generalizing v with
  | nil =>
    rw [get?_run_nil] at present
    cases present
  | append_singleton earlier x ih =>
    rw [run_concat] at present
    cases x with
    | allocate a data d =>
      rcases (allocates (run earlier) a data d).cell i with same | ⟨fresh, _⟩
      · exact ih (same.symm.trans present)
      · rw [call, fresh, Option.some.injEq] at present
        rw [← present]
        exact a.block_block
    | startTransfers d =>
      rw [call, get?_startTransfers, Option.map_eq_some_iff] at present
      obtain ⟨w, before, rfl⟩ := present
      have aligned : w.addr.block = w.addr := ih before
      rwa [apply_ite Victim.addr, ite_self]
    | finish slot =>
      rw [call, get?_finish] at present
      split at present
      · rw [Option.map_eq_some_iff] at present
        obtain ⟨w, before, rfl⟩ := present
        have aligned : w.addr.block = w.addr := ih before
        exact aligned
      · exact ih present
    | release slot => exact ih (get?_of_release present).1

theorem findDraining_some {a : Address} (found : (run calls).findDraining a = some (i, v)) :
    (run calls).get? i = some v ∧ v.draining = true ∧ v.addr.block = a.block := by
  obtain ⟨present, accepted⟩ := Slots.find?_some found
  rw [Bool.and_eq_true, beq_iff_eq] at accepted
  exact ⟨present, accepted.1, (addr_run present).trans accepted.2⟩

theorem isSome_findDraining (calls : List Call) (a : Address) :
    ((run calls).findDraining a).isSome = true ↔
      ∃ i v, (run calls).get? i = some v ∧ v.draining = true ∧ v.addr.block = a.block := by
  constructor
  · intro some_found
    obtain ⟨⟨i, v⟩, found⟩ := Option.isSome_iff_exists.mp some_found
    exact ⟨i, v, findDraining_some found⟩
  · rintro ⟨i, v, present, drains, same⟩
    rw [Option.isSome_iff_ne_none, findDraining, ne_eq, Slots.find?_eq_none]
    intro none_found
    have refused := none_found i v present
    rw [drains, Bool.true_and, ← same, addr_run present, beq_self_eq_true] at refused
    cases refused

/-- A transfer picks a slot once while it drains: the first one to its destination. -/
theorem picked_iff {a : Address} {data : Block} {d : Destination}
    (allocated : (b.allocate a data d).1 = .ok i) {before : List Call}
    (goes_on : ∀ x ∈ before, x.ends i = false) (d' : Destination) :
    i ∈ ((before.foldl call (b.call (.allocate a data d))).startTransfers d').1 ↔
      d' = d ∧ .startTransfers d ∉ before := by
  have taken : (b.call (.allocate a data d)).get? i = some { addr := a.block, data, destination := d } := by
    rw [call]
    generalize shape : b.allocate a data d = outcome at allocated
    cases shape ▸ allocates b a data d with
    | refused full => cases allocated
    | entered slot w room free taken same => cases allocated; exact taken
    | reclaimed slot old w room there finished crowded taken same => cases allocated; exact taken
  obtain ⟨phase, present, unfinished, waits⟩ := get?_foldl taken rfl goes_on
  rw [mem_startTransfers, present]
  simp only [Option.some.injEq, exists_eq_left', Victim.waitsFor_iff, waits, true_and]
  rw [and_comm, eq_comm]

/-- So a block lives in a buffer that was empty, whatever the calls and whatever slots they name. -/
theorem lifeCycle_run (calls : List Call) : LifeCycle calls := by
  have marked (i : Slot) : Marked calls i ↔ ∃ v, (run calls).get? i = some v ∧ v.phase = .inTransfer :=
    ⟨Marked.inTransfer, fun ⟨_, present, moving⟩ => marked_of_inTransfer present moving⟩
  constructor
  · exact marked
  · intro i picked
    obtain ⟨v, present, moving⟩ := (marked i).mp picked
    refine ⟨v, present, v.draining_iff.mpr ?_⟩
    rw [moving]
    nofun
  · intro i v later present drains goes_on
    obtain ⟨phase, found, unfinished, _⟩ := get?_foldl present drains goes_on
    exact ⟨phase, (congrArg (get? · i) (run_append calls later)).trans found, unfinished⟩
  · intro i x ends v present
    rw [run_concat] at present
    exact not_draining_of_ends ends present
  · exact fun a data d => allocates (run calls) a data d
  · exact hasRoom_iff (run calls)
  · exact isSome_findDraining calls
  · exact fun a i v => findDraining_some
  · exact fun d => Slots.select_nodup _ _
  · intro a data d i allocated before d' goes_on
    rw [run_append, List.foldl_cons]
    exact picked_iff allocated goes_on d'

/-- Eight blocks for memory, all under way, of which one has arrived. -/
def crowded : List Call :=
  List.replicate 8 (.allocate ⟨0x40⟩ .zero .memory) ++ [.startTransfers .memory, .finish 3]

example : ((run crowded).allocate ⟨0x80⟩ .zero .cache).1 = .ok 3 := by decide +kernel

end VictimBuffer
end CacheCoherence
