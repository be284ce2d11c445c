import CacheCoherence.Controller.Snooping
import CacheCoherence.Proofs.Inclusion

/-! Victims that are kept for a probe. Nothing ever picks them for a transfer, so it makes no
difference to any other action whether they wait or are under way: to put them under way (`shelve`)
commutes with every action. A controller on its own is good once they are shelved. -/

namespace CacheCoherence

namespace Victim

/-- A victim kept for a probe is put under way. -/
def shelved (v : Victim) : Victim := if v.waitsFor .probe then { v with phase := .inTransfer } else v

@[simp] theorem addr_shelved (v : Victim) : v.shelved.addr = v.addr := by
  unfold shelved
  split <;> rfl

@[simp] theorem data_shelved (v : Victim) : v.shelved.data = v.data := by
  unfold shelved
  split <;> rfl

@[simp] theorem destination_shelved (v : Victim) : v.shelved.destination = v.destination := by
  unfold shelved
  split <;> rfl

@[simp] theorem draining_shelved (v : Victim) : v.shelved.draining = v.draining := by
  unfold shelved
  split
  · rename_i waits
    simp only [waitsFor, Bool.and_eq_true, beq_iff_eq] at waits
    rw [draining, draining, waits.1]
    rfl
  · rfl

theorem waitsFor_shelved (v : Victim) {d : Destination} (bound : d ≠ .probe) :
    v.shelved.waitsFor d = v.waitsFor d := by
  unfold shelved
  split
  · rename_i waits
    simp only [waitsFor, Bool.and_eq_true, beq_iff_eq] at waits
    have other : (Destination.probe == d) = false := by simpa using Ne.symm bound
    simp only [waitsFor, waits.2, other, Bool.and_false]
  · rfl

theorem rests_shelved (v : Victim) : v.shelved.waitsFor .probe = false := by
  unfold shelved
  split
  · rfl
  · rename_i rests
    simpa using rests

@[simp] theorem shelved_shelved (v : Victim) : v.shelved.shelved = v.shelved := by
  change (if v.shelved.waitsFor .probe then _ else v.shelved) = v.shelved
  rw [v.rests_shelved]
  rfl

theorem shelved_of_not_waiting {v : Victim} (rests : v.phase ≠ .waiting) : v.shelved = v := by
  simp [shelved, waitsFor, rests]

theorem shelved_of_bound {v : Victim} (bound : v.destination ≠ .probe) : v.shelved = v := by
  simp [shelved, waitsFor, bound]

end Victim

namespace Slots

variable {α : Type}

theorem first?_map (s : Slots α) (f : α → α) (p : Option α → Bool) :
    (s.map f).first? p = s.first? fun cell => p (cell.map f) := by
  simp [first?]

theorem select_map (s : Slots α) (f : α → α) (p : α → Bool) :
    (s.map f).select p = s.select fun x => p (f x) := by
  simp [select, Option.any_map]

theorem find?_map (s : Slots α) (f : α → α) (p : α → Bool) :
    (s.map f).find? p = (s.find? fun x => p (f x)).map fun found => (found.1, f found.2) := by
  rw [find?, find?, List.map_findSome?]
  congr 1
  funext i
  rw [Function.comp_apply, get?_map]
  cases s.get? i with
  | none => rfl
  | some x => cases accepted : p (f x) <;> simp [Option.filter, accepted]

theorem put_map (s : Slots α) (f : α → α) (i : Slot) (x : α) :
    (s.map f).put i (f x) = (s.put i x).map f := by
  apply ext_get?
  intro j
  rw [get?_put, get?_map, get?_map, get?_put]
  split <;> rfl

theorem clear_map (s : Slots α) (f : α → α) (i : Slot) : (s.map f).clear i = (s.clear i).map f := by
  apply ext_get?
  intro j
  rw [get?_clear, get?_map, get?_map, get?_clear]
  split <;> rfl

end Slots

namespace VictimBuffer

def shelved (b : VictimBuffer) : VictimBuffer := ⟨b.slots.map Victim.shelved⟩

variable (b : VictimBuffer)

theorem startTransfers_probe : (b.startTransfers .probe).2 = b.shelved := rfl

theorem get?_shelved (i : Slot) : b.shelved.get? i = (b.get? i).map Victim.shelved :=
  Slots.get?_map ..

@[simp] theorem shelved_shelved : b.shelved.shelved = b.shelved := by
  apply ext_get?
  intro i
  rw [get?_shelved, get?_shelved, Option.map_map]
  congr 1
  funext v
  exact v.shelved_shelved

@[simp] theorem hasRoom_shelved : b.shelved.hasRoom = b.hasRoom := by
  simp [hasRoom, shelved, Slots.first?_map, Option.any_map]

theorem target_shelved : b.shelved.target = b.target := by
  simp only [target, shelved, Slots.free?, Slots.first?_map, Option.isNone_map, Slots.find?_map,
    Victim.draining_shelved, Option.map_map, Function.comp_def]

theorem allocate_shelved (a : Address) (data : Block) {d : Destination} (bound : d ≠ .probe) :
    b.shelved.allocate a data d = ((b.allocate a data d).1, (b.allocate a data d).2.shelved) := by
  simp only [allocate, target_shelved]
  cases b.target with
  | none => rfl
  | some slot =>
    have kept := Victim.shelved_of_bound (v := { addr := a.block, data, destination := d }) bound
    simp only
    rw [← kept, shelved, Slots.put_map, kept]
    rfl

theorem allocate_probe_cases (a : Address) (data : Block) :
    (∃ fault, b.allocate a data .probe = (.error fault, b) ∧
      b.shelved.allocate a data .probe = (.error fault, b.shelved)) ∨
    ∃ slot taken beside, b.allocate a data .probe = (.ok slot, taken) ∧
      b.shelved.allocate a data .probe = (.ok slot, beside) ∧ beside.shelved = taken.shelved := by
  simp only [allocate, target_shelved]
  cases b.target with
  | none => exact .inl ⟨_, rfl, rfl⟩
  | some slot =>
    refine .inr ⟨slot, _, _, rfl, rfl, ext_get? fun i => ?_⟩
    rw [get?_shelved, get?_shelved]
    simp only [get?_put]
    split
    · rfl
    · change (b.shelved.get? i).map _ = (b.get? i).map _
      rw [get?_shelved, Option.map_map]
      congr 1
      funext v
      exact v.shelved_shelved

theorem settled_shelved {b : VictimBuffer} (settled : b.Settled) : b.shelved = b :=
  congrArg Prod.snd (settled.startTransfers .probe)

theorem startTransfers_shelved {d : Destination} (bound : d ≠ .probe) :
    b.shelved.startTransfers d = ((b.startTransfers d).1, (b.startTransfers d).2.shelved) := by
  apply Prod.ext
  · simp only [startTransfers, shelved, Slots.select_map, Victim.waitsFor_shelved _ bound]
  · apply ext_get?
    intro i
    rw [get?_startTransfers, get?_shelved, get?_shelved, get?_startTransfers, Option.map_map,
      Option.map_map]
    congr 1
    funext v
    simp only [Function.comp_apply, Victim.waitsFor_shelved v bound]
    split
    · rename_i waits
      simp only [Victim.waitsFor, Bool.and_eq_true, beq_iff_eq] at waits
      rw [Victim.shelved_of_not_waiting (v := { v with phase := .inTransfer }) (by simp),
        Victim.shelved_of_bound]
      rw [waits.2]
      exact bound
    · rfl

/-- If nothing waits once the kept victims are shelved, only they wait. -/
theorem Settled.waitsFor_eq {b : VictimBuffer} (settled : b.shelved.Settled) {i : Slot} {v : Victim}
    (present : b.get? i = some v) {d : Destination} (bound : d ≠ .probe) : v.waitsFor d = false := by
  have shelved : b.shelved.get? i = some v.shelved := by rw [get?_shelved, present, Option.map_some]
  rw [← v.waitsFor_shelved bound]
  exact settled.not_waits shelved d

theorem finish_shelved (slot : Slot) :
    b.shelved.finish slot = ((b.finish slot).1, (b.finish slot).2.shelved) := by
  unfold finish
  rw [get?_shelved]
  cases b.get? slot with
  | none => rfl
  | some v =>
    have ended : { v.shelved with phase := .finished } =
        Victim.shelved { v with phase := .finished } := by
      rw [Victim.shelved_of_not_waiting (v := { v with phase := .finished }) (by simp)]
      unfold Victim.shelved
      split <;> rfl
    simp only [Option.map_some]
    rw [ended, shelved, Slots.put_map]
    rfl

theorem release_shelved (slot : Slot) :
    b.shelved.release slot = ((b.release slot).1, (b.release slot).2.shelved) := by
  unfold release
  rw [get?_shelved]
  cases b.get? slot with
  | none => rfl
  | some v =>
    simp only [Option.map_some]
    rw [shelved, Slots.clear_map]
    rfl

end VictimBuffer

theorem BackupCache.insert_shelved (cache : BackupCache) (a : Address) (data : Block) (s : LineState)
    (victims : VictimBuffer) :
    cache.insert a data s victims.shelved .memory =
      ((cache.insert a data s victims .memory).1, (cache.insert a data s victims .memory).2.1,
        (cache.insert a data s victims .memory).2.2.shelved) := by
  unfold BackupCache.insert
  cases cache.occupant a with
  | none => rfl
  | some old =>
    simp only
    split
    · rfl
    · split
      · rw [VictimBuffer.allocate_shelved _ _ _ (by simp)]
        cases victims.allocate old.addr old.data .memory with
        | mk result taken => cases result <;> rfl
      · rfl

namespace Controller

variable (c : Controller)

def shelve (c : Controller) : Controller := { c with victims := c.victims.shelved }

def shelveAfter {α : Type} (result : α × Controller) : α × Controller := (result.1, result.2.shelve)

@[simp] theorem shelveAfter_mk {α : Type} (x : α) : shelveAfter (x, c) = (x, c.shelve) := rfl

@[simp] theorem cpu_shelve : c.shelve.cpu = c.cpu := rfl

@[simp] theorem registers_shelve : c.shelve.registers = c.registers := rfl

@[simp] theorem misses_shelve : c.shelve.misses = c.misses := rfl

@[simp] theorem victims_shelve : c.shelve.victims = c.victims.shelved := rfl

@[simp] theorem writes_shelve : c.shelve.writes = c.writes := rfl

@[simp] theorem tags_shelve : c.shelve.tags = c.tags := rfl

@[simp] theorem cache_shelve : c.shelve.cache = c.cache := rfl

@[simp] theorem outbound_shelve : c.shelve.outbound = c.outbound := rfl

@[simp] theorem anomalies_shelve : c.shelve.anomalies = c.anomalies := rfl

@[simp] theorem counters_shelve : c.shelve.counters = c.counters := rfl

@[simp] theorem lookup_shelve (a : Address) : c.shelve.lookup a = c.lookup a := rfl

@[simp] theorem mk_shelved (cpu : Nat) (registers : Registers) (misses : MissFile)
    (victims : VictimBuffer) (writes : WriteBuffer) (tags : DuplicateTags) (cache : BackupCache)
    (outbound : List Request) (anomalies : List Anomaly) (counters : Counters) :
    (⟨cpu, registers, misses, victims.shelved, writes, tags, cache, outbound, anomalies, counters⟩ :
      Controller) =
      shelve ⟨cpu, registers, misses, victims, writes, tags, cache, outbound, anomalies, counters⟩ := rfl

@[simp] theorem shelve_shelve : c.shelve.shelve = c.shelve :=
  congrArg (fun victims => { c with victims }) c.victims.shelved_shelved

@[simp] theorem shelve_noteFault {α : Type} (result : Except Fault α × Controller) :
    noteFault (shelveAfter result) = shelveAfter (noteFault result) := by
  obtain ⟨result, c⟩ := result
  cases result <;> rfl

@[simp] theorem shelve_sendVictim (slot : Slot) :
    c.shelve.sendVictim slot = (c.sendVictim slot).shelve := by
  simp only [sendVictim, victims_shelve, VictimBuffer.get?_shelved]
  cases c.victims.get? slot with
  | none => rfl
  | some v => simp [send]

@[simp] theorem shelve_drainToCache (slot : Slot) :
    c.shelve.drainToCache slot = (c.drainToCache slot).shelve := by
  simp only [drainToCache, victims_shelve, cache_shelve, VictimBuffer.get?_shelved]
  cases c.victims.get? slot with
  | none => rfl
  | some v =>
    simp only [Option.map_some, Victim.addr_shelved, Victim.data_shelved]
    cases c.cache.write v.addr v.data.toList with
    | mk written cache =>
      cases written with
      | true => simp [VictimBuffer.finish_shelved]
      | false => rfl

theorem shelve_foldl {f : Controller → Slot → Controller}
    (one : ∀ (c : Controller) slot, f c.shelve slot = (f c slot).shelve) (slots : List Slot) :
    slots.foldl f c.shelve = (slots.foldl f c).shelve := by
  induction slots generalizing c with
  | nil => rfl
  | cons slot rest ih => rw [List.foldl_cons, List.foldl_cons, one, ih]

@[simp] theorem shelve_transferVictims : c.shelve.transferVictims = c.transferVictims.shelve := by
  simp [transferVictims, VictimBuffer.startTransfers_shelved, shelve_foldl]

@[simp] theorem shelve_allocateVictim (a : Address) (data : Block) {d : Destination} (bound : d ≠ .probe) :
    c.shelve.allocateVictim a data d = shelveAfter (c.allocateVictim a data d) := by
  simp only [allocateVictim, victims_shelve, VictimBuffer.allocate_shelved _ _ _ bound]
  cases c.victims.allocate a data d with
  | mk result victims =>
    cases result with
    | error fault => rfl
    | ok slot => simp

@[simp] theorem shelve_keepDisplaced (displaced : Option Displaced) :
    c.shelve.keepDisplaced displaced = shelveAfter (c.keepDisplaced displaced) := by
  cases displaced with
  | none => rfl
  | some d =>
    simp only [keepDisplaced, cache_shelve, victims_shelve]
    split
    · cases c.cache.read d.addr with
      | none => rfl
      | some data =>
        simp only [VictimBuffer.allocate_shelved _ _ _ (show Destination.cache ≠ .probe by simp)]
        cases c.victims.allocate d.addr data .cache with
        | mk result victims => cases result <;> simp
    · rfl

@[simp] theorem shelve_fillPrimary (a : Address) (s : LineState) :
    c.shelve.fillPrimary a s = shelveAfter (c.fillPrimary a s) := by
  simp only [fillPrimary, cpu_shelve, registers_shelve, misses_shelve, victims_shelve, writes_shelve,
    tags_shelve, cache_shelve, outbound_shelve, anomalies_shelve, counters_shelve, mk_shelved,
    shelve_keepDisplaced]
  cases keepDisplaced _ (c.tags.fill a s).1 with
  | mk result d => cases result <;> simp

@[simp] theorem shelve_pullDown (a : Address) : c.shelve.pullDown a = (c.pullDown a).shelve := by
  simp only [pullDown, cache_shelve, tags_shelve]
  cases c.cache.occupant a with
  | none => rfl
  | some old =>
    simp only
    split
    · rfl
    · cases c.tags.drop old.addr with
      | mk before tags =>
        cases before with
        | none => rfl
        | some before =>
          simp only
          split <;> rfl

@[simp] theorem shelve_install (a : Address) (data : Block) (s : LineState) :
    c.shelve.install a data s = shelveAfter (c.install a data s) := by
  simp only [install, shelve_pullDown]
  generalize c.pullDown a = d
  simp only [cache_shelve, victims_shelve, BackupCache.insert_shelved]
  cases d.cache.insert a data { s with dirty := false } d.victims .memory with
  | mk result rest =>
    obtain ⟨cache, victims⟩ := rest
    cases result with
    | error fault => rfl
    | ok evicted =>
      simp only [VictimBuffer.hasRoom_shelved, cpu_shelve, registers_shelve, misses_shelve, writes_shelve,
        tags_shelve, outbound_shelve, anomalies_shelve, counters_shelve, mk_shelved, shelve_fillPrimary,
        shelve_transferVictims]
      split
      · cases fillPrimary _ a s with
        | mk result e => cases result <;> simp
      · rfl

@[simp] theorem shelve_installFill (a : Address) (data : Option Block) (s : LineState) :
    c.shelve.installFill a data s = shelveAfter (c.installFill a data s) := by
  cases data with
  | none => rfl
  | some data =>
    simp only [installFill, shelve_install]
    split
    · rfl
    · cases c.install a data s with
      | mk result d =>
        cases result with
        | ok _ => rfl
        | error fault =>
          simp only [shelveAfter_mk, cpu_shelve, registers_shelve, misses_shelve, victims_shelve,
            writes_shelve, tags_shelve, cache_shelve, outbound_shelve, anomalies_shelve, counters_shelve,
            mk_shelved]
          split <;> rfl

@[simp] theorem shelve_takeOwnership (a : Address) :
    c.shelve.takeOwnership a = (c.takeOwnership a).shelve := by
  simp only [takeOwnership, tags_shelve, cache_shelve]
  cases c.tags.setState a .modified with
  | mk entered tags => cases entered <;> rfl

theorem shelve_completeMiss (slot : Slot) (m : Completion) :
    c.shelve.completeMiss slot m = shelveAfter (c.completeMiss slot m) := by
  simp only [completeMiss, misses_shelve]
  cases c.misses.get? slot with
  | none => rfl
  | some miss =>
    simp only [lookup_shelve, Bool.and_eq_true, shelve_takeOwnership, cache_shelve, shelve_installFill]
    split
    · rfl
    · split
      · rfl
      · cases installFill c _ _ _ with
        | mk result d => cases result <;> rfl

theorem shelve_completeVictim (slot : Slot) :
    c.shelve.completeVictim slot = shelveAfter (c.completeVictim slot) := by
  simp only [completeVictim, victims_shelve, VictimBuffer.finish_shelved]
  cases c.victims.finish slot with
  | mk result victims =>
    cases result with
    | error fault => rfl
    | ok _ => simp [VictimBuffer.release_shelved]

theorem shelve_complete (m : Completion) : c.shelve.complete m = shelveAfter (c.complete m) := by
  simp only [complete, cpu_shelve, registers_shelve, misses_shelve, victims_shelve, writes_shelve,
    tags_shelve, cache_shelve, outbound_shelve, anomalies_shelve, counters_shelve, mk_shelved]
  split
  · exact shelve_completeVictim _ _
  · rfl
  · exact shelve_completeMiss _ _ m

theorem shelve_request (r : Reference) (kind : ReadKind) :
    c.shelve.request r kind = shelveAfter (c.request r kind) := by
  simp only [request, misses_shelve]
  cases c.misses.allocate r with
  | mk result misses =>
    cases result with
    | error fault => rfl
    | ok p =>
      simp only
      split <;> rfl

@[simp] theorem shelve_refillPrimary (a : Address) (s : LineState) :
    c.shelve.refillPrimary a s = shelveAfter (c.refillPrimary a s) := by
  simp only [refillPrimary, tags_shelve, victims_shelve, VictimBuffer.hasRoom_shelved]
  split
  · exact c.shelve_fillPrimary a s
  · rfl

theorem shelve_completeLocally (r : Reference) (s : LineState) :
    c.shelve.completeLocally r s = shelveAfter (c.completeLocally r s) := by
  simp only [completeLocally, misses_shelve]
  cases c.misses.allocate r with
  | mk result misses =>
    cases result with
    | error fault => rfl
    | ok p =>
      simp only [cpu_shelve, registers_shelve, victims_shelve, writes_shelve, tags_shelve, cache_shelve,
        outbound_shelve, anomalies_shelve, counters_shelve, mk_shelved, shelve_refillPrimary]
      cases refillPrimary _ r.addr s with
      | mk result d =>
        cases result with
        | error fault => rfl
        | ok _ =>
          simp only [shelveAfter, answerMiss, misses_shelve, cache_shelve]
          cases d.misses.complete p.slot ⟨d.cache.read r.addr, s.shared, false⟩ with
          | mk result misses => cases result <;> rfl

theorem shelve_flush : c.shelve.flush = shelveAfter c.flush := by
  simp only [flush, writes_shelve, shelveAfter]
  congr 1
  exact shelve_foldl { c with writes := c.writes.issue.2 } (fun c slot => by
    simp only [sendWrite, writes_shelve]
    cases c.writes.get? slot <;> rfl) _

theorem shelve_barrier (r : Reference) : c.shelve.barrier r = shelveAfter (c.barrier r) := by
  simp only [barrier, misses_shelve]
  cases c.misses.allocate r with
  | mk result misses =>
    cases result with
    | error fault => rfl
    | ok p => simp [shelve_flush, shelveAfter, send]

@[simp] theorem shelve_expel (a : Address) (s : LineState) :
    c.shelve.expel a s = shelveAfter (c.expel a s) := by
  simp only [expel, cache_shelve, tags_shelve]
  split
  · cases c.cache.drop a with
    | mk gone cache =>
      cases gone with
      | none => rfl
      | some found =>
        simp only [Bool.or_eq_true, cpu_shelve, registers_shelve, misses_shelve, victims_shelve,
          writes_shelve, outbound_shelve, anomalies_shelve, counters_shelve, mk_shelved, ne_eq,
          reduceCtorEq, not_false_eq_true, shelve_allocateVictim]
        split
        · cases allocateVictim _ a found.2 .memory with
          | mk result d => cases result <;> rfl
        · rfl
  · rfl

theorem shelve_purge (r : Reference) (s : LineState) :
    c.shelve.purge r s = shelveAfter (c.purge r s) := by
  simp only [purge, misses_shelve, victims_shelve, VictimBuffer.hasRoom_shelved]
  split
  · rfl
  · cases c.misses.allocate r with
    | mk result misses =>
      cases result with
      | error fault => rfl
      | ok p =>
        simp only [cpu_shelve, registers_shelve, writes_shelve, tags_shelve, cache_shelve,
          outbound_shelve, anomalies_shelve, counters_shelve, mk_shelved, shelve_expel]
        cases expel _ r.addr s with
        | mk result d =>
          cases result with
          | error fault => rfl
          | ok _ =>
            simp only [shelveAfter, answerMiss, misses_shelve]
            cases d.misses.complete p.slot ⟨none, false, false⟩ with
            | mk result misses => cases result <;> rfl

theorem shelve_dispatch (r : Reference) (s : LineState) :
    c.shelve.dispatch r s = shelveAfter (c.dispatch r s) := by
  simp only [dispatch, shelve_barrier, shelve_purge, shelve_completeLocally, shelve_request]
  split
  all_goals first | rfl | (split <;> first | rfl | (split <;> rfl))

theorem shelve_issue (r : Reference) : c.shelve.issue r = shelveAfter (c.issue r) := by
  simp only [issue, lookup_shelve, shelve_dispatch]
  split
  · rfl
  · split
    · split <;> rfl
    · rfl

theorem shelve_retireVictim (a : Address) (data : Block) :
    c.shelve.retireVictim a data = shelveAfter (c.retireVictim a data) := by
  simp only [retireVictim, ne_eq, reduceCtorEq, not_false_eq_true, shelve_allocateVictim]
  split
  · rfl
  · cases c.allocateVictim a data .cache with
    | mk result d => cases result <;> rfl

theorem shelve_store (a : Address) (bytes : List UInt8) :
    c.shelve.store a bytes = shelveAfter (c.store a bytes) := by
  by_cases fits : a.fits bytes.length
  · by_cases writable : (c.lookup a).writable
    · simp only [store, lookup_shelve, cache_shelve, fits, writable, if_true]
      cases c.cache.write a bytes with
      | mk written cache => cases written <;> rfl
    · simp [store, fits, writable]
  · simp [store, fits]

theorem shelve_storeIo (s : IoStore) : c.shelve.storeIo s = shelveAfter (c.storeIo s) := by
  simp only [storeIo, writes_shelve]
  cases c.writes.allocate s with
  | mk result writes => cases result <;> rfl

theorem shelve_perform (op : Operation) : c.shelve.perform op = (c.perform op).shelve := by
  cases op with
  | issue r => simp [perform, allocateMiss, shelve_issue]; rfl
  | consume slot => rfl
  | store a bytes => simp only [perform, shelve_store]; rfl
  | storeIo s => simp only [perform, shelve_storeIo]; rfl
  | flush => simp only [perform, shelve_flush]; rfl
  | retire a data => simp only [perform, shelve_retireVictim]; rfl

theorem shelve_applyState (a : Address) (next : LineState) :
    c.shelve.applyState a next = (c.applyState a next).shelve := by
  simp only [applyState, tags_shelve, cache_shelve]
  split <;> rfl

theorem shelve_concludeProbe (p : Probe) (s : LineState) (data : Option Block) (victim : Option Slot) :
    c.shelve.concludeProbe p s data victim = shelveAfter (c.concludeProbe p s data victim) := by
  simp only [concludeProbe, cpu_shelve, registers_shelve, misses_shelve, victims_shelve, writes_shelve,
    tags_shelve, cache_shelve, outbound_shelve, anomalies_shelve, counters_shelve, mk_shelved]
  split
  · split
    · rfl
    · simp [shelve_applyState, reply, send]
  · rfl

/-- When a probe takes a victim of its own, all the kept ones are put under way. -/
theorem shelve_answerProbe (p : Probe) (s : LineState) :
    c.shelve.answerProbe p s = shelveAfter (c.answerProbe p s) := by
  have probed : c.shelve.probedBlock p s = c.probedBlock p s := rfl
  simp only [answerProbe, probed]
  cases c.probedBlock p s with
  | none => exact c.shelve_concludeProbe p s none none
  | some data =>
    simp only
    split
    · rcases c.victims.allocate_probe_cases p.addr.block data with
        ⟨fault, refused, still⟩ | ⟨slot, taken, beside, done, again, same⟩
      · simp only [victims_shelve, refused, still]
        rfl
      · simp only [victims_shelve, done, again, VictimBuffer.startTransfers_probe, same,
          counters_shelve, cpu_shelve, registers_shelve, misses_shelve, writes_shelve, tags_shelve,
          cache_shelve, outbound_shelve, anomalies_shelve, mk_shelved]
        rw [← shelve_concludeProbe, shelve_shelve]
    · exact c.shelve_concludeProbe p s (some data) none

theorem shelve_handleProbe (p : Probe) : c.shelve.handleProbe p = shelveAfter (c.handleProbe p) := by
  have evicted (a : Address) : c.shelve.evictedBlock a = c.evictedBlock a := by
    simp only [evictedBlock, VictimBuffer.findDraining, victims_shelve, VictimBuffer.shelved,
      Slots.find?_map, Victim.draining_shelved, Victim.addr_shelved]
    cases c.victims.slots.find? _ with
    | none => rfl
    | some found => simp
  simp only [handleProbe, lookup_shelve, evicted, shelve_answerProbe]
  split
  · rfl
  · split
    · cases c.evictedBlock p.addr.block <;> rfl
    · rfl

/-- Shelving the victims before an action or after it comes to the same. -/
theorem shelve_act (x : Action) : (c.shelve.act x).shelve = (c.act x).shelve := by
  cases x with
  | operate op => rw [act, shelve_perform, shelve_shelve]; rfl
  | evict a data d =>
    cases d with
    | cache => simp [act, shelveAfter]
    | memory => simp [act, shelveAfter]
    | probe =>
      rcases c.victims.allocate_probe_cases a data with
        ⟨fault, refused, still⟩ | ⟨slot, taken, beside, done, again, same⟩
      · simp only [act, allocateVictim, victims_shelve, refused, still]
        exact shelve_shelve (noteFault ((.error fault : Except Fault Slot), c)).2
      · simp only [act, allocateVictim, victims_shelve, done, again, ← shelve_transferVictims]
        simp only [shelve, same]
  | snoop p => simp [act, shelve_handleProbe, shelveAfter]
  | complete m => simp [act, shelve_complete, shelveAfter]
  | drain => exact shelve_shelve { c with outbound := [] }

variable {c : Controller}

theorem Good.shelve_eq (good : c.Good) : c.shelve = c :=
  congrArg (fun victims => { c with victims }) (VictimBuffer.settled_shelved good.settled)

theorem transferVictims_shelved (settled : c.victims.shelved.Settled) : c.transferVictims = c := by
  have cache := VictimBuffer.startTransfers_idle (b := c.victims) (d := .cache)
    fun _ _ present => settled.waitsFor_eq present (by decide)
  have memory := VictimBuffer.startTransfers_idle (b := c.victims) (d := .memory)
    fun _ _ present => settled.waitsFor_eq present (by decide)
  simp [transferVictims, cache, memory]

theorem Good.keepVictim (good : c.Good) (a : Address) (data : Block) :
    ∃ victims counters, (c.allocateVictim a data .probe).2.shelve = { c with victims, counters } ∧
      victims.Settled := by
  rcases VictimBuffer.allocate_cases c.victims a data .probe with
    ⟨_, refused⟩ | ⟨_, slot, _, taken⟩
  · have shape : (c.allocateVictim a data .probe).2 = (noteFault
        ((.error (.exhausted .victimBuffer) : Except Fault Slot), c)).2 := by
      simp only [Controller.allocateVictim, refused]
    let counters := c.counters.noteRefusal (Fault.exhausted .victimBuffer).isBackpressure
    have kept : Good { c with counters } := good.of_eq rfl rfl rfl
    refine ⟨c.victims, counters, ?_, good.settled⟩
    rw [shape]
    exact kept.shelve_eq
  · let victims : VictimBuffer :=
      ⟨c.victims.slots.put slot { addr := a.block, data, destination := .probe }⟩
    let counters := countVictim c.counters .probe
    have started : victims.shelved.Settled := fun i v found =>
      (good.settled.probed slot a.block data i v found).1
    have shape : (c.allocateVictim a data .probe).2 = transferVictims { c with victims, counters } := by
      simp only [Controller.allocateVictim, taken, victims, counters]
    refine ⟨victims.shelved, counters, ?_, started⟩
    rw [shape, ← shelve_transferVictims]
    exact transferVictims_settled started

theorem Good.of_act (good : c.Good) (x : Action) : (c.act x).shelve.Good := by
  have shelved {d : Controller} (kept : d.Good) : d.shelve.Good := by rwa [kept.shelve_eq]
  cases x with
  | operate op => exact shelved (good.of_perform op)
  | evict a data d =>
    by_cases bound : d = .probe
    · subst bound
      obtain ⟨victims, counters, shape, settled⟩ := good.keepVictim a data
      rw [Controller.act, shape]
      exact ⟨good.toLevels.of_eq rfl rfl, settled⟩
    · rcases good.allocateVictim a data bound with ⟨_, _, quiet⟩ | ⟨_, _, _, kept, _⟩
      · exact shelved quiet.good
      · exact shelved kept
  | snoop p => exact shelved (good.handleProbe_good p)
  | complete m => exact shelved (good.complete m)
  | drain => exact shelved (good.of_eq rfl rfl rfl)

/-- Once its kept victims are shelved, a controller is good after any actions. -/
theorem good_follow (actions : List Action) (good : c.shelve.Good) :
    (c.follow actions).shelve.Good := by
  induction actions generalizing c with
  | nil => exact good
  | cons x rest ih =>
    -- a controller with kept victims is not good itself, so the action is taken once they are shelved
    refine ih ?_
    rw [← shelve_act]
    exact good.of_act x

theorem good_ofRegisters {cpu : Nat} {registers : Registers}
    (built : ofRegisters cpu registers = .ok c) : c.Good := by
  refine ⟨(nested_ofRegisters built).toLevels, ?_⟩
  unfold ofRegisters at built
  split at built
  · cases built
  · cases built
    exact VictimBuffer.settled_empty

end Controller
end CacheCoherence
