import CacheCoherence.Proofs.Inclusion
import CacheCoherence.Proofs.IoBuffering

namespace CacheCoherence

def fault? {α : Type} : Except Fault α → Option Fault
  | .ok _ => none
  | .error fault => some fault

theorem fault?_eq_some {α : Type} {result : Except Fault α} {fault : Fault}
    (failed : fault? result = some fault) : result = .error fault := by
  cases result with
  | ok x => cases failed
  | error other =>
    cases failed
    rfl

namespace MissFile

variable {f file : MissFile} {r : Reference}

theorem allocate_error {fault : Fault} (refused : f.allocate r = (.error fault, file)) :
    file = f := by
  rcases allocate_cases f r with ⟨_, same⟩ | ⟨_, _, _, _, taken⟩ | ⟨_, _, _, _, taken⟩
  · rw [same] at refused
    cases refused
    rfl
  · rw [taken] at refused
    cases refused
  · rw [taken] at refused
    cases refused

theorem waits_of_allocate {p : Placement} (taken : f.allocate r = (.ok p, file)) :
    ∃ m, file.get? p.slot = some m ∧ m.answer = none := by
  rcases allocate_cases f r with
    ⟨fault, refused⟩ | ⟨slot, m, _, target, joined⟩ | ⟨slot, _, _, _, alone⟩
  · rw [refused] at taken
    cases taken
  · rw [joined] at taken
    cases taken
    exact ⟨{ m with request := m.request.join r }, by rw [get?_put, if_pos rfl],
      (mergeTarget_some target).2.2.1⟩
  · rw [alone] at taken
    cases taken
    exact ⟨{ request := r }, by rw [get?_put, if_pos rfl], rfl⟩

end MissFile

theorem VictimBuffer.allocate_error {b buffer : VictimBuffer} {a : Address} {data : Block}
    {d : Destination} {fault : Fault} (refused : b.allocate a data d = (.error fault, buffer)) :
    b.hasRoom = false ∧ buffer = b := by
  rcases allocate_cases b a data d with ⟨full, same⟩ | ⟨_, _, _, taken⟩
  · rw [same] at refused
    cases refused
    exact ⟨full, rfl⟩
  · rw [taken] at refused
    cases refused

theorem BackupCache.write_false {cache after : BackupCache} {a : Address} {bytes : List UInt8}
    (missing : cache.write a bytes = (false, after)) : after = cache := by
  unfold write at missing
  split at missing
  · cases missing
    rfl
  · cases missing

namespace Controller

variable {c d : Controller} {fault : Fault}

/-- The controller with a fault counted: only one for want of room counts. -/
def noting (c : Controller) (fault : Fault) : Controller :=
  { c with counters.backpressure := c.counters.backpressure + fault.isBackpressure.toNat }

theorem noteFault_error {α : Type} (fault : Fault) (c : Controller) :
    noteFault ((.error fault : Except Fault α), c) = (.error fault, c.noting fault) := by
  cases pressure : fault.isBackpressure <;> simp [noteFault, noting, Counters.noteRefusal, pressure]

/-! Steps that do not fail. -/

theorem answerMiss_waiting {slot : Slot} {m : Miss} (present : c.misses.get? slot = some m)
    (waits : m.answer = none) (answer : Answer) : (c.answerMiss slot answer).1 = .ok () := by
  simp only [answerMiss, MissFile.complete_waiting present waits]

theorem keepDisplaced_fst (room : c.victims.hasRoom) (displaced : Option Displaced) :
    (c.keepDisplaced displaced).1 = .ok () := by
  unfold keepDisplaced
  split
  · rfl
  · split
    · split
      · rfl
      · split
        · rename_i refused
          rw [(VictimBuffer.allocate_error refused).1] at room
          cases room
        · rfl
    · rfl

theorem fillPrimary_fst (room : c.victims.hasRoom) (a : Address) (s : LineState) :
    (c.fillPrimary a s).1 = .ok () := by
  have kept := keepDisplaced_fst (c := { c with tags := (c.tags.fill a s).2 }) room (c.tags.fill a s).1
  unfold fillPrimary
  simp only
  split
  · rename_i refused
    rw [refused] at kept
    cases kept
  · rfl

theorem refillPrimary_fst (c : Controller) (a : Address) (s : LineState) :
    (c.refillPrimary a s).1 = .ok () := by
  unfold refillPrimary
  split
  · rename_i guard
    simp only [Bool.and_eq_true] at guard
    exact fillPrimary_fst guard.2 a s
  · rfl

theorem allocateVictim_error {a : Address} {data : Block} {bound : Destination}
    (refused : c.allocateVictim a data bound = (.error fault, d)) :
    c.victims.hasRoom = false ∧ d = c.noting fault := by
  unfold allocateVictim at refused
  split at refused
  · rename_i shape
    obtain ⟨full, rfl⟩ := VictimBuffer.allocate_error shape
    rw [noteFault_error] at refused
    cases refused
    exact ⟨full, rfl⟩
  · cases refused

theorem expel_fst (a : Address) {s : LineState} (known : s = c.lookup a ∨ s = .invalid)
    (room : s.isDirty → c.victims.hasRoom) : (c.expel a s).1 = .ok () := by
  unfold expel
  split
  · rename_i valid
    simp only
    split
    · rfl
    · rename_i held data cache dropped
      -- the backup cache's own dirty bit is part of what `lookup` says
      have dirty : held.isDirty → s.isDirty := by
        intro dirty
        rcases known with rfl | rfl
        · have line := BackupCache.drop_fst c.cache a
          rw [dropped] at line
          obtain ⟨l, found, same⟩ := Option.map_eq_some_iff.mp line.symm
          cases same
          rw [lookup, isDirty_merge, BackupCache.stateOf_eq, found]
          simpa using .inr dirty
        · cases valid
      split
      · rename_i leaves
        have free : c.victims.hasRoom := by
          rcases Bool.or_eq_true_iff.mp leaves with newer | newer
          · exact room newer
          · exact room (dirty newer)
        split
        · rename_i refused
          have full := (allocateVictim_error refused).1
          change c.victims.hasRoom = false at full
          rw [full] at free
          cases free
        · rfl
      · rfl
  · rfl

/-! Calls that fail, and what they leave behind. -/

theorem request_error {r : Reference} {kind : ReadKind}
    (refused : c.request r kind = (.error fault, d)) : d = c := by
  unfold request at refused
  split at refused
  · rename_i shape
    cases refused
    rw [MissFile.allocate_error shape]
  · split at refused <;> cases refused

theorem barrier_error {r : Reference} (refused : c.barrier r = (.error fault, d)) : d = c := by
  unfold barrier at refused
  split at refused
  · rename_i shape
    cases refused
    rw [MissFile.allocate_error shape]
  · cases refused

theorem completeLocally_error {r : Reference} {s : LineState}
    (refused : c.completeLocally r s = (.error fault, d)) : d = c := by
  unfold completeLocally at refused
  split at refused
  · rename_i shape
    cases refused
    rw [MissFile.allocate_error shape]
  · rename_i p misses shape
    obtain ⟨m, present, waits⟩ := MissFile.waits_of_allocate shape
    simp only at refused
    generalize start : Controller.mk c.cpu _ misses _ _ _ _ _ _ _ = taken at refused
    have entered := refillPrimary_fst taken r.addr s
    obtain ⟨sent, refilled⟩ := shed_refillPrimary taken r.addr s
    split at refused
    · rename_i failed
      rw [failed] at entered
      cases entered
    · rename_i e done
      rw [done] at refilled
      rw [← start] at refilled
      have answered := answerMiss_waiting (c := e) (by rw [refilled.misses]; exact present) waits
        ⟨e.cache.read r.addr, s.shared, false⟩
      split at refused
      · rename_i failed
        rw [failed] at answered
        cases answered
      · cases refused

theorem purge_error {r : Reference} {s : LineState} (known : s = c.lookup r.addr ∨ s = .invalid)
    (refused : c.purge r s = (.error fault, d)) : d = c := by
  unfold purge at refused
  split at refused
  · cases refused
    rfl
  · rename_i guard
    have room : s.isDirty → c.victims.hasRoom := by
      intro dirty
      simpa [dirty] using guard
    split at refused
    · rename_i shape
      cases refused
      rw [MissFile.allocate_error shape]
    · rename_i p misses shape
      obtain ⟨m, present, waits⟩ := MissFile.waits_of_allocate shape
      generalize start : Controller.mk c.cpu _ misses _ _ _ _ _ _ _ = taken at refused
      have gone := expel_fst (c := taken) r.addr (s := s) (by rw [← start]; exact known)
        (by rw [← start]; exact room)
      obtain ⟨sent, expelled⟩ := shed_expel taken r.addr s
      split at refused
      · rename_i failed
        rw [failed] at gone
        cases gone
      · rename_i e done
        rw [done] at expelled
        rw [← start] at expelled
        have answered := answerMiss_waiting (c := e) (by rw [expelled.misses]; exact present) waits
          ⟨none, false, false⟩
        split at refused
        · rename_i failed
          rw [failed] at answered
          cases answered
        · cases refused

theorem dispatch_error {r : Reference} {s : LineState} (known : s = c.lookup r.addr ∨ s = .invalid)
    (refused : c.dispatch r s = (.error fault, d)) : d = c := by
  unfold dispatch at refused
  split at refused
  · exact barrier_error refused
  · exact purge_error known refused
  all_goals
    split at refused
    · exact completeLocally_error refused
    · first
        | exact request_error refused
        | split at refused <;> exact request_error refused

theorem issue_error {r : Reference} (refused : c.issue r = (.error fault, d)) : d = c := by
  unfold issue at refused
  split at refused
  · cases refused
    rfl
  · split at refused
    · split at refused
      · exact dispatch_error (.inr rfl) refused
      · cases refused
        rfl
    · exact dispatch_error (.inl rfl) refused

/-- What a call is refused with. Completions and the calls that hand something over are not looked
at: they may free a slot and fail all the same. -/
def refusal (c : Controller) : Action → Option Fault
  | .operate (.issue r) => fault? (c.allocateMiss r).1
  | .operate (.store a bytes) => fault? (c.store a bytes).1
  | .operate (.storeIo s) => fault? (c.storeIo s).1
  | .operate (.retire a data) => fault? (c.retireVictim a data).1
  | .evict a data bound => fault? (c.allocateVictim a data bound).1
  | .snoop p => fault? (c.handleProbe p).1
  | .operate (.consume _) | .operate .flush | .complete _ | .drain => none

theorem allocateMiss_error {r : Reference} (refused : c.allocateMiss r = (.error fault, d)) :
    d = c.noting fault := by
  unfold allocateMiss at refused
  cases shape : c.issue r with
  | mk result e =>
    rw [shape] at refused
    cases result with
    | ok slot => cases refused
    | error other =>
      rw [noteFault_error] at refused
      cases refused
      rw [issue_error shape]

theorem retireVictim_error {a : Address} {data : Block}
    (refused : c.retireVictim a data = (.error fault, d)) : d = c.noting fault := by
  unfold retireVictim at refused
  split at refused
  · cases refused
    rfl
  · split at refused
    · rename_i shape
      cases refused
      exact (allocateVictim_error shape).2
    · cases refused

theorem storeIo_error {s : IoStore} (refused : c.storeIo s = (.error fault, d)) :
    d = c.noting fault := by
  unfold storeIo at refused
  split at refused
  · rename_i shape
    rw [WriteBuffer.allocate_error shape, noteFault_error] at refused
    cases refused
    rfl
  · cases refused

theorem store_error {a : Address} {bytes : List UInt8}
    (refused : c.store a bytes = (.error fault, d)) : d = c.noting fault := by
  unfold store at refused
  split at refused
  · split at refused
    · split at refused
      · cases refused
      · rename_i missing
        cases refused
        rw [BackupCache.write_false missing]
        rfl
    · cases refused
      rfl
  · cases refused
    rfl

theorem answerProbe_error {p : Probe} {s : LineState}
    (refused : c.answerProbe p s = (.error fault, d)) : d = c.noting fault := by
  unfold answerProbe at refused
  split at refused
  · cases refused
  · split at refused
    · split at refused
      · rename_i shape
        rw [(VictimBuffer.allocate_error shape).2, noteFault_error] at refused
        cases refused
        rfl
      · cases refused
    · cases refused

theorem handleProbe_error {p : Probe} (refused : c.handleProbe p = (.error fault, d)) :
    d = c.noting fault := by
  unfold handleProbe at refused
  split at refused
  · cases refused
  · simp only at refused
    split at refused
    · split at refused
      · cases refused
      · exact answerProbe_error refused
    · exact answerProbe_error refused

/-- A call that is refused changes nothing, in any state, but the count of refusals for want of
room. -/
theorem act_refused (c : Controller) {x : Action} {fault : Fault} (refused : c.refusal x = some fault) :
    c.act x = { c with
      counters.backpressure := c.counters.backpressure + fault.isBackpressure.toNat } := by
  change c.act x = c.noting fault
  cases x with
  | operate op =>
    cases op with
    | issue r => exact allocateMiss_error (Prod.ext (fault?_eq_some refused) rfl)
    | store a bytes => exact store_error (Prod.ext (fault?_eq_some refused) rfl)
    | storeIo s => exact storeIo_error (Prod.ext (fault?_eq_some refused) rfl)
    | retire a data => exact retireVictim_error (Prod.ext (fault?_eq_some refused) rfl)
    | consume slot => cases refused
    | flush => cases refused
  | evict a data bound => exact (allocateVictim_error (Prod.ext (fault?_eq_some refused) rfl)).2
  | snoop p => exact handleProbe_error (Prod.ext (fault?_eq_some refused) rfl)
  | complete m => cases refused
  | drain => cases refused

theorem act_refused_crowded :
    ∃ c, ofSize 0 .mb1 = .ok c ∧
      (c.follow (owning ++ crowd)).refusal (.operate (.issue (.to .purge 0))) =
        some (.exhausted .victimBuffer) ∧
      (c.follow (owning ++ crowd)).act (.operate (.issue (.to .purge 0))) =
        { c.follow (owning ++ crowd) with
          counters.backpressure := (c.follow (owning ++ crowd)).counters.backpressure + 1 } ∧
      (c.follow (owning ++ crowd)).lookup ⟨0⟩ = .modified := by
  have built : ofRegisters 0 (.forCache .mb1) = .ok _ := rfl
  have counted (e : Controller) (x : Action) (refused : e.refusal x = some (.exhausted .victimBuffer)) :
      e.act x = { e with counters.backpressure := e.counters.backpressure + 1 } :=
    act_refused e refused
  refine ⟨_, built, ?_, counted _ _ ?_, ?_⟩
  · decide +kernel
  · decide +kernel
  · decide +kernel

end Controller
end CacheCoherence
