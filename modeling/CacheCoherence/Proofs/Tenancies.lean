import CacheCoherence.Proofs.Refusals
import Mathlib.Data.List.Induction

namespace CacheCoherence

theorem Reference.waiters_of_check {r : Reference} (checked : r.check = .ok ()) :
    r.waiters.length ≤ slotCount := by
  unfold check at checked
  split at checked
  · cases checked
  split at checked
  · cases checked
  split at checked
  · cases checked
  rename_i few
  exact Nat.not_lt.mp few

/-- References that joined one after the other are one reference, with all who wait. -/
theorem Reference.foldl_join (later : List Reference) (r : Reference) :
    (later.foldl join r).access = r.access ∧ (later.foldl join r).addr = r.addr ∧
      (later.foldl join r).waiters = r.waiters ++ later.flatMap (·.waiters) := by
  induction later generalizing r with
  | nil => simp
  | cons q rest ih =>
    obtain ⟨access, addr, waiters⟩ := ih (r.join q)
    refine ⟨access, addr, ?_⟩
    rw [List.foldl_cons, waiters, List.flatMap_cons, ← List.append_assoc]
    rfl

/-- A slot since it was taken: the reference that took it, those that joined, and the answer. -/
structure Tenancy where
  first : Reference
  joined : List Reference := []
  answer : Option Answer := none

namespace Tenancy

def waiters (t : Tenancy) : List UInt8 := (t.first :: t.joined).flatMap (·.waiters)

def outcome (t : Tenancy) (a : Answer) : Except Fault Fill :=
  if a.absent then .error (.absentMemory t.first.addr)
  else
    .ok { access := t.first.access, addr := t.first.addr, data := a.data, shared := a.shared,
          waiters := t.waiters }

def miss (t : Tenancy) : Miss :=
  { request := t.joined.foldl Reference.join t.first, answer := t.answer }

@[simp] theorem answer_miss (t : Tenancy) : t.miss.answer = t.answer := rfl

@[simp] theorem access_miss (t : Tenancy) : t.miss.request.access = t.first.access :=
  (Reference.foldl_join t.joined t.first).1

@[simp] theorem addr_miss (t : Tenancy) : t.miss.request.addr = t.first.addr :=
  (Reference.foldl_join t.joined t.first).2.1

@[simp] theorem waiters_miss (t : Tenancy) : t.miss.request.waiters = t.waiters := by
  rw [waiters, List.flatMap_cons]
  exact (Reference.foldl_join t.joined t.first).2.2

theorem miss_join (t : Tenancy) (r : Reference) :
    Tenancy.miss { t with joined := t.joined ++ [r] } =
      { t.miss with request := t.miss.request.join r } := by
  simp [miss]

end Tenancy

namespace MissFile

inductive Call
  | allocate (r : Reference)
  | complete (slot : Slot) (answer : Answer)
  | consume (slot : Slot)
  deriving DecidableEq

inductive Event
  | allocated (r : Reference) (outcome : Except Fault Placement)
  | completed (slot : Slot) (answer : Answer) (outcome : Except Fault Unit)
  | consumed (slot : Slot) (outcome : Except Fault Fill)

def Event.fault? : Event → Option Fault
  | .allocated _ outcome => CacheCoherence.fault? outcome
  | .completed _ _ outcome => CacheCoherence.fault? outcome
  | .consumed _ outcome => CacheCoherence.fault? outcome

def call (f : MissFile) : Call → Event × MissFile
  | .allocate r => (.allocated r (f.allocate r).1, (f.allocate r).2)
  | .complete slot answer => (.completed slot answer (f.complete slot answer).1, (f.complete slot answer).2)
  | .consume slot => (.consumed slot (f.consume slot).1, (f.consume slot).2)

def run (calls : List Call) : List Event × MissFile :=
  calls.foldl (fun state x => (state.1 ++ [(state.2.call x).1], (state.2.call x).2)) ([], .empty)

inductive Deed
  | taken (r : Reference)
  | joined (r : Reference)
  | answered (a : Answer)
  | freed (outcome : Except Fault Fill)

/-- What an event is to slot `i`. A slot is freed also when no memory stood behind its address. -/
def Event.deed? (i : Slot) : Event → Option Deed
  | .allocated r (.ok p) =>
    if p.slot = i then some (if p.merged then .joined r else .taken r) else none
  | .completed slot a (.ok ()) => if slot = i then some (.answered a) else none
  | .consumed slot (.ok fill) => if slot = i then some (.freed (.ok fill)) else none
  | .consumed slot (.error (.absentMemory a)) =>
    if slot = i then some (.freed (.error (.absentMemory a))) else none
  | .allocated _ (.error _) | .completed _ _ (.error _) | .consumed _ (.error _) => none

def deeds (i : Slot) (log : List Event) : List Deed := log.filterMap (·.deed? i)

/-- A slot to which this has happened, in this order, stands so. -/
inductive Lived : List Deed → Option Tenancy → Prop
  | fresh : Lived [] none
  | taken {past : List Deed} (before : Lived past none) (r : Reference) :
      Lived (past ++ [.taken r]) (some { first := r })
  | joined {past : List Deed} {t : Tenancy} (before : Lived past (some t)) (waits : t.answer = none)
      (r : Reference) (access : r.access = t.first.access) (block : r.addr.block = t.first.addr.block) :
      Lived (past ++ [.joined r]) (some { t with joined := t.joined ++ [r] })
  | answered {past : List Deed} {t : Tenancy} (before : Lived past (some t)) (waits : t.answer = none)
      (a : Answer) : Lived (past ++ [.answered a]) (some { t with answer := some a })
  | freed {past : List Deed} {t : Tenancy} (before : Lived past (some t)) (a : Answer)
      (answered : t.answer = some a) : Lived (past ++ [.freed (t.outcome a)]) none

/-- A file whose slots stand so, and what it makes of the next call. -/
structure Keeps (f : MissFile) (stands : Slot → Option Tenancy) : Prop where
  size : f.slots.cells.toList.length = slotCount
  entry : ∀ i, f.get? i = (stands i).map Tenancy.miss
  few : ∀ i t, stands i = some t → t.waiters.length ≤ slotCount
  completes : ∀ i a, (f.complete i a).1 = .ok () ↔ ∃ t, stands i = some t ∧ t.answer = none
  delivers : ∀ i t a, stands i = some t → t.answer = some a → (f.consume i).1 = t.outcome a
  withholds : ∀ i, (∀ t, stands i = some t → t.answer = none) →
    ∃ reason, (f.consume i).1 = .error (.rejected reason)
  refuses : ∀ x fault, (f.call x).1.fault? = some fault → (∀ a, fault ≠ .absentMemory a) →
    (f.call x).2 = f

structure Recorded (log : List Event) (f : MissFile) (stands : Slot → Option Tenancy) : Prop where
  lived : ∀ i, Lived (deeds i log) (stands i)
  entry : ∀ i, f.get? i = (stands i).map Tenancy.miss
  few : ∀ i t, stands i = some t → t.waiters.length ≤ slotCount

variable {f : MissFile} {log : List Event} {stands : Slot → Option Tenancy}

theorem mergeTarget_room {r : Reference} {slot : Slot} {m : Miss}
    (target : f.mergeTarget r = some (slot, m)) :
    m.request.waiters.length + r.waiters.length ≤ slotCount := by
  unfold mergeTarget at target
  split at target
  · split at target
    · cases target
    · split at target
      · rename_i room
        cases target
        exact room
      · cases target
  · cases target

@[simp] theorem deeds_append (i : Slot) (log : List Event) (e : Event) :
    deeds i (log ++ [e]) = deeds i log ++ (e.deed? i).toList := by
  rw [deeds, List.filterMap_append, ← deeds]
  cases here : e.deed? i with
  | none => simp [here]
  | some deed => simp [here]

theorem recorded_empty : Recorded [] empty fun _ => none where
  lived _ := .fresh
  entry _ := Slots.get?_empty _
  few _ _ held := by cases held

theorem Recorded.idle (recorded : Recorded log f stands) {e : Event} (nothing : ∀ i, e.deed? i = none) :
    Recorded (log ++ [e]) f stands := by
  refine ⟨fun i => ?_, recorded.entry, recorded.few⟩
  rw [deeds_append, nothing i]
  simpa using recorded.lived i

theorem Recorded.move (recorded : Recorded log f stands) (i : Slot) (deed : Deed)
    (next : Option Tenancy) {e : Event} {g : MissFile}
    (events : ∀ j, e.deed? j = if i = j then some deed else none)
    (entry : ∀ j, g.get? j = if i = j then next.map Tenancy.miss else f.get? j)
    (lived : Lived (deeds i log ++ [deed]) next)
    (few : ∀ t, next = some t → t.waiters.length ≤ slotCount) :
    Recorded (log ++ [e]) g fun j => if i = j then next else stands j := by
  constructor
  · intro j
    rw [deeds_append, events j]
    by_cases here : i = j
    · subst here
      simpa using lived
    · simpa [here] using recorded.lived j
  · intro j
    rw [entry j]
    split
    · rfl
    · exact recorded.entry j
  · intro j t held
    split at held
    · exact few t held
    · exact recorded.few j t held

theorem Recorded.tenancy (recorded : Recorded log f stands) {i : Slot} {m : Miss}
    (present : f.get? i = some m) : ∃ t, stands i = some t ∧ t.miss = m := by
  have entry := recorded.entry i
  rw [present] at entry
  exact Option.map_eq_some_iff.mp entry.symm

theorem Recorded.vacant (recorded : Recorded log f stands) {i : Slot} (free : f.get? i = none) :
    stands i = none := by
  have entry := recorded.entry i
  rw [free] at entry
  exact Option.map_eq_none_iff.mp entry.symm

theorem Recorded.allocate (recorded : Recorded log f stands) (r : Reference) :
    ∃ after, Recorded (log ++ [.allocated r (f.allocate r).1]) (f.allocate r).2 after := by
  rcases allocate_cases f r with
    ⟨fault, refused⟩ | ⟨slot, m, _, target, joined⟩ | ⟨slot, checked, _, free, alone⟩
  · rw [refused]
    exact ⟨stands, recorded.idle fun _ => rfl⟩
  · obtain ⟨_, present, waits, access, block⟩ := mergeTarget_some target
    obtain ⟨t, held, rfl⟩ := recorded.tenancy present
    have before := recorded.lived slot
    rw [held] at before
    rw [joined]
    refine ⟨_, recorded.move slot (.joined r)
      (some { t with joined := t.joined ++ [r] }) (fun j => ?_) (fun j => ?_) ?_ ?_⟩
    · rfl
    · rw [get?_put, Option.map_some, Tenancy.miss_join]
    · exact .joined before waits r (by simpa using access.symm) (by simpa using block.symm)
    · rintro u ⟨⟩
      have room := mergeTarget_room target
      rw [Tenancy.waiters_miss] at room
      simpa [Tenancy.waiters, Nat.add_assoc] using room
  · have before := recorded.lived slot
    rw [recorded.vacant free] at before
    rw [alone]
    refine ⟨_, recorded.move slot (.taken r) (some { first := r })
      (fun j => rfl) (fun j => ?_) (.taken before r) ?_⟩
    · rw [get?_put]
      rfl
    · rintro u ⟨⟩
      simpa [Tenancy.waiters] using Reference.waiters_of_check checked

theorem Recorded.complete (recorded : Recorded log f stands) (slot : Slot) (a : Answer) :
    ∃ after, Recorded (log ++ [.completed slot a (f.complete slot a).1]) (f.complete slot a).2 after := by
  cases present : f.get? slot with
  | none =>
    simp only [MissFile.complete, present]
    exact ⟨stands, recorded.idle fun _ => rfl⟩
  | some m =>
    obtain ⟨t, held, rfl⟩ := recorded.tenancy present
    cases waits : t.answer with
    | some b =>
      simp only [MissFile.complete, present, Tenancy.answer_miss, waits, Option.isSome_some, if_true]
      exact ⟨stands, recorded.idle fun _ => rfl⟩
    | none =>
      have before := recorded.lived slot
      rw [held] at before
      rw [complete_waiting present waits]
      refine ⟨_, recorded.move slot (.answered a)
        (some { t with answer := some a }) (fun j => rfl) (fun j => ?_)
        (.answered before waits a) ?_⟩
      · rw [get?_put]
        rfl
      · rintro u ⟨⟩
        exact recorded.few slot t held

theorem consume_answered {slot : Slot} {t : Tenancy} {a : Answer} (present : f.get? slot = some t.miss)
    (answered : t.answer = some a) : f.consume slot = (t.outcome a, ⟨f.slots.clear slot⟩) := by
  simp only [consume, present, Tenancy.answer_miss, answered, Tenancy.access_miss, Tenancy.addr_miss,
    Tenancy.waiters_miss, Tenancy.outcome]
  split <;> rfl

theorem deed?_consumed (slot i : Slot) (t : Tenancy) (a : Answer) :
    (Event.consumed slot (t.outcome a)).deed? i =
      if slot = i then some (.freed (t.outcome a)) else none := by
  unfold Tenancy.outcome
  split <;> rfl

theorem Recorded.consume (recorded : Recorded log f stands) (slot : Slot) :
    ∃ after, Recorded (log ++ [.consumed slot (f.consume slot).1]) (f.consume slot).2 after := by
  cases present : f.get? slot with
  | none =>
    simp only [MissFile.consume, present]
    exact ⟨stands, recorded.idle fun _ => rfl⟩
  | some m =>
    obtain ⟨t, held, rfl⟩ := recorded.tenancy present
    cases answered : t.answer with
    | none =>
      simp only [MissFile.consume, present, Tenancy.answer_miss, answered]
      exact ⟨stands, recorded.idle fun _ => rfl⟩
    | some a =>
      have before := recorded.lived slot
      rw [held] at before
      rw [consume_answered present answered]
      refine ⟨_, recorded.move slot _ none (deed?_consumed slot · t a) (fun j => ?_)
        (.freed before a answered) nofun⟩
      exact Slots.get?_clear f.slots slot j

theorem Recorded.call (recorded : Recorded log f stands) (x : Call) :
    ∃ after, Recorded (log ++ [(f.call x).1]) (f.call x).2 after := by
  cases x with
  | allocate r => exact recorded.allocate r
  | complete slot a => exact recorded.complete slot a
  | consume slot => exact recorded.consume slot

theorem run_append (calls : List Call) (x : Call) :
    run (calls ++ [x]) =
      ((run calls).1 ++ [((run calls).2.call x).1], ((run calls).2.call x).2) := by
  simp [run, List.foldl_append]

theorem recorded_run (calls : List Call) :
    ∃ stands, Recorded (run calls).1 (run calls).2 stands := by
  induction calls using List.reverseRecOn with
  | nil => exact ⟨_, recorded_empty⟩
  | append_singleton earlier x ih =>
    obtain ⟨stands, recorded⟩ := ih
    rw [run_append]
    exact recorded.call x

/-- A call that is refused changes nothing; one for which no memory stood frees its slot. -/
theorem call_refused {x : Call} {fault : Fault} (refused : (f.call x).1.fault? = some fault)
    (backed : ∀ a, fault ≠ .absentMemory a) : (f.call x).2 = f := by
  cases x with
  | allocate r => exact allocate_error (Prod.ext (fault?_eq_some refused) rfl)
  | complete slot a =>
    simp only [call, Event.fault?, MissFile.complete] at refused ⊢
    split at refused
    · rfl
    · split at refused
      · rename_i answered
        simp only [answered, if_true]
      · cases refused
  | consume slot =>
    simp only [call, Event.fault?, MissFile.consume] at refused ⊢
    split at refused
    · rfl
    · split at refused
      · rfl
      · split at refused
        · cases refused
          exact absurd rfl (backed _)
        · cases refused

theorem Recorded.completes_iff (recorded : Recorded log f stands) (i : Slot) (a : Answer) :
    (f.complete i a).1 = .ok () ↔ ∃ t, stands i = some t ∧ t.answer = none := by
  constructor
  · intro done
    cases present : f.get? i with
    | none => simp [MissFile.complete, present] at done
    | some m =>
      obtain ⟨t, held, rfl⟩ := recorded.tenancy present
      refine ⟨t, held, ?_⟩
      cases waits : t.answer with
      | none => rfl
      | some b => simp [MissFile.complete, present, waits] at done
  · rintro ⟨t, held, waits⟩
    have present := recorded.entry i
    rw [held] at present
    rw [complete_waiting present waits]

theorem Recorded.withheld (recorded : Recorded log f stands) {i : Slot}
    (waits : ∀ t, stands i = some t → t.answer = none) :
    ∃ reason, (f.consume i).1 = .error (.rejected reason) := by
  cases present : f.get? i with
  | none =>
    simp only [MissFile.consume, present]
    exact ⟨_, rfl⟩
  | some m =>
    obtain ⟨t, held, rfl⟩ := recorded.tenancy present
    simp only [MissFile.consume, present, Tenancy.answer_miss, waits t held]
    exact ⟨_, rfl⟩

/-- After any calls the log of each slot is a life of that slot, and the file keeps what it tells: the
slot is held from the reference that takes it until it is consumed, it is answered once, and then the
pipeline gets the answer together with everyone who waits. -/
theorem tenancies_run (calls : List Call) :
    ∃ stands, (∀ i, Lived (deeds i (run calls).1) (stands i)) ∧ (run calls).2.Keeps stands := by
  obtain ⟨stands, recorded⟩ := recorded_run calls
  refine ⟨stands, recorded.lived, ?_⟩
  constructor
  · exact Vector.length_toList
  · exact recorded.entry
  · exact recorded.few
  · exact recorded.completes_iff
  · intro i t a held answered
    have present := recorded.entry i
    rw [held] at present
    rw [consume_answered present answered]
  · intro i waits
    exact recorded.withheld waits
  · intro x fault refused backed
    exact call_refused refused backed

end MissFile
end CacheCoherence
