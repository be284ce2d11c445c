import CacheCoherence.Proofs.Tenancies

/-! References that join one that waits already. Only the lowest entry for the kind and the block is
looked at: when it is too full, an entry above it that has room is overlooked. There are two such entries
only after a reference was turned away from a full one. -/

namespace CacheCoherence

/-- The entry can carry the waiters of `r` too. -/
def Miss.hasRoom (m : Miss) (r : Reference) : Bool :=
  m.request.waiters.length + r.waiters.length ≤ slotCount

namespace MissFile

def awaits (f : MissFile) (r : Reference) (i : Slot) : Bool :=
  (f.get? i).any (·.awaits r.access r.addr)

/-- Slot `i` waits for what `r` wants and has room for it. -/
def admits (f : MissFile) (r : Reference) (i : Slot) : Bool :=
  (f.get? i).any fun m => m.awaits r.access r.addr && m.hasRoom r

/-- Some entry could take `r` in, but the lowest that waits for the same is too full. -/
def Overlooks (f : MissFile) (r : Reference) : Prop :=
  (∃ i, f.awaits r i ∧ f.admits r i = false ∧ ∀ j < i, f.awaits r j = false) ∧ ∃ j, f.admits r j

instance (f : MissFile) (r : Reference) : Decidable (f.Overlooks r) :=
  inferInstanceAs (Decidable (_ ∧ _))

/-- Merging without exception: a reference joins whenever an entry could take it in, it takes no slot
then, and it is refused for want of room only when no slot is free and no entry could. -/
structure MergesFully (f : MissFile) (r : Reference) : Prop where
  joins : (∃ slot, (f.allocate r).1 = .ok ⟨slot, true⟩) ↔ ∃ i, f.admits r i
  thrifty : ∀ slot, (f.allocate r).1 = .ok ⟨slot, true⟩ →
    ∀ i, ((f.allocate r).2.get? i).isSome = (f.get? i).isSome
  exhausts : (f.allocate r).1 = .error (.exhausted .missFile) →
    (∀ i, (f.get? i).isSome) ∧ ∀ i, f.admits r i = false

/-- Before `r` a reference of its kind to its block met an entry that was too full, and took a slot of
its own. -/
def Spilled (calls : List Call) (r : Reference) : Prop :=
  ∃ earlier q later, calls = earlier ++ .allocate q :: later ∧
    q.access = r.access ∧ q.addr.block = r.addr.block ∧
    (∃ i, (run earlier).2.awaits q i ∧ (run earlier).2.admits q i = false) ∧
    ∃ slot, ((run earlier).2.allocate q).1 = .ok ⟨slot, false⟩

variable {f : MissFile} {q r : Reference} {i j : Slot}

theorem awaits_of_admits (admits : f.admits r i) : f.awaits r i := by
  simp only [MissFile.admits, Option.any_eq_true, Bool.and_eq_true] at admits
  obtain ⟨m, present, waits, _⟩ := admits
  simp [awaits, present, waits]

theorem findPending_some {m : Miss} (found : f.findPending r.access r.addr = some (i, m)) :
    f.awaits r i ∧ f.admits r i = m.hasRoom r ∧ ∀ j < i, f.awaits r j = false := by
  obtain ⟨present, waits⟩ := Slots.find?_some found
  have present : f.get? i = some m := present
  refine ⟨by simp [awaits, present, waits], by simp [admits, present, waits], fun j lower => ?_⟩
  cases below : f.get? j with
  | none => simp [awaits, below]
  | some n => simpa [awaits, below] using Slots.find?_least found lower below

theorem findPending_none (missing : f.findPending r.access r.addr = none) (i : Slot) :
    f.awaits r i = false := by
  cases present : f.get? i with
  | none => simp [awaits, present]
  | some m => simpa [awaits, present] using Slots.find?_eq_none.mp missing i m present

theorem mergeTarget_isSome_iff (merges : r.access.merges) :
    (f.mergeTarget r).isSome ↔ (∃ i, f.admits r i) ∧ ¬ f.Overlooks r := by
  rw [mergeTarget, if_pos merges]
  cases found : f.findPending r.access r.addr with
  | none =>
    have silent : ¬ ∃ i, f.admits r i := by
      rintro ⟨i, admits⟩
      simpa [findPending_none found i] using awaits_of_admits admits
    simp [silent]
  | some target =>
    obtain ⟨i, m⟩ := target
    obtain ⟨waits, room, lowest⟩ := findPending_some found
    have asked : (f.admits r i = true ↔ (∃ j, f.admits r j) ∧ ¬ f.Overlooks r) := by
      constructor
      · intro admits
        refine ⟨⟨i, admits⟩, ?_⟩
        rintro ⟨⟨k, waiting, full, least⟩, _⟩
        rcases Nat.lt_trichotomy i k with below | same | above
        · simp [least i below] at waits
        · cases Fin.ext same
          simp [full] at admits
        · simp [lowest k above] at waiting
      · rintro ⟨some, seen⟩
        by_contra full
        exact seen ⟨⟨i, waits, Bool.eq_false_of_not_eq_true full, lowest⟩, some⟩
    rw [← asked, room, Miss.hasRoom, decide_eq_true_iff]
    by_cases fits : m.request.waiters.length + r.waiters.length ≤ slotCount
    · simp [fits]
    · simp [fits]

/-- A reference that joins nobody takes a free slot, or there is none. -/
theorem allocate_unmerged (checked : r.check = .ok ()) (alone : f.mergeTarget r = none) :
    (∀ slot, (f.allocate r).1 ≠ .ok ⟨slot, true⟩) ∧
      ((f.allocate r).1 = .error (.exhausted .missFile) → ∀ i, (f.get? i).isSome) := by
  simp only [allocate, checked, alone]
  cases free : f.slots.free? with
  | some slot => simp
  | none =>
    constructor
    · intro slot joined
      cases joined
    · intro _ i
      simpa [get?] using Slots.first?_eq_none.mp free i

theorem mergesFully_iff_not_overlooks (checked : r.check = .ok ()) (merges : r.access.merges) :
    f.MergesFully r ↔ ¬ f.Overlooks r := by
  have targets := mergeTarget_isSome_iff (f := f) merges
  constructor
  · intro full overlooks
    obtain ⟨slot, joined⟩ := full.joins.mpr overlooks.2
    cases target : f.mergeTarget r with
    | none => exact (allocate_unmerged checked target).1 slot joined
    | some found => exact (targets.mp (by simp [target])).2 overlooks
  · intro seen
    cases target : f.mergeTarget r with
    | none =>
      have silent : ¬ ∃ i, f.admits r i := fun some => by
        simpa [target] using targets.mpr ⟨some, seen⟩
      obtain ⟨apart, exhausted⟩ := allocate_unmerged checked target
      constructor
      · constructor
        · rintro ⟨slot, joined⟩
          exact absurd joined (apart slot)
        · exact fun some => absurd some silent
      · exact fun slot joined => absurd joined (apart slot)
      · intro refused
        refine ⟨exhausted refused, fun i => ?_⟩
        exact Bool.eq_false_of_not_eq_true fun admits => silent ⟨i, admits⟩
    | some found =>
      obtain ⟨slot, m⟩ := found
      have taken : f.allocate r =
          (.ok ⟨slot, true⟩, ⟨f.slots.put slot { m with request := m.request.join r }⟩) := by
        simp only [allocate, checked, target]
      have present := (mergeTarget_some target).2.1
      constructor
      · rw [taken]
        exact ⟨fun _ => (targets.mp (by simp [target])).1, fun _ => ⟨slot, rfl⟩⟩
      · intro _ _ i
        rw [taken, get?_put]
        split
        · rename_i here
          simp [← here, present]
        · rfl
      · rw [taken]
        intro refused
        cases refused

/-! Two entries wait for the same. -/

/-- A slot begins to wait when a reference that joined nobody takes it. -/
theorem awaits_call {x : Call} (waits : (f.call x).2.awaits r i) :
    f.awaits r i ∨ ∃ q, x = .allocate q ∧ q.access = r.access ∧ q.addr.block = r.addr.block ∧
      f.mergeTarget q = none ∧ (f.allocate q).1 = .ok ⟨i, false⟩ := by
  cases x with
  | allocate q =>
    rcases allocate_cases f q with
      ⟨fault, refused⟩ | ⟨slot, m, _, target, joined⟩ | ⟨slot, _, alone, _, taken⟩
    · simp only [call, refused] at waits
      exact .inl waits
    · simp only [call, joined, awaits, get?_put] at waits
      split at waits
      · rename_i here
        subst here
        left
        rw [awaits, (mergeTarget_some target).2.1]
        exact waits
      · exact .inl waits
    · simp only [call, taken, awaits, get?_put] at waits
      split at waits
      · rename_i here
        subst here
        simp only [Option.any_some, Miss.awaits, Option.isNone_none, Bool.true_and, Bool.and_eq_true,
          beq_iff_eq] at waits
        exact .inr ⟨q, rfl, waits.1, waits.2, alone, by rw [taken]⟩
      · exact .inl waits
  | complete slot a =>
    left
    simp only [call, complete] at waits
    split at waits
    · exact waits
    · split at waits
      · exact waits
      · simp only [awaits, get?_put] at waits
        split at waits
        · simp [Miss.awaits] at waits
        · exact waits
  | consume slot =>
    left
    simp only [call, consume] at waits
    split at waits
    · exact waits
    · split at waits
      · exact waits
      · have cleared : MissFile.awaits ⟨f.slots.clear slot⟩ r i := by
          split at waits <;> exact waits
        rw [awaits, get?, Slots.get?_clear] at cleared
        split at cleared
        · cases cleared
        · exact cleared

theorem spilled_append {calls : List Call} (spilled : Spilled calls r) (x : Call) :
    Spilled (calls ++ [x]) r := by
  obtain ⟨earlier, q, later, rfl, found⟩ := spilled
  exact ⟨earlier, q, later ++ [x], by simp, found⟩

/-- A reference that joined nobody although somebody waits for the same found him, or a lower one, too
full. -/
theorem spilled_append_allocate {calls : List Call} (merges : r.access.merges)
    (access : q.access = r.access) (block : q.addr.block = r.addr.block)
    (alone : (run calls).2.mergeTarget q = none)
    (taken : ((run calls).2.allocate q).1 = .ok ⟨i, false⟩) (waits : (run calls).2.awaits r j) :
    Spilled (calls ++ [.allocate q]) r := by
  refine ⟨calls, q, [], rfl, access, block, ?_, i, taken⟩
  have waiting : (run calls).2.awaits q j := by
    rw [awaits, access]
    simpa only [awaits, Miss.awaits, block] using waits
  by_cases overlooks : (run calls).2.Overlooks q
  · obtain ⟨⟨k, waits, full, _⟩, _⟩ := overlooks
    exact ⟨k, waits, full⟩
  · refine ⟨j, waiting, Bool.eq_false_of_not_eq_true fun admits => ?_⟩
    rw [← access] at merges
    simpa [alone] using (mergeTarget_isSome_iff merges).mpr ⟨⟨j, admits⟩, overlooks⟩

theorem spilled_of_two (calls : List Call) (merges : r.access.merges) (apart : i ≠ j)
    (first : (run calls).2.awaits r i) (second : (run calls).2.awaits r j) : Spilled calls r := by
  -- the later of the two slots was taken while the other waited, so its reference had spilled
  induction calls using List.reverseRecOn with
  | nil => simp [run, awaits, get?, empty] at first
  | append_singleton earlier x ih =>
    rw [run_append] at first second
    rcases awaits_call first with before | ⟨q, rfl, access, block, alone, taken⟩
    · rcases awaits_call second with both | ⟨q, rfl, access, block, alone, taken⟩
      · exact spilled_append (ih before both) x
      · exact spilled_append_allocate merges access block alone taken before
    · rcases awaits_call second with other | ⟨p, same, _, _, _, again⟩
      · exact spilled_append_allocate merges access block alone taken other
      · cases same
        rw [taken] at again
        cases again
        exact absurd rfl apart

/-- In every state that calls reach, a reference that may merge does so without exception if and only if
no entry that could take it in is overlooked, and that takes a reference that was turned away before. -/
theorem mergesFully_iff (calls : List Call) {r : Reference} (checked : r.check = .ok ())
    (merges : r.access.merges) :
    ((run calls).2.MergesFully r ↔ ¬ (run calls).2.Overlooks r) ∧
      ((run calls).2.Overlooks r → Spilled calls r) := by
  refine ⟨mergesFully_iff_not_overlooks checked merges, ?_⟩
  rintro ⟨⟨i, waits, full, _⟩, j, admits⟩
  refine spilled_of_two calls merges ?_ waits (awaits_of_admits admits)
  rintro rfl
  simp [full] at admits

/-- A load of the first quadword of block `0x1000`. -/
def quadLoad (waiters : List UInt8) : Reference where
  access := .load .quad
  addr := ⟨0x1000⟩
  mask := 0
  waiters := waiters

/-- Two more waiters join six. -/
theorem mergesFully_pair :
    (quadLoad [6, 7]).check = .ok () ∧ (quadLoad [6, 7]).access.merges ∧
      (run [.allocate (quadLoad [0, 1, 2, 3, 4, 5])]).2.MergesFully (quadLoad [6, 7]) :=
  ⟨by decide, by decide, (mergesFully_iff _ (by decide) (by decide)).1.mpr (by decide)⟩

/-- Six waiters wait in slot 0, and three that found no room there in slot 1. -/
def spillingCalls : List Call :=
  [.allocate (quadLoad [0, 1, 2, 3, 4, 5]), .allocate (quadLoad [6, 7, 8])]

/-- Three more would have room in slot 1, and get a slot of their own. With all slots taken they are
refused. -/
theorem spilling_not_mergesFully :
    (quadLoad [9, 10, 11]).check = .ok () ∧ (quadLoad [9, 10, 11]).access.merges ∧
      (run spillingCalls).2.admits (quadLoad [9, 10, 11]) 1 ∧
      ((run spillingCalls).2.allocate (quadLoad [9, 10, 11])).1 = .ok ⟨2, false⟩ ∧
      ¬ (run spillingCalls).2.MergesFully (quadLoad [9, 10, 11]) ∧
      ((run (spillingCalls ++ .replicate 6 (.allocate (quadLoad [9, 10, 11])))).2.allocate
        (quadLoad [9, 10, 11])).1 = .error (.exhausted .missFile) := by
  refine ⟨by decide, by decide, by decide, by decide, fun full => ?_, by decide⟩
  obtain ⟨slot, joined⟩ := full.joins.mpr ⟨1, by decide⟩
  have alone : ((run spillingCalls).2.allocate (quadLoad [9, 10, 11])).1 = .ok ⟨2, false⟩ := by decide
  rw [alone] at joined
  cases joined

end MissFile
end CacheCoherence
