import CacheCoherence.Proofs.Inclusion
import CacheCoherence.Proofs.Residence

namespace CacheCoherence.DuplicateTags

inductive Call
  | fill (a : Address) (s : LineState)
  | setState (a : Address) (s : LineState)
  | drop (a : Address)

inductive Event
  | filled (a : Address) (s : LineState) (displaced : Option Displaced)
  | changed (a : Address) (s : LineState)
  | dropped (a : Address)

/-- The duplicate tags, and what was done to them, oldest first. -/
structure Record where
  log : List Event
  tags : DuplicateTags

namespace Record

def call (r : Record) : Call → Record
  | .fill a s => ⟨r.log ++ [.filled a s (r.tags.fill a s).1], (r.tags.fill a s).2⟩
  | .setState a s => ⟨r.log ++ [.changed a s], (r.tags.setState a s).2⟩
  | .drop a => ⟨r.log ++ [.dropped a], (r.tags.drop a).2⟩

def run (calls : List Call) : Record := calls.foldl call ⟨[], .empty⟩

end Record

namespace Event

/-- The event displaced the block of `a` or dropped it. A state that is not valid drops a block too. -/
def removes (a : Address) : Event → Bool
  | .filled b s displaced => displaced.any (·.addr == a.block) || (b.block == a.block && !s.valid)
  | .changed b s => b.block == a.block && !s.valid
  | .dropped b => b.block == a.block

def revise (a : Address) : Event → LineState → LineState
  | .filled b s _, old => if b.block = a.block then s else old
  | .changed b s, old => if b.block = a.block then s else old
  | .dropped _, old => old

end Event

/-- The block of `a` was filled and has not been displaced or dropped since, and `s` is the last state that it
was given. -/
def Stands (log : List Event) (a : Address) (s : LineState) : Prop :=
  ∃ earlier b given displaced later, log = earlier ++ .filled b given displaced :: later ∧
    b.block = a.block ∧ given.valid ∧ (∀ e ∈ later, e.removes a = false) ∧
    s = later.foldl (fun s e => e.revise a s) given

structure Fills (t : DuplicateTags) (a : Address) (s : LineState) (i : Nat) : Prop where
  set : i / ways = setOf a
  thrifty : (∃ j, j / ways = setOf a ∧ (t.line j).state.valid = false) → (t.line i).state.valid = false
  written : (t.fill a s).2.line i =
    { tag := tagOf a, addr := a.block, partner := i, state := s.settled }
  others : ∀ j, j ≠ i → (t.fill a s).2.line j = t.line j ∧ (t.fill a s).2.primaryLine j = t.primaryLine j
  displaced : (t.fill a s).1 =
    if (t.line i).state.valid then some ⟨(t.line i).addr, (t.line i).state⟩ else none

variable {t : DuplicateTags}

theorem placeFor_thrifty (t : DuplicateTags) {a : Address} {j : Nat} (inside : j / ways = setOf a)
    (free : (t.line j).state.valid = false) : (t.line (t.placeFor a).1).state.valid = false := by
  unfold placeFor
  split
  · rename_i found
    simpa using List.find?_some found
  · rename_i full
    have taken := List.find?_eq_none.mp full j ((mem_set_iff a j).mpr inside)
    simp [free] at taken

theorem Paired.fills (paired : t.Paired) {a : Address} (missing : t.find? a = none) (s : LineState) :
    t.Fills a s (t.placeFor a).1 := by
  have shape := fill_missing missing s
  have others (j : Nat) (apart : j ≠ (t.placeFor a).1) : (t.fill a s).2.line j = t.line j := by
    rw [shape, line_write, if_neg (Ne.symm apart), line_placeFor]
  constructor
  · exact placeFor_inside t a
  · rintro ⟨j, inside, free⟩
    exact placeFor_thrifty t inside free
  · rw [shape, line_write, if_pos rfl, line_placeFor, paired.partner]
  · intro j apart
    refine ⟨others j apart, ?_⟩
    rw [(paired.fill a s).same, paired.same, others j apart]
  · rw [shape]

def kept (t : DuplicateTags) (a : Address) : Option LineState :=
  if (t.stateOf a).valid then some (t.stateOf a) else none

def bearing (a : Address) : Bearing Event LineState where
  enters
    | .filled b s _ => if b.block = a.block ∧ s.valid then some s else none
    | .changed .. | .dropped _ => none
  clears := Event.removes a
  revise := Event.revise a
  fresh e x came := by
    split at came
    · rw [Option.ite_none_right_eq_some, Option.some.injEq] at came
      obtain ⟨⟨own, _⟩, rfl⟩ := came
      exact .inr fun _ => if_pos own
    all_goals cases came

theorem stands_iff (log : List Event) (a : Address) (s : LineState) :
    (bearing a).held log = some s ↔ Stands log a s := by
  rw [Bearing.held_eq_some_iff]
  constructor
  · rintro ⟨earlier, e, later, x, rfl, entered, since, rfl⟩
    simp only [bearing] at entered
    split at entered
    · rw [Option.ite_none_right_eq_some, Option.some.injEq] at entered
      obtain ⟨⟨own, valid⟩, rfl⟩ := entered
      exact ⟨earlier, _, _, _, later, rfl, own, valid, since, rfl⟩
    all_goals cases entered
  · rintro ⟨earlier, b, given, displaced, later, rfl, own, valid, since, rfl⟩
    exact ⟨earlier, _, later, given, rfl, if_pos ⟨own, valid⟩, since, rfl⟩

theorem settled_of_valid {s : LineState} (valid : s.valid = true) : s.settled = s := by
  obtain ⟨_, dirty, shared⟩ := s
  cases valid
  rfl

theorem kept_settled (s : LineState) :
    (if s.settled.valid then some s.settled else none) = if s.valid then some s else none := by
  cases valid : s.valid with
  | true => rw [settled_of_valid valid, valid]
  | false => simp [LineState.settled, valid]

theorem kept_fill (placed : t.WellPlaced) (a b : Address) (s : LineState) :
    (t.fill b s).2.kept a =
      if b.block = a.block then if s.valid then some s else none
      else if (t.fill b s).1.any (·.addr == a.block) then none else t.kept a := by
  rw [kept, (placed.fill b s).state]
  by_cases own : b.block = a.block
  · rw [if_pos own.symm, if_pos own, kept_settled]
  · rw [if_neg (Ne.symm own), if_neg own]
    cases answer : (t.fill b s).1 with
    | none => rfl
    | some d =>
      by_cases gone : d.addr = a.block
      · simp [gone, LineState.invalid]
      · simp [gone, kept]

theorem kept_setState (placed : t.WellPlaced) (a b : Address) (s : LineState) :
    (t.setState b s).2.kept a =
      if Event.removes a (.changed b s) then none else (t.kept a).map (Event.revise a (.changed b s)) := by
  rw [kept, stateOf_setState placed]
  by_cases own : b.block = a.block
  · rw [stateOf_congr t own, kept]
    cases held : (t.stateOf a).valid with
    | false => simp [held, own]
    | true =>
      simp only [own, and_self, if_true, kept_settled]
      cases valid : s.valid <;> simp [Event.removes, Event.revise, own, valid]
  · have apart : ¬ (a.block = b.block ∧ (t.stateOf b).valid) := fun both => own both.1.symm
    rw [if_neg apart, kept]
    cases (t.stateOf a).valid <;> simp [Event.removes, Event.revise, own]

theorem kept_drop (placed : t.WellPlaced) (a b : Address) :
    (t.drop b).2.kept a = if b.block = a.block then none else t.kept a := by
  rw [kept, stateOf_drop placed]
  by_cases own : b.block = a.block
  · simp [own, LineState.invalid]
  · rw [if_neg (Ne.symm own), if_neg own, kept]

namespace Record

variable {r : Record}

theorem placed_call (placed : r.tags.WellPlaced) (x : Call) : (r.call x).tags.WellPlaced := by
  cases x with
  | fill b s => exact (placed.fill b s).placed
  | setState b s => exact placed.setState b s
  | drop b => exact placed.drop b

theorem paired_call (paired : r.tags.Paired) (x : Call) : (r.call x).tags.Paired := by
  cases x with
  | fill b s => exact paired.fill b s
  | setState b s => exact paired.setState b s
  | drop b => exact paired.drop b

theorem kept_call (placed : r.tags.WellPlaced) (x : Call) (a : Address) :
    ∃ e, (r.call x).log = r.log ++ [e] ∧
      (r.call x).tags.kept a = (bearing a).after (r.tags.kept a) e := by
  cases x with
  | fill b s =>
    refine ⟨_, rfl, ?_⟩
    simp only [call, kept_fill placed, Bearing.after, bearing, Event.removes]
    by_cases own : b.block = a.block
    · by_cases valid : s.valid = true
      · simp [own, valid]
      · simp [own, valid]
    · cases r.tags.kept a <;> simp [own, Event.revise]
  | setState b s =>
    exact ⟨_, rfl, kept_setState placed a b s⟩
  | drop b =>
    refine ⟨_, rfl, ?_⟩
    rw [call, kept_drop placed]
    cases r.tags.kept a <;> simp [Bearing.after, bearing, Event.removes, Event.revise]

theorem run_append (calls : List Call) (x : Call) : run (calls ++ [x]) = (run calls).call x :=
  List.foldl_append

theorem placed_run (calls : List Call) : (run calls).tags.WellPlaced := by
  induction calls using List.reverseRecOn with
  | nil => exact wellPlaced_empty
  | append_singleton earlier x ih =>
    rw [run_append]
    exact placed_call ih x

theorem paired_run (calls : List Call) : (run calls).tags.Paired := by
  induction calls using List.reverseRecOn with
  | nil => exact paired_empty
  | append_singleton earlier x ih =>
    rw [run_append]
    exact paired_call ih x

theorem kept_run (calls : List Call) (a : Address) :
    (run calls).tags.kept a = (bearing a).held (run calls).log := by
  induction calls using List.reverseRecOn with
  | nil =>
    have nothing : empty.stateOf a = .invalid := stateOf_eq_invalid wellPlaced_empty (by simp [LineState.invalid])
    simp [run, kept, nothing, Bearing.held, LineState.invalid]
  | append_singleton earlier x ih =>
    obtain ⟨e, log, kept⟩ := kept_call (placed_run earlier) x a
    rw [run_append, log, kept, ih, Bearing.held_append]

end Record

/-- The two tag stores stay one, every valid line can be found by its block and only by that, and what is found
is what was filled. -/
structure Record.Faithful (r : Record) : Prop where
  paired : ∀ i, (r.tags.line i).partner = i ∧ r.tags.agrees i
  placed : ∀ i, (r.tags.line i).state.valid →
    i < lineCount ∧ i / ways = setOf (r.tags.line i).addr ∧ (r.tags.line i).tag = tagOf (r.tags.line i).addr
  single : ∀ i j, (r.tags.line i).state.valid → (r.tags.line j).state.valid →
    (r.tags.line i).addr.block = (r.tags.line j).addr.block → i = j
  exact : ∀ a b, setOf a = setOf b → tagOf a = tagOf b → a.block = b.block
  hit : ∀ a, r.tags.hit a ↔ ∃ s, Stands r.log a s
  held : ∀ a s, Stands r.log a s → r.tags.stateOf a = s
  fill : ∀ a s, r.tags.hit a = false → ∃ i, r.tags.Fills a s i

/-- So it is after any calls, with any addresses and states. -/
theorem faithful_run (calls : List Call) : (Record.run calls).Faithful := by
  have placed := Record.placed_run calls
  have paired := Record.paired_run calls
  have stands (a : Address) (s : LineState) :
      Stands (Record.run calls).log a s ↔ (Record.run calls).tags.kept a = some s := by
    rw [← stands_iff, ← Record.kept_run]
  constructor
  · intro i
    exact ⟨paired.partner i, by simp [agrees, paired.partner, paired.same]⟩
  · intro i valid
    have set := placed.set i valid
    have few : setOf ((Record.run calls).tags.line i).addr < sets := Nat.mod_lt _ (by decide)
    refine ⟨?_, set, placed.tag i valid⟩
    simp only [lineCount, sets, ways] at few set ⊢
    omega
  · intro i j first second same
    rw [placed.block i first, placed.block j second] at same
    exact placed.single i j first second same
  · intro a b set tag
    exact (block_eq_iff_set_tag a b).mpr ⟨set, tag⟩
  · intro a
    simp only [stands, ← Option.isSome_iff_exists]
    simp [hit_eq, kept]
  · intro a s found
    rw [stands, kept, Option.ite_none_right_eq_some, Option.some.injEq] at found
    exact found.2
  · intro a s missing
    exact ⟨_, paired.fills (by simpa [hit] using missing) s⟩

end CacheCoherence.DuplicateTags
