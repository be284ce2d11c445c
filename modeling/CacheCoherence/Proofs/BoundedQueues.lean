import CacheCoherence.Proofs.Rings
import Mathlib.Data.List.Induction

namespace CacheCoherence.ProbeRing

inductive Call
  | push (p : Probe)
  | front
  | pop

inductive Event
  | pushed (p : Probe) (refused : Option Probe)
  | looked (oldest : Option Probe)
  | popped (oldest : Option Probe)

namespace Event

def entered? : Event → Option Probe
  | .pushed p none => some p
  | .pushed _ (some _) | .looked _ | .popped _ => none

def left? : Event → Option Probe
  | .popped oldest => oldest
  | .pushed .. | .looked _ => none

end Event

/-- A ring, and what was done to it, oldest first. -/
structure Record where
  log : List Event
  ring : ProbeRing

namespace Record

def call (r : Record) : Call → Record
  | .push p => ⟨r.log ++ [.pushed p (r.ring.push p).1], (r.ring.push p).2⟩
  | .front => ⟨r.log ++ [.looked r.ring.front], r.ring⟩
  | .pop => ⟨r.log ++ [.popped r.ring.pop.1], r.ring.pop.2⟩

def run (depth : Nat) (calls : List Call) : Record := calls.foldl call ⟨[], .empty depth⟩

/-- The probes that were pushed, but for those that were handed back. -/
def entered (r : Record) : List Probe := r.log.filterMap Event.entered?

def left (r : Record) : List Probe := r.log.filterMap Event.left?

end Record

/-- `push`, if its slot is there and it does not divide by zero. -/
def push? (r : ProbeRing) (p : Probe) : Option (Option Probe × ProbeRing) :=
  if r.isFull then some (some p, r)
  else if inside : r.tail < r.slots.size then
    if r.capacity = 0 then none
    else
      some (none,
        { slots := r.slots.set r.tail (some p) inside, head := r.head,
          tail := (r.tail + 1) % r.capacity, length := r.length + 1 })
  else none

def front? (r : ProbeRing) : Option (Option Probe) :=
  if r.isEmpty then some none else r.slots[r.head]?

/-- `pop`, if its slot is there and it does not divide by zero. -/
def pop? (r : ProbeRing) : Option (Option Probe × ProbeRing) :=
  if r.isEmpty then some (none, r)
  else if inside : r.head < r.slots.size then
    if r.capacity = 0 then none
    else
      some (r.slots[r.head],
        { slots := r.slots.set r.head none inside, head := (r.head + 1) % r.capacity,
          tail := r.tail, length := r.length - 1 })
  else none

def occupied (r : ProbeRing) (j : Nat) : Bool := (r.slots[j]?.getD none).isSome

/-- A ring of `depth` slots that holds `queue`. -/
structure Holds (r : ProbeRing) (depth : Nat) (queue : List Probe) : Prop where
  capacity : r.capacity = depth
  contents : r.contents = queue
  length : r.length = queue.length
  few : queue.length ≤ depth
  start : depth = 0 → r.head = 0 ∧ r.tail = 0
  head : 0 < depth → r.head < depth
  tail : 0 < depth → r.tail < depth ∧ r.tail = (r.head + r.length) % depth
  occupied : ∀ j, r.occupied j ↔ ∃ i < r.length, j = (r.head + i) % depth

/-- What the next call gives back, and that it can be made. -/
structure Serves (r : ProbeRing) (depth : Nat) (queue : List Probe) : Prop where
  refused : ∀ p, queue.length = depth → r.push p = (some p, r)
  pushed : ∀ p, queue.length ≠ depth → (r.push p).1 = none ∧ (r.push p).2.Holds depth (queue ++ [p])
  front : r.front = queue.head?
  pop : r.pop.1 = queue.head? ∧ r.pop.2.Holds depth queue.tail
  idle : queue = [] → r.pop.2 = r
  safe : (∀ p, r.push? p = some (r.push p)) ∧ r.front? = some r.front ∧ r.pop? = some r.pop

variable {r : ProbeRing} {depth : Nat} {queue : List Probe}

theorem push_room (space : r.isFull = false) (p : Probe) :
    r.push p = (none,
      { slots := r.slots.setIfInBounds r.tail (some p), head := r.head,
        tail := (r.tail + 1) % r.capacity, length := r.length + 1 }) := by
  rw [push, space, if_neg Bool.false_ne_true]

theorem pop_some (filled : r.isEmpty = false) :
    r.pop = (r.slots[r.head]?.getD none,
      { slots := r.slots.setIfInBounds r.head none, head := (r.head + 1) % r.capacity,
        tail := r.tail, length := r.length - 1 }) := by
  rw [pop, filled, if_neg Bool.false_ne_true]

theorem pop_none (empty : r.isEmpty) : r.pop = (none, r) := by
  rw [pop, if_pos empty]

theorem fst_pop (r : ProbeRing) : r.pop.1 = r.front := by
  unfold pop front
  split
  · rfl
  · rfl

/-- A slot that is written holds what is written, and other slots hold what they held. -/
theorem occupied_set {k : Nat} (inside : k < r.slots.size) (x : Option Probe) (head tail length j : Nat) :
    occupied { slots := r.slots.setIfInBounds k x, head, tail, length } j =
      if k = j then x.isSome else r.occupied j := by
  by_cases here : k = j
  · subst here
    simp only [occupied, Array.getElem?_setIfInBounds_self_of_lt inside, Option.getD_some, if_true]
  · simp only [occupied, Array.getElem?_setIfInBounds_ne here, if_neg here]

/-- From the second probe on, the places are counted from the next head. -/
theorem place_succ (head i n : Nat) : ((head + 1) % n + i) % n = (head + (i + 1)) % n := by
  rw [Nat.mod_add_mod, Nat.add_assoc, Nat.add_comm 1 i]

namespace Holds

variable (holds : r.Holds depth queue)
include holds

theorem isFull_eq : r.isFull = decide (queue.length = depth) := by
  rw [isFull, holds.capacity, holds.length]
  rfl

theorem isEmpty_eq : r.isEmpty = queue.isEmpty := by
  rw [isEmpty, holds.length]
  cases queue with
  | nil => rfl
  | cons p rest => rfl

theorem formed (deep : 0 < depth) : r.WellFormed where
  room := by
    rw [holds.capacity]
    exact deep
  fits := by
    rw [holds.capacity, holds.length]
    exact holds.few
  head := by
    rw [holds.capacity]
    exact holds.head deep
  tail := by
    rw [holds.capacity]
    exact (holds.tail deep).2
  filled i bound := by
    rw [place, holds.capacity]
    exact (holds.occupied _).mpr ⟨i, bound, rfl⟩

theorem deep_of_ne_nil (some_left : queue ≠ []) : 0 < depth :=
  Nat.lt_of_lt_of_le (List.length_pos_iff.mpr some_left) holds.few

theorem front_eq : r.front = queue.head? := by
  by_cases none_left : queue = []
  · have empty : r.isEmpty = true := by rw [holds.isEmpty_eq, none_left]; rfl
    rw [front, if_pos empty, none_left]
    rfl
  · rw [ProbeRing.front_eq (holds.formed (holds.deep_of_ne_nil none_left)), holds.contents]

theorem push (room : queue.length ≠ depth) (p : Probe) :
    (r.push p).1 = none ∧ (r.push p).2.Holds depth (queue ++ [p]) := by
  have few := holds.few
  have deep : 0 < depth := by omega
  have space : r.isFull = false := by rw [holds.isFull_eq, decide_eq_false room]
  obtain ⟨taken, formed, contents⟩ := (holds.formed deep).push space p
  refine ⟨taken, ?_⟩
  have last := holds.tail deep
  have inside : r.tail < r.slots.size := Nat.lt_of_lt_of_eq last.1 holds.capacity.symm
  have capacity : (r.push p).2.capacity = depth := by
    rw [push_room space, ProbeRing.capacity, Array.size_setIfInBounds]
    exact holds.capacity
  have longer : (r.push p).2.length = r.length + 1 := by rw [push_room space]
  constructor
  · exact capacity
  · rw [contents, holds.contents]
  · rw [longer, holds.length, List.length_append, List.length_singleton]
  · rw [List.length_append, List.length_singleton]
    omega
  · intro none_there
    omega
  · intro _
    rw [push_room space]
    exact holds.head deep
  · intro _
    have tail := formed.tail
    rw [capacity] at tail
    exact ⟨tail ▸ Nat.mod_lt _ deep, tail⟩
  · intro j
    rw [longer, push_room space, occupied_set inside]
    by_cases here : r.tail = j
    · rw [if_pos here]
      exact ⟨fun _ => ⟨r.length, by omega, by rw [← here, ← last.2]⟩, fun _ => rfl⟩
    · rw [if_neg here, holds.occupied]
      constructor
      · rintro ⟨i, bound, same⟩
        exact ⟨i, by omega, same⟩
      · rintro ⟨i, bound, same⟩
        have apart : i ≠ r.length := by
          rintro rfl
          exact here (last.2.trans same.symm)
        exact ⟨i, by omega, same⟩

theorem pop : r.pop.1 = queue.head? ∧ r.pop.2.Holds depth queue.tail := by
  refine ⟨(fst_pop r).trans holds.front_eq, ?_⟩
  cases queue with
  | nil =>
    have empty : r.isEmpty = true := by rw [holds.isEmpty_eq]; rfl
    rw [pop_none empty]
    exact holds
  | cons p rest =>
    have filled : r.isEmpty = false := by rw [holds.isEmpty_eq]; rfl
    have few := holds.few
    have count := holds.length
    rw [List.length_cons] at few count
    have deep : 0 < depth := by omega
    have before := holds.formed deep
    obtain ⟨formed, contents⟩ := before.pop holds.contents
    have first := holds.head deep
    have inside : r.head < r.slots.size := Nat.lt_of_lt_of_eq first holds.capacity.symm
    have capacity : r.pop.2.capacity = depth := by
      rw [pop_some filled, ProbeRing.capacity, Array.size_setIfInBounds]
      exact holds.capacity
    have shorter : r.pop.2.length = r.length - 1 := by rw [pop_some filled]
    constructor
    · exact capacity
    · exact contents
    · rw [shorter, count, List.tail_cons]
      rfl
    · rw [List.tail_cons]
      omega
    · intro none_there
      omega
    · intro _
      have head := formed.head
      rwa [capacity] at head
    · intro _
      have tail := formed.tail
      rw [capacity] at tail
      exact ⟨tail ▸ Nat.mod_lt _ deep, tail⟩
    · intro j
      rw [shorter, pop_some filled, occupied_set inside, holds.capacity]
      simp only [place_succ]
      have start : (r.head + 0) % depth = r.head := Nat.mod_eq_of_lt first
      by_cases here : r.head = j
      · rw [if_pos here]
        constructor
        · intro held
          cases held
        · rintro ⟨i, bound, same⟩
          have apart := places_apart r.head (Nat.succ_pos i) (show i + 1 < depth by omega)
          exact absurd (start.trans (here.trans same)) apart
      · rw [if_neg here, holds.occupied]
        constructor
        · rintro ⟨i, bound, same⟩
          cases i with
          | zero => exact absurd (same.trans start).symm here
          | succ i => exact ⟨i, by omega, same⟩
        · rintro ⟨i, bound, same⟩
          exact ⟨i + 1, by omega, same⟩

theorem push?_eq (p : Probe) : r.push? p = some (r.push p) := by
  cases full : r.isFull with
  | true => rw [push?, if_pos full, push_full full]
  | false =>
    have few := holds.few
    have room := holds.isFull_eq
    rw [full] at room
    have deep : 0 < depth := by
      have apart := of_decide_eq_false room.symm
      omega
    have inside : r.tail < r.slots.size := Nat.lt_of_lt_of_eq (holds.tail deep).1 holds.capacity.symm
    have slots : r.capacity ≠ 0 := by
      rw [holds.capacity]
      omega
    rw [push?, full, if_neg Bool.false_ne_true, dif_pos inside, if_neg slots, push_room full,
      Array.setIfInBounds, dif_pos inside]

theorem head_inside (filled : r.isEmpty = false) : r.head < r.slots.size ∧ r.capacity ≠ 0 := by
  have some_left : queue ≠ [] := by
    rintro rfl
    rw [holds.isEmpty_eq] at filled
    cases filled
  have deep := holds.deep_of_ne_nil some_left
  have capacity := holds.capacity
  have head := holds.head deep
  rw [ProbeRing.capacity] at capacity ⊢
  omega

theorem front?_eq : r.front? = some r.front := by
  cases empty : r.isEmpty with
  | true => rw [front?, if_pos empty, front, if_pos empty]
  | false =>
    have inside := (holds.head_inside empty).1
    rw [front?, front, empty, if_neg Bool.false_ne_true, if_neg Bool.false_ne_true,
      Array.getElem?_eq_getElem inside]
    rfl

theorem pop?_eq : r.pop? = some r.pop := by
  cases empty : r.isEmpty with
  | true => rw [pop?, if_pos empty, pop_none empty]
  | false =>
    obtain ⟨inside, slots⟩ := holds.head_inside empty
    rw [pop?, empty, if_neg Bool.false_ne_true, dif_pos inside, if_neg slots, pop_some empty,
      Array.setIfInBounds, dif_pos inside, Array.getElem?_eq_getElem inside]
    rfl

theorem serves : r.Serves depth queue := by
  constructor
  · intro p whole
    exact push_full (by rw [holds.isFull_eq, decide_eq_true whole]) p
  · intro p room
    exact holds.push room p
  · exact holds.front_eq
  · exact holds.pop
  · rintro rfl
    have empty : r.isEmpty = true := by rw [holds.isEmpty_eq]; rfl
    rw [pop_none empty]
  · exact ⟨holds.push?_eq, holds.front?_eq, holds.pop?_eq⟩

end Holds

theorem holds_empty (depth : Nat) : (empty depth).Holds depth [] := by
  have size : (empty depth).capacity = depth := by simp [empty, capacity]
  constructor
  · exact size
  · rfl
  · rfl
  · exact Nat.zero_le depth
  · intro _
    exact ⟨rfl, rfl⟩
  · exact id
  · intro deep
    exact ⟨deep, (Nat.mod_eq_of_lt deep).symm⟩
  · intro j
    have vacant : (empty depth).occupied j = false := by
      simp only [occupied, empty, Array.getElem?_replicate]
      split
      · rfl
      · rfl
    rw [vacant]
    constructor
    · intro held
      cases held
    · rintro ⟨i, bound, _⟩
      exact absurd bound (Nat.not_lt_zero i)

namespace Record

variable {s : Record}

def Balanced (s : Record) (depth : Nat) (queue : List Probe) : Prop :=
  s.entered = s.left ++ queue ∧ s.ring.Holds depth queue

theorem entered_append (log : List Event) (e : Event) (ring : ProbeRing) :
    entered ⟨log ++ [e], ring⟩ = log.filterMap Event.entered? ++ e.entered?.toList := by
  rw [entered, List.filterMap_append]
  cases here : e.entered? with
  | none => simp [here]
  | some p => simp [here]

theorem left_append (log : List Event) (e : Event) (ring : ProbeRing) :
    left ⟨log ++ [e], ring⟩ = log.filterMap Event.left? ++ e.left?.toList := by
  rw [left, List.filterMap_append]
  cases here : e.left? with
  | none => simp [here]
  | some p => simp [here]

theorem Balanced.call (balanced : s.Balanced depth queue) (x : Call) :
    ∃ next, (s.call x).Balanced depth next := by
  obtain ⟨flow, holds⟩ := balanced
  rw [entered, left] at flow
  cases x with
  | push p =>
    by_cases whole : queue.length = depth
    · refine ⟨queue, ?_, ?_⟩
      · rw [Record.call, holds.serves.refused p whole, entered_append, left_append, flow]
        simp [Event.entered?, Event.left?]
      · rw [Record.call, holds.serves.refused p whole]
        exact holds
    · obtain ⟨taken, later⟩ := holds.push whole p
      refine ⟨queue ++ [p], ?_, later⟩
      rw [Record.call, taken, entered_append, left_append, flow]
      simp [Event.entered?, Event.left?]
  | front =>
    refine ⟨queue, ?_, holds⟩
    rw [Record.call, entered_append, left_append, flow]
    simp [Event.entered?, Event.left?]
  | pop =>
    obtain ⟨taken, later⟩ := holds.pop
    refine ⟨queue.tail, ?_, later⟩
    rw [Record.call, taken, entered_append, left_append, flow]
    cases queue with
    | nil => simp [Event.entered?, Event.left?]
    | cons p rest => simp [Event.entered?, Event.left?]

theorem balanced_run (depth : Nat) (calls : List Call) :
    ∃ queue, (run depth calls).Balanced depth queue := by
  induction calls using List.reverseRecOn with
  | nil => exact ⟨[], rfl, holds_empty depth⟩
  | append_singleton earlier x ih =>
    obtain ⟨queue, balanced⟩ := ih
    rw [run, List.foldl_append]
    exact balanced.call x

end Record

/-- After any calls to a ring of any depth, the probes that were pushed are those that were popped and then
those that it holds, never more than its depth. The next push is refused when it holds that many, and a
probe is taken from the front when it holds any. No slot is missed and nothing is divided by zero. -/
theorem fifo_run (depth : Nat) (calls : List Call) :
    ∃ queue, (Record.run depth calls).entered = (Record.run depth calls).left ++ queue ∧
      (Record.run depth calls).ring.Holds depth queue ∧
      (Record.run depth calls).ring.Serves depth queue := by
  obtain ⟨queue, flow, holds⟩ := Record.balanced_run depth calls
  exact ⟨queue, flow, holds, holds.serves⟩

end CacheCoherence.ProbeRing
