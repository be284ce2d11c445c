import CacheCoherence.ProbeRing
import Mathlib.Data.List.Basic
import Mathlib.Data.Nat.ModEq

namespace CacheCoherence.ProbeRing

variable {r : ProbeRing}

def place (r : ProbeRing) (i : Nat) : Option Probe :=
  r.slots[(r.head + i) % r.capacity]?.getD none

def contents (r : ProbeRing) : List Probe := (List.range r.length).filterMap r.place

structure WellFormed (r : ProbeRing) : Prop where
  room : 0 < r.capacity
  fits : r.length ≤ r.capacity
  head : r.head < r.capacity
  tail : r.tail = (r.head + r.length) % r.capacity
  filled : ∀ i < r.length, (r.place i).isSome

theorem wellFormed_empty {depth : Nat} (deep : 0 < depth) : (empty depth).WellFormed := by
  have size : (empty depth).capacity = depth := by simp [empty, capacity]
  constructor
  · rw [size]
    exact deep
  · exact Nat.zero_le _
  · rw [size]
    exact deep
  · simp [empty]
  · intro i bound
    exact absurd bound (Nat.not_lt_zero i)

@[simp] theorem contents_empty (depth : Nat) : (empty depth).contents = [] := rfl

theorem places_apart (start : Nat) {n i j : Nat} (behind : i < j) (bound : j < n) :
    (start + i) % n ≠ (start + j) % n := by
  intro same
  have cancelled : i % n = j % n := Nat.ModEq.add_left_cancel' start same
  rw [Nat.mod_eq_of_lt (Nat.lt_trans behind bound), Nat.mod_eq_of_lt bound] at cancelled
  omega

theorem WellFormed.head_mod (formed : r.WellFormed) : (r.head + 0) % r.capacity = r.head := by
  rw [Nat.add_zero, Nat.mod_eq_of_lt formed.head]

theorem WellFormed.length_contents (formed : r.WellFormed) : r.contents.length = r.length := by
  have whole := List.filterMap_length_eq_length.mpr fun i member =>
    formed.filled i (List.mem_range.mp member)
  rwa [List.length_range] at whole

theorem push_full (full : r.isFull) (p : Probe) : r.push p = (some p, r) := by
  simp only [push, full, if_true]

theorem WellFormed.push (formed : r.WellFormed) (space : r.isFull = false) (p : Probe) :
    (r.push p).1 = none ∧ (r.push p).2.WellFormed ∧ (r.push p).2.contents = r.contents ++ [p] := by
  have short : r.length < r.capacity := by
    have fits := formed.fits
    simp only [isFull, beq_eq_false_iff_ne, ne_eq] at space
    omega
  have shape : r.push p = (none,
      { slots := r.slots.setIfInBounds r.tail (some p), head := r.head,
        tail := (r.tail + 1) % r.capacity, length := r.length + 1 }) := by
    simp only [ProbeRing.push, space, Bool.false_eq_true, if_false]
  have size : (r.push p).2.capacity = r.capacity := by rw [shape]; simp [capacity]
  have last : r.tail < r.slots.size := by
    rw [formed.tail]
    exact Nat.mod_lt _ formed.room
  have earlier (i : Nat) (bound : i < r.length) : (r.push p).2.place i = r.place i := by
    have apart := places_apart r.head bound short
    rw [← formed.tail] at apart
    simp only [place, size]
    rw [shape]
    simp only [Array.getElem?_setIfInBounds_ne (Ne.symm apart)]
  have added : (r.push p).2.place r.length = some p := by
    simp only [place, size]
    rw [shape]
    simp only [← formed.tail, Array.getElem?_setIfInBounds_self_of_lt last, Option.getD_some]
  have longer : (r.push p).2.length = r.length + 1 := by rw [shape]
  refine ⟨by rw [shape], ?_, ?_⟩
  · constructor
    · rw [size]
      exact formed.room
    · rw [size, longer]
      exact short
    · rw [size, shape]
      exact formed.head
    · rw [size, longer, shape]
      simp only [formed.tail, Nat.mod_add_mod]
      rfl
    · intro i bound
      rw [longer] at bound
      by_cases before : i < r.length
      · rw [earlier i before]
        exact formed.filled i before
      · have here : i = r.length := by omega
        rw [here, added]
        rfl
  · rw [contents, longer, List.range_succ, List.filterMap_append, contents]
    congr 1
    · apply List.filterMap_congr
      intro i member
      exact earlier i (List.mem_range.mp member)
    · simp [added]

theorem front_eq (formed : r.WellFormed) : r.front = r.contents.head? := by
  unfold front contents
  split
  · rename_i none_left
    have empty : r.length = 0 := by simpa [isEmpty] using none_left
    simp [empty]
  · rename_i some_left
    have first : 0 < r.length := by
      simp only [isEmpty, beq_iff_eq] at some_left
      omega
    obtain ⟨n, count⟩ := Nat.exists_eq_succ_of_ne_zero (Nat.ne_of_gt first)
    have standing : r.place 0 = r.slots[r.head]?.getD none := by simp only [place, formed.head_mod]
    obtain ⟨p, present⟩ := Option.isSome_iff_exists.mp (formed.filled 0 first)
    rw [← standing, present, count, List.range_succ_eq_map, List.filterMap_cons, present]
    rfl

theorem WellFormed.oldest (formed : r.WellFormed) {p : Probe} (front : r.front = some p) :
    ∃ rest, r.contents = p :: rest :=
  List.head?_eq_some_iff.mp ((front_eq formed).symm.trans front)

theorem WellFormed.pop (formed : r.WellFormed) {p : Probe} {rest : List Probe}
    (contents : r.contents = p :: rest) :
    (r.pop).2.WellFormed ∧ (r.pop).2.contents = rest := by
  have first : 0 < r.length := by
    cases count : r.length with
    | zero => simp [ProbeRing.contents, count] at contents
    | succ n => omega
  have short : r.length - 1 < r.capacity := by
    have fits := formed.fits
    omega
  have some_left : r.isEmpty = false := by
    simp only [isEmpty, beq_eq_false_iff_ne, ne_eq]
    omega
  have shape : r.pop = (r.slots[r.head]?.getD none,
      { slots := r.slots.setIfInBounds r.head none, head := (r.head + 1) % r.capacity,
        tail := r.tail, length := r.length - 1 }) := by
    simp only [ProbeRing.pop, some_left, Bool.false_eq_true, if_false]
  have size : (r.pop).2.capacity = r.capacity := by rw [shape]; simp [capacity]
  have moved (i : Nat) : (r.pop).2.head + i ≡ r.head + (i + 1) [MOD r.capacity] := by
    rw [shape]
    have step := Nat.ModEq.add_right i (Nat.mod_modEq (r.head + 1) r.capacity)
    have same : r.head + 1 + i = r.head + (i + 1) := by omega
    rwa [same] at step
  have later (i : Nat) (bound : i < r.length - 1) : (r.pop).2.place i = r.place (i + 1) := by
    have apart := places_apart r.head (Nat.succ_pos i)
      (show i + 1 < r.capacity by omega)
    rw [formed.head_mod] at apart
    simp only [place, size]
    rw [show ((r.pop).2.head + i) % r.capacity = (r.head + (i + 1)) % r.capacity from moved i, shape]
    simp only [Array.getElem?_setIfInBounds_ne apart]
  have shorter : (r.pop).2.length = r.length - 1 := by rw [shape]
  refine ⟨?_, ?_⟩
  · constructor
    · rw [size]
      exact formed.room
    · rw [size, shorter]
      omega
    · rw [size, shape]
      exact Nat.mod_lt _ formed.room
    · have place := moved (r.length - 1)
      have whole : r.length - 1 + 1 = r.length := by omega
      rw [whole] at place
      rw [size, shorter, place, ← formed.tail, shape]
    · intro i bound
      rw [shorter] at bound
      rw [later i bound]
      exact formed.filled (i + 1) (by omega)
  · obtain ⟨n, count⟩ := Nat.exists_eq_succ_of_ne_zero (Nat.ne_of_gt first)
    obtain ⟨q, present⟩ := Option.isSome_iff_exists.mp (formed.filled 0 first)
    rw [ProbeRing.contents, count, List.range_succ_eq_map, List.filterMap_cons, present,
      List.filterMap_map] at contents
    have tail := (List.cons.inj contents).2
    rw [← tail, ProbeRing.contents, shorter, count]
    apply List.filterMap_congr
    intro i member
    exact later i (by have bound := List.mem_range.mp member; omega)

end CacheCoherence.ProbeRing
