import Mathlib.Algebra.GroupWithZero.Nat

namespace CacheCoherence.Layout

def start (sizes : List Nat) (k : Nat) : Nat := (sizes.take k).sum

def Holds (sizes : List Nat) (k n : Nat) : Prop :=
  ∃ size, sizes[k]? = some size ∧ start sizes k ≤ n ∧ n < start sizes k + size

variable {sizes : List Nat} {size j k n : Nat}

theorem start_succ (present : sizes[k]? = some size) : start sizes (k + 1) = start sizes k + size := by
  obtain ⟨inside, rfl⟩ := List.getElem?_eq_some_iff.mp present
  rw [start, List.take_succ_eq_append_getElem inside, List.sum_append, List.sum_singleton, ← start]

theorem start_mono (sizes : List Nat) (before : j ≤ k) : start sizes j ≤ start sizes k := by
  obtain ⟨more, rfl⟩ := Nat.exists_eq_add_of_le before
  rw [start, start, List.take_add, List.sum_append]
  exact Nat.le_add_right _ _

theorem end_le_start (present : sizes[j]? = some size) (before : j < k) :
    start sizes j + size ≤ start sizes k := by
  rw [← start_succ present]
  exact start_mono sizes before

theorem start_length (sizes : List Nat) : start sizes sizes.length = sizes.sum := by
  rw [start, List.take_length]

theorem end_le_sum (present : sizes[k]? = some size) : start sizes k + size ≤ sizes.sum := by
  obtain ⟨inside, _⟩ := List.getElem?_eq_some_iff.mp present
  rw [← start_length]
  exact end_le_start present inside

theorem Holds.unique (first : Holds sizes j n) (second : Holds sizes k n) : j = k := by
  obtain ⟨_, at_j, low, high⟩ := first
  obtain ⟨_, at_k, least, most⟩ := second
  rcases Nat.lt_trichotomy j k with below | same | above
  · have apart := end_le_start at_j below
    omega
  · exact same
  · have apart := end_le_start at_k above
    omega

theorem exists_holds (inside : n < sizes.sum) : ∃ k, Holds sizes k n := by
  have reached (k : Nat) (early : n < start sizes k) : ∃ j, Holds sizes j n := by
    induction k with
    | zero => exact absurd early (Nat.not_lt_zero n)
    | succ k ih =>
      rcases Nat.lt_or_ge n (start sizes k) with before | here
      · exact ih before
      · cases present : sizes[k]? with
        | some size =>
          rw [start_succ present] at early
          exact ⟨k, size, present, here, early⟩
        | none =>
          have past := List.getElem?_eq_none_iff.mp present
          rw [start, List.take_of_length_le (Nat.le_succ_of_le past)] at early
          rw [start, List.take_of_length_le past] at here
          exact absurd early (Nat.not_lt.mpr here)
  exact reached sizes.length (by rwa [start_length])

end CacheCoherence.Layout
