namespace CacheCoherence

/-- Slots in a table, and the most references that one entry carries. -/
def slotCount : Nat := 8

abbrev Slot := Fin 8

instance instNeZeroSlot : @NeZero Nat ⟨0⟩ 8 := ⟨by decide⟩

structure Slots (α : Type) where
  cells : Vector (Option α) 8
  deriving DecidableEq, Repr

namespace Slots

variable {α : Type}

def empty : Slots α := ⟨Vector.replicate 8 none⟩

instance : Inhabited (Slots α) := ⟨empty⟩

def get? (s : Slots α) (i : Slot) : Option α := s.cells[i]

def put (s : Slots α) (i : Slot) (x : α) : Slots α := ⟨s.cells.set i (some x)⟩

def clear (s : Slots α) (i : Slot) : Slots α := ⟨s.cells.set i none⟩

def map (f : α → α) (s : Slots α) : Slots α := ⟨s.cells.map (Option.map f)⟩

/-- The first slot whose content, or whose emptiness, is accepted by `p`. -/
def first? (s : Slots α) (p : Option α → Bool) : Option Slot :=
  (List.finRange 8).find? fun i => p (s.get? i)

def find? (s : Slots α) (p : α → Bool) : Option (Slot × α) :=
  (List.finRange 8).findSome? fun i => ((s.get? i).filter p).map (i, ·)

def free? (s : Slots α) : Option Slot := s.first? (·.isNone)

def select (s : Slots α) (p : α → Bool) : List Slot :=
  (List.finRange 8).filter fun i => (s.get? i).any p

def entries (s : Slots α) : List (Slot × α) :=
  (List.finRange 8).filterMap fun i => (s.get? i).map (i, ·)

@[simp] theorem get?_empty (i : Slot) : (empty : Slots α).get? i = none := by
  simp [empty, get?]

theorem get?_put (s : Slots α) (i j : Slot) (x : α) :
    (s.put i x).get? j = if i = j then some x else s.get? j := by
  simp [put, get?, Vector.getElem_set, Fin.ext_iff]

theorem get?_clear (s : Slots α) (i j : Slot) :
    (s.clear i).get? j = if i = j then none else s.get? j := by
  simp [clear, get?, Vector.getElem_set, Fin.ext_iff]

@[simp] theorem get?_map (f : α → α) (s : Slots α) (i : Slot) :
    (s.map f).get? i = (s.get? i).map f := by
  simp [map, get?]

theorem ext_get? {s t : Slots α} (same : ∀ i, s.get? i = t.get? i) : s = t := by
  cases s; cases t
  congr 1
  apply Vector.ext
  intro i bound
  exact same ⟨i, bound⟩

theorem find?_some {s : Slots α} {p : α → Bool} {i : Slot} {x : α}
    (found : s.find? p = some (i, x)) : s.get? i = some x ∧ p x = true := by
  obtain ⟨j, _, at_j⟩ := List.exists_of_findSome?_eq_some found
  simp only [Option.map_eq_some_iff, Option.filter_eq_some_iff] at at_j
  obtain ⟨y, ⟨holds, accepted⟩, same⟩ := at_j
  cases same
  exact ⟨holds, accepted⟩

theorem find?_eq_none {s : Slots α} {p : α → Bool} :
    s.find? p = none ↔ ∀ i x, s.get? i = some x → p x = false := by
  simp [find?, List.findSome?_eq_none_iff, Option.filter_eq_none_iff]

theorem find?_least {s : Slots α} {p : α → Bool} {i j : Slot} {x y : α}
    (found : s.find? p = some (i, x)) (lower : j < i) (present : s.get? j = some y) : p y = false := by
  obtain ⟨before, k, later, order, accepted, refused⟩ := List.findSome?_eq_some_iff.mp found
  simp only [Option.map_eq_some_iff, Prod.mk.injEq] at accepted
  obtain ⟨_, _, rfl, _⟩ := accepted
  have sorted := List.pairwise_lt_finRange 8
  have member := List.mem_finRange j
  rw [order] at sorted member
  rcases List.mem_append.mp member with early | late
  · simpa [present] using refused j early
  · rcases List.mem_cons.mp late with rfl | after
    · exact absurd lower (Nat.lt_irrefl _)
    · have ascending := (List.pairwise_cons.mp (List.pairwise_append.mp sorted).2.1).1 j after
      exact absurd lower (Nat.lt_asymm ascending)

theorem first?_some {s : Slots α} {p : Option α → Bool} {i : Slot}
    (found : s.first? p = some i) : p (s.get? i) = true := by
  unfold first? at found
  simpa using List.find?_some found

theorem first?_eq_none {s : Slots α} {p : Option α → Bool} :
    s.first? p = none ↔ ∀ i, p (s.get? i) = false := by
  simp [first?, List.find?_eq_none]

theorem free?_some {s : Slots α} {i : Slot} (found : s.free? = some i) : s.get? i = none := by
  simpa using first?_some found

end Slots
end CacheCoherence
