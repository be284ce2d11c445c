import Std.Data.TreeMap.Lemmas

namespace CacheCoherence

structure Sparse (α : Type) where
  cells : Std.TreeMap Nat α

namespace Sparse

variable {α : Type}

def empty : Sparse α := ⟨{}⟩

instance : Inhabited (Sparse α) := ⟨empty⟩

def get? (s : Sparse α) (i : Nat) : Option α := s.cells[i]?

def set (s : Sparse α) (i : Nat) (x : α) : Sparse α := ⟨s.cells.insert i x⟩

def erase (s : Sparse α) (i : Nat) : Sparse α := ⟨s.cells.erase i⟩

def size (s : Sparse α) : Nat := s.cells.size

def all (s : Sparse α) (p : α → Bool) : Bool := s.cells.all fun _ x => p x

@[simp] theorem get?_empty (i : Nat) : (empty : Sparse α).get? i = none := by
  simp [empty, get?]

theorem get?_set (s : Sparse α) (i j : Nat) (x : α) :
    (s.set i x).get? j = if i = j then some x else s.get? j := by
  simp [set, get?, Std.TreeMap.getElem?_insert]

theorem get?_erase (s : Sparse α) (i j : Nat) :
    (s.erase i).get? j = if i = j then none else s.get? j := by
  simp [erase, get?, Std.TreeMap.getElem?_erase]

end Sparse
end CacheCoherence
