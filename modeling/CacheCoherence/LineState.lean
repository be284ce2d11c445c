namespace CacheCoherence

structure LineState where
  valid : Bool := false
  dirty : Bool := false
  shared : Bool := false
  deriving DecidableEq, Repr, Inhabited

namespace LineState

def invalid : LineState := ⟨false, false, false⟩
def clean : LineState := ⟨true, false, false⟩
def cleanShared : LineState := ⟨true, false, true⟩
def modified : LineState := ⟨true, true, false⟩
def modifiedShared : LineState := ⟨true, true, true⟩

def isDirty (s : LineState) : Bool := s.valid && s.dirty

def merge (s t : LineState) : LineState where
  valid := s.valid || t.valid
  dirty := s.isDirty || t.isDirty
  shared := (s.valid && s.shared) || (t.valid && t.shared)

/-- The state as a tag keeps it: an invalid line is neither dirty nor shared. -/
def settled (s : LineState) : LineState where
  valid := s.valid
  dirty := s.valid && s.dirty
  shared := s.valid && s.shared

/-- Held dirty and by no other cache: the holder may write. -/
def writable (s : LineState) : Bool := s.isDirty && !s.shared

@[simp] theorem settled_settled (s : LineState) : s.settled.settled = s.settled := by
  cases s with
  | mk valid dirty shared => cases valid <;> rfl

theorem merge_comm (s t : LineState) : s.merge t = t.merge s := by
  simp only [merge, Bool.or_comm]

@[simp] theorem merge_invalid (s : LineState) : s.merge invalid = s.settled := by
  simp [merge, settled, invalid, isDirty]

theorem valid_of_isDirty {s : LineState} (dirty : s.isDirty = true) : s.valid = true := by
  simp only [isDirty, Bool.and_eq_true] at dirty
  exact dirty.1

end LineState
end CacheCoherence
