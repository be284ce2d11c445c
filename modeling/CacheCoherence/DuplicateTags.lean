import CacheCoherence.Address
import CacheCoherence.LineState
import CacheCoherence.Sparse

namespace CacheCoherence

structure PrimaryTag where
  tag : Nat := 0
  state : LineState := .invalid
  deriving DecidableEq, Repr, Inhabited

structure DuplicateTag where
  tag : Nat := 0
  addr : Address := ⟨0⟩
  partner : Nat
  state : LineState := .invalid
  deriving DecidableEq, Repr

structure Displaced where
  addr : Address
  state : LineState
  deriving DecidableEq, Repr

structure DuplicateTags where
  lines : Sparse DuplicateTag
  primary : Sparse PrimaryTag
  nextWay : Sparse Nat

namespace DuplicateTags

def sets : Nat := 512

def ways : Nat := 2

def tagShift : Nat := 15

def lineCount : Nat := sets * ways

/-- No line is valid, and each has its partner at its own place. -/
def empty : DuplicateTags := ⟨.empty, .empty, .empty⟩

def setOf (a : Address) : Nat := a.toNat / blockSize % sets

def tagOf (a : Address) : Nat := a.toNat >>> tagShift

def baseOf (a : Address) : Nat := setOf a * ways

def line (t : DuplicateTags) (i : Nat) : DuplicateTag := (t.lines.get? i).getD { partner := i }

def primaryLine (t : DuplicateTags) (i : Nat) : PrimaryTag := (t.primary.get? i).getD {}

def find? (t : DuplicateTags) (a : Address) : Option Nat :=
  (List.range' (baseOf a) ways).find? fun i =>
    (t.line i).state.valid && (t.line i).tag == tagOf a

def hit (t : DuplicateTags) (a : Address) : Bool := (t.find? a).isSome

def stateOf (t : DuplicateTags) (a : Address) : LineState :=
  match t.find? a with
  | some i => (t.line i).state
  | none => .invalid

/-- Writes line `i` and its partner. -/
def write (t : DuplicateTags) (i : Nat) (a : Address) (s : LineState) : DuplicateTags :=
  let partner := (t.line i).partner
  { t with
    lines := t.lines.set i { tag := tagOf a, addr := a.block, partner, state := s.settled }
    primary := t.primary.set partner { tag := tagOf a, state := s.settled } }

/-- The line that gives way to `a`: the first that is not valid, else the ways take turns. -/
def placeFor (t : DuplicateTags) (a : Address) : Nat × DuplicateTags :=
  match (List.range' (baseOf a) ways).find? fun i => !(t.line i).state.valid with
  | some i => (i, t)
  | none =>
    let way := (t.nextWay.get? (setOf a)).getD 0 % ways
    (baseOf a + way, { t with nextWay := t.nextWay.set (setOf a) ((way + 1) % ways) })

/-- Puts `a` in state `s`; the answer is the valid line that it displaced. -/
def fill (t : DuplicateTags) (a : Address) (s : LineState) : Option Displaced × DuplicateTags :=
  match t.find? a with
  | some i => (none, t.write i a s)
  | none =>
    let (i, t) := t.placeFor a
    let old := t.line i
    (if old.state.valid then some ⟨old.addr, old.state⟩ else none, t.write i a s)

def setState (t : DuplicateTags) (a : Address) (s : LineState) : Bool × DuplicateTags :=
  match t.find? a with
  | some i => (true, t.write i a s)
  | none => (false, t)

def drop (t : DuplicateTags) (a : Address) : Option LineState × DuplicateTags :=
  match t.find? a with
  | some i => (some (t.line i).state, t.write i a .invalid)
  | none => (none, t)

def agrees (t : DuplicateTags) (i : Nat) : Bool :=
  let mine := t.line i
  let other := t.primaryLine mine.partner
  other.state.valid == mine.state.valid &&
    (!mine.state.valid || (other.tag == mine.tag && other.state.dirty == mine.state.dirty &&
      other.state.shared == mine.state.shared))

def isConsistent (t : DuplicateTags) : Bool := (List.range lineCount).all t.agrees

end DuplicateTags
end CacheCoherence
