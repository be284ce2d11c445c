import CacheCoherence.Block
import CacheCoherence.LineState
import CacheCoherence.Slots

/-!
Probes. The hub probes a node with one byte: bits 4 and 3 say what data must come back, bits 2 to 0
say what state the node's copy moves to. Three of the eight next-state codes are reserved.
-/
namespace CacheCoherence

inductive DataMovement
  | nothing
  | ifHit
  | ifDirty
  | always
  deriving DecidableEq, Repr

namespace DataMovement

def code : DataMovement → UInt8
  | nothing => 0
  | ifHit => 1
  | ifDirty => 2
  | always => 3

def ofCode (bits : UInt8) : DataMovement :=
  match (bits &&& 3).toNat with
  | 0 => nothing
  | 1 => ifHit
  | 2 => ifDirty
  | _ => always

def isHit (d : DataMovement) (s : LineState) : Bool :=
  match d with
  | ifDirty => s.isDirty
  | nothing | ifHit | always => s.valid

def returnsData (d : DataMovement) (s : LineState) : Bool :=
  match d with
  | nothing => false
  | ifHit | always => s.valid
  | ifDirty => s.isDirty

theorem valid_of_isHit {d : DataMovement} {s : LineState} (hit : d.isHit s = true) :
    s.valid = true := by
  cases d with
  | ifDirty => exact LineState.valid_of_isDirty hit
  | nothing | ifHit | always => exact hit

theorem valid_of_returnsData {d : DataMovement} {s : LineState} (asks : d.returnsData s = true) :
    s.valid = true := by
  cases d with
  | ifDirty => exact LineState.valid_of_isDirty asks
  | nothing => cases asks
  | ifHit | always => exact asks

end DataMovement

inductive NextState
  | unchanged
  | clean
  | cleanShared
  | transient3
  | dirtyShared
  | invalid
  | transient1
  | reserved
  deriving DecidableEq, Repr

namespace NextState

def code : NextState → UInt8
  | unchanged => 0
  | clean => 1
  | cleanShared => 2
  | transient3 => 3
  | dirtyShared => 4
  | invalid => 5
  | transient1 => 6
  | reserved => 7

def ofCode (bits : UInt8) : NextState :=
  match (bits &&& 7).toNat with
  | 0 => unchanged
  | 1 => clean
  | 2 => cleanShared
  | 3 => transient3
  | 4 => dirtyShared
  | 5 => invalid
  | 6 => transient1
  | _ => reserved

def name : NextState → String
  | unchanged => "Nop"
  | clean => "Clean"
  | cleanShared => "CleanShared"
  | transient3 => "Trans3"
  | dirtyShared => "DirtyShared"
  | invalid => "Invalid"
  | transient1 => "Trans1"
  | reserved => "Reserved"

def all : List NextState :=
  [unchanged, clean, cleanShared, transient3, dirtyShared, invalid, transient1, reserved]

def ofName? (text : String) : Option NextState := all.find? (·.name == text)

/-- The code stands for no transition. -/
def isReserved : NextState → Bool
  | transient3 | transient1 | reserved => true
  | _ => false

/-- The transition; lines without a valid copy and reserved codes stay as they are. -/
def apply (n : NextState) (s : LineState) : LineState :=
  if s.valid then
    match n with
    | clean => { s with dirty := false, shared := false }
    | cleanShared => { s with dirty := false, shared := true }
    | dirtyShared => { s with dirty := true, shared := true }
    | invalid => LineState.invalid
    | unchanged | transient3 | transient1 | reserved => s
  else s

end NextState

structure ProbeCommand where
  movement : DataMovement
  next : NextState
  deriving DecidableEq, Repr

namespace ProbeCommand

def movementMask : UInt8 := 0x18

def movementShift : UInt8 := 3

def nextMask : UInt8 := 0x07

def encode (c : ProbeCommand) : UInt8 :=
  ((c.movement.code &&& 3) <<< movementShift) ||| (c.next.code &&& nextMask)

/-- Bits above the fourth are ignored. -/
def decode (raw : UInt8) : ProbeCommand where
  movement := DataMovement.ofCode ((raw &&& movementMask) >>> movementShift)
  next := NextState.ofCode (raw &&& nextMask)

theorem decode_encode (c : ProbeCommand) : decode c.encode = c := by
  obtain ⟨movement, next⟩ := c
  cases movement <;> cases next <;> rfl

end ProbeCommand

structure Probe where
  txn : Nat
  addr : Address
  raw : UInt8
  deriving DecidableEq, Repr

namespace Probe

def ofCommand (txn : Nat) (addr : Address) (c : ProbeCommand) : Probe := ⟨txn, addr, c.encode⟩

def command (p : Probe) : ProbeCommand := ProbeCommand.decode p.raw

end Probe

inductive ProbeStatus
  | miss
  | hitClean
  | hitDirty
  deriving DecidableEq, Repr

/-- The answer to a probe. `victim` is the slot that keeps the dirty data until the hub has it. -/
structure ProbeReply where
  txn : Nat
  addr : Address
  status : ProbeStatus
  data : Option Block := none
  victim : Option Slot := none
  anomaly : Bool := false
  deriving DecidableEq, Repr

end CacheCoherence
