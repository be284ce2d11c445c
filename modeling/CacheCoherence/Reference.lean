import CacheCoherence.Fault

namespace CacheCoherence

inductive Width
  | byte
  | word
  | long
  | quad
  deriving DecidableEq, Repr

namespace Width

def bytes : Width → Nat
  | byte => 1
  | word => 2
  | long => 4
  | quad => 8

def ofBytes (length : Nat) : Except Fault Width :=
  match length with
  | 1 => .ok byte
  | 2 => .ok word
  | 4 => .ok long
  | 8 => .ok quad
  | _ => .error (.rejected (.storeLength length))

end Width

/-- What a reference does. An upgrade stores to a line that is held clean; a claim takes a whole
block that is about to be overwritten; a purge evicts a block. -/
inductive Access
  | load (width : Width)
  | store (width : Width)
  | conditional (width : Width)
  | upgrade (width : Width)
  | conditionalUpgrade (width : Width)
  | claim
  | purge
  | fetch
  | barrier
  deriving DecidableEq, Repr

namespace Access

def length : Access → Nat
  | load w | store w | conditional w | upgrade w | conditionalUpgrade w => w.bytes
  | claim | purge => blockSize
  | fetch => 4
  | barrier => 0

def alignment : Access → Nat
  | load w | store w | conditional w | upgrade w | conditionalUpgrade w => w.bytes
  | claim | purge => blockSize
  | fetch => 4
  | barrier => 1

/-- The line must be held dirty and by this node alone. -/
def needsOwnership : Access → Bool
  | store _ | conditional _ | upgrade _ | conditionalUpgrade _ | claim => true
  | load _ | purge | fetch | barrier => false

def isUpgrade : Access → Bool
  | upgrade _ | conditionalUpgrade _ => true
  | _ => false

/-- A later reference of the same kind to the same block may join. -/
def merges : Access → Bool
  | load _ | fetch => true
  | _ => false

def allowsIo : Access → Bool
  | load _ | fetch | barrier => true
  | _ => false

def fillLength (a : Access) : Nat := if a.length = 0 then 0 else blockSize

end Access

/-- A reference, with the load and store queue entries that wait for it. -/
structure Reference where
  access : Access
  addr : Address
  mask : UInt64
  waiters : List UInt8
  deriving DecidableEq, Repr

namespace Reference

/-- Alignment is looked at before length, length before the number of waiters. -/
def check (r : Reference) : Except Fault Unit :=
  if r.addr.aligned r.access.alignment.toUInt64 = false then
    .error (.rejected (.misaligned r.addr r.access.alignment))
  else if 0 < r.access.length ∧ r.addr.fits r.access.length = false then
    .error (.rejected (.spansBlock r.addr r.access.length))
  else if slotCount < r.waiters.length then
    .error (.rejected (.tooManyWaiters r.waiters.length))
  else .ok ()

def join (r later : Reference) : Reference :=
  { r with mask := r.mask ||| later.mask, waiters := r.waiters ++ later.waiters }

end Reference
end CacheCoherence
