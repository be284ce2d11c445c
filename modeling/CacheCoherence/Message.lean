import CacheCoherence.Probe

namespace CacheCoherence

/-- Names the slot that an answer belongs to. -/
inductive RequestId
  | miss (slot : Slot)
  | ioWrite (slot : Slot)
  deriving DecidableEq, Repr

namespace RequestId

def ioMark : UInt8 := 8

/-- The slot in the low three bits, the table in bit 3. -/
def raw : RequestId → UInt8
  | miss slot => UInt8.ofNat slot.val
  | ioWrite slot => UInt8.ofNat slot.val ||| ioMark

def ofRaw (byte : UInt8) : RequestId :=
  let slot : Slot := Fin.ofNat 8 byte.toNat
  if byte &&& ioMark == 0 then miss slot else ioWrite slot

def slot : RequestId → Slot
  | miss slot | ioWrite slot => slot

def isIoWrite : RequestId → Bool
  | ioWrite _ => true
  | miss _ => false

def display : RequestId → String
  | miss slot => "maf[" ++ toString slot.val ++ "]"
  | ioWrite slot => "iowb[" ++ toString slot.val ++ "]"

theorem ofRaw_raw (id : RequestId) : ofRaw id.raw = id := by
  cases id with
  | miss slot => revert slot; decide
  | ioWrite slot => revert slot; decide

end RequestId

/-- What a read does to the copies elsewhere. -/
inductive ReadKind
  | share
  | modify
  | upgrade
  | claim
  deriving DecidableEq, Repr

/-- The reader becomes the owner. -/
def ReadKind.exclusive : ReadKind → Bool
  | share => false
  | _ => true

inductive Request
  | read (id : RequestId) (addr : Address) (kind : ReadKind)
  | ioWrite (id : RequestId) (addr : Address) (data : List UInt8) (mask : UInt8) (written : UInt64)
  | victim (slot : Slot) (addr : Address) (data : Block)
  | reply (reply : ProbeReply)
  | barrier (id : RequestId)
  deriving DecidableEq, Repr

inductive CompletionTarget
  | request (id : RequestId)
  | victim (slot : Slot)
  deriving DecidableEq, Repr

/-- The hub's answer to a request. `absent` says that no memory stands behind the address. -/
structure Completion where
  target : CompletionTarget
  data : Option Block := none
  shared : Bool := false
  absent : Bool := false
  deriving DecidableEq, Repr

inductive Message
  | completion (completion : Completion)
  | probe (probe : Probe)
  deriving DecidableEq, Repr

end CacheCoherence
