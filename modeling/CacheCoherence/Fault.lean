import CacheCoherence.Probe

namespace CacheCoherence

inductive Resource
  | missFile
  | victimBuffer
  | writeBuffer
  | probeRing
  deriving DecidableEq, Repr

def Resource.name : Resource → String
  | missFile => "miss address file"
  | victimBuffer => "victim buffer"
  | writeBuffer => "I/O write buffer"
  | probeRing => "probe queue"

/-- Requests that are refused before anything changes. -/
inductive Rejection
  | misaligned (addr : Address) (alignment : Nat)
  | spansBlock (addr : Address) (length : Nat)
  | storeLength (length : Nat)
  | tooManyWaiters (count : Nat)
  | cacheSize (megabytes : Nat)
  | cacheEncoding (bits : UInt64)
  | staleSlot (slot : Nat)
  | notComplete (slot : Nat)
  | alreadyComplete (slot : Nat)
  | ioSpace (addr : Address)
  | notOwned (addr : Address)
  | registerValue (field : String) (width : Nat) (value : UInt64)
  deriving DecidableEq, Repr

structure Anomaly where
  addr : Address
  raw : UInt8
  movement : UInt8
  next : UInt8
  deriving DecidableEq, Repr

inductive StartupFailure
  | cpuCount (count : Nat)
  | arrayCount (count : Nat)
  | arraySize (bytes : Nat)
  | noProbeRing
  | reservedNextState (next : NextState)
  | exclusiveReader
  | noSystemRecord
  | noCpuRecord (cpu : Nat)
  | noMemoryArray (index : Nat)
  | wrongOrder (cpu registered : Nat)
  | foreignInterface (cpu offered : Nat)
  | alreadyBound (cpu : Nat)
  | registration (cpu : Nat) (reason : String)
  | workers (failed : Nat)
  | other (reason : String)
  deriving DecidableEq, Repr

inductive Fault
  | exhausted (resource : Resource)
  | rejected (reason : Rejection)
  | anomalous (anomaly : Anomaly)
  | startup (failure : StartupFailure)
  | absentMemory (addr : Address)
  deriving DecidableEq, Repr

def Rejection.kind : Rejection → String
  | misaligned .. => "Misaligned"
  | spansBlock .. => "SpansBlock"
  | storeLength _ => "StoreLength"
  | tooManyWaiters _ => "TooManyRefs"
  | cacheSize _ => "BcacheSize"
  | cacheEncoding _ => "BcacheEncoding"
  | staleSlot _ => "StaleHandle"
  | notComplete _ => "NotComplete"
  | alreadyComplete _ => "AlreadyComplete"
  | ioSpace _ => "IoSpace"
  | notOwned _ => "NotOwned"
  | registerValue .. => "CsrValue"

def cpuName (cpu : Nat) : String := "cpu" ++ toString cpu

def Rejection.message : Rejection → String
  | misaligned addr alignment =>
    "address " ++ addr.display ++ " is not aligned to " ++ toString alignment ++ " bytes"
  | spansBlock addr length =>
    toString length ++ "-byte access at " ++ addr.display ++ " spans a block boundary"
  | storeLength length => "unsupported store length " ++ toString length
  | tooManyWaiters count =>
    toString count ++ " load/store-queue references exceed the per-entry limit"
  | cacheSize megabytes => "unsupported backup-cache size " ++ toString megabytes ++ " MB"
  | cacheEncoding bits => "unsupported backup-cache size encoding " ++ Text.hex bits.toNat
  | staleSlot slot => "handle " ++ toString slot ++ " does not name a live entry"
  | notComplete slot => "entry " ++ toString slot ++ " has not completed"
  | alreadyComplete slot => "entry " ++ toString slot ++ " was already completed"
  | ioSpace addr => addr.display ++ " is in I/O space and cannot be cached"
  | notOwned addr => "line " ++ addr.display ++ " is not owned dirty by this CPU"
  | registerValue field width value =>
    "value " ++ Text.hex value.toNat ++ " does not fit the " ++ toString width ++
      "-bit CSR field " ++ field

def Anomaly.message (a : Anomaly) : String :=
  "probe " ++ Text.hexByte a.raw.toNat ++ " at " ++ a.addr.display ++
    " carries reserved next-state code " ++ Text.binary a.next.toNat

def StartupFailure.message : StartupFailure → String
  | cpuCount count => "cpu_count " ++ toString count ++ " outside 1..=4"
  | arrayCount count => "array_count " ++ toString count ++ " outside 1..=4"
  | arraySize bytes =>
    "array_size_bytes " ++ toString bytes ++ " is not a non-zero multiple of 64"
  | noProbeRing => "probe_queue_depth must be non-zero"
  | reservedNextState next => "read_probe_next_state " ++ next.name ++ " is a reserved code"
  | exclusiveReader => "read_probe_next_state Nop leaves the owner exclusive"
  | noSystemRecord => "system record allocation failed"
  | noCpuRecord cpu => cpuName cpu ++ " record allocation failed"
  | noMemoryArray index => "memory array " ++ toString index ++ " allocation failed"
  | wrongOrder cpu registered =>
    "cannot register " ++ cpuName cpu ++ " in slot " ++ toString registered
  | foreignInterface cpu offered =>
    cpuName cpu ++ " offered the interface record of " ++ cpuName offered
  | alreadyBound cpu => cpuName cpu ++ " is already bound"
  | registration cpu reason => cpuName cpu ++ " registration failed: " ++ reason
  | workers failed => toString failed ++ " workload thread(s) failed"
  | other reason => reason

namespace Fault

def message : Fault → String
  | exhausted resource => resource.name ++ " exhausted"
  | rejected reason => "invalid request: " ++ reason.message
  | anomalous anomaly => "protocol anomaly: " ++ anomaly.message
  | startup failure => "system initialization failed: " ++ failure.message
  | absentMemory addr => "no memory array backs address " ++ addr.display

/-- The class of a fault, which stays the same when its wording changes. -/
def kind : Fault → String
  | exhausted _ => "ResourceExhausted"
  | rejected reason => "InvalidRequest." ++ reason.kind
  | anomalous _ => "ProtocolAnomaly"
  | startup _ => "InitializationFailure"
  | absentMemory _ => "NonExistentMemory"

/-- The operation may succeed when it is tried again later. -/
def isBackpressure : Fault → Bool
  | exhausted _ => true
  | _ => false

end Fault
end CacheCoherence
