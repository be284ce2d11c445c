import CacheCoherence.CacheSize
import CacheCoherence.Hub

namespace CacheCoherence

structure Settings where
  trace : Bool := false
  cpuCount : Nat := 1
  arrayCount : Nat := 1
  arrayBytes : Nat := 1048576
  cacheMegabytes : Nat := 1
  probeDepth : Nat := 8
  readNext : NextState := .invalid
  deriving DecidableEq, Repr

namespace Settings

def maxArrays : Nat := 4

def cacheSize (s : Settings) : Except Fault CacheSize := CacheSize.ofMegabytes s.cacheMegabytes

/-- The first condition that fails is reported. A read must not leave an owner that could go on
writing the line unseen by its reader. -/
def validate (s : Settings) : Except Fault Unit :=
  if s.cpuCount = 0 ∨ Hub.maxCpus < s.cpuCount then .error (.startup (.cpuCount s.cpuCount))
  else if s.arrayCount = 0 ∨ maxArrays < s.arrayCount then
    .error (.startup (.arrayCount s.arrayCount))
  else if s.arrayBytes = 0 ∨ s.arrayBytes % blockSize ≠ 0 then
    .error (.startup (.arraySize s.arrayBytes))
  else if s.probeDepth = 0 then .error (.startup .noProbeRing)
  else if s.readNext.isReserved then .error (.startup (.reservedNextState s.readNext))
  else if s.readNext = .unchanged then .error (.startup .exclusiveReader)
  else
    match s.cacheSize with
    | .error fault => .error fault
    | .ok _ => .ok ()

end Settings
end CacheCoherence
