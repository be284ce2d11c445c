namespace CacheCoherence

structure Counters where
  missAllocations : Nat := 0
  missMerges : Nat := 0
  localHits : Nat := 0
  victimsToCache : Nat := 0
  victimsToMemory : Nat := 0
  victimsForProbes : Nat := 0
  writeAllocations : Nat := 0
  writeMerges : Nat := 0
  probeHits : Nat := 0
  probeMisses : Nat := 0
  anomalies : Nat := 0
  backpressure : Nat := 0
  completions : Nat := 0
  deriving DecidableEq, Repr, Inhabited

namespace Counters

def add (a b : Counters) : Counters where
  missAllocations := a.missAllocations + b.missAllocations
  missMerges := a.missMerges + b.missMerges
  localHits := a.localHits + b.localHits
  victimsToCache := a.victimsToCache + b.victimsToCache
  victimsToMemory := a.victimsToMemory + b.victimsToMemory
  victimsForProbes := a.victimsForProbes + b.victimsForProbes
  writeAllocations := a.writeAllocations + b.writeAllocations
  writeMerges := a.writeMerges + b.writeMerges
  probeHits := a.probeHits + b.probeHits
  probeMisses := a.probeMisses + b.probeMisses
  anomalies := a.anomalies + b.anomalies
  backpressure := a.backpressure + b.backpressure
  completions := a.completions + b.completions

def total (counters : List Counters) : Counters := counters.foldl add {}

def named (c : Counters) : List (String × Nat) :=
  [("maf_allocations", c.missAllocations), ("maf_merges", c.missMerges),
   ("local_hits", c.localHits), ("victims_to_bcache", c.victimsToCache),
   ("victims_to_memory", c.victimsToMemory), ("victims_probe", c.victimsForProbes),
   ("iowb_allocations", c.writeAllocations), ("iowb_merges", c.writeMerges),
   ("probe_hits", c.probeHits), ("probe_misses", c.probeMisses), ("anomalies", c.anomalies),
   ("backpressure", c.backpressure), ("completions", c.completions)]

def noteRefusal (c : Counters) (refused : Bool) : Counters :=
  if refused then { c with backpressure := c.backpressure + 1 } else c

end Counters

structure HubCounters where
  requests : Nat := 0
  transactions : Nat := 0
  probesSent : Nat := 0
  probeReplies : Nat := 0
  dirtyReplies : Nat := 0
  parkedProbes : Nat := 0
  memoryReads : Nat := 0
  memoryWrites : Nat := 0
  ioWrites : Nat := 0
  absent : Nat := 0
  deriving DecidableEq, Repr, Inhabited

def HubCounters.named (c : HubCounters) : List (String × Nat) :=
  [("requests", c.requests), ("transactions", c.transactions), ("probes_sent", c.probesSent),
   ("probe_responses", c.probeReplies), ("dirty_responses", c.dirtyReplies),
   ("skid_parks", c.parkedProbes), ("memory_reads", c.memoryReads),
   ("memory_writes", c.memoryWrites), ("io_writes", c.ioWrites), ("nonexistent", c.absent)]

end CacheCoherence
