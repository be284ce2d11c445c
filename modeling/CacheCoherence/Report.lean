import CacheCoherence.Counters
import CacheCoherence.Text.Number

namespace CacheCoherence

structure Report where
  cpus : List Counters
  hub : HubCounters
  deriving DecidableEq, Repr

/-- A line of output. The line with the elapsed time is left to whoever measured it. -/
inductive Line
  | text (content : String)
  | elapsed
  deriving DecidableEq, Repr

namespace Report

def sections : List String := ["summary", "cpu", "hub"]

def total (r : Report) : Counters := Counters.total r.cpus

def doubleRule : String := "=========================================================="

def singleRule : String := "----------------------------------------------------------"

def entry (label : String) (value : Nat) : String := Text.column 25 label ++ toString value

def summary (r : Report) : List Line :=
  let k := r.total
  [.text "", .text doubleRule, .text "COHERENCE SUBSYSTEM STATISTICS", .text doubleRule, .elapsed,
   .text (entry "cpus" r.cpus.length),
   .text (entry "maf.allocations" k.missAllocations),
   .text (entry "maf.merges" k.missMerges),
   .text (entry "local_hits" k.localHits),
   .text (entry "anomalies" k.anomalies),
   .text (entry "backpressure" k.backpressure),
   .text singleRule]

def hitRate (k : Counters) : Float :=
  let probes := k.probeHits + k.probeMisses
  if probes = 0 then 0 else 100 * (Float.ofNat k.probeHits / Float.ofNat probes)

def cpu (i : Nat) (k : Counters) : List String :=
  let number := fun (width n : Nat) => Text.column width (toString n)
  ["CPU " ++ toString i,
   "  maf                    alloc: " ++ number 8 k.missAllocations ++ " merge: " ++
     number 8 k.missMerges ++ " hits: " ++ toString k.localHits,
   "  victims                bcache: " ++ number 7 k.victimsToCache ++ " memory: " ++
     number 7 k.victimsToMemory ++ " probe: " ++ toString k.victimsForProbes,
   "  iowb                   alloc: " ++ number 8 k.writeAllocations ++ " merge: " ++
     toString k.writeMerges,
   "  probes                 " ++ number 10 (k.probeHits + k.probeMisses) ++ " hit_rate: " ++
     Text.fixed 2 (hitRate k) ++ "%"]

def cpuTables (r : Report) : List Line :=
  ((r.cpus.zipIdx.map fun (k, i) => cpu i k).flatten.map .text) ++ [.text singleRule]

def hubTable (r : Report) : List Line :=
  let k := r.hub
  [.text "HUB",
   .text (entry "  requests" k.requests),
   .text (entry "  transactions" k.transactions),
   .text (entry "  probes.sent" k.probesSent),
   .text (entry "  probes.dirty" k.dirtyReplies),
   .text (entry "  skid.parks" k.parkedProbes),
   .text (entry "  mem.reads" k.memoryReads),
   .text (entry "  mem.writes" k.memoryWrites),
   .text (entry "  io.writes" k.ioWrites),
   .text (entry "  nxm" k.absent)]

/-- The tables of the sections that are named, or all when none is. -/
def lines (r : Report) (wanted : List String) : List Line :=
  let wants := fun (name : String) => wanted.isEmpty || wanted.contains name
  (if wants "summary" then r.summary else []) ++ (if wants "cpu" then r.cpuTables else []) ++
    (if wants "hub" then r.hubTable else []) ++ [.text doubleRule]

def jsonFields (indent : Nat) (fields : List (String × Nat)) : List String :=
  let margin := String.ofList (List.replicate indent ' ')
  fields.zipIdx.map fun ((name, value), i) =>
    margin ++ "\"" ++ name ++ "\": " ++ toString value ++
      (if i + 1 < fields.length then "," else "")

def jsonLines (r : Report) : List String :=
  let opening := "\x7b"
  let closing := "\x7d"
  let cpus :=
    (r.cpus.zipIdx.map fun (k, i) =>
      ["    " ++ opening] ++ jsonFields 6 k.named ++
        ["    " ++ closing ++ (if i + 1 < r.cpus.length then "," else "")]).flatten
  let list := if r.cpus.isEmpty then ["  \"cpus\": [],"] else ["  \"cpus\": ["] ++ cpus ++ ["  ],"]
  [opening] ++ list ++ ["  \"hub\": " ++ opening] ++ jsonFields 4 r.hub.named ++
    ["  " ++ closing, closing]

end Report
end CacheCoherence
