import CacheCoherence.Settings
import CacheCoherence.Text.Json

namespace CacheCoherence.Settings

open Text (Json)

def orElse {α : Type} (fallback : α) (read : Json → Option α) : Option Json → Option α
  | none => some fallback
  | some json => read json

def natural? (bound : Nat) : Json → Option Nat
  | .number (some n) => if n < bound then some n else none
  | _ => none

def bool? : Json → Option Bool
  | .bool b => some b
  | _ => none

/-- The name of a next state, or an object whose one field has that name and the value `null`. -/
def nextState? : Json → Option NextState
  | .string (some text) => NextState.ofName? text
  | .object [(some text, .null)] => NextState.ofName? text
  | _ => none

def countBound : Nat := 1 <<< 64

def megabytesBound : Nat := 1 <<< 32

def readGeneral (s : Settings) (json : Json) : Option Settings := do
  match ← json.record? ["trace"] with
  | [trace] => return { s with trace := ← orElse s.trace bool? trace }
  | _ => none

def readSystem (s : Settings) (json : Json) : Option Settings := do
  match ← json.record? ["cpu_count", "array_count", "array_size_bytes"] with
  | [cpuCount, arrayCount, arrayBytes] =>
    return { s with
      cpuCount := ← orElse s.cpuCount (natural? countBound) cpuCount
      arrayCount := ← orElse s.arrayCount (natural? countBound) arrayCount
      arrayBytes := ← orElse s.arrayBytes (natural? countBound) arrayBytes }
  | _ => none

def readCache (s : Settings) (json : Json) : Option Settings := do
  match ← json.record? ["bcache_size_mb", "probe_queue_depth"] with
  | [megabytes, depth] =>
    return { s with
      cacheMegabytes := ← orElse s.cacheMegabytes (natural? megabytesBound) megabytes
      probeDepth := ← orElse s.probeDepth (natural? countBound) depth }
  | _ => none

def readHub (s : Settings) (json : Json) : Option Settings := do
  match ← json.record? ["read_probe_next_state"] with
  | [next] => return { s with readNext := ← orElse s.readNext nextState? next }
  | _ => none

def ofJson? (json : Json) : Option Settings := do
  match ← json.record? ["general", "system", "cbox", "hub"] with
  | [general, system, cache, hub] =>
    let s : Settings := {}
    let s ← orElse s s.readGeneral general
    let s ← orElse s s.readSystem system
    let s ← orElse s s.readCache cache
    orElse s s.readHub hub
  | _ => none

def read? (text : String) : Option Settings := do ofJson? (← Json.read? text)

end CacheCoherence.Settings
