import CacheCoherence.CommandLine

open CacheCoherence

/-- What stopped the host from reading a file. Some of its numbers come negated in 32 bits. -/
def hostFault : IO.Error → FileFault
  | .noFileOrDirectory _ code details
  | .inappropriateType _ code details
  | .invalidArgument _ code details
  | .permissionDenied _ code details
  | .otherError code details => .ofNumber details (if code < 0x80000000 then code else -code).toNat
  | e => .other (toString e) 0

def readText (path : String) : IO (Except FileFault String) := do
  try
    match String.fromUTF8? (← IO.FS.readBinFile path) with
    | some text => return .ok text
    | none => return .error .notText
  catch e => return .error (hostFault e)

def secondsText (milliseconds : Nat) : String :=
  toString (milliseconds / 1000) ++ "." ++ Text.digits 10 3 (milliseconds % 1000) ++ "0"

def main (words : List String) : IO UInt32 := do
  let file ←
    match CommandLine.fileOf words with
    | some path => readText path
    | none => pure (.error .missing)
  let start ← IO.monoMsNow
  let response ← IO.lazyPure fun _ => CommandLine.execute (fun _ => file) words
  let elapsed := (← IO.monoMsNow) - start
  for line in response.output do
    match line with
    | .text content => IO.println content
    | .elapsed => IO.println (Text.column 25 "host_seconds" ++ secondsText elapsed ++ " s")
  for line in response.errors do
    IO.eprintln line
  return UInt32.ofNat response.code
