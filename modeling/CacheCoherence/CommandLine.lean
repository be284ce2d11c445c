import CacheCoherence.Host
import CacheCoherence.Settings.Reading
import CacheCoherence.Workload

namespace CacheCoherence.CommandLine

structure RunOptions where
  config : Option String := none
  cpus : Option Nat := none
  iterations : Option Nat := none
  trace : Bool := false
  json : Bool := false
  stats : List String := []
  deriving DecidableEq, Repr

inductive Command
  | run (options : RunOptions)
  | check (path : String)
  | help
  | version
  deriving DecidableEq, Repr

inductive Switch
  | config
  | cpus
  | iterations
  | trace
  | json
  | stats
  | help
  deriving DecidableEq, Repr

namespace Switch

def takesValue : Switch → Bool
  | config | cpus | iterations | stats => true
  | trace | json | help => false

def ofLong? : String → Option Switch
  | "config" => some config
  | "cpus" => some cpus
  | "iterations" => some iterations
  | "trace" => some trace
  | "json" => some json
  | "stats" => some stats
  | "help" => some help
  | _ => none

def ofShort? : Char → Option Switch
  | 'c' => some config
  | 'n' => some iterations
  | 'h' => some help
  | _ => none

end Switch

def number? (text : String) : Option Nat :=
  let digits :=
    match text.toList with
    | '+' :: rest => rest
    | rest => rest
  if digits.isEmpty || !digits.all Char.isDigit then none
  else
    let n := Text.Json.digitValue digits
    if n < 1 <<< 64 then some n else none

def path? (text : String) : Option String := if text.isEmpty then none else some text

def once {α : Type} (old : Option α) (new : Option α) : Option (Option α) :=
  if old.isSome then none else new.map some

def RunOptions.give (o : RunOptions) (s : Switch) (value : String) : Option RunOptions :=
  match s with
  | .config => do return { o with config := ← once o.config (path? value) }
  | .cpus => do return { o with cpus := ← once o.cpus (number? value) }
  | .iterations => do return { o with iterations := ← once o.iterations (number? value) }
  | .stats => some { o with stats := o.stats ++ value.splitOn "," }
  | .trace | .json | .help => none

def RunOptions.raise (o : RunOptions) : Switch → Option RunOptions
  | .trace => if o.trace then none else some { o with trace := true }
  | .json => if o.json then none else some { o with json := true }
  | _ => none

/-- What a word of the command line is: an option by its name or by its letter, with what is attached
to it, the separator after which nothing is an option, or a plain word. -/
inductive Word
  | long (name : String) (value : Option String)
  | short (letter : Char) (rest : String)
  | separator
  | plain
  deriving DecidableEq, Repr

namespace Word

def ofString (text : String) : Word :=
  match text.toList with
  | ['-', '-'] => .separator
  | '-' :: '-' :: rest =>
    let name := String.ofList (rest.takeWhile (· != '='))
    match rest.dropWhile (· != '=') with
    | '=' :: value => .long name (some (String.ofList value))
    | _ => .long name none
  | '-' :: letter :: rest => .short letter (String.ofList rest)
  | _ => .plain

/-- The value in the rest of a letter's word, which an equals sign may begin. -/
def attached (rest : String) : Option String :=
  match rest.toList with
  | [] => none
  | '=' :: value => some (String.ofList value)
  | _ => some rest

/-- The option that a word names, with the value attached to it. The one letter that takes no value
asks for help, and then the rest of its word is not read. -/
def switch? : Word → Option (Switch × Option String)
  | long name value => (Switch.ofLong? name).map (·, value)
  | short letter rest =>
    (Switch.ofShort? letter).map fun s => (s, if s.takesValue then attached rest else none)
  | separator | plain => none

end Word

/-- The options of `run`; there is no command if a word is out of place. -/
def parseRun : RunOptions → List String → Option Command
  | o, [] => some (.run o)
  | o, word :: rest =>
    match Word.ofString word with
    | .separator => if rest.isEmpty then some (.run o) else none
    | word =>
      match word.switch? with
      | some (.help, none) => some .help
      | some (s, some value) =>
        if s.takesValue then do parseRun (← o.give s value) rest else none
      | some (s, none) =>
        if s.takesValue then
          match rest with
          | [] => none
          | value :: rest =>
            if Word.ofString value = .plain then do parseRun (← o.give s value) rest else none
        else do parseRun (← o.raise s) rest
      | none => none

def parseCheck : Option String → List String → Option Command
  | path, [] => path.map .check
  | path, word :: rest =>
    match Word.ofString word with
    | .plain => do parseCheck (← once path (path? word)) rest
    | .separator =>
      match path, rest with
      | some path, [] => some (.check path)
      | none, [word] => (path? word).map .check
      | _, _ => none
    | word => if word.switch? = some (.help, none) then some .help else none

def parseHelp : List String → Option Command
  | [] | ["run"] | ["check"] | ["help"] => some .help
  | _ => none

def parse? : List String → Option Command
  | [] => none
  | "run" :: rest => parseRun {} rest
  | "check" :: rest => parseCheck none rest
  | "help" :: topic => parseHelp topic
  | word :: _ =>
    match Word.ofString word with
    | .long "help" none | .short 'h' _ => some .help
    | .long "version" none | .short 'V' _ => some .version
    | _ => none

structure Response where
  code : Nat
  output : List Line := []
  errors : List String := []
  deriving DecidableEq, Repr

inductive LoadFailure
  | unreadable (path : String) (fault : FileFault)
  | malformed (path : String)
  | invalid (fault : Fault)
  deriving DecidableEq, Repr

def LoadFailure.message : LoadFailure → String
  | unreadable path fault => "cannot read " ++ path ++ ": " ++ fault.message
  | malformed path => "cannot parse " ++ path
  | invalid fault => fault.message

def readSettings (readFile : FileReader) (path : Option String) : Except LoadFailure Settings :=
  match path with
  | none => .ok {}
  | some path =>
    match readFile path with
    | .error fault => .error (.unreadable path fault)
    | .ok text =>
      match Settings.read? text with
      | none => .error (.malformed path)
      | some settings => .ok settings

def load (readFile : FileReader) (path : Option String) : Except LoadFailure Settings :=
  match readSettings readFile path with
  | .error failure => .error failure
  | .ok settings =>
    match settings.validate with
    | .error fault => .error (.invalid fault)
    | .ok () => .ok settings

def checkLine (path : String) (s : Settings) : String :=
  path ++ ": ok (" ++ toString s.cpuCount ++ " cpus, " ++ toString s.arrayCount ++ " x " ++
    toString s.arrayBytes ++ " byte arrays, " ++ toString s.cacheMegabytes ++ " MB bcache)"

def check (readFile : FileReader) (path : String) : Response :=
  match load readFile (some path) with
  | .ok settings => { code := 0, output := [.text (checkLine path settings)] }
  | .error failure => { code := 1, errors := [path ++ ": " ++ failure.message] }

/-- The code of a program that broke off, as a shell sees it. -/
def brokenOff : Nat := 134

def defaultIterations : Nat := 1000

/-- Builds a machine, runs the workload and reports. A machine that cannot be built reports nothing;
a workload that fails reports and fails. -/
def runMachine (settings : Settings) (o : RunOptions) : Response :=
  match (Machine.build Heap.allocator {} settings).1.outcome with
  | .error none => { code := brokenOff }
  | .error (some _) => { code := 1 }
  | .ok m =>
    let (failures, fabric) :=
      Workload.run (o.iterations.getD defaultIterations) (List.range m.fabric.own) m.fabric
    let report := Workload.report { m with fabric }
    { code := if failures = 0 then 0 else 1
      output := if o.json then report.jsonLines.map .text else report.lines o.stats }

def run (readFile : FileReader) (o : RunOptions) : Response :=
  match load readFile o.config with
  | .error failure => { code := 1, errors := ["Error: " ++ failure.message] }
  | .ok settings =>
    runMachine { settings with cpuCount := o.cpus.getD settings.cpuCount } o

def usage : List String :=
  ["Usage: smpsim run [-c FILE] [--cpus N] [-n N] [--trace] [--json] [--stats a,b,c]",
   "       smpsim check FILE"]

def version : String := "smpsim 0.3.0"

def execute (readFile : FileReader) (words : List String) : Response :=
  match parse? words with
  | none => { code := 2, errors := usage }
  | some .help => { code := 0, output := usage.map .text }
  | some .version => { code := 0, output := [.text version] }
  | some (.check path) => check readFile path
  | some (.run o) => run readFile o

def fileOf (words : List String) : Option String :=
  match parse? words with
  | some (.check path) => some path
  | some (.run o) => o.config
  | _ => none

end CacheCoherence.CommandLine
