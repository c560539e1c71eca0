import Handover.IntRange
import Handover.Json.Text
import Handover.Simulation
import Handover.Toml.Document

/-!
# The command line

`surge simulate` carries out a simulated migration. Arguments are read from left to right: an
option is `--name value` or `--name=value`, each at most once, and a value that begins with a dash
has to be written in the second way. A value written in the first way is not looked at before the
next option or the end is reached. `--config` names a settings file; it and `--json` may stand
before or after the subcommand, and the later one counts. What the command does is a `Transcript`:
what it prints and how it exits.
-/

namespace Handover

namespace Command

/-! ## Numbers -/

/-- The number that a text of digits writes. -/
def digits? (cs : List Char) : Option Nat :=
  if cs.isEmpty ∨ ¬ cs.all Char.isDigit then none else some (Json.digitsValue cs)

/-- A natural number of 64 bits, with or without a plus sign. -/
def nat64? (s : String) : Option Nat :=
  let n := match s.toList with
    | '+' :: cs => digits? cs
    | cs => digits? cs
  n.filter fun n => IntRange.unsigned64.contains n

/-- A whole number of 32 bits, with or without a sign. -/
def int32? (s : String) : Option Int :=
  let n : Option Int := match s.toList with
    | '-' :: cs => (digits? cs).map fun n => -(n : Int)
    | '+' :: cs => (digits? cs).map fun n => (n : Int)
    | cs => (digits? cs).map fun n => (n : Int)
  n.filter IntRange.signed32.contains

/-! ## Options -/

/-- What an option is for. -/
inductive Purpose where
  | help
  | version
  | switch
  | value (accepts : String → Bool)

/-- The options that may stand anywhere. -/
def commonOptions : List (String × Purpose) :=
  [("help", .help), ("json", .switch), ("config", .value fun s => ¬ s.isEmpty)]

/-- The options before a subcommand. -/
def mainOptions : List (String × Purpose) :=
  ("version", .version) :: commonOptions

/-- The options of `simulate`. -/
def simulateOptions : List (String × Purpose) :=
  [("namespace", .value fun _ => true),
   ("name", .value fun _ => true),
   ("source-replicas", .value fun s => (int32? s).isSome),
   ("destination-replicas", .value fun s => (int32? s).isSome),
   ("replicas", .value fun s => (int32? s).isSome),
   ("max-surge", .value fun s => (int32? s).isSome),
   ("timeout-seconds", .value fun s => (int32? s).isSome),
   ("controller-delay-ms", .value fun s => (nat64? s).isSome),
   ("wait-seconds", .value fun s => (nat64? s).isSome)] ++ commonOptions

/-- Options that were given, with their values; a switch has an empty value. -/
abbrev Given :=
  List (String × String)

/-- The value of an option. -/
def value? (given : Given) (name : String) : Option String :=
  (given.find? (·.1 = name)).map Prod.snd

/-- Why reading stops before the end of the arguments. -/
inductive Stop where
  | usage
  | help
  | version
  deriving DecidableEq

/-- Options while they are being read: those that were recorded, and the last one if its value is
still to be looked at. -/
structure Reading where
  given : Given
  pending : Option (String × String)

/-- No option was read. -/
def Reading.empty : Reading :=
  ⟨[], none⟩

/-- Record an option that was given. -/
def record (given : Given) (name value : String) : Except Stop Given :=
  if (value? given name).isSome then .error .usage else .ok (given ++ [(name, value)])

/-- Record an option that was given with a value, if it accepts the value. -/
def recordValue (known : List (String × Purpose)) (given : Given) (name value : String) :
    Except Stop Given :=
  match known.lookup name with
  | some (.value accepts) => if accepts value then record given name value else .error .usage
  | _ => .error .usage

/-- The options that were read, the last one among them. -/
def Reading.settle (known : List (String × Purpose)) (r : Reading) : Except Stop Given :=
  match r.pending with
  | none => .ok r.given
  | some (name, value) => recordValue known r.given name value

/-- The name of a long option and the value written with it. -/
def splitOption (argument : String) : String × Option String :=
  let cs := argument.toList.drop 2
  let name := cs.takeWhile (· ≠ '=')
  (String.ofList name,
    if name.length < cs.length then some (String.ofList (cs.drop (name.length + 1))) else none)

/-- Whether an argument can be the value of the option before it. -/
def isValue (argument : String) : Bool :=
  argument = "-" ∨ ¬ argument.startsWith "-"

/-- What a group of short options asks for; only its first letter counts. -/
def shortStop (options : List (String × Purpose)) (argument : String) : Stop :=
  match argument.toList[1]?, options.lookup "version" with
  | some 'h', _ => .help
  | some 'V', some _ => .version
  | _, _ => .usage

/-- Read a long option; answers the options read and the arguments after it. -/
def long (known : List (String × Purpose)) (r : Reading) (argument : String)
    (rest : List String) : Except Stop (Reading × List String) := do
  let given ← r.settle known
  let (name, written) := splitOption argument
  match known.lookup name, written, rest with
  | some .help, none, _ => .error .help
  | some .version, none, _ => .error .version
  | some .switch, none, rest => return (⟨← record given name "", none⟩, rest)
  | some (.value _), some v, rest => return (⟨← recordValue known given name v, none⟩, rest)
  | some (.value _), none, v :: rest =>
    if isValue v then return (⟨given, some (name, v)⟩, rest) else .error .usage
  | _, _, _ => .error .usage

/-- Read options up to the first argument that is none; answers the options read and the arguments
from there on. -/
def options (known : List (String × Purpose)) :
    Nat → Reading → List String → Except Stop (Reading × List String)
  | 0, _, _ => .error .usage
  | _, r, [] => .ok (r, [])
  | fuel + 1, r, argument :: rest =>
    if argument = "--" then if rest.isEmpty then .ok (r, []) else .error .usage
    else if argument.startsWith "--" then do
      let (r, rest) ← long known r argument rest
      options known fuel r rest
    else if isValue argument then .ok (r, argument :: rest)
    else do
      let _ ← r.settle known
      .error (shortStop known argument)

/-! ## Invocations -/

/-- What is asked of the command: nothing, or a simulation; with the settings file, if any. -/
inductive Invocation where
  | bare (config : Option String)
  | simulate (config : Option String) (simulation : Simulation)

/-- The simulation that options ask for. -/
def simulation (given : Given) : Simulation :=
  let int (name : String) : Option Int := (value? given name).bind int32?
  let nat (name : String) : Option Nat := (value? given name).bind nat64?
  { ns := (value? given "namespace").getD "default"
    name := (value? given "name").getD "web"
    sourceReplicas := (int "source-replicas").getD 10
    destinationReplicas := (int "destination-replicas").getD 0
    request :=
      { replicas := int "replicas"
        maxSurge := int "max-surge"
        timeoutSeconds := int "timeout-seconds"
        copyReplicas := false }
    controllerDelayMs := (nat "controller-delay-ms").getD 50
    waitSeconds := (nat "wait-seconds").getD 300 }

/-- What arguments ask for. A value pending before a subcommand is looked at after the subcommand
was read, and not at all before `help`. -/
def parse (arguments : List String) : Except Stop Invocation := do
  let fuel := arguments.length + 1
  match ← options mainOptions fuel .empty arguments with
  | (r, []) => return .bare (value? (← r.settle mainOptions) "config")
  | (r, "simulate" :: rest) =>
    match ← options simulateOptions fuel .empty rest with
    | (inner, []) =>
      let inner ← inner.settle simulateOptions
      let given ← r.settle mainOptions
      return .simulate (value? inner "config" <|> value? given "config") (simulation inner)
    | (_, _ :: _) => .error .usage
  | (_, "help" :: rest) =>
    if rest = [] ∨ rest = ["simulate"] ∨ rest = ["help"] then .error .help else .error .usage
  | (_, _ :: _) => .error .usage

/-! ## Settings -/

/-- Why there are no settings. -/
inductive ConfigError where
  | unreadable (path : String)
  | invalid (path : String)
  deriving DecidableEq

/-- The wording of a settings error. -/
def ConfigError.message : ConfigError → String
  | unreadable path => "failed to read config " ++ path
  | invalid path => "invalid config " ++ path

/-- The settings that a settings file writes; items of a list beyond those that have a meaning are
ignored. -/
def settingsOf? : Json → Option Settings :=
  Settings.ofRecord? fun _ => Json.lenientRecord?

/-- The settings of a file, given what files hold; the defaults without a file. -/
def settings (contents : String → Option String) : Option String → Except ConfigError Settings
  | none => .ok .default
  | some path =>
    match contents path with
    | none => .error (.unreadable path)
    | some text =>
      match (Toml.read? text).bind settingsOf? with
      | none => .error (.invalid path)
      | some s => .ok s

/-! ## Transcripts -/

/-- The version of the command. -/
def version : String :=
  "0.1.0"

/-- What the command prints and how it exits. -/
structure Transcript where
  exitCode : Nat
  version : Option String
  result : Option Snapshot
  errors : List String

/-- The transcript of a command that prints nothing of note. -/
def Transcript.silent (exitCode : Nat) : Transcript :=
  ⟨exitCode, none, none, []⟩

/-- The transcript of a command that fails with an error and its causes. -/
def Transcript.failure (result : Option Snapshot) (errors : List String) : Transcript :=
  ⟨1, none, result, errors⟩

/-- The transcript of a simulation: it exits with zero only without an error. -/
def Transcript.ofReport (r : SimulationReport) : Transcript :=
  match r.error with
  | none => ⟨0, none, r.result, []⟩
  | some e => .failure r.result e.chain

/-- Do what was asked. -/
def perform (contents : String → Option String) (firstId : MigrationId) (i : Invocation) :
    Transcript :=
  let config := match i with
    | .bare config => config
    | .simulate config _ => config
  match settings contents config with
  | .error e => .failure none [e.message]
  | .ok settings =>
    match i with
    | .bare _ => .silent 0
    | .simulate _ simulation => .ofReport (simulation.run settings firstId)

/-- Run the command. -/
def run (contents : String → Option String) (firstId : MigrationId) (arguments : List String) :
    Transcript :=
  match parse arguments with
  | .error .usage => .silent 2
  | .error .help => .silent 0
  | .error .version => { Transcript.silent 0 with version := some version }
  | .ok i => perform contents firstId i

/-- Indent the lines of a text but the first. -/
def indentRest (blanks : String) (s : String) : String :=
  ("\n" ++ blanks).intercalate (s.splitOn "\n")

/-- Causes, one per line; they are numbered if there are several. -/
def causeLines : List String → List String
  | [cause] => ["    " ++ indentRest "    " cause]
  | causes => causes.zipIdx.map fun (cause, n) =>
    let label := toString n
    String.ofList (List.replicate (5 - label.length) ' ') ++ label ++ ": " ++
      indentRest "       " cause

/-- What a transcript writes to the error stream. -/
def Transcript.errorText (t : Transcript) : String :=
  match t.errors with
  | [] => ""
  | [message] => "Error: " ++ message ++ "\n"
  | message :: causes =>
    "Error: " ++ message ++ "\n\nCaused by:\n" ++ "\n".intercalate (causeLines causes) ++ "\n"

/-- What a transcript writes to the output stream. -/
def Transcript.outputText (t : Transcript) : String :=
  ((t.version.map fun v => "surge " ++ v ++ "\n").getD "") ++
    ((t.result.map fun s => Json.lines (s.fields s.id.text) ++ "\n").getD "")

end Command

end Handover
