import Handover.Command

/-!
# The program

Runs the command on the arguments of the process. The only file it reads is the settings file.
-/

namespace Handover

/-- A short description of the command. -/
def usageText : String :=
  "Bounded-surge workload migration\n\n" ++
    "Usage: surge [--config <config>] [--json] simulate [OPTIONS]\n"

/-- The settings file that arguments name, with its contents if it can be read. -/
def readConfig (arguments : List String) : IO (String → Option String) := do
  let path? := match Command.parse arguments with
    | .ok (.bare path?) | .ok (.simulate path? _) => path?
    | .error _ => none
  match path? with
  | none => return fun _ => none
  | some path =>
    let text? ← try some <$> IO.FS.readFile path catch _ => pure none
    return fun p => if p = path then text? else none

/-- An identifier of the present moment. -/
def freshId : IO MigrationId := do
  let random ← IO.rand 0 (1 <<< 62)
  return ⟨((← IO.monoMsNow) <<< 80 + random) % MigrationId.count⟩

end Handover

open Handover in
/-- Run the command and exit with its code. -/
def main (arguments : List String) : IO UInt32 := do
  let transcript := Command.run (← readConfig arguments) (← freshId) arguments
  let isHelp := match Command.parse arguments with
    | .error .help | .ok (.bare _) => decide (transcript.exitCode = 0)
    | _ => false
  if isHelp then IO.print usageText
  if transcript.exitCode = 2 then IO.eprint usageText
  IO.print transcript.outputText
  IO.eprint transcript.errorText
  return transcript.exitCode.toUInt32
