import BuilderFields.CommandLine

/-!
# The program

Gathers what a command can see, runs it, and prints its report: notices first, then each log record on a
line of its own, then output and errors as they are.
-/

namespace BuilderFields

def lookUpFile (path : String) : IO FileState := do
  try
    let bytes ← IO.FS.readBinFile path
    return .file bytes.toList
  catch _ =>
    return .missing

def settingVariables : IO (Entries String String) := do
  let fields := [SettingField.logFilter, .renderFailures, .strict]
  let names := fields.map fun field => Text.upper (Settings.nameStart ++ field.name)
  let found ← names.mapM fun name => do
    let value ← IO.getEnv name
    return value.map fun value => (name, value)
  return found.filterMap id

def requestPath? (args : List String) : Option String :=
  match Invocation.parse args with
  | .ok (.plan path _ _) => some (CommandLine.displayPath path)
  | _ => none

def gatherSurroundings (args : List String) : IO Surroundings := do
  let environment ← settingVariables
  let envFile ← lookUpFile CommandLine.envFileName
  let request ←
    match requestPath? args with
    | some path => lookUpFile path
    | none => pure .missing
  return {
    environment := environment
    look := fun path => if path = CommandLine.envFileName then envFile else request }

def recordLine (record : LogRecord) : String :=
  record.severity.text ++ " | " ++ record.module ++ " | " ++ record.message

def faultLines : CommandFault → List String
  | .usage fault => [fault.message]
  | .invalidSettings notices fault =>
    notices ++ ["invalid settings: " ++ Text.commaJoin (fault.fields.map SettingField.name)]
  | .unreadableEnvFile fault => [CommandLine.envFileName ++ ": " ++ fault.message]

def faultStatus : CommandFault → UInt32
  | .usage _ => 2
  | _ => 1

end BuilderFields

open BuilderFields in
def main (args : List String) : IO UInt32 := do
  match CommandLine.run (← gatherSurroundings args) args with
  | .error fault =>
    for line in faultLines fault do
      IO.eprintln line
    return faultStatus fault
  | .ok report =>
    for notice in report.notices do
      IO.eprintln notice
    for record in report.records do
      IO.eprintln (recordLine record)
    for line in report.output do
      IO.println line
    for line in report.errors do
      IO.eprintln line
    return report.exit.toUInt32
