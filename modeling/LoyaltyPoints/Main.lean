import LoyaltyPoints.Program.Run
import LoyaltyPoints.Settings.Variables

/-! # Command line: a rehearsal of the service

    Reads the settings that the service would start with, runs it once against a database that holds
    nothing, and prints the journal of that run. A failure is reported as the service would report
    it. -/

namespace LoyaltyPoints.Program

/-- The variables of the environment that are set. -/
def readEnvironment : IO Settings.Environment := do
  let found ← (Settings.fieldVariables ++ Settings.otherVariables).mapM fun name => do
    return (← IO.getEnv name).map (name, ·)
  return found.filterMap id

/-- The files of a directory that can be read. -/
def readFiles (directory : String) (names : List String) : IO Settings.Files := do
  let found ← names.mapM fun name => do
    let path : String := directory ++ "/" ++ name
    try
      return some (name, ← IO.FS.readFile path)
    catch _ => return none
  return found.filterMap id

/-- Runs the service once on a database that holds nothing. -/
def rehearse (files : Settings.Files) (environment : Settings.Environment) : Launch × Outcome :=
  let bare : Launch := { files, environment, databaseUrl := "", script := {} }
  let launch := { bare with databaseUrl := bare.settings.database.url }
  (launch, run launch)

end LoyaltyPoints.Program

open LoyaltyPoints in
/-- Prints the journal of a rehearsal and ends as the service would. -/
def main : IO UInt32 := do
  let environment ← Program.readEnvironment
  let directory := (← IO.getEnv "CONFIG_DIR").getD "config"
  let names := Settings.fileNames Program.serviceName environment
  let files ← Program.readFiles directory names
  let (launch, outcome) := Program.rehearse files environment
  for line in outcome.entries.filterMap (·.line? launch.observability.jsonLogs) do
    IO.println line
  for line in outcome.failure do
    IO.eprintln line
  return UInt32.ofNat outcome.exitCode
