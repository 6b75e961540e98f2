import LoyaltyPoints.Settings.Basic
import LoyaltyPoints.Settings.Layers
import LoyaltyPoints.Toml.Document

/-! # Settings: loading

    From the first layer to the last: the names of the service and of the environment,
    `default.toml`, the file of the environment, the file of the service, and the variables. A file
    may be missing, but not be broken. Two older variables stand above all layers, unless they are
    blank. -/

namespace LoyaltyPoints.Settings

/-- The files of the configuration directory, name and text. -/
abbrev Files := List (String × String)

/-- The variables of the environment, name and value. -/
abbrev Environment := List (String × String)

/-- The value of a variable. -/
def valueOf? (env : Environment) (name : String) : Option String :=
  (env.find? (·.1 == name)).map (·.2)

/-- Cuts a path into its parts. -/
def pathParts (cs : List Char) : List (List Char) :=
  cs.splitOn '/'

/-- The name of a file of the directory: parts that stay in place are left out. A path that leaves
    the directory names none. -/
def fileName? (stem : String) : Option String :=
  let parts := pathParts (stem ++ ".toml").toList
  if parts.head? == some [] || parts.contains ['.', '.'] then none
  else
    let kept := parts.filter fun p => p != [] && p != ['.']
    if kept.getLast? == some ".toml".toList then none
    else some (String.ofList (['/'].intercalate kept))

/-- The layer of a file; one that is missing is empty. -/
def fileLayer? (files : Files) (stem : String) : Option (List (String × Setting)) :=
  match (fileName? stem).bind fun name => files.find? (·.1 == name) with
  | none => some []
  | some (_, text) => Toml.ofText? text

/-- The environment that is named, or the one for development. -/
def environmentName (env : Environment) : String :=
  (valueOf? env "LOYALTY_ENV").getD "development"

/-- All layers in order, unless a file is broken. -/
def layers? (service : String) (files : Files) (env : Environment) :
    Option (List (List (String × Setting))) := do
  let name := environmentName env
  return [[("service_name", .text service)], [("environment", .text name)],
    ← fileLayer? files "default", ← fileLayer? files name, ← fileLayer? files service,
    Setting.ofEnvironment env]

/-- The value of an older variable, unless it is blank. -/
def nonBlank? (env : Environment) (name : String) : Option String :=
  (valueOf? env name).filter fun s => !(Text.trim s.toList).isEmpty

/-- Sets what the older variables name. -/
def applyLegacy (env : Environment) (s : Settings) : Settings :=
  { s with
    database.url := (nonBlank? env "DATABASE_URI").getD s.database.url
    oracle.baseUrl := (nonBlank? env "ACCRUAL_SYSTEM_ADDRESS").getD s.oracle.baseUrl }

/-- Loads the settings of a service, unless a file is broken or a value does not convert. -/
def load? (service : String) (files : Files) (env : Environment) : Option Settings := do
  let layers ← layers? service files env
  let s ← ofTable? (layers.foldl Setting.applyLayer [])
  return applyLegacy env s

end LoyaltyPoints.Settings
