import LoyaltyPoints.Settings.Load

/-! # Settings: the variables that are read -/

namespace LoyaltyPoints.Settings

/-- The fields of each section; those of the section without a name stand at the top. -/
def sections : List (String × List String) :=
  [("", ["SERVICE_NAME", "ENVIRONMENT"]),
   ("DATABASE__", ["URL", "MAX_CONNECTIONS", "MIN_CONNECTIONS", "CONNECT_TIMEOUT_SECONDS",
     "IDLE_TIMEOUT_SECONDS", "RUN_MIGRATIONS"]),
   ("ACCRUAL__", ["BASE_URL", "RETRY_COUNT", "RETRY_WAIT_MS", "RETRY_MAX_WAIT_MS",
     "REQUEST_TIMEOUT_MS"]),
   ("PIPELINE__", ["QUEUE_CAPACITY", "PREPROCESSING_WORKERS", "PROCESSING_WORKERS",
     "SWEEP_INTERVAL_SECONDS", "SWEEP_BATCH_SIZE"]),
   ("OBSERVABILITY__", ["SERVICE_NAME", "LOG_LEVEL", "JSON_LOGS", "METRICS_ENABLED",
     "METRICS_PORT"])]

/-- The variables that set a field. -/
def fieldVariables : List String :=
  sections.flatMap fun (name, fields) => fields.map fun field => "LOYALTY_" ++ name ++ field

/-- The variables that are read besides. -/
def otherVariables : List String :=
  ["LOYALTY_ENV", "DATABASE_URI", "ACCRUAL_SYSTEM_ADDRESS", "RUST_LOG"]

/-- The files that are read, for a service and an environment. -/
def fileNames (service : String) (env : Environment) : List String :=
  ["default", environmentName env, service].map (· ++ ".toml")

end LoyaltyPoints.Settings
