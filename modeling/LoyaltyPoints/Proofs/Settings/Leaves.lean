import Mathlib
import LoyaltyPoints.Settings.Load
import LoyaltyPoints.Proofs.Settings.Overlay

/-! # Settings: all that can be set

    The settings are a record of sections, and the sections are records of leaves. A leaf is a name
    inside a section, a conversion, and the place of its value in the record, so that what holds of
    every setting can be said once, of all leaves (`Leaf.all`). There is nothing in the settings
    beside them (`Leaf.eq_of_forall_get_eq`).

    A section is read field by field, from a table by name or from an array in order. One lemma for
    each section says so, and no other one unfolds how a section is read. -/

namespace LoyaltyPoints

namespace Setting

/-! ## Fields -/

theorem toText?_of_isNested {v : Setting} (h : v.isNested = true) : v.toText? = none := by
  cases v with
  | list => rfl
  | table => rfl
  | _ => cases h

theorem toBool?_of_isNested {v : Setting} (h : v.isNested = true) : v.toBool? = none := by
  cases v with
  | list => rfl
  | table => rfl
  | _ => cases h

theorem toInteger?_of_isNested {v : Setting} (low high : ℤ) (h : v.isNested = true) :
    v.toInteger? low high = none := by
  cases v with
  | list => rfl
  | table => rfl
  | _ => cases h

/-- A field of a record, and how it is read. -/
structure Field (σ : Type) where
  name : String
  Value : Type
  convert : Setting → Option Value
  get : σ → Value
  convert_nested : ∀ v : Setting, v.isNested = true → convert v = none

namespace Field

variable {σ τ : Type}

/-- A field that holds a text. -/
def text (name : String) (get : σ → String) : Field σ where
  name
  Value := String
  convert := toText?
  get
  convert_nested _ := toText?_of_isNested

/-- A field that holds a truth value. -/
def truth (name : String) (get : σ → Bool) : Field σ where
  name
  Value := Bool
  convert := toBool?
  get
  convert_nested _ := toBool?_of_isNested

/-- A field that holds an unsigned integer of so many bits. -/
def unsigned (bits : ℕ) (name : String) (get : σ → ℕ) : Field σ where
  name
  Value := ℕ
  convert := toUnsigned? bits
  get
  convert_nested _ h := by rw [toUnsigned?, toInteger?_of_isNested _ _ h, Option.bind_none]

/-- A field that holds a signed integer. -/
def signed (name : String) (get : σ → ℤ) : Field σ where
  name
  Value := ℤ
  convert := toSigned?
  get
  convert_nested _ h := toInteger?_of_isNested _ _ h

/-- A field of a part of a record. -/
def within (part : τ → σ) (f : Field σ) : Field τ where
  name := f.name
  Value := f.Value
  convert := f.convert
  get s := f.get (part s)
  convert_nested := f.convert_nested

end Field

end Setting

/-- The fields of the section on the database. -/
def DatabaseSettings.fields : List (Setting.Field DatabaseSettings) :=
  [.text "url" (·.url), .unsigned 32 "max_connections" (·.maxConnections),
    .unsigned 32 "min_connections" (·.minConnections),
    .unsigned 64 "connect_timeout_seconds" (·.connectTimeoutSeconds),
    .unsigned 64 "idle_timeout_seconds" (·.idleTimeoutSeconds),
    .truth "run_migrations" (·.runMigrations)]

/-- The fields of the section on the oracle. -/
def OracleSettings.fields : List (Setting.Field OracleSettings) :=
  [.text "base_url" (·.baseUrl), .unsigned 32 "retry_count" (·.retryCount),
    .unsigned 64 "retry_wait_ms" (·.retryWaitMillis),
    .unsigned 64 "retry_max_wait_ms" (·.retryMaxWaitMillis),
    .unsigned 64 "request_timeout_ms" (·.requestTimeoutMillis)]

/-- The fields of the section on the pipeline. -/
def PipelineSettings.fields : List (Setting.Field PipelineSettings) :=
  [.unsigned 64 "queue_capacity" (·.queueCapacity),
    .unsigned 64 "preprocessing_workers" (·.routers),
    .unsigned 64 "processing_workers" (·.settlers),
    .unsigned 64 "sweep_interval_seconds" (·.sweepIntervalSeconds),
    .signed "sweep_batch_size" (·.sweepBatchSize)]

/-- The fields of the section on logs and metrics. -/
def ObservabilitySettings.fields : List (Setting.Field ObservabilitySettings) :=
  [.text "service_name" (·.serviceName), .text "log_level" (·.logLevel),
    .truth "json_logs" (·.jsonLogs), .truth "metrics_enabled" (·.metricsEnabled),
    .unsigned 16 "metrics_port" (·.metricsPort)]

namespace Settings

/-- The fields that are in no section. -/
def fields : List (Setting.Field Settings) :=
  [.text "service_name" (·.serviceName), .text "environment" (·.environment)]

/-- A single setting: a field of the settings, or of one of their sections. -/
structure Leaf extends Setting.Field Settings where
  /-- The names that lead to its section. -/
  inside : List String
  /-- Its place among the fields of the section. -/
  place : ℕ

namespace Leaf

/-- The names that lead to the setting. -/
def path (x : Leaf) : List String := x.inside ++ [x.name]

/-- The fields of a section as leaves. -/
def ofFields {σ : Type} (inside : List String) (part : Settings → σ)
    (fields : List (Setting.Field σ)) : List Leaf :=
  fields.mapIdx fun i f => ⟨f.within part, inside, i⟩

/-- All leaves. -/
def all : List Leaf :=
  ofFields [] id fields ++ ofFields ["database"] (·.database) DatabaseSettings.fields ++
    ofFields ["accrual"] (·.oracle) OracleSettings.fields ++
    ofFields ["pipeline"] (·.pipeline) PipelineSettings.fields ++
    ofFields ["observability"] (·.observability) ObservabilitySettings.fields

end Leaf

end Settings

end LoyaltyPoints
