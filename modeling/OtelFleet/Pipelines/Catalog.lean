import Mathlib.Data.String.Basic

namespace Catalog

inductive Kind where
  | processor
  | exporter
deriving DecidableEq

def Kind.name : Kind → String
  | processor => "processor"
  | exporter => "exporter"

inductive JsonType where
  | object
  | array
  | string
  | integer
  | boolean
deriving DecidableEq

-- A JSON Schema, restricted to the keywords that the catalog uses. `closed` stands for
-- `additionalProperties: false`.
structure Schema where
  type : Option JsonType := none
  format : Option String := none
  pattern : Option String := none
  enum : List String := []
  minimum : Option Nat := none
  maximum : Option Nat := none
  minLength : Option Nat := none
  required : List String := []
  properties : List (String × Schema) := []
  additionalProperties : Option Schema := none
  closed : Bool := false
  items : Option Schema := none

structure Component where
  type : String
  kind : Kind
  schema : Schema

namespace Schema

def durationSchema : Schema :=
  { type := some .string, pattern := some "^[0-9]+(ns|us|ms|s|m|h)$" }

def headersSchema : Schema where
  type := some .object
  additionalProperties := some { type := some .string, format := some "password" }

def sendingQueueSchema : Schema where
  type := some .object
  closed := true
  properties := [
    ("enabled", { type := some .boolean }),
    ("queue_size", { type := some .integer, minimum := some 1 })]

def retryOnFailureSchema : Schema where
  type := some .object
  closed := true
  properties := [("enabled", { type := some .boolean })]

def tlsSchema : Schema where
  type := some .object
  closed := true
  properties := [
    ("insecure", { type := some .boolean }),
    ("insecure_skip_verify", { type := some .boolean })]

def compressionSchema : Schema :=
  { type := some .string, enum := ["gzip", "zstd", "snappy", "none"] }

def errorModeSchema : Schema :=
  { type := some .string, enum := ["ignore", "silent", "propagate"] }

def textSchema : Schema :=
  { type := some .string, minLength := some 1 }

def stringsSchema : Schema :=
  { type := some .array, items := some { type := some .string } }

def closedObject (required : List String) (properties : List (String × Schema)) : Schema where
  type := some .object
  closed := true
  required := required
  properties := properties

def actionSchema (extra : List (String × Schema)) : Schema :=
  closedObject ["key", "action"] <| [
    ("key", textSchema),
    ("action", {
      type := some .string
      enum := ["insert", "update", "upsert", "delete", "hash", "extract", "convert"] }),
    ("value", {}),
    ("from_attribute", { type := some .string }),
    ("pattern", { type := some .string })] ++ extra

end Schema

open Schema

def all : List Component := [
  { type := "batch", kind := .processor
    schema := closedObject [] [
      ("timeout", durationSchema),
      ("send_batch_size", { type := some .integer, minimum := some 0 }),
      ("send_batch_max_size", { type := some .integer, minimum := some 0 })] },
  { type := "memory_limiter", kind := .processor
    schema := closedObject ["check_interval"] [
      ("check_interval", durationSchema),
      ("limit_percentage", { type := some .integer, minimum := some 1, maximum := some 100 }),
      ("spike_limit_percentage", { type := some .integer, minimum := some 0, maximum := some 100 }),
      ("limit_mib", { type := some .integer, minimum := some 0 }),
      ("spike_limit_mib", { type := some .integer, minimum := some 0 })] },
  { type := "filter", kind := .processor
    schema := closedObject [] [
      ("error_mode", errorModeSchema),
      ("logs", closedObject [] [("log_record", stringsSchema)]),
      ("traces", closedObject [] [("span", stringsSchema), ("spanevent", stringsSchema)]),
      ("metrics", closedObject [] [("metric", stringsSchema), ("datapoint", stringsSchema)])] },
  { type := "transform", kind := .processor
    schema := closedObject [] [
      ("error_mode", errorModeSchema),
      ("log_statements", stringsSchema),
      ("trace_statements", stringsSchema),
      ("metric_statements", stringsSchema)] },
  { type := "attributes", kind := .processor
    schema := closedObject ["actions"] [
      ("actions", {
        type := some .array
        items := some <| actionSchema [
          ("converted_type", { type := some .string, enum := ["int", "double", "string"] })] })] },
  { type := "resource", kind := .processor
    schema := closedObject ["attributes"] [
      ("attributes", { type := some .array, items := some (actionSchema []) })] },
  { type := "otlp", kind := .exporter
    schema := closedObject ["endpoint"] [
      ("endpoint", textSchema),
      ("tls", tlsSchema),
      ("compression", compressionSchema),
      ("timeout", durationSchema),
      ("headers", headersSchema),
      ("sending_queue", sendingQueueSchema),
      ("retry_on_failure", retryOnFailureSchema)] },
  { type := "otlphttp", kind := .exporter
    schema := closedObject ["endpoint"] [
      ("endpoint", textSchema),
      ("tls", tlsSchema),
      ("compression", compressionSchema),
      ("timeout", durationSchema),
      ("headers", headersSchema),
      ("sending_queue", sendingQueueSchema),
      ("retry_on_failure", retryOnFailureSchema)] },
  { type := "debug", kind := .exporter
    schema := closedObject [] [
      ("verbosity", { type := some .string, enum := ["basic", "normal", "detailed"] }),
      ("sampling_initial", { type := some .integer, minimum := some 0 }),
      ("sampling_thereafter", { type := some .integer, minimum := some 0 })] },
  { type := "clickhouse", kind := .exporter
    schema := closedObject ["endpoint"] [
      ("endpoint", textSchema),
      ("database", { type := some .string }),
      ("username", { type := some .string }),
      ("password", { type := some .string, format := some "password" }),
      ("logs_table_name", { type := some .string }),
      ("traces_table_name", { type := some .string }),
      ("metrics_table_name", { type := some .string }),
      ("ttl", durationSchema),
      ("timeout", durationSchema),
      ("sending_queue", sendingQueueSchema),
      ("retry_on_failure", retryOnFailureSchema)] },
  { type := "prometheusremotewrite", kind := .exporter
    schema := closedObject ["endpoint"] [
      ("endpoint", textSchema),
      ("tls", tlsSchema),
      ("timeout", durationSchema),
      ("headers", headersSchema),
      ("external_labels", {
        type := some .object
        additionalProperties := some { type := some .string } }),
      ("remote_write_queue", closedObject [] [
        ("enabled", { type := some .boolean }),
        ("queue_size", { type := some .integer, minimum := some 1 }),
        ("num_consumers", { type := some .integer, minimum := some 1 })]),
      ("resource_to_telemetry_conversion", closedObject [] [
        ("enabled", { type := some .boolean })])] },
  { type := "file", kind := .exporter
    schema := closedObject ["path"] [
      ("path", textSchema),
      ("format", { type := some .string, enum := ["json", "proto"] }),
      ("flush_interval", durationSchema),
      ("rotation", closedObject [] [
        ("max_megabytes", { type := some .integer, minimum := some 1 }),
        ("max_days", { type := some .integer, minimum := some 1 }),
        ("max_backups", { type := some .integer, minimum := some 0 })])] }]

def lookup (kind : Kind) (type : String) : Option Component :=
  all.find? fun c => c.kind == kind && c.type == type

theorem lookup_mem {type : String} (h : lookup kind type = some c) : c ∈ all ∧ c.kind = kind ∧ c.type = type := by
  refine ⟨List.mem_of_find?_eq_some h, ?_⟩
  simpa using List.find?_some h

end Catalog
