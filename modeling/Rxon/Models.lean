import Rxon.Wire

/-! # The message classes

The Structs of `rxon.models`, all of them frozen and encoded without the fields
that hold their default. -/

namespace Rxon

/-- A Struct class declared with `omit_defaults=True`. -/
def model (fields : List FieldDecl) : ClassDecl := ⟨.struct true, fields⟩

def hardwareDevice : ClassDecl := model
  [⟨"type", .str, .required⟩,
   ⟨"model", .optional .str, .value .none⟩,
   ⟨"id", .optional .str, .value .none⟩,
   ⟨"properties", .optional (.dict .any), .value .none⟩,
   ⟨"metrics", .optional (.dict .any), .value .none⟩]

def deviceUsage : ClassDecl := model
  [⟨"unit_id", .str, .required⟩,
   ⟨"load_percent", .float, .required⟩,
   ⟨"metrics", .optional (.dict .any), .value .none⟩]

def resourcesUsage : ClassDecl := model
  [⟨"cpu_load_percent", .float, .value (.float (.finite .zero))⟩,
   ⟨"ram_used_gb", .float, .value (.float (.finite .zero))⟩,
   ⟨"devices_usage", .optional (.list (.cls "DeviceUsage")), .value .none⟩]

def resources : ClassDecl := model
  [⟨"devices", .optional (.list (.cls "HardwareDevice")), .value .none⟩,
   ⟨"properties", .optional (.dict .any), .value .none⟩]

def installedArtifact : ClassDecl := model
  [⟨"name", .str, .required⟩,
   ⟨"version", .str, .value (.str "unknown")⟩,
   ⟨"type", .optional .str, .value .none⟩,
   ⟨"properties", .optional (.dict .any), .value .none⟩]

def skillInfo : ClassDecl := model
  [⟨"name", .str, .required⟩,
   ⟨"type", .optional .str, .value .none⟩,
   ⟨"description", .optional .str, .value .none⟩,
   ⟨"version", .optional .str, .value .none⟩,
   ⟨"input_schema", .optional (.dict .any), .value .none⟩,
   ⟨"output_schema", .optional (.dict .any), .value .none⟩,
   ⟨"events_schema", .optional (.dict (.dict .any)), .value .none⟩,
   ⟨"output_statuses", .optional (.list .str), .value .none⟩,
   ⟨"schema_dialect", .str, .value (.str "json-schema")⟩,
   ⟨"properties", .optional (.dict .any), .value .none⟩,
   ⟨"risk", .str, .value (.str "low")⟩,
   ⟨"permissions", .optional (.list .str), .value .none⟩]

def executionReceipt : ClassDecl := model
  [⟨"correlation_id", .str, .required⟩,
   ⟨"step", .str, .required⟩,
   ⟨"candidates", .list .str, .required⟩,
   ⟨"chosen", .str, .required⟩,
   ⟨"fallback_triggered", .bool, .value (.bool false)⟩,
   ⟨"duration_ms", .int, .value (.int 0)⟩,
   ⟨"error_message", .optional .str, .value .none⟩,
   ⟨"receipt_hash", .optional .str, .value .none⟩,
   ⟨"decider_name", .optional .str, .value .none⟩,
   ⟨"fallback", .optional .str, .value .none⟩,
   ⟨"reason", .optional .str, .value .none⟩,
   ⟨"context_snapshot", .optional (.dict .any), .value .none⟩,
   ⟨"job_id", .optional .str, .value .none⟩,
   ⟨"error", .optional .str, .value .none⟩]

def securityContext : ClassDecl := model
  [⟨"signature", .optional .str, .value .none⟩,
   ⟨"signer_id", .optional .str, .value .none⟩,
   ⟨"identity_chain", .optional (.list .str), .value .none⟩,
   ⟨"metadata", .optional (.dict .any), .value .none⟩]

def workerCapabilities : ClassDecl := model
  [⟨"hostname", .str, .value (.str "unknown")⟩,
   ⟨"ip_address", .str, .value (.str "0.0.0.0")⟩,
   ⟨"cost_per_skill", .optional (.dict .float), .value .none⟩,
   ⟨"s3_config_hash", .optional .str, .value .none⟩,
   ⟨"extra", .optional (.dict .any), .value .none⟩]

def fileMetadata : ClassDecl := model
  [⟨"uri", .str, .required⟩,
   ⟨"size", .int, .value (.int 0)⟩,
   ⟨"etag", .optional .str, .value .none⟩,
   ⟨"metadata", .optional (.dict .any), .value .none⟩]

def workerRegistration : ClassDecl := model
  [⟨"worker_id", .str, .required⟩,
   ⟨"worker_type", .str, .value (.str "generic")⟩,
   ⟨"supported_skills", .optional (.list (.cls "SkillInfo")), .value .none⟩,
   ⟨"available_skills", .optional (.list .str), .value .none⟩,
   ⟨"hot_skills", .optional (.list .str), .value .none⟩,
   ⟨"resources", .optional (.cls "Resources"), .value .none⟩,
   ⟨"installed_software", .optional (.dict .str), .value .none⟩,
   ⟨"installed_artifacts", .optional (.list (.cls "InstalledArtifact")), .value .none⟩,
   ⟨"capabilities", .optional (.cls "WorkerCapabilities"), .value .none⟩,
   ⟨"skills_hash", .optional .str, .value .none⟩,
   ⟨"security", .optional (.cls "SecurityContext"), .value .none⟩,
   ⟨"metadata", .optional (.dict .any), .value .none⟩,
   ⟨"timestamp", .optional .int, .value .none⟩]

def tokenResponse : ClassDecl := model
  [⟨"access_token", .str, .required⟩,
   ⟨"expires_in", .int, .required⟩,
   ⟨"worker_id", .str, .required⟩,
   ⟨"refresh_token", .optional .str, .value .none⟩,
   ⟨"metadata", .optional (.dict .any), .value .none⟩]

def workerEventPayload : ClassDecl := model
  [⟨"event_id", .str, .required⟩,
   ⟨"worker_id", .str, .required⟩,
   ⟨"origin_worker_id", .str, .required⟩,
   ⟨"event_type", .str, .required⟩,
   ⟨"payload", .dict .any, .required⟩,
   ⟨"origin_task_id", .optional .str, .value .none⟩,
   ⟨"bubbling_chain", .optional (.list .str), .value .none⟩,
   ⟨"target_job_id", .optional .str, .value .none⟩,
   ⟨"target_task_id", .optional .str, .value .none⟩,
   ⟨"trace_context", .optional (.dict .str), .value .none⟩,
   ⟨"priority", .float, .value (.float (.finite .zero))⟩,
   ⟨"timestamp", .optional .int, .value .none⟩,
   ⟨"security", .optional (.cls "SecurityContext"), .value .none⟩,
   ⟨"metadata", .optional (.dict .any), .value .none⟩]

def workerCommand : ClassDecl := model
  [⟨"command", .str, .required⟩,
   ⟨"task_id", .optional .str, .value .none⟩,
   ⟨"job_id", .optional .str, .value .none⟩,
   ⟨"params", .optional (.dict .any), .value .none⟩,
   ⟨"metadata", .optional (.dict .any), .value .none⟩]

def taskPayload : ClassDecl := model
  [⟨"job_id", .str, .required⟩,
   ⟨"task_id", .str, .required⟩,
   ⟨"type", .str, .required⟩,
   ⟨"params", .optional (.dict .any), .value .none⟩,
   ⟨"tracing_context", .optional (.dict .str), .value .none⟩,
   ⟨"params_metadata", .optional (.dict (.cls "FileMetadata")), .value .none⟩,
   ⟨"priority", .float, .value (.float (.finite .zero))⟩,
   ⟨"deadline", .optional .int, .value .none⟩,
   ⟨"security", .optional (.cls "SecurityContext"), .value .none⟩,
   ⟨"metadata", .optional (.dict .any), .value .none⟩,
   ⟨"timestamp", .optional .int, .value .none⟩,
   ⟨"policy", .optional (.dict .any), .value .none⟩,
   ⟨"sig", .optional .str, .value .none⟩,
   ⟨"step", .int, .value (.int 0)⟩,
   ⟨"depth", .int, .value (.int 0)⟩,
   ⟨"parent_hash", .optional .str, .value .none⟩]

def taskError : ClassDecl := model
  [⟨"code", .str, .required⟩,
   ⟨"message", .str, .required⟩,
   ⟨"details", .optional (.dict .any), .value .none⟩]

def taskResult : ClassDecl := model
  [⟨"job_id", .str, .required⟩,
   ⟨"task_id", .str, .required⟩,
   ⟨"worker_id", .optional .str, .value .none⟩,
   ⟨"origin_worker_id", .optional .str, .value .none⟩,
   ⟨"status", .str, .value (.str "success")⟩,
   ⟨"data", .optional (.dict .any), .value .none⟩,
   ⟨"error", .optional (.cls "TaskError"), .value .none⟩,
   ⟨"data_metadata", .optional (.dict (.cls "FileMetadata")), .value .none⟩,
   ⟨"security", .optional (.cls "SecurityContext"), .value .none⟩,
   ⟨"metadata", .optional (.dict .any), .value .none⟩,
   ⟨"timestamp", .optional .int, .value .none⟩,
   ⟨"costs", .optional (.dict .any), .value .none⟩]

def heartbeat : ClassDecl := model
  [⟨"worker_id", .str, .required⟩,
   ⟨"status", .str, .required⟩,
   ⟨"usage", .optional (.cls "ResourcesUsage"), .value .none⟩,
   ⟨"current_tasks", .optional (.list .str), .value .none⟩,
   ⟨"supported_skills", .optional (.list (.cls "SkillInfo")), .value .none⟩,
   ⟨"available_skills", .optional (.list .str), .value .none⟩,
   ⟨"hot_skills", .optional (.list .str), .value .none⟩,
   ⟨"skills_hash", .optional .str, .value .none⟩,
   ⟨"security", .optional (.cls "SecurityContext"), .value .none⟩,
   ⟨"metadata", .optional (.dict .any), .value .none⟩,
   ⟨"timestamp", .optional .int, .value .none⟩]

/-- The classes `rxon.models` declares. -/
def rxonDecls : Decls :=
  [("HardwareDevice", hardwareDevice),
   ("DeviceUsage", deviceUsage),
   ("ResourcesUsage", resourcesUsage),
   ("Resources", resources),
   ("InstalledArtifact", installedArtifact),
   ("SkillInfo", skillInfo),
   ("ExecutionReceipt", executionReceipt),
   ("SecurityContext", securityContext),
   ("WorkerCapabilities", workerCapabilities),
   ("FileMetadata", fileMetadata),
   ("WorkerRegistration", workerRegistration),
   ("TokenResponse", tokenResponse),
   ("WorkerEventPayload", workerEventPayload),
   ("WorkerCommand", workerCommand),
   ("TaskPayload", taskPayload),
   ("TaskError", taskError),
   ("TaskResult", taskResult),
   ("Heartbeat", heartbeat)]

end Rxon
