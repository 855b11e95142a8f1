import InferenceEngine.Failure

/-!
# Options

The options of a server, with their defaults and their documents.
-/

namespace InferenceEngine

/-!
# Memory
-/

structure AcceleratorPool where
  device : Int
  capacity : Nat
  deriving DecidableEq, Inhabited

namespace AcceleratorPool

def toJson (pool : AcceleratorPool) : Json :=
  .ofMembers [("device_id", .ofInt pool.device), ("capacity_bytes", .ofNat pool.capacity)]

def ofJson? (j : Json) : Option AcceleratorPool := do
  let [device, capacity] ← j.fields? ["device_id", "capacity_bytes"] | none
  some {
    device := ← Json.required Json.signed? device
    capacity := ← Json.required Json.word? capacity }

end AcceleratorPool

/-- The memory that output buffers are taken from. -/
structure MemoryOptions where
  hostLimit : Option Nat
  accelerators : List AcceleratorPool
  deriving DecidableEq

namespace MemoryOptions

def default : MemoryOptions := ⟨none, []⟩

instance : Inhabited MemoryOptions := ⟨default⟩

def toJson (options : MemoryOptions) : Json :=
  .ofMembers [
    ("host_limit_bytes", .ofOption Json.ofNat options.hostLimit),
    ("accelerators", .ofList AcceleratorPool.toJson options.accelerators)]

def ofJson? (j : Json) : Option MemoryOptions := do
  let [hostLimit, accelerators] ← j.fields? ["host_limit_bytes", "accelerators"] | none
  some {
    hostLimit := ← Json.orElse default.hostLimit (Json.nullable? Json.word?) hostLimit
    accelerators :=
      ← Json.orElse default.accelerators (Json.list? AcceleratorPool.ofJson?) accelerators }

end MemoryOptions

/-!
# Logging
-/

/-- What is logged: a level, and directives for parts of the program. -/
structure LoggingOptions where
  level : String
  filter : Option String
  deriving DecidableEq

namespace LoggingOptions

/-- The level for information, and the usual directives. -/
def default : LoggingOptions := ⟨"info", none⟩

instance : Inhabited LoggingOptions := ⟨default⟩

def toJson (options : LoggingOptions) : Json :=
  .ofMembers [
    ("level", .ofText options.level),
    ("filter", .ofOption Json.ofText options.filter)]

def ofJson? (j : Json) : Option LoggingOptions := do
  let [level, filter] ← j.fields? ["level", "filter"] | none
  some {
    level := ← Json.orElse default.level Json.text? level
    filter := ← Json.orElse default.filter (Json.nullable? Json.text?) filter }

end LoggingOptions

/-!
# Servers
-/

structure ServerOptions where
  serverId : String
  /-- Whether a model must declare an input and an output. -/
  strictModelConfig : Bool
  /-- Whether a server is ready only if all versions of all models are. -/
  strictReadiness : Bool
  /-- Whether a failure to load a model is reported as a failure of the load. -/
  exitOnError : Bool
  /-- How long a stop waits for requests in flight, in seconds. -/
  exitTimeout : Nat
  /-- The number of requests that may execute at the same time. -/
  executionSlots : Nat
  /-- The directory of the shared regions. -/
  sharedMemoryDir : String
  memory : MemoryOptions
  logging : LoggingOptions
  deriving DecidableEq

/-- What the defaults of a server ask of the machine that it runs on. -/
structure Host where
  processors : Nat
  /-- Whether `/dev/shm` is a directory. -/
  hasSharedMemory : Bool
  temporaryDir : String
  deriving DecidableEq

namespace Host

/-- A machine with four processors that holds shared memory in its usual place. -/
def usual : Host := ⟨4, true, "/tmp"⟩

def executionSlots (host : Host) : Nat := max host.processors 1

def sharedMemoryDir (host : Host) : String :=
  if host.hasSharedMemory then "/dev/shm" else host.temporaryDir

end Host

namespace ServerOptions

/-- The options of a server that is told nothing. -/
def default (host : Host := .usual) : ServerOptions where
  serverId := "inference:0"
  strictModelConfig := true
  strictReadiness := true
  exitOnError := true
  exitTimeout := 30
  executionSlots := host.executionSlots
  sharedMemoryDir := host.sharedMemoryDir
  memory := .default
  logging := .default

instance : Inhabited ServerOptions := ⟨default⟩

def toJson (options : ServerOptions) : Json :=
  .ofMembers [
    ("server_id", .ofText options.serverId),
    ("strict_model_config", .bool options.strictModelConfig),
    ("strict_readiness", .bool options.strictReadiness),
    ("exit_on_error", .bool options.exitOnError),
    ("exit_timeout_secs", .ofNat options.exitTimeout),
    ("execution_slots", .ofNat options.executionSlots),
    ("shared_memory_dir", .ofText options.sharedMemoryDir),
    ("memory", options.memory.toJson),
    ("logging", options.logging.toJson)]

/-- Reads options on a machine; each one that is missing keeps its default. -/
def ofJsonOn? (host : Host) (j : Json) : Option ServerOptions := do
  let [serverId, strictModelConfig, strictReadiness, exitOnError, exitTimeout,
      executionSlots, sharedMemoryDir, memory, logging] ←
    j.fields? ["server_id", "strict_model_config", "strict_readiness", "exit_on_error",
      "exit_timeout_secs", "execution_slots", "shared_memory_dir", "memory", "logging"] | none
  let default := ServerOptions.default host
  some {
    serverId := ← Json.orElse default.serverId Json.text? serverId
    strictModelConfig := ← Json.orElse default.strictModelConfig Json.bool? strictModelConfig
    strictReadiness := ← Json.orElse default.strictReadiness Json.bool? strictReadiness
    exitOnError := ← Json.orElse default.exitOnError Json.bool? exitOnError
    exitTimeout := ← Json.orElse default.exitTimeout Json.word? exitTimeout
    executionSlots := ← Json.orElse default.executionSlots Json.word? executionSlots
    sharedMemoryDir := ← Json.orElse default.sharedMemoryDir Json.text? sharedMemoryDir
    memory := ← Json.orElse .default MemoryOptions.ofJson? memory
    logging := ← Json.orElse .default LoggingOptions.ofJson? logging }

def ofJson? : Json -> Option ServerOptions := ofJsonOn? .usual

end ServerOptions

end InferenceEngine
