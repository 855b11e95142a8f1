import InferenceEngine.Model.Config

/-!
# Status documents

What a server tells about itself: its state, the versions of its models and their
counters, and the handles of shared memory that are registered.
-/

namespace InferenceEngine

/-!
# States
-/

/-- The state of a server. It only moves forward. -/
inductive ServerState where
  | serving
  | stopping
  | stopped
  deriving DecidableEq, Inhabited

namespace ServerState

def name : ServerState -> String
  | serving => "SERVING"
  | stopping => "STOPPING"
  | stopped => "STOPPED"

def ofName? : String -> Option ServerState
  | "SERVING" => some serving
  | "STOPPING" => some stopping
  | "STOPPED" => some stopped
  | _ => none

def description : ServerState -> String
  | serving => "Serving"
  | stopping => "Stopping"
  | stopped => "Stopped"

/-- Whether a server in a state still works on requests. -/
def isLive (state : ServerState) : Bool := state != stopped

def toJson (state : ServerState) : Json := .ofText state.name

def ofJson? : Json -> Option ServerState := Json.choice? ofName?

end ServerState

/-- Whether a version of a model can be used. -/
inductive ReadyState where
  | ready
  | unavailable
  deriving DecidableEq, Inhabited

namespace ReadyState

def name : ReadyState -> String
  | ready => "READY"
  | unavailable => "UNAVAILABLE"

def ofName? : String -> Option ReadyState
  | "READY" => some ready
  | "UNAVAILABLE" => some unavailable
  | _ => none

def toJson (state : ReadyState) : Json := .ofText state.name

def ofJson? : Json -> Option ReadyState := Json.choice? ofName?

end ReadyState

/-!
# Counters
-/

/-- The counters of a loaded model. They are words, and wrap. -/
structure InferStats where
  success : Nat
  failed : Nat
  computeTime : Nat
  deriving DecidableEq, Inhabited

namespace InferStats

/-- The counters of a model that has just been loaded. -/
def zero : InferStats := ⟨0, 0, 0⟩

def next (n : Nat) : Nat := (n + 1) % Text.wordBound

def record (stats : InferStats) (ok : Bool) (computeTime : Nat) : InferStats where
  success := if ok then next stats.success else stats.success
  failed := if ok then stats.failed else next stats.failed
  computeTime := (stats.computeTime + computeTime) % Text.wordBound

def toJson (stats : InferStats) : Json :=
  .ofMembers [
    ("success", .ofNat stats.success),
    ("failed", .ofNat stats.failed),
    ("compute_ns", .ofNat stats.computeTime)]

def ofJson? (j : Json) : Option InferStats := do
  let [success, failed, computeTime] ← j.fields? ["success", "failed", "compute_ns"] | none
  some {
    success := ← Json.required Json.word? success
    failed := ← Json.required Json.word? failed
    computeTime := ← Json.required Json.word? computeTime }

end InferStats

/-!
# Models
-/

/-- The status of a version of a model; a reason is given if it is unavailable. -/
structure VersionStatus where
  readyState : ReadyState
  reason : Option String
  stats : InferStats
  deriving DecidableEq, Inhabited

namespace VersionStatus

/-- The document of a status, without the reason where there is none. -/
def toJson (status : VersionStatus) : Json :=
  .ofMembers ([("ready_state", status.readyState.toJson)] ++
    (match status.reason with
      | none => []
      | some reason => [("reason", .ofText reason)]) ++
    [("infer_stats", status.stats.toJson)])

def ofJson? (j : Json) : Option VersionStatus := do
  let [readyState, reason, stats] ← j.fields? ["ready_state", "reason", "infer_stats"] | none
  some {
    readyState := ← Json.required ReadyState.ofJson? readyState
    reason := ← Json.orElse none (Json.nullable? Json.text?) reason
    stats := ← Json.required InferStats.ofJson? stats }

end VersionStatus

/-- The status of a model: its configuration and its versions by number. -/
structure ModelStatus where
  config : ModelConfig
  versions : OrderedMap Int VersionStatus

namespace ModelStatus

def toJson (status : ModelStatus) : Json :=
  .ofMembers [
    ("config", status.config.toJson),
    ("versions", .ofIntMap VersionStatus.toJson status.versions)]

def ofJson? (j : Json) : Option ModelStatus := do
  let [config, versions] ← j.fields? ["config", "versions"] | none
  some {
    config := ← Json.required ModelConfig.ofJson? config
    versions := ← Json.required (Json.intMap? VersionStatus.ofJson?) versions }

end ModelStatus

/-!
# Servers and handles
-/

structure ServerStatus where
  id : String
  version : String
  state : ServerState
  live : Bool
  ready : Bool
  startedAt : Int
  uptime : Nat
  models : OrderedMap String ModelStatus

namespace ServerStatus

def toJson (status : ServerStatus) : Json :=
  .ofMembers [
    ("id", .ofText status.id),
    ("version", .ofText status.version),
    ("state", status.state.toJson),
    ("live", .bool status.live),
    ("ready", .bool status.ready),
    ("started_at", .ofInt status.startedAt),
    ("uptime_ns", .ofNat status.uptime),
    ("models", .ofTextMap ModelStatus.toJson status.models)]

def ofJson? (j : Json) : Option ServerStatus := do
  let [id, version, state, live, ready, startedAt, uptime, models] ←
    j.fields?
      ["id", "version", "state", "live", "ready", "started_at", "uptime_ns", "models"] | none
  some {
    id := ← Json.required Json.text? id
    version := ← Json.required Json.text? version
    state := ← Json.required ServerState.ofJson? state
    live := ← Json.required Json.bool? live
    ready := ← Json.required Json.bool? ready
    startedAt := ← Json.required Json.signed? startedAt
    uptime := ← Json.required Json.word? uptime
    models := ← Json.required (Json.textMap? ModelStatus.ofJson?) models }

end ServerStatus

structure HandleStatus where
  name : String
  regionKey : String
  offset : Nat
  size : Nat
  deriving DecidableEq, Inhabited

namespace HandleStatus

def toJson (status : HandleStatus) : Json :=
  .ofMembers [
    ("name", .ofText status.name),
    ("region_key", .ofText status.regionKey),
    ("offset", .ofNat status.offset),
    ("byte_size", .ofNat status.size)]

def ofJson? (j : Json) : Option HandleStatus := do
  let [name, regionKey, offset, size] ←
    j.fields? ["name", "region_key", "offset", "byte_size"] | none
  some {
    name := ← Json.required Json.text? name
    regionKey := ← Json.required Json.text? regionKey
    offset := ← Json.required Json.word? offset
    size := ← Json.required Json.word? size }

end HandleStatus

end InferenceEngine
