import InferenceEngine.Failure
import InferenceEngine.Logging.Level

/-!
# Events

What the engine reports about its work. An event is a value that names what has happened;
its level, its wording and its fields follow from it.
-/

namespace InferenceEngine

inductive Event where
  -- output buffers
  | bufferAllocated (domain : MemoryDomain) (region : Int) (size : Nat)
  | bufferNotFreed (output : String) (buffer : BufferTriple) (failure : Failure)
  -- shared memory
  | regionCreated (key : String) (size : Nat) (path : String)
  | regionReplaced (key : String)
  | handleRegistered (name key : String) (offset size : Nat)
  | handleUnregistered (name : String)
  | handlesUnregistered (count : Nat)
  -- loading models
  | configInvalid (model : String) (failure : Failure)
  | configChanged (model : String)
  | versionLoaded (model : String) (version : Int)
  | versionFailed (model : String) (version : Int) (failure : Failure)
  | versionUnloaded (model : String) (version : Int)
  | modelRemoved (model : String)
  | reconciled (loaded kept unloaded failed : Nat)
  -- requests
  | requestAccepted (id : Nat) (model : String)
  | requestExecuting (id : Nat) (model : String) (version : Int) (batchSize : Nat)
  | requestFailed (id : Nat) (model : String) (failure : Failure)
  | requestDropped (id : Nat)
  -- servers
  | initialLoadFailed (server : String) (failure : Failure)
  | serving (server : String) (loaded slots : Nat)
  | polled (server : String) (loaded kept unloaded failed : Nat)
  | stopping (server : String) (inflight : Nat)
  | stopped (server : String) (unloaded : Nat)
  | stopTimedOut (server : String) (remaining : Nat)
  | droppedWithoutStop (server : String)
  deriving DecidableEq, Inhabited

namespace Event

inductive Field where
  | number (n : Int)
  | text (s : String)
  deriving DecidableEq, Inhabited

def level : Event -> Level
  | bufferAllocated .. => .trace
  | bufferNotFreed .. => .warn
  | regionCreated .. => .debug
  | regionReplaced _ => .debug
  | handleRegistered .. => .info
  | handleUnregistered _ => .info
  | handlesUnregistered _ => .info
  | configInvalid .. => .warn
  | configChanged _ => .info
  | versionLoaded .. => .info
  | versionFailed .. => .warn
  | versionUnloaded .. => .info
  | modelRemoved _ => .info
  | reconciled .. => .debug
  | requestAccepted .. => .debug
  | requestExecuting .. => .debug
  | requestFailed .. => .warn
  | requestDropped _ => .warn
  | initialLoadFailed .. => .error
  | serving .. => .info
  | polled .. => .info
  | stopping .. => .info
  | stopped .. => .info
  | stopTimedOut .. => .warn
  | droppedWithoutStop _ => .debug

def message : Event -> String
  | bufferAllocated .. => "allocated output buffer"
  | bufferNotFreed _ _ failure => s!"failed to free output buffer: {failure.text}"
  | regionCreated .. => "created shared memory region"
  | regionReplaced _ => "shared memory region was replaced, remapping"
  | handleRegistered .. => "registered shared memory"
  | handleUnregistered _ => "unregistered shared memory"
  | handlesUnregistered _ => "unregistered all shared memory"
  | configInvalid _ failure => s!"invalid model configuration: {failure.text}"
  | configChanged _ => "model configuration changed; reloading"
  | versionLoaded .. => "loaded model version"
  | versionFailed _ _ failure => s!"failed to load model version: {failure.text}"
  | versionUnloaded .. => "unloaded model version"
  | modelRemoved _ => "model removed from repository; unloading"
  | reconciled .. => "reconciled model repository"
  | requestAccepted .. => "request accepted"
  | requestExecuting .. => "executing request"
  | requestFailed _ _ failure => s!"request failed: {failure.text}"
  | requestDropped _ => "request task dropped before completion"
  | initialLoadFailed _ failure => s!"initial model load failed: {failure.text}"
  | serving .. => "server serving"
  | polled .. => "polled model repository"
  | stopping .. => "server stopping"
  | stopped .. => "server stopped"
  | stopTimedOut .. => "requests still in flight at exit timeout"
  | droppedWithoutStop _ => "server dropped without stop"

def fields : Event -> List (String × Field)
  | bufferAllocated domain region size =>
    [("domain", .text domain.name), ("region_id", .number region), ("byte_size", .number size)]
  | bufferNotFreed output buffer _ =>
    [("output", .text output), ("domain", .text buffer.domain.name),
      ("region_id", .number buffer.region), ("byte_size", .number buffer.size)]
  | regionCreated key size path =>
    [("key", .text key), ("byte_size", .number size), ("path", .text path)]
  | regionReplaced key => [("key", .text key)]
  | handleRegistered name key offset size =>
    [("name", .text name), ("region_key", .text key), ("offset", .number offset),
      ("byte_size", .number size)]
  | handleUnregistered name => [("name", .text name)]
  | handlesUnregistered count => [("count", .number count)]
  | configInvalid model _ => [("model", .text model)]
  | configChanged model => [("model", .text model)]
  | versionLoaded model version => [("model", .text model), ("version", .number version)]
  | versionFailed model version _ => [("model", .text model), ("version", .number version)]
  | versionUnloaded model version => [("model", .text model), ("version", .number version)]
  | modelRemoved model => [("model", .text model)]
  | reconciled loaded kept unloaded failed =>
    [("loaded", .number loaded), ("kept", .number kept), ("unloaded", .number unloaded),
      ("failed", .number failed)]
  | requestAccepted id model => [("id", .number id), ("model", .text model)]
  | requestExecuting id model version batchSize =>
    [("id", .number id), ("model", .text model), ("version", .number version),
      ("batch_size", .number batchSize)]
  | requestFailed id model _ => [("id", .number id), ("model", .text model)]
  | requestDropped id => [("id", .number id)]
  | initialLoadFailed server _ => [("id", .text server)]
  | serving server loaded slots =>
    [("id", .text server), ("loaded", .number loaded), ("slots", .number slots)]
  | polled server loaded kept unloaded failed =>
    [("id", .text server), ("loaded", .number loaded), ("kept", .number kept),
      ("unloaded", .number unloaded), ("failed", .number failed)]
  | stopping server inflight => [("id", .text server), ("inflight", .number inflight)]
  | stopped server unloaded => [("id", .text server), ("unloaded", .number unloaded)]
  | stopTimedOut server remaining => [("id", .text server), ("remaining", .number remaining)]
  | droppedWithoutStop server => [("id", .text server)]

end Event

end InferenceEngine
