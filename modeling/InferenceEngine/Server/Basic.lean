import InferenceEngine.Model.Reconcile
import InferenceEngine.Options.Server
import InferenceEngine.SharedMemory.Registry

/-!
# Servers

A server holds a table of models, the registered handles of shared memory and a number of
execution slots. It is serving at first; it is asked to stop once, and from then on it takes
no more requests; when it has stopped its table and its registry are empty.
-/

namespace InferenceEngine

/-- What the clocks of a machine show at some moment. -/
structure Readings where
  /-- The date, in seconds. -/
  date : Int
  /-- The time of a stopwatch, in nanoseconds. -/
  time : Nat
  /-- How long an execution has taken that ends at that moment, in nanoseconds. -/
  taken : Nat
  date_fits : Text.fitsSigned date = true
  deriving DecidableEq

namespace Readings

def zero : Readings := ⟨0, 0, 0, by decide⟩

instance : Inhabited Readings := ⟨zero⟩

/-- How long an execution has taken that ends at that moment, as it is reported. -/
def computeTime (r : Readings) : Nat := Text.toWord r.taken

end Readings

structure Server where
  options : ServerOptions
  /-- What the clocks showed when it was built. -/
  built : Readings
  state : ServerState
  table : ModelTable
  registry : Registry
  /-- The number of the allocator of its output buffers. -/
  allocator : Nat
  /-- The number of requests that were accepted and whose callbacks have not returned. -/
  inflight : Nat
  /-- The number of execution slots that nobody holds. -/
  freeSlots : Nat
  /-- The requests that wait for a slot, the first one in front. -/
  waiting : List Nat
  /-- Whether the one who asked for the server still has it. -/
  isKept : Bool

namespace Server

def new (options : ServerOptions) (allocator : Nat) (readings : Readings) : Server where
  options := options
  built := readings
  state := .serving
  table := .empty
  registry := .empty
  allocator := allocator
  inflight := 0
  freeSlots := options.executionSlots
  waiting := []
  isKept := true

instance : Inhabited Server := ⟨{ new .default 0 .zero with state := .stopped }⟩

/-!
# Queries
-/

def id (s : Server) : String := s.options.serverId

/-- Whether a server works on requests, be it only on those that it has accepted. -/
def isLive (s : Server) : Bool := s.state.isLive

/-- Whether a server takes requests and its models are ready. -/
def isReady (s : Server) : Bool :=
  s.state = .serving && s.table.isReady s.options.strictReadiness

def engineVersion : String := "0.1.0"

/-- The status of a server when the clocks show some readings. -/
def status (s : Server) (stats : Nat -> InferStats) (readings : Readings) : ServerStatus where
  id := s.id
  version := engineVersion
  state := s.state
  live := s.isLive
  ready := s.isReady
  startedAt := s.built.date
  uptime := Text.toWord (readings.time - s.built.time)
  models := s.table.status stats

def modelStatus (s : Server) (stats : Nat -> InferStats) (name : String) :
    Except Failure ModelStatus :=
  match s.table.modelStatus? stats name with
  | some status => .ok status
  | none => .error (.unknownModel name)

def description (s : Server) : String :=
  Text.record "Server" [("id", Text.quoted s.id), ("state", s.state.description)]

def handleDescription (s : Server) : String :=
  Text.record "ServerHandle" [("id", Text.quoted s.id)]

/-!
# Stopping
-/

def askToStop (s : Server) : Server × List Event :=
  if s.state = .serving then ({ s with state := .stopping }, [.stopping s.id s.inflight])
  else (s, [])

/-- Stops a server, unless it has stopped: its models and its handles are released. -/
def shutDown (s : Server) : Server × List Event :=
  if s.state = .stopped then (s, [])
  else
    let (registry, events) := s.registry.unregisterAll
    ({ s with state := .stopped, table := .empty, registry := registry },
      events ++ [.stopped s.id s.table.readyCount])

end Server

end InferenceEngine
