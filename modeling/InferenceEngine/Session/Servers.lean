import InferenceEngine.Session.Records

/-!
# Servers

The steps on servers: building, asking, polling, stopping and dropping them.
-/

namespace InferenceEngine.Session

/-!
# Building
-/

/-- The factory of a server: the one that follows the plans, if it has one. -/
def factory (s : Session) (source : ServerSource) : Option BackendFactory :=
  if source.hasFactory then some s.plans.factory else none

def build (label : String) (options : ServerOptions) (source : ServerSource)
    (allocator : Option String) (isInside : Bool) : SessionStep Server := do
  let allocator ← allocator.mapM fun label => SessionStep.find Session.allocators label
  let s ← get
  let n ← SessionStep.attempt fun e =>
    e.build options allocator (s.scan source.repository) (s.factory source) isInside
  let old := s.servers.get? label
  modify fun s =>
    { s with sources := s.sources ++ [source], servers := s.servers.insert label n }
  match old with
  | some old => SessionStep.change fun e => e.dropServer old
  | none => pure ()
  SessionStep.ask fun e => e.server n

/-!
# Asking
-/

def server (label : String) : SessionStep Server := do
  let n ← SessionStep.find Session.servers label
  SessionStep.ask fun e => e.server n

def makeHandle (server label : String) : SessionStep Unit := do
  let n ← SessionStep.find Session.servers server
  modify fun s => { s with handles := s.handles.insert label n }

def handle (label : String) : SessionStep Server := do
  let n ← SessionStep.find Session.handles label
  SessionStep.ask fun e => e.server n

structure StatusAnswer where
  blob : Blob
  /-- Whether the blob can be read and written again. -/
  roundTrips : Bool
  live : Bool
  ready : Bool

def status (labels : Session -> OrderedMap String Nat) (label : String) :
    SessionStep StatusAnswer := do
  let n ← SessionStep.find labels label
  SessionStep.ask fun e =>
    let blob := e.status n
    ⟨blob, blob.roundTrips ServerStatus.ofJson? ServerStatus.toJson, (e.server n).isLive,
      (e.server n).isReady⟩

/-- The status of a model of the server that a label means, and whether it can be read and
written again. -/
def modelStatus (labels : Session -> OrderedMap String Nat) (label name : String) :
    SessionStep (Blob × Bool) := do
  let n ← SessionStep.find labels label
  let blob ← SessionStep.ofExcept ((← get).engine.modelStatus n name)
  return (blob, blob.roundTrips ModelStatus.ofJson? ModelStatus.toJson)

/-!
# Polling and stopping
-/

def poll (label : String) : SessionStep Unit := do
  let n ← SessionStep.find Session.servers label
  let s ← get
  let source := s.sources.getD n default
  SessionStep.attempt fun e => e.poll n (s.scan source.repository) (s.factory source)

def stop (label : String) : SessionStep Unit := do
  let n ← SessionStep.find Session.servers label
  SessionStep.attempt fun e => e.stop n

def beginStop (server label : String) : SessionStep Unit := do
  let n ← SessionStep.find Session.servers server
  modify fun s =>
    let (call, engine) := s.engine.beginStop n
    { s with engine := engine, stops := s.stops.insert label call }

/-- Waits until a server that was asked to stop has stopped. -/
def joinStop (label : String) : SessionStep Unit := do
  let n ← SessionStep.find Session.stops label
  SessionStep.attempt fun e => e.joinStop n

def dropServer (label : String) : SessionStep Unit := do
  let n ← SessionStep.find Session.servers label
  modify fun s => { s with servers := s.servers.erase label }
  SessionStep.change fun e => e.dropServer n

/-!
# Running
-/

def run : SessionStep Unit := SessionStep.change Engine.settle

def openGate (permits : Nat) : SessionStep Unit :=
  SessionStep.change fun e => e.openGate permits

def closeGate : SessionStep Unit := SessionStep.change Engine.closeGate

/-- Ceases to run anything; the events up to now are lost. -/
def close : SessionStep Unit := do
  SessionStep.change Engine.close
  modify fun s => { s with seenEvents := s.engine.events.length }

end InferenceEngine.Session
