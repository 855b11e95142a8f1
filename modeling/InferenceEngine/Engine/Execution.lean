import InferenceEngine.Engine.Slots

/-!
# Requests

A request asks for a slot, executes and is answered. It executes from the moment it holds a
slot; at the gate it waits with its slot and its output buffers. Before it is answered it
gives its slot back, and until its callback has returned it counts as in flight. A request whose
task is dropped or panics is given up.
-/

namespace InferenceEngine.Engine

/-!
# Answering
-/

/-- Lets the stop calls that wait for a server look again. -/
def wakeStops (e : Engine) (server : Nat) : Engine :=
  e.wake ((List.range e.stops.length).filterMap fun n =>
    let call := e.stopCall n
    if call.server = server && call.deadline?.isSome then some (.stop n) else none)

def countIn (e : Engine) (server : Nat) : Engine :=
  e.modifyServer server fun s => { s with inflight := s.inflight + 1 }

def countOut (e : Engine) (server : Nat) : Engine :=
  let e := e.modifyServer server fun s => { s with inflight := s.inflight - 1 }
  if (e.server server).inflight = 0 then e.wakeStops server else e

/-- Hands the response to whoever waits for it; if nobody does, its buffers are given back. -/
def hand (e : Engine) (n : Nat) (response : Response) : Engine :=
  if (e.submission n).isAwaited then e.setPhase n (.answered response)
  else (e.releaseResponse response).setPhase n .closed

/-- The response that a server gives to a request whose execution has taken some time. -/
def responseTo (e : Engine) (n computeTime : Nat)
    (result : Except Failure (List (String × OutputStorage))) : Response :=
  .ofResult (e.submission n).request (e.server (e.submission n).server).allocator computeTime
    result

/-- Calls the callback of a request whose execution has taken some time, or which is given up. -/
def callBack (e : Engine) (n : Nat) (taken? : Option Nat) (response : Response) : Engine :=
  let s := e.submission n
  let completion : Completion :=
    ⟨n, s.callback, s.server, (e.server s.server).isLive, (e.server s.server).isReady, taken?,
      response⟩
  { e with completions := e.completions ++ [completion], calling := e.calling ++ [n] }.hand n
    response

/-- The callback of a request returns; only then the request is counted out. -/
def comeBack (e : Engine) (n : Nat) : Engine :=
  { e with calling := e.calling.erase n }.countOut (e.submission n).server

/-!
# Cancelling
-/

/-- Gives the slot of a request back, or its place among those that wait for one. -/
def withdraw (e : Engine) (n : Nat) : Engine :=
  let s := e.submission n
  if s.phase.holdsSlot then e.releaseSlot s.server
  else e.modifyServer s.server fun server =>
    { server with waiting := server.waiting.filter (· != n) }

/-- Gives a request up and calls its callback so; the buffers that it holds are lost. -/
def giveUp (e : Engine) (n : Nat) : Engine :=
  ((e.withdraw n).report [.requestDropped (e.submission n).request.id]).callBack n none
    (e.responseTo n 0 (.error .cancelled))

def cancel (e : Engine) (n : Nat) : Engine :=
  if (e.submission n).phase.isOpen then (e.giveUp n).comeBack n else e

/-- The task of a request panics while it allocates slots, and is dropped so. -/
def unwind (e : Engine) (n : Nat) (slots : List OutputSlot) : Engine :=
  ((e.recordUnwinding ⟨n, slots⟩).giveUp n).comeBack n

/-!
# Executing
-/

/-- Counts what an execution has come to, and reports a failure. -/
def noteResult (e : Engine) (n : Nat) :
    Except Failure (List (String × OutputStorage)) -> Engine
  | .ok _ =>
    e.modifyStats (e.submission n).request.model.number fun stats =>
      stats.record true e.readings.computeTime
  | .error failure =>
    let request := (e.submission n).request
    (e.modifyStats request.model.number fun stats =>
      stats.record false e.readings.computeTime).report
        [.requestFailed request.id request.model.config.name failure]

/-- Ends the execution of a request: it is counted, its slot is given back and its callback is
called. -/
def respond (e : Engine) (n : Nat) (result : Except Failure (List (String × OutputStorage))) :
    Engine :=
  ((e.noteResult n result).releaseSlot (e.submission n).server).callBack n
    (some e.readings.computeTime) (e.responseTo n e.readings.computeTime result)

def finish (e : Engine) (n : Nat) (result : Except Failure (List (String × OutputStorage))) :
    Engine :=
  (e.respond n result).comeBack n

/-- What comes of the slots that the backend of a request leaves. -/
def outcome (e : Engine) (n : Nat) (result : Except Failure Unit) (slots : List OutputSlot) :
    Except Failure (List (String × OutputStorage)) × Execution.Memory × List Event :=
  let s := e.submission n
  Execution.conclude (e.memory s.server) s.request.model.config s.request.outputs result slots

/-- Takes the slots from a backend that has ended, and delivers them or gives them back. -/
def takeSlots (e : Engine) (n : Nat) (result : Except Failure Unit) (slots : List OutputSlot) :
    Engine :=
  (((e.recordEnding ⟨n, result, slots⟩).setMemory (e.submission n).server
    (e.outcome n result slots).2.1).report (e.outcome n result slots).2.2)

/-- Ends the execution of a request whose backend has ended. -/
def leaveBackend (e : Engine) (n : Nat) (result : Except Failure Unit) (slots : List OutputSlot) :
    Engine :=
  (e.takeSlots n result slots).respond n (e.outcome n result slots).1

def conclude (e : Engine) (n : Nat) (result : Except Failure Unit) (slots : List OutputSlot) :
    Engine :=
  (e.leaveBackend n result slots).comeBack n

/-- Lets a backend go on until it ends or has to wait at the gate. -/
def proceed (e : Engine) (n : Nat) : Behaviour -> Engine
  | .finish result slots => e.conclude n result slots
  | .panic slots =>
    e.conclude n (.error (.backendPanicked (e.submission n).request.model.config.name)) slots
  | .awaitGate slots resume =>
    if e.gate.isClosed then
      (e.setPhase n (.inBackend slots (resume false))).proceed n (resume false)
    else
      match e.gate.permits with
      | 0 =>
        { e.setPhase n (.atGate slots resume) with
          gate := { e.gate with waiting := e.gate.waiting ++ [n] } }
      | permits + 1 =>
        { e.setPhase n (.inBackend slots (resume true)) with
          gate := { e.gate with permits := permits } }.proceed n (resume true)

def enterBackend (e : Engine) (n : Nat) (batch : ExecutionBatch) : Engine :=
  (e.record (.execute n batch)).setPhase n
    (.inBackend batch.outputs ((e.submission n).request.model.backend.run n batch))

/-- Gathers what the backend of a request is given, and lets it go on with that. -/
def carryOut (e : Engine) (n : Nat) : Engine :=
  let s := e.submission n
  let model := s.request.model
  match Execution.gather e.directory s.request with
  | .error failure => e.finish n (.error failure)
  | .ok inputs =>
    let (slots, allocator, events) :=
      Execution.allocate model.config.placement (e.memory s.server).allocator [] s.request.outputs
    let e := (e.setMemory s.server ⟨allocator, e.directory⟩).report events
    match slots with
    | .failed failure => e.finish n (.error failure)
    | .panicked slots => e.unwind n slots
    | .made slots =>
      let batch : ExecutionBatch :=
        ⟨model.config, model.version, s.request.batchSize, inputs, slots⟩
      (e.enterBackend n batch).proceed n (model.backend.run n batch)

def execute (e : Engine) (n : Nat) : Engine :=
  let s := e.submission n
  let model := s.request.model
  (e.report
    [.requestExecuting s.request.id model.config.name model.version s.request.batchSize]).carryOut n

def runRequest (e : Engine) (n : Nat) : Engine :=
  match (e.submission n).phase with
  | .accepted =>
    match e.takeSlot? (e.submission n).server with
    | some e => (e.setPhase n .granted).execute n
    | none => e.awaitSlot n
  | .granted => e.execute n
  | .letThrough slots resume =>
    (e.setPhase n (.inBackend slots (resume !e.gate.isClosed))).proceed n
      (resume !e.gate.isClosed)
  | _ => e

end InferenceEngine.Engine
