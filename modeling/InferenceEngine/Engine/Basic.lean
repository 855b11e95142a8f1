import InferenceEngine.Server.Basic
import InferenceEngine.Server.Execution

/-!
# The engine

An engine runs servers that share a directory of shared memory, allocators and a gate. Each
accepted request is a job, and so is each call that stops a server. A job runs until it has
to wait. Jobs that can go on form a queue: first those that another job has woken, and then
those that a client has started or let through the gate, both in the order in which that
happened.

All that an engine has done is kept in order: its events, the calls that it has made to
factories and backends, the ways in which backends have ended and tasks have panicked, and the
callbacks it has called.
-/

namespace InferenceEngine

/-!
# Requests in progress
-/

inductive Phase where
  /-- It has been accepted and has not asked for a slot. -/
  | accepted
  /-- It waits for a slot. -/
  | waiting
  /-- It has been given a slot. -/
  | granted
  /-- Its backend has the slots and goes on. -/
  | inBackend (slots : List OutputSlot) (next : Behaviour)
  /-- Its backend waits at the gate. -/
  | atGate (slots : List OutputSlot) (resume : Bool -> Behaviour)
  /-- Its backend has been let through the gate. -/
  | letThrough (slots : List OutputSlot) (resume : Bool -> Behaviour)
  /-- It has been answered, and someone holds the response. -/
  | answered (response : Response)
  /-- It has been answered, and nobody holds the response. -/
  | closed

instance : Inhabited Phase := ⟨.closed⟩

namespace Phase

def isOpen : Phase -> Bool
  | answered _ | closed => false
  | _ => true

def holdsSlot : Phase -> Bool
  | granted | inBackend .. | atGate .. | letThrough .. => true
  | _ => false

def slots : Phase -> List OutputSlot
  | inBackend slots _ | atGate slots _ | letThrough slots _ => slots
  | _ => []

def isBeforeExecution : Phase -> Bool
  | accepted | waiting | granted => true
  | _ => false

def response? : Phase -> Option Response
  | answered response => some response
  | _ => none

end Phase

/-- An accepted request, and how far it has come. -/
structure Submission where
  /-- The number of the server. -/
  server : Nat
  request : PreparedRequest
  /-- The number of the callback that is to receive the response. -/
  callback : Nat
  phase : Phase
  /-- Whether someone waits for the response; else it is dropped as soon as it is made. -/
  isAwaited : Bool
  deriving Inhabited

namespace Submission

/-- The mappings that a request holds: before it executes those of all its ranges, and while
it executes those of its outputs. -/
def mappings (t : Submission) : List Nat :=
  if t.phase.isBeforeExecution then
    t.request.inputs.filterMap PreparedInput.mapping? ++
      t.request.outputs.filterMap PreparedOutput.mapping?
  else if t.phase.isOpen then t.request.outputs.filterMap PreparedOutput.mapping?
  else []

end Submission

/-!
# Stops in progress
-/

/-- How far a call that stops a server has come. -/
inductive StopPhase where
  /-- It has not begun. -/
  | pending
  /-- It waits for the requests in flight, until a time. -/
  | draining (deadline : Nat)
  /-- It has ended. -/
  | finished (result : Except Failure Unit)
  /-- It was given up before it ended. -/
  | abandoned

instance : Inhabited StopPhase := ⟨.abandoned⟩

structure StopCall where
  /-- The number of the server. -/
  server : Nat
  phase : StopPhase
  deriving Inhabited

namespace StopCall

/-- Whether a call has neither ended nor been given up. -/
def isRunning (c : StopCall) : Bool :=
  match c.phase with
  | .pending | .draining _ => true
  | _ => false

/-- The time until which a call waits. -/
def deadline? (c : StopCall) : Option Nat :=
  match c.phase with
  | .draining deadline => some deadline
  | _ => none

def result? (c : StopCall) : Option (Except Failure Unit) :=
  match c.phase with
  | .finished result => some result
  | _ => none

end StopCall

inductive Job where
  | request (submission : Nat)
  | stop (call : Nat)
  deriving DecidableEq, Inhabited

/-!
# The gate
-/

structure Gate where
  /-- How many may pass. -/
  permits : Nat
  /-- The requests that wait at the gate, the first one in front. -/
  waiting : List Nat
  isClosed : Bool
  deriving DecidableEq, Inhabited

/-!
# Records
-/

/-- A call that the engine makes to what it is given. -/
inductive Call where
  /-- A factory is asked for a backend. While a server is polled, it is noted whether the
  server is ready and whether it knows the model. -/
  | create (config : ModelConfig) (version : Int) (polled : Option (Bool × Bool))
  /-- A backend is given the batch of a request. -/
  | execute (submission : Nat) (batch : ExecutionBatch)
  deriving Inhabited

/-- A call of the callback of a request with its response, and what the server said about
itself at that moment. -/
structure Completion where
  submission : Nat
  callback : Nat
  server : Nat
  live : Bool
  ready : Bool
  /-- How long the execution of the request has taken, unless it was given up before that had
  ended. -/
  taken? : Option Nat
  response : Response
  deriving Inhabited

namespace Completion

/-- Whether the request has been executed; else it was given up before that had ended. -/
def isExecuted (c : Completion) : Bool := c.taken?.isSome

/-- The time that the response tells for the execution. -/
def computeTime (c : Completion) : Nat := c.taken?.getD 0

end Completion

/-- How a backend has ended, and the slots as it has left them. -/
structure Ending where
  submission : Nat
  result : Except Failure Unit
  slots : List OutputSlot
  deriving Inhabited

/-- How the task of a request has panicked while its slots were allocated: those that there were
by then are lost. -/
structure Unwinding where
  submission : Nat
  slots : List OutputSlot
  deriving Inhabited

/-!
# The engine
-/

structure Engine where
  servers : List Server
  submissions : List Submission
  stops : List StopCall
  allocators : List Allocator
  /-- The counters of the loaded models, by number. -/
  stats : List InferStats
  directory : Directory
  gate : Gate
  /-- The jobs that another job has made able to go on, the first one in front. -/
  woken : List Job
  /-- The jobs that a client has made able to go on, the first one in front. -/
  started : List Job
  /-- The time, in seconds. -/
  clock : Nat
  /-- What the clocks of the machine show. -/
  readings : Readings
  /-- Whether jobs are run at all. -/
  isRunning : Bool
  events : List Event
  calls : List Call
  endings : List Ending
  unwindings : List Unwinding
  completions : List Completion
  /-- The requests whose callbacks have been called and have not returned. -/
  calling : List Nat

namespace Engine

def empty : Engine where
  servers := []
  submissions := []
  stops := []
  allocators := []
  stats := []
  directory := .empty
  gate := ⟨0, [], false⟩
  woken := []
  started := []
  clock := 0
  readings := .zero
  isRunning := true
  events := []
  calls := []
  endings := []
  unwindings := []
  completions := []
  calling := []

instance : Inhabited Engine := ⟨empty⟩

/-!
# Parts
-/

def server (e : Engine) (n : Nat) : Server := e.servers.getD n default

def submission (e : Engine) (n : Nat) : Submission := e.submissions.getD n default

def stopCall (e : Engine) (n : Nat) : StopCall := e.stops.getD n default

def allocator (e : Engine) (n : Nat) : Allocator := e.allocators.getD n default

def statsOf (e : Engine) (n : Nat) : InferStats := e.stats.getD n .zero

def modifyServer (e : Engine) (n : Nat) (f : Server -> Server) : Engine :=
  { e with servers := e.servers.modify n f }

def setPhase (e : Engine) (n : Nat) (phase : Phase) : Engine :=
  { e with submissions := e.submissions.modify n fun t => { t with phase := phase } }

def setStop (e : Engine) (n : Nat) (phase : StopPhase) : Engine :=
  { e with stops := e.stops.modify n fun c => { c with phase := phase } }

def setAllocator (e : Engine) (n : Nat) (a : Allocator) : Engine :=
  { e with allocators := e.allocators.set n a }

def modifyStats (e : Engine) (n : Nat) (f : InferStats -> InferStats) : Engine :=
  { e with stats := e.stats.modify n f }

/-- Adds an allocator, whose number is the second part. -/
def addAllocator (e : Engine) (a : Allocator) : Engine × Nat :=
  ({ e with allocators := e.allocators ++ [a] }, e.allocators.length)

def report (e : Engine) (events : List Event) : Engine := { e with events := e.events ++ events }

def record (e : Engine) (call : Call) : Engine := { e with calls := e.calls ++ [call] }

def recordEnding (e : Engine) (ending : Ending) : Engine :=
  { e with endings := e.endings ++ [ending] }

def recordUnwinding (e : Engine) (unwinding : Unwinding) : Engine :=
  { e with unwindings := e.unwindings ++ [unwinding] }

/-- The jobs that can go on, in the order in which they do. -/
def queue (e : Engine) : List Job := e.woken ++ e.started

/-- Makes jobs able to go on, on behalf of another job. -/
def wake (e : Engine) (jobs : List Job) : Engine := { e with woken := e.woken ++ jobs }

def start (e : Engine) (jobs : List Job) : Engine := { e with started := e.started ++ jobs }

/-- The memory that the executions of a server work on. -/
def memory (e : Engine) (server : Nat) : Execution.Memory :=
  ⟨e.allocator (e.server server).allocator, e.directory⟩

/-- Puts back the memory that an execution of a server has worked on. -/
def setMemory (e : Engine) (server : Nat) (m : Execution.Memory) : Engine :=
  { e.setAllocator (e.server server).allocator m.allocator with directory := m.directory }

def releaseResponse (e : Engine) (response : Response) : Engine :=
  let (a, events) := (e.allocator response.allocator).releaseAll response.buffers
  (e.setAllocator response.allocator a).report events

/-!
# Servers among others
-/

def shutDown (e : Engine) (n : Nat) : Engine :=
  let (server, events) := (e.server n).shutDown
  (e.modifyServer n fun _ => server).report events

/-- Whether someone has a server: the one who asked for it, or a call that stops it. -/
def isOwned (e : Engine) (n : Nat) : Bool :=
  (e.server n).isKept || e.stops.any fun c => c.server = n && c.isRunning

def collect (e : Engine) (n : Nat) : Engine :=
  if e.isOwned n || (e.server n).state = .stopped then e
  else (e.shutDown n).report [.droppedWithoutStop (e.server n).id]

def dropServer (e : Engine) (n : Nat) : Engine :=
  (e.modifyServer n fun s => { s with isKept := false }).collect n

def holdsMapping (e : Engine) (server number : Nat) : Bool :=
  e.submissions.any fun t => t.server = server && t.mappings.contains number

end Engine

end InferenceEngine
