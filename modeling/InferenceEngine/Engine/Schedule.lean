import InferenceEngine.Engine.Load
import InferenceEngine.Engine.Submission

/-!
# The queue and the clock

Jobs run one at a time, in the order of the queue. The clock stands still while there is
something to run; a caller that waits for a stop call lets it jump to the next deadline.
-/

namespace InferenceEngine.Engine

/-!
# The queue
-/

def runJob (e : Engine) : Job -> Engine
  | .request n => e.runRequest n
  | .stop n => e.runStop n

def dequeue (e : Engine) (position : Nat) : Engine :=
  if position < e.woken.length then { e with woken := e.woken.eraseIdx position }
  else { e with started := e.started.eraseIdx (position - e.woken.length) }

def runAt (e : Engine) (position : Nat) : Engine :=
  match e.queue[position]? with
  | none => e
  | some job => (e.dequeue position).runJob job

/-- Runs at most a number of jobs, the first one of the queue each time. -/
def settleWithin : Nat -> Engine -> Engine
  | 0, e => e
  | fuel + 1, e =>
    match e.queue with
    | [] => e
    | _ :: _ => settleWithin fuel (e.runAt 0)

def openCount (e : Engine) : Nat :=
  (List.range e.submissions.length).countP fun m => (e.submission m).phase.isOpen

/-- A bound on the turns that are left: an answer can make a request and all stop calls go on. -/
def work (e : Engine) : Nat := e.queue.length + (e.stops.length + 2) * e.openCount

/-- Runs jobs until the queue is empty. -/
def settle (e : Engine) : Engine := e.settleWithin e.work

/-!
# The clock
-/

/-- The earliest time that a stop call waits until. -/
def nextDeadline? (e : Engine) : Option Nat := (e.stops.filterMap StopCall.deadline?).min?

def overdue (e : Engine) : List Nat :=
  (List.range e.stops.length).filter fun n =>
    match (e.stopCall n).deadline? with
    | some deadline => deadline ≤ e.clock
    | none => false

/-- Lets the time pass until a deadline. -/
def pass (e : Engine) (deadline : Nat) : Engine := { e with clock := max e.clock deadline }

/-- Makes the calls whose time is over able to go on: those that go ahead first, and then the
others, in order. -/
def rouse (e : Engine) (isAhead : Nat -> Bool) : Engine :=
  e.wake ((e.overdue.filter isAhead ++ e.overdue.filter fun n => !isAhead n).map .stop)

/-- Lets the clock jump to the next deadline, and the calls that have waited for it go on. -/
def jump (e : Engine) (isAhead : Nat -> Bool) : Engine :=
  match e.nextDeadline? with
  | none => e
  | some deadline => ((e.pass deadline).rouse isAhead).settle

/-- Waits for a stop call, with at most a number of jumps of the clock. -/
def awaitStopWithin (isAhead : Nat -> Bool) (n : Nat) : Nat -> Engine -> Engine
  | 0, e => e
  | fuel + 1, e =>
    if (e.stopCall n).isRunning then awaitStopWithin isAhead n fuel (e.jump isAhead) else e

/-- Waits for a stop call. Each jump of the clock ends one. -/
def awaitStop (e : Engine) (isAhead : Nat -> Bool) (n : Nat) : Engine :=
  awaitStopWithin isAhead n e.stops.length e

/-!
# Calls of a client
-/

/-- Stops a server, and waits until that is done. The call of the client itself goes ahead
of those that run as jobs. -/
def stop (e : Engine) (server : Nat) : Except Failure Unit × Engine :=
  let (e, call) := e.settle.addStop server
  let e := ((e.runStop call).awaitStop (· == call) call).settle
  ((e.stopCall call).result?.getD (.ok ()), e)

/-- Begins to stop a server. The number of the stop call is given back. -/
def beginStop (e : Engine) (server : Nat) : Nat × Engine :=
  let (e, call) := e.settle.addStop server
  (call, (e.start [.stop call]).settle)

def joinStop (e : Engine) (call : Nat) : Except Failure Unit × Engine :=
  let e := (e.settle.awaitStop (fun _ => false) call).settle
  ((e.stopCall call).result?.getD (.ok ()), e)

def cancelAll (e : Engine) : Engine := (List.range e.submissions.length).foldl cancel e

def abandonAll (e : Engine) : Engine := (List.range e.stops.length).foldl abandonStop e

def clearQueues (e : Engine) : Engine :=
  { e with woken := [], started := [], gate := { e.gate with waiting := [] } }

/-- Ceases to run jobs: all requests and all stop calls that are in progress are given
up. -/
def close (e : Engine) : Engine := { e with isRunning := false }.cancelAll.abandonAll.clearQueues

end InferenceEngine.Engine
