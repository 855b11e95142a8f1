import InferenceEngine.Engine.Execution

/-!
# Stopping a server

A call that stops a server first asks it to stop and then waits until no request is in
flight, but not longer than the server's options say. In either case it stops the server.
-/

namespace InferenceEngine.Engine

/-- Begins a call that stops a server; it does nothing yet. -/
def addStop (e : Engine) (server : Nat) : Engine × Nat :=
  ({ e with stops := e.stops ++ [⟨server, .pending⟩] }, e.stops.length)

def askToStop (e : Engine) (n : Nat) : Engine :=
  let (server, events) := (e.server n).askToStop
  (e.modifyServer n fun _ => server).report events

/-- Ends the wait of a stop call if no request is in flight or its time is over. -/
def settleStop (e : Engine) (n : Nat) (deadline : Nat) : Engine :=
  let server := (e.stopCall n).server
  let s := e.server server
  if s.inflight = 0 then (e.shutDown server).setStop n (.finished (.ok ()))
  else if deadline ≤ e.clock then
    ((e.shutDown server).report [.stopTimedOut s.id s.inflight]).setStop n
      (.finished (.error (.stillInFlight s.inflight s.options.exitTimeout)))
  else e.setStop n (.draining deadline)

def runStop (e : Engine) (n : Nat) : Engine :=
  let server := (e.stopCall n).server
  match (e.stopCall n).phase with
  | .pending =>
    if (e.server server).state = .stopped then e.setStop n (.finished (.ok ()))
    else
      (e.askToStop server).settleStop n (e.clock + (e.server server).options.exitTimeout)
  | .draining deadline => e.settleStop n deadline
  | _ => e

/-- Gives a stop call up; a server that nobody else has is stopped. -/
def abandonStop (e : Engine) (n : Nat) : Engine :=
  if (e.stopCall n).isRunning then
    (e.setStop n .abandoned).collect (e.stopCall n).server
  else e

end InferenceEngine.Engine
