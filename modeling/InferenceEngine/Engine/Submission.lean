import InferenceEngine.Engine.Execution

/-!
# Submitting a request

A request is accepted if its provider was made for the server, the server is serving and
the provider is complete. From then on it is in flight, and its callback will be called once.
-/

namespace InferenceEngine.Engine

def provider (e : Engine) (server : Nat) (model : String) (choice : VersionChoice)
    (header : RequestHeader) : Except Failure Provider :=
  Provider.new server (e.server server).table model choice header

/-- Keeps an accepted request with the number of its callback. -/
def enroll (e : Engine) (server : Nat) (request : PreparedRequest) (callback : Nat) : Engine :=
  { e with submissions := e.submissions ++ [⟨server, request, callback, .accepted, true⟩] }

/-- Puts an accepted request into the queue; where no jobs are run it is given up at once. -/
def launch (e : Engine) (server : Nat) (request : PreparedRequest) (callback : Nat) : Engine :=
  let n := e.submissions.length
  let e := (e.enroll server request callback).report
    [.requestAccepted request.id request.model.config.name]
  if e.isRunning then e.start [.request n] else e.cancel n

/-- Submits a request, whose number is given back. It is counted in before its inputs and
outputs are checked, and counted out again if they are refused. -/
def submit (e : Engine) (server : Nat) (provider : Provider) (callback : Nat) :
    Except Failure Nat × Engine :=
  if provider.server ≠ server then (.error .foreignProvider, e)
  else if (e.server server).state ≠ .serving then
    (.error (.notAccepting (e.server server).id), e)
  else
    match PreparedRequest.prepare (e.server server).registry provider with
    | .error failure => (.error failure, (e.countIn server).countOut server)
    | .ok request =>
      (.ok e.submissions.length, (e.countIn server).launch server request callback)

/-- The response of a request that has been answered and is still held. -/
def response? (e : Engine) (n : Nat) : Option Response := (e.submission n).phase.response?

/-- Drops the response of a request, and with it the buffers that it holds. -/
def dropResponse (e : Engine) (n : Nat) : Engine :=
  match (e.submission n).phase with
  | .answered response => (e.releaseResponse response).setPhase n .closed
  | _ => e

def ignore (e : Engine) (n : Nat) : Engine :=
  { e with submissions := e.submissions.modify n fun s => { s with isAwaited := false } }

end InferenceEngine.Engine
