import InferenceEngine.Session.Basic

/-!
# Requests

The steps on providers, on requests and on their responses.
-/

namespace InferenceEngine.Session

/-!
# Providers
-/

def newProvider (server label model : String) (choice : VersionChoice) (header : RequestHeader) :
    SessionStep Provider := do
  let n ← SessionStep.find Session.servers server
  let provider ← SessionStep.ofExcept ((← get).engine.provider n model choice header)
  modify fun s => { s with providers := s.providers.insert label provider }
  return provider

def provider (label : String) : SessionStep Provider :=
  SessionStep.find Session.providers label

def askProvider {α : Type} (label : String) (f : Provider -> Except Failure α) :
    SessionStep α := do
  let p ← provider label
  SessionStep.ofExcept (f p)

def changeProvider (label : String) (f : Provider -> Except Failure Provider) :
    SessionStep Unit := do
  let p ← askProvider label f
  modify fun s => { s with providers := s.providers.insert label p }

def dropProvider (label : String) : SessionStep Unit := do
  let _ ← provider label
  modify fun s => { s with providers := s.providers.erase label }

/-!
# Requests
-/

def submit (server provider : String) : SessionStep Nat := do
  let n ← SessionStep.find Session.servers server
  let p ← SessionStep.find Session.providers provider
  SessionStep.attempt fun e => e.submit n p e.submissions.length

/-- Submits a request and lets it go on as far as it can. If it has been answered then, its
response is kept; else it goes on without anyone waiting for it. -/
def infer (server provider label : String) : SessionStep (Option ResponseSummary) := do
  SessionStep.change Engine.settle
  let n ← submit server provider
  SessionStep.change Engine.settle
  match ← SessionStep.ask fun e => e.response? n with
  | some response =>
    modify fun s => s.keepResponse label n
    return some response.summary
  | none =>
    SessionStep.change fun e => e.ignore n
    return none

/-- Submits a request whose response will be kept under a label. -/
def inferLater (server provider label : String) : SessionStep Unit := do
  let n ← submit server provider
  modify fun s => { s with expected := s.expected ++ [(n, label)] }

/-!
# Responses
-/

def response (label : String) : SessionStep Response := do
  let n ← SessionStep.find Session.responses label
  match ← SessionStep.ask fun e => e.response? n with
  | some response => return response
  | none => throw (.unknownLabel label)

def askResponse {α : Type} (label : String) (f : Response -> Except Failure α) :
    SessionStep α := do
  let r ← response label
  SessionStep.ofExcept (f r)

def dropResponse (label : String) : SessionStep Unit := do
  let n ← SessionStep.find Session.responses label
  modify fun s => { s with
    responses := s.responses.erase label
    engine := s.engine.dropResponse n }

end InferenceEngine.Session
