import InferenceEngine.Session.Basic

/-!
# Repositories, plans and records

The steps that say which models there are and what their backends do, and those that ask
what the engine has done so far.
-/

namespace InferenceEngine.Session

/-!
# Repositories
-/

/-- Puts a model into the repository, and gives the number of models. -/
def insertModel (config : ModelConfig) (versions : List Int) : SessionStep Nat := do
  modify fun s => { s with repository := s.repository.insertModel config versions }
  return (← get).repository.size

/-- Takes a model from the repository; whether there was one, and the number of models. -/
def removeModel (name : String) : SessionStep (Bool × Nat) := do
  let known := (← get).repository.contains name
  modify fun s => { s with repository := s.repository.erase name }
  return (known, (← get).repository.size)

def scanModels : SessionStep (List RepositoryModel) := do
  return (← get).repository.scan

/-- Says what scans of the dictated repository give from now on. -/
def dictate (scan : Except Failure (List RepositoryModel)) : SessionStep Unit :=
  modify fun s => { s with dictated := scan }

/-- Plans the backends of a model, or of one version of it. -/
def planBackend (model : String) (version : Option Int) (plan : Plan) : SessionStep Unit :=
  modify fun s => { s with plans := ((model, version), plan) :: s.plans }

def scan (s : Session) : RepositoryChoice -> Except Failure (List RepositoryModel)
  | .memory => .ok s.repository.scan
  | .dictated => s.dictated
  | .absent => .ok []

/-!
# Records
-/

def takeCalls : SessionStep (List Call) := do
  let s ← get
  set { s with seenCalls := s.engine.calls.length }
  return s.engine.calls.drop s.seenCalls

def takeEvents : SessionStep (List Event) := do
  let s ← get
  set { s with seenEvents := s.engine.events.length }
  return s.engine.events.drop s.seenEvents

end InferenceEngine.Session
