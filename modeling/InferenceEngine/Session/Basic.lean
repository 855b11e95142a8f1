import InferenceEngine.Engine.Report
import InferenceEngine.Session.Plan

/-!
# Sessions

A client talks to an engine in steps. What a step makes is kept under a label, and a later
step that makes something under the same label takes its place; what was there before is
dropped after that. At the end of each step the requests that have been answered meanwhile
are handed over.
-/

namespace InferenceEngine

/-!
# State
-/

inductive RepositoryChoice where
  /-- From the repository in memory. -/
  | memory
  /-- From the scan that the session dictates. -/
  | dictated
  /-- From a repository that stays empty. -/
  | absent
  deriving DecidableEq, Inhabited

structure ServerSource where
  repository : RepositoryChoice
  hasFactory : Bool
  deriving DecidableEq, Inhabited

/-- A session: an engine and what the client has of it. -/
structure Session where
  engine : Engine
  /-- The repository in memory. -/
  repository : Repository
  /-- What a scan of the dictated repository gives. -/
  dictated : Except Failure (List RepositoryModel)
  plans : PlanBook
  /-- What each server has been built with, by number. -/
  sources : List ServerSource
  /-- The handles that belong to no server. -/
  registry : Registry
  servers : OrderedMap String Nat
  handles : OrderedMap String Nat
  stops : OrderedMap String Nat
  allocators : OrderedMap String Nat
  buffers : OrderedMap String Buffer
  providers : OrderedMap String Provider
  responses : OrderedMap String Nat
  regions : OrderedMap String Region
  blocks : OrderedMap String Handle
  /-- The requests whose responses are to be kept under a label as soon as they come. -/
  expected : List (Nat × String)
  /-- How many of the engine's completions have been handed over. -/
  seenCompletions : Nat
  /-- How many of the engine's events have been handed over. -/
  seenEvents : Nat
  /-- How many of the engine's calls have been handed over. -/
  seenCalls : Nat

namespace Session

def empty : Session where
  engine := .empty
  repository := .empty
  dictated := .ok []
  plans := []
  sources := []
  registry := .empty
  servers := .empty
  handles := .empty
  stops := .empty
  allocators := .empty
  buffers := .empty
  providers := .empty
  responses := .empty
  regions := .empty
  blocks := .empty
  expected := []
  seenCompletions := 0
  seenEvents := 0
  seenCalls := 0

instance : Inhabited Session := ⟨empty⟩

end Session

/-!
# Steps
-/

inductive Refusal where
  /-- There is nothing under a label. -/
  | unknownLabel (label : String)
  /-- It failed. -/
  | failed (cause : Failure)
  deriving Inhabited

/-- A step of a session, which may change the session even if it has no result. -/
abbrev SessionStep (α : Type) := ExceptT Refusal (StateM Session) α

namespace SessionStep

def ofExcept {α : Type} : Except Failure α -> SessionStep α
  | .ok a => pure a
  | .error failure => throw (.failed failure)

def find {α : Type} (labels : Session -> OrderedMap String α) (label : String) :
    SessionStep α := do
  match (labels (← get)).get? label with
  | some a => pure a
  | none => throw (.unknownLabel label)

def ask {α : Type} (f : Engine -> α) : SessionStep α := do
  return f (← get).engine

def change (f : Engine -> Engine) : SessionStep Unit :=
  modify fun s => { s with engine := f s.engine }

theorem run_bind {α β : Type} {x : SessionStep α} {f : α -> SessionStep β} {s s' : Session}
    {a : α} (h : x.run s = (.ok a, s')) : (x >>= f).run s = (f a).run s' := by
  change (ExceptT.bindCont f (x.run s).1) (x.run s).2 = _
  rw [h]
  rfl

theorem run_bind_of_error {α β : Type} {x : SessionStep α} {f : α -> SessionStep β}
    {s s' : Session} {refusal : Refusal} (h : x.run s = (.error refusal, s')) :
    (x >>= f).run s = (.error refusal, s') := by
  change (ExceptT.bindCont f (x.run s).1) (x.run s).2 = _
  rw [h]
  rfl

theorem run_find {α : Type} {labels : Session -> OrderedMap String α} {s : Session}
    {label : String} {a : α} (h : (labels s).get? label = some a) :
    (find labels label).run s = (.ok a, s) := by
  have hget : (get : SessionStep Session).run s = (.ok s, s) := rfl
  unfold find
  rw [run_bind hget, h]
  rfl

/-- Changes the engine, with a result that may be a failure. -/
def attempt {α : Type} (f : Engine -> Except Failure α × Engine) : SessionStep α := do
  let s ← get
  let (result, engine) := f s.engine
  set { s with engine := engine }
  ofExcept result

end SessionStep

/-!
# Responses
-/

structure ResponseSummary where
  status : Except Failure Unit
  header : Blob
  /-- Whether the header can be read. -/
  headerDecodes : Bool
  batchSize : Nat
  outputs : List String
  deriving Inhabited

def Response.summary (r : Response) : ResponseSummary where
  status := r.status
  header := r.header
  headerDecodes :=
    match r.header.decode ResponseHeader.ofJson? with
    | .ok _ => true
    | .error _ => false
  batchSize := r.batchSize
  outputs := r.outputNames

/-- A request that has been answered during a step. -/
structure Arrival where
  label : String
  submission : Nat
  /-- The server that answered. -/
  server : String
  live : Bool
  ready : Bool
  response : ResponseSummary
  deriving Inhabited

namespace Session

def keepResponse (s : Session) (label : String) (submission : Nat) : Session :=
  let old := s.responses.get? label
  let s := { s with responses := s.responses.insert label submission }
  match old with
  | some old => { s with engine := s.engine.dropResponse old }
  | none => s

/-- The arrival of a completion, if its response is expected. -/
def arrival? (s : Session) (c : Completion) : Option Arrival :=
  (s.expected.find? fun entry => entry.1 = c.submission).map fun entry =>
    ⟨entry.2, c.submission, (s.engine.server c.server).id, c.live, c.ready, c.response.summary⟩

/-- The arrivals that have not been handed over, in the order of their labels. -/
def arrivals (s : Session) : List Arrival :=
  ((s.engine.completions.drop s.seenCompletions).filterMap s.arrival?).mergeSort
    fun a b => a.label ≤ b.label

/-- Ends a step: the requests that have been answered are handed over, and their responses
are kept. -/
def endStep (s : Session) : List Arrival × Session :=
  let arrivals := s.arrivals
  let s := { s with seenCompletions := s.engine.completions.length }
  (arrivals, arrivals.foldl (fun s a => s.keepResponse a.label a.submission) s)

end Session

end InferenceEngine
