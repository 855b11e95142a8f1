import InferenceEngine.Event
import InferenceEngine.Model.Repository
import InferenceEngine.Model.Table

/-!
# Reconciliation

A scan of a repository turns one table into the next. A version that was ready under an
equal configuration is kept with its loaded model; all other listed versions of a valid
configuration are loaded. What happens on the way is given as a list of actions, in order:
calls of the factory, and reports.
-/

namespace InferenceEngine

/-!
# Reports
-/

/-- A failure to load a model, or one version of it. -/
structure LoadFailure where
  model : String
  version : Option Int
  cause : Failure
  deriving DecidableEq, Inhabited

def LoadFailure.text (f : LoadFailure) : String :=
  match f.version with
  | some v => s!"{f.model} version {v}: {f.cause.text}"
  | none => s!"{f.model}: {f.cause.text}"

structure ReconcileReport where
  loaded : Nat
  kept : Nat
  unloaded : Nat
  failures : List LoadFailure
  deriving DecidableEq, Inhabited

namespace ReconcileReport

/-- The report of having done nothing. -/
def nothing : ReconcileReport := ⟨0, 0, 0, []⟩

def append (r s : ReconcileReport) : ReconcileReport where
  loaded := r.loaded + s.loaded
  kept := r.kept + s.kept
  unloaded := r.unloaded + s.unloaded
  failures := r.failures ++ s.failures

/-- The failure that a report amounts to, if anything failed. -/
def failure? (r : ReconcileReport) : Option Failure :=
  if r.failures.isEmpty then none
  else some (.modelsFailed (r.failures.map LoadFailure.text))

end ReconcileReport

inductive LoadAction where
  /-- It calls the factory. -/
  | create (config : ModelConfig) (version : Int)
  /-- It reports an event. -/
  | report (event : Event)
  deriving Inhabited

/-!
# One model
-/

/-- What comes of the versions of a model, or of a whole model. The models that are loaded
are numbered on from `next`. -/
structure Outcome (α : Type) where
  value : α
  report : ReconcileReport
  actions : List LoadAction
  next : Nat

namespace Reconcile

variable (factory : BackendFactory)

/-- What becomes of one version: the loaded model that `kept?` gives for it is kept, and
else the factory is called. -/
def version (config : ModelConfig) (kept? : Int -> Option LoadedModel) (next : Nat) (v : Int) :
    Outcome VersionSlot :=
  match kept? v with
  | some model => ⟨.ready model, { ReconcileReport.nothing with kept := 1 }, [], next⟩
  | none =>
    match (factory config v).result with
    | .ok backend =>
      ⟨.ready ⟨next, config, v, backend⟩, { ReconcileReport.nothing with loaded := 1 },
        [.create config v, .report (.versionLoaded config.name v)], next + 1⟩
    | .error cause =>
      ⟨.unavailable cause,
        { ReconcileReport.nothing with failures := [⟨config.name, some v, cause⟩] },
        [.create config v, .report (.versionFailed config.name v cause)], next⟩

def versions (config : ModelConfig) (kept? : Int -> Option LoadedModel) (next : Nat) :
    List Int -> Outcome (List (Int × VersionSlot))
  | [] => ⟨[], .nothing, [], next⟩
  | v :: rest =>
    let first := version factory config kept? next v
    let others := versions config kept? first.next rest
    ⟨(v, first.value) :: others.value, first.report.append others.report,
      first.actions ++ others.actions, others.next⟩

/-- The versions that a model lists, each once, in increasing order. -/
def listed (model : RepositoryModel) : List Int :=
  (OrderedMap.ofList (model.versions.map fun v => (v, ()))).keys

def keptFrom (old : Option ModelEntry) (v : Int) : Option LoadedModel :=
  old.bind fun entry => (entry.versions.get? v).bind VersionSlot.loaded?

/-- The ready versions of an entry that are not listed any more. -/
def dropped (old : Option ModelEntry) (listed : List Int) : List Int :=
  match old with
  | none => []
  | some entry =>
    (entry.versions.toList.filter fun e => e.2.isReady && !listed.contains e.1).map Prod.fst

/-- What becomes of a model with an invalid configuration: none of its versions is ready. -/
def invalid (model : RepositoryModel) (old : Option ModelEntry) (cause : Failure) (next : Nat) :
    Outcome ModelEntry :=
  ⟨⟨model.config, .ofList ((listed model).map fun v => (v, .unavailable cause))⟩,
    { ReconcileReport.nothing with
      unloaded := (old.map ModelEntry.readyCount).getD 0
      failures := [⟨model.config.name, none, cause⟩] },
    [.report (.configInvalid model.config.name cause)], next⟩

/-- What becomes of a model once it is known what becomes of its versions. -/
def assemble (model : RepositoryModel) (old : Option ModelEntry)
    (slots : Outcome (List (Int × VersionSlot))) : Outcome ModelEntry :=
  let same := old.filter fun entry => entry.config = model.config
  let changed := old.filter fun entry => entry.config ≠ model.config
  let gone := dropped same (listed model)
  ⟨⟨model.config, .ofList slots.value⟩,
    slots.report.append { ReconcileReport.nothing with
      unloaded := (changed.map ModelEntry.readyCount).getD 0 + gone.length },
    (if changed.isSome then [.report (.configChanged model.config.name)] else []) ++
      slots.actions ++ gone.map fun v => .report (.versionUnloaded model.config.name v),
    slots.next⟩

/-- What becomes of a model with a valid configuration. Versions are kept only from an
entry with an equal configuration; another entry is unloaded as a whole. -/
def valid (model : RepositoryModel) (old : Option ModelEntry) (next : Nat) :
    Outcome ModelEntry :=
  assemble model old (versions factory model.config
    (keptFrom (old.filter fun entry => entry.config = model.config)) next (listed model))

def model (strict : Bool) (model : RepositoryModel) (old : Option ModelEntry) (next : Nat) :
    Outcome ModelEntry :=
  match model.config.validate strict with
  | .error cause => invalid model old cause next
  | .ok () => valid factory model old next

/-!
# All models
-/

/-- What becomes of the models of a scan, in order. An old entry is given to the first model
of its name; the second part of the value holds the old entries that are left over. -/
def models (strict : Bool) (previous table : ModelTable) (next : Nat) :
    List RepositoryModel -> Outcome (ModelTable × ModelTable)
  | [] => ⟨(table, previous), .nothing, [], next⟩
  | m :: rest =>
    let name := m.config.name
    let entry := model factory strict m (previous.get? name) next
    let others := models strict (previous.erase name) (table.insert name entry.value)
      entry.next rest
    ⟨others.value, entry.report.append others.report, entry.actions ++ others.actions,
      others.next⟩

/-- What becomes of old entries that no model of the scan took over. -/
def removed (left : ModelTable) : ReconcileReport × List LoadAction :=
  ({ ReconcileReport.nothing with unloaded := left.readyCount },
    left.keys.map fun name => .report (.modelRemoved name))

/-- What becomes of a table once it is known what becomes of the models of a scan. -/
def complete (result : Outcome (ModelTable × ModelTable)) : Outcome ModelTable :=
  let (report, actions) := removed result.value.2
  let report := result.report.append report
  ⟨result.value.1, report,
    result.actions ++ actions ++ [.report (.reconciled report.loaded report.kept report.unloaded
      report.failures.length)], result.next⟩

end Reconcile

def ModelTable.reconcile (factory : BackendFactory) (strict : Bool) (table : ModelTable)
    (next : Nat) (scan : List RepositoryModel) : Outcome ModelTable :=
  Reconcile.complete (Reconcile.models factory strict table .empty next scan)

end InferenceEngine
