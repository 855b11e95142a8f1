import InferenceEngine.Engine.Stop

/-!
# Loading models

A server loads the models of its repository when it is built, and again whenever it is
polled. A factory may stop the very server that is being polled; a server that has been
stopped so does not get the new table.
-/

namespace InferenceEngine.Engine

/-!
# Reconciling
-/

/-- Does one of the things that a reconciliation does, for a server that is being polled or
for one that is being built. -/
def perform (factory : Option BackendFactory) (polled : Option Nat) (e : Engine) :
    LoadAction -> Engine
  | .report event => e.report [event]
  | .create config version =>
    match factory with
    | none => e
    | some factory =>
      let e := e.record (.create config version (polled.map fun n =>
        ((e.server n).isReady, (e.server n).table.contains config.name)))
      match polled with
      | some n =>
        if (factory config version).stops then
          let (e, call) := e.addStop n
          (e.runStop call).setStop call .abandoned
        else e
      | none => e

/-- Makes room for the counters of all loaded models below a number. -/
def addStats (e : Engine) (next : Nat) : Engine :=
  { e with stats := e.stats ++ List.replicate (next - e.stats.length) .zero }

/-- Reconciles a table with the models of a repository. -/
def reconcile (e : Engine) (factory : Option BackendFactory) (polled : Option Nat)
    (options : ServerOptions) (table : ModelTable) (models : List RepositoryModel) :
    ModelTable × ReconcileReport × Engine :=
  let outcome := table.reconcile (factory.getD .absent) options.strictModelConfig
    e.stats.length models
  (outcome.value, outcome.report,
    (outcome.actions.foldl (perform factory polled) e).addStats outcome.next)

/-!
# Building
-/

def addServer (e : Engine) (options : ServerOptions) (allocator : Nat) (table : ModelTable) :
    Engine :=
  { e with
    servers := e.servers ++ [{ Server.new options allocator e.readings with table := table }] }

/-- Builds a server with the models that a scan of its repository has found. Without an
allocator it gets one with the pools of its options. The number of the server is given
back. -/
def build (e : Engine) (options : ServerOptions) (allocator : Option Nat)
    (scan : Except Failure (List RepositoryModel)) (factory : Option BackendFactory)
    (isInside : Bool) : Except Failure Nat × Engine :=
  if !(isInside && e.isRunning) then (.error .outsideRuntime, e)
  else if options.executionSlots = 0 then (.error .noSlots, e)
  else
    match scan with
    | .error failure => (.error failure, e)
    | .ok models =>
      let (table, report, e) := e.reconcile factory none options .empty models
      match report.failure?.filter fun _ => options.exitOnError with
      | some failure =>
        (.error failure, e.report [.initialLoadFailed options.serverId failure])
      | none =>
        let (e, allocator) := match allocator with
          | some allocator => (e, allocator)
          | none => e.addAllocator (.pooled (.new options.memory))
        let n := e.servers.length
        (.ok n, (e.addServer options allocator table).report
          [.serving options.serverId report.loaded options.executionSlots])

/-!
# Polling
-/

/-- Brings the models of a server in line with a scan of its repository. -/
def poll (e : Engine) (n : Nat) (scan : Except Failure (List RepositoryModel))
    (factory : Option BackendFactory) : Except Failure Unit × Engine :=
  let options := (e.server n).options
  if (e.server n).state ≠ .serving then (.error (.notServing options.serverId), e)
  else
    match scan with
    | .error failure => (.error failure, e)
    | .ok models =>
      let (table, report, e) :=
        e.reconcile factory (some n) options (e.server n).table models
      if (e.server n).state = .stopped then
        (.error (.stoppedWhileLoading options.serverId), e)
      else
        let e := (e.modifyServer n fun s => { s with table := table }).report
          [.polled options.serverId report.loaded report.kept report.unloaded
            report.failures.length]
        match report.failure?.filter fun _ => options.exitOnError with
        | some failure => (.error failure, e)
        | none => (.ok (), e)

end InferenceEngine.Engine
