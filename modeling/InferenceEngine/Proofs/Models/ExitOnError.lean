import InferenceEngine.Proofs.Models.Failures
import InferenceEngine.Proofs.Models.Mirror
import InferenceEngine.Proofs.Servers.Shutdown

/-!
# Failures as errors

The option to exit on errors decides one thing: whether what has failed to load is the result of a
poll, and of the first load of a server.  All that a poll does is the same without it; a server that
is built with it has all of its models.
-/

namespace InferenceEngine

def Server.exiting (exits : Bool) (s : Server) : Server :=
  { s with options := { s.options with exitOnError := exits } }

namespace Engine

def exiting (e : Engine) (k : Nat) (exits : Bool) : Engine :=
  e.modifyServer k (Server.exiting exits)

variable {e : Engine} {k : Nat} {exits : Bool}

/-!
# The choice is not looked at

What does not hang on the choice is the same of all servers.
-/

theorem server_exiting {α : Type} (f : Server -> α)
    (h : forall s : Server, f (s.exiting exits) = f s) (n : Nat) :
    f ((e.exiting k exits).server n) = f (e.server n) := by
  unfold exiting
  rw [server_modifyServer]
  split
  · rename_i hsame
    rw [h, hsame.1]
  · rfl

theorem state_exiting (n : Nat) : ((e.exiting k exits).server n).state = (e.server n).state :=
  server_exiting Server.state (fun _ => rfl) n

theorem table_exiting (n : Nat) : ((e.exiting k exits).server n).table = (e.server n).table :=
  server_exiting Server.table (fun _ => rfl) n

theorem isReady_exiting (n : Nat) :
    ((e.exiting k exits).server n).isReady = (e.server n).isReady :=
  server_exiting Server.isReady (fun _ => rfl) n

theorem inflight_exiting (n : Nat) :
    ((e.exiting k exits).server n).inflight = (e.server n).inflight :=
  server_exiting Server.inflight (fun _ => rfl) n

theorem serverId_exiting (n : Nat) :
    ((e.exiting k exits).server n).options.serverId = (e.server n).options.serverId :=
  server_exiting (fun s => s.options.serverId) (fun _ => rfl) n

theorem exitTimeout_exiting (n : Nat) :
    ((e.exiting k exits).server n).options.exitTimeout = (e.server n).options.exitTimeout :=
  server_exiting (fun s => s.options.exitTimeout) (fun _ => rfl) n

theorem strictModelConfig_exiting (n : Nat) :
    ((e.exiting k exits).server n).options.strictModelConfig =
      (e.server n).options.strictModelConfig :=
  server_exiting (fun s => s.options.strictModelConfig) (fun _ => rfl) n

theorem modifyServer_server (e : Engine) (n : Nat) (f : Server -> Server) :
    (e.modifyServer n fun _ => f (e.server n)) = e.modifyServer n f := by
  unfold modifyServer
  congr 1
  apply List.ext_getElem?
  intro m
  rw [List.getElem?_modify, List.getElem?_modify]
  by_cases hm : n = m
  · rw [hm]
    cases hs : e.servers[m]? with
    | none => rfl
    | some s => simp [server, List.getD_eq_getElem?_getD, hs]
  · simp [hm]

theorem modifyServer_exiting {f : Server -> Server}
    (h : forall s : Server, f (s.exiting exits) = (f s).exiting exits) (n : Nat) :
    (e.exiting k exits).modifyServer n f = (e.modifyServer n f).exiting k exits := by
  unfold exiting modifyServer
  congr 1
  apply List.ext_getElem?
  intro m
  simp only [List.getElem?_modify]
  cases e.servers[m]? with
  | none => rfl
  | some s =>
      by_cases hk : k = m
      · by_cases hn : n = m
        · simp [hk, hn, h]
        · simp [hn]
      · simp [hk]

/-- A change of one server with its events is the same for either choice if it is so for the server
alone. -/
theorem change_exiting (f : Server -> Server × List Event)
    (h : forall s : Server, f (s.exiting exits) = ((f s).1.exiting exits, (f s).2)) (n : Nat) :
    ((e.exiting k exits).modifyServer n fun _ => (f ((e.exiting k exits).server n)).1).report
        (f ((e.exiting k exits).server n)).2 =
      ((e.modifyServer n fun _ => (f (e.server n)).1).report (f (e.server n)).2).exiting k
        exits := by
  have hevents : (f ((e.exiting k exits).server n)).2 = (f (e.server n)).2 := by
    refine server_exiting (fun s => (f s).2) (fun s => ?_) n
    simp only [h]
  have hserver : (e.exiting k exits).modifyServer n (fun s => (f s).1) =
      (e.modifyServer n fun s => (f s).1).exiting k exits := by
    refine modifyServer_exiting (fun s => ?_) n
    simp only [h]
  rw [modifyServer_server _ n fun s => (f s).1, modifyServer_server _ n fun s => (f s).1, hserver,
    hevents]
  rfl

theorem shutDown_exiting (n : Nat) :
    (e.exiting k exits).shutDown n = (e.shutDown n).exiting k exits := by
  refine change_exiting Server.shutDown (fun s => ?_) n
  by_cases hstate : s.state = .stopped
  · simp [Server.shutDown, Server.exiting, hstate]
  · simp [Server.shutDown, Server.exiting, hstate, Server.id]

theorem askToStop_exiting (n : Nat) :
    (e.exiting k exits).askToStop n = (e.askToStop n).exiting k exits := by
  refine change_exiting Server.askToStop (fun s => ?_) n
  by_cases hstate : s.state = .serving
  · simp [Server.askToStop, Server.exiting, hstate, Server.id]
  · simp [Server.askToStop, Server.exiting, hstate]

theorem settleStop_exiting (n deadline : Nat) :
    (e.exiting k exits).settleStop n deadline = (e.settleStop n deadline).exiting k exits := by
  have hcall : (e.exiting k exits).stopCall n = e.stopCall n := rfl
  have hclock : (e.exiting k exits).clock = e.clock := rfl
  simp only [settleStop, Server.id, hcall, hclock, inflight_exiting, serverId_exiting,
    exitTimeout_exiting, shutDown_exiting]
  split
  · rfl
  · split
    · rfl
    · rfl

theorem runStop_exiting (n : Nat) :
    (e.exiting k exits).runStop n = (e.runStop n).exiting k exits := by
  have hcall : (e.exiting k exits).stopCall n = e.stopCall n := rfl
  have hclock : (e.exiting k exits).clock = e.clock := rfl
  simp only [runStop, hcall, hclock, state_exiting, exitTimeout_exiting, askToStop_exiting]
  split
  · split
    · rfl
    · exact settleStop_exiting n _
  · exact settleStop_exiting n _
  · rfl

theorem abandoned_exiting (n : Nat) :
    (((e.exiting k exits).addStop n).1.runStop ((e.exiting k exits).addStop n).2).setStop
        ((e.exiting k exits).addStop n).2 .abandoned =
      (((e.addStop n).1.runStop (e.addStop n).2).setStop (e.addStop n).2 .abandoned).exiting k
        exits := by
  show (((e.addStop n).1.exiting k exits).runStop _).setStop _ _ = _
  rw [runStop_exiting]
  rfl

theorem perform_exiting (factory : Option BackendFactory) (n : Nat) (a : LoadAction) :
    perform factory (some n) (e.exiting k exits) a =
      (perform factory (some n) e a).exiting k exits := by
  cases a with
  | report event => rfl
  | create config version =>
      cases factory with
      | none => rfl
      | some factory =>
          simp only [perform, Option.map_some, isReady_exiting, table_exiting]
          split
          · exact @abandoned_exiting (e.record _) k exits n
          · rfl

theorem load_exiting (factory : Option BackendFactory) (n : Nat) (actions : List LoadAction) :
    actions.foldl (perform factory (some n)) (e.exiting k exits) =
      (actions.foldl (perform factory (some n)) e).exiting k exits := by
  induction actions generalizing e with
  | nil => rfl
  | cons a rest ih => rw [List.foldl_cons, perform_exiting, ih, List.foldl_cons]

theorem reconcile_exiting (factory : Option BackendFactory) (n : Nat)
    (models : List RepositoryModel) :
    (e.exiting k exits).reconcile factory (some n) ((e.exiting k exits).server n).options
        (e.server n).table models =
      let outcome := e.reconcile factory (some n) (e.server n).options (e.server n).table models
      (outcome.1, outcome.2.1, outcome.2.2.exiting k exits) := by
  simp only [reconcile, strictModelConfig_exiting, load_exiting]
  rfl

theorem poll_exiting (factory : Option BackendFactory) (n : Nat)
    (scan : Except Failure (List RepositoryModel)) :
    ((e.exiting k exits).poll n scan factory).2 = (e.poll n scan factory).2.exiting k exits := by
  simp only [poll, state_exiting, serverId_exiting, table_exiting]
  split
  · rfl
  · cases scan with
    | error failure => rfl
    | ok models =>
        simp only [reconcile_exiting, state_exiting]
        have hinstall : forall (e : Engine) (table : ModelTable),
            (e.exiting k exits).modifyServer n (fun s => { s with table := table }) =
              (e.modifyServer n fun s => { s with table := table }).exiting k exits := by
          intro e table
          refine modifyServer_exiting (fun s => ?_) n
          rfl
        split
        · rfl
        · rw [hinstall]
          split
          · split
            · rfl
            · rfl
          · split
            · rfl
            · rfl

/-!
# What polls and builds return

A poll that gets to its end returns what the failures of the scan amount to.
-/

def resultOf (exits : Bool) (failures : List LoadFailure) : Except Failure Unit :=
  if exits = true ∧ failures ≠ [] then .error (.modelsFailed (failures.map LoadFailure.text))
  else .ok ()

theorem lt_length_of_serving (h : (e.server k).state = .serving) : k < e.servers.length := by
  by_contra hover
  unfold server at h
  rw [List.getD_eq_getElem?_getD, List.getElem?_eq_none (Nat.not_lt.1 hover)] at h
  cases h

theorem filter_failure? (report : ReconcileReport) (exits : Bool) :
    report.failure?.filter (fun _ => exits) =
      if exits = true ∧ report.failures ≠ [] then
        some (.modelsFailed (report.failures.map LoadFailure.text))
      else none := by
  unfold ReconcileReport.failure?
  cases exits with
  | false => cases report.failures <;> simp
  | true => cases report.failures <;> simp

theorem poll_result {factory : Option BackendFactory} {models : List RepositoryModel}
    (h : (e.server k).state = .serving)
    (hrunning : forall done : Nat, ((e.loading k factory models done).server k).state ≠ .stopped) :
    (e.poll k (.ok models) factory).1 =
      resultOf (e.server k).options.exitOnError
        (Reconcile.scanFailures (factory.getD .absent) (e.server k).options.strictModelConfig
          (e.server k).table models) := by
  have hstate : ((e.reconcile factory (some k) (e.server k).options (e.server k).table
      models).2.2.server k).state ≠ .stopped := by
    rw [server_of_servers (e.servers_reconcile k factory models)]
    exact hrunning _
  have hfailures : (e.reconcile factory (some k) (e.server k).options (e.server k).table
      models).2.1.failures =
        Reconcile.scanFailures (factory.getD .absent) (e.server k).options.strictModelConfig
          (e.server k).table models := ModelTable.failures_reconcile _ _ _ _ _
  simp only [poll, if_neg (not_not_intro h), if_neg hstate, filter_failure?, hfailures, resultOf]
  split
  · rename_i failure hsome
    split at hsome
    · rename_i hfails
      cases hsome
      rw [if_pos hfails]
    · cases hsome
  · rename_i hnone
    split at hnone
    · cases hnone
    · rename_i hgood
      rw [if_neg hgood]

/-- A build that gets as far as loading models succeeds if what has failed is not an error. -/
theorem build_result {options : ServerOptions} {allocator : Option Nat}
    {models : List RepositoryModel} {factory : Option BackendFactory}
    (hrunning : e.isRunning = true) (hslots : options.executionSlots ≠ 0) :
    verdict (e.build options allocator (.ok models) factory true).1 =
      resultOf options.exitOnError (Reconcile.scanFailures (factory.getD .absent)
        options.strictModelConfig .empty models) := by
  have hfailures : (e.reconcile factory none options .empty models).2.1.failures =
      Reconcile.scanFailures (factory.getD .absent) options.strictModelConfig .empty models :=
    ModelTable.failures_reconcile _ _ _ _ _
  have hopen : ¬ (!(true && e.isRunning)) = true := by
    rw [hrunning]
    decide
  simp only [build, if_neg hopen, if_neg hslots, filter_failure?, hfailures, resultOf]
  split
  · rename_i failure hsome
    split at hsome
    · rename_i hfails
      cases hsome
      rw [if_pos hfails]
      rfl
    · cases hsome
  · rename_i hnone
    split at hnone
    · cases hnone
    · rename_i hgood
      rw [if_neg hgood]
      rfl

theorem table_build {options : ServerOptions} {allocator : Option Nat}
    {models : List RepositoryModel} {factory : Option BackendFactory} {isInside : Bool} {n : Nat}
    (h : (e.build options allocator (.ok models) factory isInside).1 = .ok n) :
    ((e.build options allocator (.ok models) factory isInside).2.server n).table =
      (ModelTable.reconcile (factory.getD .absent) options.strictModelConfig .empty e.stats.length
        models).value := by
  rcases build_eq_ok h with ⟨e', a, events, _, _, hn, hbuilt⟩
  rw [hbuilt]
  show ((e'.addServer options a _).server n).table = _
  rw [server_addServer, if_pos hn]
  rfl

/-- Whether a result is an error exactly if failures are to be errors and something of a scan has
failed.  The error is unavailable then and names all failures, in the order of the scan. -/
structure Obeys {α : Type} (result : Except Failure α) (exits : Bool) (factory : BackendFactory)
    (strict : Bool) (table : ModelTable) (scan : List RepositoryModel) : Prop where
  error_iff : (exists failure : Failure, result = .error failure) ↔
    exits = true ∧ exists (before : List RepositoryModel) (m : RepositoryModel)
      (after : List RepositoryModel), scan = before ++ m :: after ∧
        Reconcile.Fails factory strict (Reconcile.takenOver table before m) m
  names : forall failure : Failure, result = .error failure -> failure.code = .unavailable ∧
    failure.message = "failed to load models: " ++ "; ".intercalate
      ((Reconcile.scanFailures factory strict table scan).map LoadFailure.text)

theorem obeys_of_verdict {α : Type} {result : Except Failure α} {factory : BackendFactory}
    {strict : Bool} {table : ModelTable} {scan : List RepositoryModel}
    (h : verdict result = resultOf exits (Reconcile.scanFailures factory strict table scan)) :
    Obeys result exits factory strict table scan := by
  unfold resultOf at h
  constructor
  · rw [← Reconcile.scanFailures_ne_nil_iff]
    split at h
    · rename_i hfails
      exact ⟨fun _ => hfails, fun _ => ⟨_, verdict_eq_error h⟩⟩
    · rename_i hgood
      refine ⟨?_, fun hfails => absurd hfails hgood⟩
      rintro ⟨failure, hfailure⟩
      rw [hfailure] at h
      cases h
  · intro failure hfailure
    split at h
    · cases hfailure.symm.trans (verdict_eq_error h)
      exact ⟨rfl, rfl⟩
    · rw [hfailure] at h
      cases h

/-- Whatever an engine has come to.  A server that does not serve refuses a poll as unavailable, and
a scan that fails is the result of a poll; neither changes anything, nor does a factory have a say.
Else, unless the server stops over it, a poll installs the reconciled table; all that it does is the
same whether failures are errors or not, and its result obeys the option.  So does the result of a
build, and with the option a server that has been built has everything ready that is listed. -/
theorem failures_are_errors_on_request (e : Engine) :
    (forall k : Nat, (e.server k).state ≠ .serving -> exists failure : Failure,
      failure.code = .unavailable ∧ forall (scan : Except Failure (List RepositoryModel))
        (factory : Option BackendFactory), e.poll k scan factory = (.error failure, e)) ∧
    (forall (k : Nat) (failure : Failure), (e.server k).state = .serving ->
      forall factory : Option BackendFactory,
        e.poll k (.error failure) factory = (.error failure, e)) ∧
    (forall (k : Nat) (exits : Bool) (scan : Except Failure (List RepositoryModel))
      (factory : Option BackendFactory),
        ((e.exiting k exits).poll k scan factory).2 = (e.poll k scan factory).2.exiting k exits) ∧
    (forall (k : Nat) (models : List RepositoryModel) (factory : Option BackendFactory),
      (e.server k).state = .serving ->
      (forall done : Nat, ((e.loading k factory models done).server k).state ≠ .stopped) ->
        ((e.poll k (.ok models) factory).2.server k).table = e.loadedTable k factory models ∧
        Obeys (e.poll k (.ok models) factory).1 (e.server k).options.exitOnError
          (factory.getD .absent) (e.server k).options.strictModelConfig (e.server k).table
          models) ∧
    forall (options : ServerOptions) (allocator : Option Nat) (factory : Option BackendFactory),
      e.isRunning = true -> options.executionSlots ≠ 0 ->
        (forall failure : Failure,
          e.build options allocator (.error failure) factory true = (.error failure, e)) ∧
        forall models : List RepositoryModel,
          let built := e.build options allocator (.ok models) factory true
          Obeys built.1 options.exitOnError (factory.getD .absent) options.strictModelConfig .empty
              models ∧
            forall n : Nat, built.1 = .ok n ->
              (built.2.server n).table = (ModelTable.reconcile (factory.getD .absent)
                options.strictModelConfig .empty e.stats.length models).value ∧
              (options.exitOnError = true -> Reconcile.Loaded (factory.getD .absent)
                options.strictModelConfig models (built.2.server n).table) := by
  refine ⟨?_, ?_, ?_, ?_, ?_⟩
  · intro k hstate
    exact ⟨.notServing (e.server k).options.serverId, rfl, fun scan factory => if_pos hstate⟩
  · intro k failure hstate factory
    exact if_neg (not_not_intro hstate)
  · exact fun k exits scan factory => poll_exiting factory k scan
  · intro k models factory hserving hrunning
    constructor
    · rw [poll_of_running (lt_length_of_serving hserving) hserving hrunning]
    · apply obeys_of_verdict
      rw [verdict_unit]
      exact poll_result hserving hrunning
  · intro options allocator factory hrunning hslots
    have hopen : ¬ (!(true && e.isRunning)) = true := by
      rw [hrunning]
      decide
    constructor
    · intro failure
      exact (if_neg hopen).trans (if_neg hslots)
    · intro models
      have hobeys := obeys_of_verdict (@build_result e options allocator models factory hrunning
        hslots)
      refine ⟨hobeys, fun n hn => ?_⟩
      have htable := table_build hn
      refine ⟨htable, fun hexits => ?_⟩
      rw [htable]
      apply Reconcile.loaded_of_scanFailures
      by_contra hfails
      rcases hobeys.error_iff.2 ⟨hexits, Reconcile.scanFailures_ne_nil_iff.1 hfails⟩ with
        ⟨failure, hfailure⟩
      cases hn.symm.trans hfailure

/-- One version of the first model and the configuration of the second one fail, in this order; the
server gets the versions that are ready all the same.  A build with versions that can be loaded gets
them all. -/
theorem failures_of_mixedScan :
    ((reached copyRun).server 0).state = .serving ∧
    ((reached copyRun).server 0).options.exitOnError = true ∧
    Reconcile.scanFailures firstVersions true ((reached copyRun).server 0).table mixedScan =
      [⟨"copy", some 3, .noBackend "copy"⟩, ⟨"bare", none, .missingTensors "bare"⟩] ∧
    (exists failure : Failure,
      ((reached copyRun).poll 0 (.ok mixedScan) (some firstVersions)).1 = .error failure ∧
        failure.code = .unavailable) ∧
    (((reached copyRun).poll 0 (.ok mixedScan) (some firstVersions)).2.server 0).table =
      (reached copyRun).loadedTable 0 (some firstVersions) mixedScan ∧
    exists n : Nat, ((reached copyRun).build { ServerOptions.default with executionSlots := 1 } none
        (.ok [⟨copyModel, [2, 1]⟩]) (some firstVersions) true).1 = .ok n ∧
      Reconcile.Loaded firstVersions true [⟨copyModel, [2, 1]⟩]
        (((reached copyRun).build { ServerOptions.default with executionSlots := 1 } none
          (.ok [⟨copyModel, [2, 1]⟩]) (some firstVersions) true).2.server n).table := by
  rcases failures_are_errors_on_request (reached copyRun) with ⟨_, _, _, hpolls, hbuilds⟩
  have hserving : ((reached copyRun).server 0).state = .serving := rfl
  have hnever := @loading_ne_stopped (reached copyRun) 0 (some firstVersions) mixedScan
    (lt_length_of_serving hserving) (by decide)
  rcases hpolls 0 mixedScan (some firstVersions) hserving hnever with ⟨htable, hobeys⟩
  have hfailures : Reconcile.scanFailures firstVersions true ((reached copyRun).server 0).table
      mixedScan = [⟨"copy", some 3, .noBackend "copy"⟩, ⟨"bare", none, .missingTensors "bare"⟩] :=
    rfl
  have hne : Reconcile.scanFailures firstVersions true ((reached copyRun).server 0).table
      mixedScan ≠ [] := by
    rw [hfailures]
    exact List.cons_ne_nil _ _
  rcases hobeys.error_iff.2 ⟨rfl, Reconcile.scanFailures_ne_nil_iff.1 hne⟩ with
    ⟨failure, hfailure⟩
  rcases hbuilds { ServerOptions.default with executionSlots := 1 } none (some firstVersions) rfl
    (by decide) with ⟨_, hbuilt⟩
  exact ⟨hserving, rfl, hfailures, ⟨failure, hfailure, (hobeys.names failure hfailure).1⟩, htable,
    1, rfl, ((hbuilt [⟨copyModel, [2, 1]⟩]).2 1 rfl).2 rfl⟩

end Engine

end InferenceEngine
