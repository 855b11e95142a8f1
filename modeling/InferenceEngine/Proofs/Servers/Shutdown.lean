import InferenceEngine.Engine.Report
import InferenceEngine.Proofs.Requests.Acceptance
import InferenceEngine.Proofs.Servers.Steps

/-!
# Servers that have stopped

A reconciliation works on a copy of the table and puts the new one in at its end.  A factory that
it calls may stop the server meanwhile, and then the new table is thrown away; a server that is
merely asked to stop still gets it.  Either way a server that has stopped has no models, at the end
of an operation and in the middle of one, and it does not get any again.
-/

namespace InferenceEngine

namespace Engine

/-!
# The middle of a poll

In the course of a poll the server does not turn back.
-/

/-- All that a reconciliation does while a server is being polled. -/
def loadActions (e : Engine) (k : Nat) (factory : Option BackendFactory)
    (models : List RepositoryModel) : List LoadAction :=
  ((e.server k).table.reconcile (factory.getD .absent) (e.server k).options.strictModelConfig
    e.stats.length models).actions

def loadedTable (e : Engine) (k : Nat) (factory : Option BackendFactory)
    (models : List RepositoryModel) : ModelTable :=
  ((e.server k).table.reconcile (factory.getD .absent) (e.server k).options.strictModelConfig
    e.stats.length models).value

/-- The engine while a server is being polled, after so many of the actions. -/
def loading (e : Engine) (k : Nat) (factory : Option BackendFactory)
    (models : List RepositoryModel) (done : Nat) : Engine :=
  ((e.loadActions k factory models).take done).foldl (perform factory (some k)) e

/-- A moment that an engine can come to: after operations, or, after operations, in the middle of
a poll. -/
inductive Later (e : Engine) : Engine -> Prop where
  | after (ops : List Operation) : Later e (e.after ops)
  | loading (ops : List Operation) (k : Nat) (factory : Option BackendFactory)
      (models : List RepositoryModel) (done : Nat)
      (h : ((e.after ops).server k).state = .serving) :
      Later e ((e.after ops).loading k factory models done)

variable {e : Engine} {k : Nat} {factory : Option BackendFactory} {models : List RepositoryModel}

theorem tends_loading (e : Engine) (k : Nat) (factory : Option BackendFactory)
    (models : List RepositoryModel) (done : Nat) : e.Tends (e.loading k factory models done) :=
  tends_load factory (some k) _ e

theorem loading_add (done more : Nat) :
    e.loading k factory models (done + more) =
      (((e.loadActions k factory models).drop done).take more).foldl
        (perform factory (some k)) (e.loading k factory models done) := by
  unfold loading
  rw [List.take_add, List.foldl_append]

theorem rank_loading_le (factory : Option BackendFactory) (models : List RepositoryModel)
    (hk : k < e.servers.length) (done more : Nat) :
    ((e.loading k factory models done).server k).state.rank ≤
      ((e.loading k factory models (done + more)).server k).state.rank := by
  have hlater : (e.loading k factory models done).Tends
      (e.loading k factory models (done + more)) := by
    rw [loading_add]
    exact tends_load factory (some k) _ _
  have hlt := Nat.lt_of_lt_of_le hk (tends_loading e k factory models done).length
  exact (hlater.server k hlt).rank_le

theorem loading_of_le {done : Nat} (h : (e.loadActions k factory models).length ≤ done) :
    e.loading k factory models done =
      (e.loadActions k factory models).foldl (perform factory (some k)) e := by
  unfold loading
  rw [List.take_of_length_le h]

/-- A server that has not stopped at the end of a poll has not stopped in the middle of it. -/
theorem loading_ne_stopped (hk : k < e.servers.length)
    (h : (((e.loadActions k factory models).foldl (perform factory (some k)) e).server k).state ≠
      .stopped) (done : Nat) : ((e.loading k factory models done).server k).state ≠ .stopped := by
  intro hstopped
  have hrank := rank_loading_le factory models hk done
    (e.loadActions k factory models).length
  rw [loading_of_le (Nat.le_add_left _ _)] at hrank
  exact h (Server.stopped_of_rank_le hrank hstopped)

theorem Later.tends {e e' : Engine} (h : e.Later e') : e.Tends e' := by
  cases h with
  | after ops => exact tends_after e ops
  | loading ops k factory models done _ =>
      exact (tends_after e ops).trans (tends_loading _ k factory models done)

/-!
# The end of a poll

A server that stops in the middle of a poll does not get the new table.
-/

theorem servers_reconcile (e : Engine) (k : Nat) (factory : Option BackendFactory)
    (models : List RepositoryModel) :
    (e.reconcile factory (some k) (e.server k).options (e.server k).table models).2.2.servers =
      (e.loading k factory models (e.loadActions k factory models).length).servers := by
  rw [loading_of_le (Nat.le_refl _)]
  rfl

theorem poll_of_stopped (hk : k < e.servers.length) (h : (e.server k).state = .serving)
    {done : Nat} (hstopped : ((e.loading k factory models done).server k).state = .stopped) :
    (e.poll k (.ok models) factory).1 =
        .error (.stoppedWhileLoading (e.server k).options.serverId) ∧
      ((e.poll k (.ok models) factory).2.server k).state = .stopped := by
  have hservers := e.servers_reconcile k factory models
  have hend : ((e.loading k factory models (e.loadActions k factory models).length).server
      k).state = .stopped := by
    have hrank := rank_loading_le factory models hk done (e.loadActions k factory models).length
    rw [loading_of_le (Nat.le_add_left _ _)] at hrank
    rw [loading_of_le (Nat.le_refl _)]
    exact Server.stopped_of_rank_le hrank hstopped
  simp only [poll]
  split
  · rename_i hstate
    exact absurd h hstate
  · split
    · rename_i hstate
      exact ⟨rfl, hstate⟩
    · rename_i hstate
      rw [server_of_servers hservers] at hstate
      exact absurd hend hstate

/-- A server that does not stop in the middle of a poll gets it, however far it has come. -/
theorem poll_of_running (hk : k < e.servers.length) (h : (e.server k).state = .serving)
    (hrunning : forall done : Nat, ((e.loading k factory models done).server k).state ≠ .stopped) :
    (e.poll k (.ok models) factory).2.server k =
      { (e.loading k factory models (e.loadActions k factory models).length).server k with
        table := e.loadedTable k factory models } := by
  have hservers := e.servers_reconcile k factory models
  have hlength := Nat.lt_of_lt_of_le hk
    (tends_loading e k factory models (e.loadActions k factory models).length).length
  simp only [poll]
  split
  · rename_i hstate
    exact absurd h hstate
  · split
    · rename_i hstate
      rw [server_of_servers hservers] at hstate
      exact absurd hstate (hrunning _)
    · have hset : ((e.reconcile factory (some k) (e.server k).options (e.server k).table
          models).2.2.modifyServer k fun s =>
            { s with table := e.loadedTable k factory models }).server k =
          { (e.loading k factory models (e.loadActions k factory models).length).server k with
            table := e.loadedTable k factory models } := by
        rw [server_modifyServer, server_of_servers hservers, hservers, if_pos ⟨rfl, hlength⟩]
      split <;> exact hset

/-!
# Deserted servers

A server that has stopped stays so, with all that follows from it.
-/

/-- Whether a server has stopped and knows no model: it is not ready, and whoever asks for a model
is told that there is none. -/
structure IsDeserted (e : Engine) (k : Nat) : Prop where
  stopped : (e.server k).state = .stopped
  table : (e.server k).table = .empty
  ready : (e.server k).isReady = false
  status : forall name : String, exists failure : Failure,
    e.modelStatus k name = .error failure ∧ failure.code = .notFound
  provider : forall (name : String) (choice : VersionChoice) (header : RequestHeader),
    exists failure : Failure,
      e.provider k name choice header = .error failure ∧ failure.code = .notFound

theorem isDeserted_of_stopped (h : (e.server k).IsCleared)
    (hstopped : (e.server k).state = .stopped) : e.IsDeserted k := by
  have htable := h hstopped
  constructor
  · exact hstopped
  · exact htable
  · unfold Server.isReady
    rw [hstopped]
    rfl
  · intro name
    refine ⟨.unknownModel name, ?_, rfl⟩
    unfold Engine.modelStatus Server.modelStatus
    rw [htable]
    rfl
  · intro name choice header
    refine ⟨.unknownModel name, ?_, rfl⟩
    unfold Engine.provider
    rw [htable]
    rfl

theorem Tends.isDeserted {e e' : Engine} (h : empty.Tends e) (k : e.Tends e') {n : Nat}
    (hn : n < e.servers.length) (hstopped : (e.server n).state = .stopped) : e'.IsDeserted n :=
  isDeserted_of_stopped ((h.trans k).isCleared n)
    (Server.stopped_of_rank_le (k.server n hn).rank_le hstopped)

/-- After any run: a server that has stopped is deserted at each later moment.  If it stops while
it is being polled, however far that has got, the poll fails as unavailable, and the server is
deserted from then on; else it gets the new table, even if it has been asked to stop meanwhile, and
once it has stopped it is deserted all the same. -/
theorem stopped_server_is_deserted (ops : List Operation) (k : Nat)
    (hk : k < (reached ops).servers.length) :
    (((reached ops).server k).state = .stopped ->
      forall e, (reached ops).Later e -> e.IsDeserted k) ∧
    forall (factory : Option BackendFactory) (models : List RepositoryModel),
      ((reached ops).server k).state = .serving ->
        let polled := (reached ops).poll k (.ok models) factory
        ((exists done : Nat,
            (((reached ops).loading k factory models done).server k).state = .stopped) ->
          (exists failure : Failure, polled.1 = .error failure ∧ failure.code = .unavailable) ∧
            forall e, polled.2.Later e -> e.IsDeserted k) ∧
        ((forall done : Nat,
            (((reached ops).loading k factory models done).server k).state ≠ .stopped) ->
          (polled.2.server k).table = (reached ops).loadedTable k factory models ∧
            (polled.2.server k).state ≠ .stopped ∧
            ((exists done : Nat,
                (((reached ops).loading k factory models done).server k).state = .stopping) ->
              (polled.2.server k).state = .stopping) ∧
            forall e, polled.2.Later e -> (e.server k).state = .stopped -> e.IsDeserted k) := by
  have hreached := tends_reached ops
  constructor
  · intro hstopped e he
    exact hreached.isDeserted he.tends hk hstopped
  · intro factory models hserving
    have hpoll := tends_poll (reached ops) k (.ok models) factory
    constructor
    · rintro ⟨done, hstopped⟩
      rcases poll_of_stopped hk hserving hstopped with ⟨hresult, hstate⟩
      constructor
      · exact ⟨_, hresult, rfl⟩
      · intro e he
        exact (hreached.trans hpoll).isDeserted he.tends (Nat.lt_of_lt_of_le hk hpoll.length)
          hstate
    · intro hnever
      have hserver := poll_of_running hk hserving hnever
      have hstate : (((reached ops).poll k (.ok models) factory).2.server k).state ≠ .stopped := by
        rw [hserver]
        exact hnever _
      refine ⟨by rw [hserver], hstate, ?_, ?_⟩
      · rintro ⟨done, hstopping⟩
        have hrank := rank_loading_le factory models hk done
          ((reached ops).loadActions k factory models).length
        rw [loading_of_le (Nat.le_add_left _ _)] at hrank
        rw [loading_of_le (Nat.le_refl _)] at hserver
        exact Server.stopping_of_rank_le (by rw [hserver]; exact hrank) hstopping hstate
      · intro e he hstopped
        exact isDeserted_of_stopped (((hreached.trans hpoll).trans he.tends).isCleared k) hstopped

def stoppingFactory : BackendFactory := fun _ _ => ⟨true, .ok Identity.backend⟩

/-- A server that has nothing in flight stops when its factory asks for that; one that has a request
in flight is asked to stop, and gets its table. -/
theorem polls_of_copyRun :
    0 < (reached copyRun).servers.length ∧
    (exists failure : Failure,
      ((reached copyRun).poll 0 (.ok [⟨copyModel, [1, 2]⟩]) (some stoppingFactory)).1 =
        .error failure ∧ failure.code = .unavailable) ∧
    0 < (reached (answeredRun.take 2)).servers.length ∧
    (((reached (answeredRun.take 2)).poll 0 (.ok [⟨copyModel, [2]⟩])
      (some stoppingFactory)).2.server 0).state = .stopping ∧
    (((reached (answeredRun.take 2)).poll 0 (.ok [⟨copyModel, [2]⟩])
      (some stoppingFactory)).2.server 0).table =
        (reached (answeredRun.take 2)).loadedTable 0 (some stoppingFactory) [⟨copyModel, [2]⟩] := by
  have hidle : 0 < (reached copyRun).servers.length := by decide
  have hbusy : 0 < (reached (answeredRun.take 2)).servers.length := by decide
  have hstops := ((stopped_server_is_deserted copyRun 0 hidle).2 (some stoppingFactory)
    [⟨copyModel, [1, 2]⟩] rfl).1 ⟨1, rfl⟩
  have hgoes := ((stopped_server_is_deserted (answeredRun.take 2) 0 hbusy).2
    (some stoppingFactory) [⟨copyModel, [2]⟩] rfl).2
  have hnever : forall done : Nat, (((reached (answeredRun.take 2)).loading 0
      (some stoppingFactory) [⟨copyModel, [2]⟩] done).server 0).state ≠ .stopped := by
    exact loading_ne_stopped hbusy (by decide)
  rcases hgoes hnever with ⟨htable, _, hstopping, _⟩
  exact ⟨hidle, hstops.1, hbusy, hstopping ⟨1, rfl⟩, htable⟩

end Engine

end InferenceEngine
