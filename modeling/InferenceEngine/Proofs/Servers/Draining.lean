import InferenceEngine.Proofs.Runs.Progress
import InferenceEngine.Proofs.Servers.Shutdown

/-!
# Servers that are being stopped

From the moment at which a call looks at a server for the first time, the server takes no more
requests.  The call returns with a stopped server: either nothing is in flight any more, or the
time is over.  The requests that are left over are not touched, and whoever picks the jobs, they
come to their end.
-/

namespace InferenceEngine

namespace Engine

/-!
# Refusals

A call that has not looked at its server before does not leave it serving.
-/

theorem submit_of_not_serving {e : Engine} {k : Nat} (h : (e.server k).state ≠ .serving)
    (provider : Provider) (callback : Nat) : exists failure : Failure,
      e.submit k provider callback = (.error failure, e) := by
  unfold submit
  split
  · exact ⟨_, rfl⟩
  · exact ⟨_, rfl⟩

theorem not_serving_runStop {e : Engine} {n : Nat} (hn : (e.stopCall n).phase = .pending)
    (hlength : (e.stopCall n).server < e.servers.length) :
    ((e.runStop n).server (e.stopCall n).server).state ≠ .serving := by
  by_cases hstate : (e.server (e.stopCall n).server).state = .stopped
  · have hrun : e.runStop n = e.setStop n (.finished (.ok ())) := by
      simp only [runStop, hn]
      rw [if_pos hstate]
    have hsame : (e.runStop n).server (e.stopCall n).server =
        e.server (e.stopCall n).server := by
      rw [hrun]
      rfl
    rw [hsame, hstate]
    decide
  · have hrun : e.runStop n = (e.askToStop (e.stopCall n).server).settleStop n
        (e.clock + (e.server (e.stopCall n).server).options.exitTimeout) := by
      simp only [runStop, hn]
      rw [if_neg hstate]
    have hasked : ((e.askToStop (e.stopCall n).server).server (e.stopCall n).server).state ≠
        .serving := by
      rw [server_askToStop]
      exact (e.server (e.stopCall n).server).askToStop_not_serving
    have hlasts : (e.stopCall n).server < (e.askToStop (e.stopCall n).server).servers.length := by
      rw [(manages_askToStop e _).length]
      exact hlength
    rw [hrun]
    exact Server.not_serving_of_rank_le
      ((tends_settleStop (e.askToStop (e.stopCall n).server) n _).server _ hlasts).rank_le hasked

/-- A factory that stops the server which it loads a model for does not leave it serving. -/
theorem not_serving_perform {e : Engine} {k : Nat} (hk : k < e.servers.length)
    {factory : BackendFactory} {config : ModelConfig} {version : Int}
    (hstops : (factory config version).stops = true) :
    ((perform (some factory) (some k) e (.create config version)).server k).state ≠ .serving := by
  simp only [perform, Option.map_some]
  rw [if_pos hstops]
  have hcall : forall e : Engine, (e.addStop k).1.stopCall e.stops.length = ⟨k, .pending⟩ := by
    intro e
    rw [stopCall_addStop, if_pos rfl]
  have hrun : forall e : Engine, k < e.servers.length ->
      (((e.addStop k).1.runStop e.stops.length).server k).state ≠ .serving := by
    intro e hk
    have hlooked := not_serving_runStop (e := (e.addStop k).1) (n := e.stops.length)
    rw [hcall e] at hlooked
    exact hlooked rfl hk
  exact hrun (e.record (.create config version
    (some ((e.server k).isReady, (e.server k).table.contains config.name)))) hk

/-!
# Stops in a run
-/

/-- In every run, with any calls that stop servers, given up or not, and servers that are let go:
a server never turns back.  Once it does not serve any more, which is so from the first look of a
call on, it refuses all requests and its count does not rise.  A call that has ended has ended with
a stopped server; one that began when the server had stopped has changed nothing, and any other has
either found nothing in flight, or has waited for its time and tells how many requests it found.
Stopping a server, giving a call up and letting a server go leave all requests alone, and once the
gate is closed, these are called back once, whoever picks the jobs, and executed unless their tasks
panic. -/
theorem stops_in_run (ops : List Operation) (k : Nat) (hk : k < (reached ops).servers.length) :
    (forall e : Engine, (reached ops).Later e ->
      ((reached ops).server k).state.rank ≤ (e.server k).state.rank ∧
      (((reached ops).server k).state ≠ .serving ->
        (e.server k).state ≠ .serving ∧
        (e.server k).inflight ≤ ((reached ops).server k).inflight ∧
        forall (provider : Provider) (callback : Nat), exists failure : Failure,
          e.submit k provider callback = (.error failure, e))) ∧
    (forall (i n : Nat) (start : Engine), BeginsAt ops i n start ->
      (start.stopCall n).server = k -> k < start.servers.length ->
        ((reached (ops.take (i + 1))).server k).state ≠ .serving) ∧
    (forall (factory : BackendFactory) (config : ModelConfig) (version : Int),
      (factory config version).stops = true ->
        ((perform (some factory) (some k) (reached ops)
          (.create config version)).server k).state ≠ .serving) ∧
    (forall (n : Nat) (result : Except Failure Unit),
      ((reached ops).stopCall n).phase = .finished result -> Returns ops n result) ∧
    (forall n : Nat, (reached ops).Manages ((reached ops).runStop n) ∧
      (reached ops).Manages ((reached ops).abandonStop n) ∧
      (reached ops).Manages ((reached ops).dropServer n)) ∧
    forall pick : Engine -> Nat, Picks pick ->
      let last := runTurns pick (reached ops).closeGate.work (reached ops).closeGate
      last.queue = [] ∧ last.submissions.length = (reached ops).submissions.length ∧
        forall m : Nat, m < (reached ops).submissions.length ->
          (last.submission m).phase.isOpen = false ∧ last.timesCalled m = 1 ∧
            (((reached ops).submission m).phase.isOpen = true -> exists c : Completion,
              c ∈ last.completions ∧ c.submission = m ∧
                (c.isExecuted = true ∨ last.hasPanicked m)) := by
  refine ⟨?_, ?_, ?_, ?_, ?_, ?_⟩
  · intro e he
    have hsteps := he.tends.server k hk
    refine ⟨hsteps.rank_le, ?_⟩
    intro hstate
    rcases hsteps.inflight_le hstate with ⟨hrefuses, hinflight⟩
    exact ⟨hrefuses, hinflight, submit_of_not_serving hrefuses⟩
  · intro i n start hbegins hserver hlength
    have hlooked := not_serving_runStop hbegins.2 (by rw [hserver]; exact hlength)
    rw [hserver] at hlooked
    rw [hbegins.1.reached_eq]
    exact hlooked
  · intro factory config version hstops
    exact not_serving_perform hk hstops
  · intro n result hphase
    have haccount := isAccountedFor ops n
    unfold IsAccountedFor at haccount
    rw [hphase] at haccount
    exact haccount
  · intro n
    exact ⟨manages_runStop _ n, manages_abandonStop _ n, manages_dropServer _ n⟩
  · intro pick hpick
    exact all_called_back ops hpick

/-- A request is accepted, and a call that stops its server does not wait for it any longer. -/
def drainedRun : List Operation :=
  answeredRun.take 2 ++ [.callStop 0, .tick 30 .zero, .wakeStop 0, .runAt 0]

theorem stops_of_drainedRun :
    0 < (reached drainedRun).servers.length ∧
    ((reached drainedRun).server 0).state = .stopped ∧
    ((reached drainedRun).stopCall 0).phase = .finished (.error (.stillInFlight 1 30)) ∧
    Returns drainedRun 0 (.error (.stillInFlight 1 30)) ∧
    Picks (fun _ => 0) ∧
    let last := runTurns (fun _ => 0) (reached drainedRun).closeGate.work
      (reached drainedRun).closeGate
    exists c : Completion, c ∈ last.completions ∧ c.submission = 0 ∧
      (c.isExecuted = true ∨ last.hasPanicked 0) := by
  have hlength : 0 < (reached drainedRun).servers.length := by decide
  have hphase : ((reached drainedRun).stopCall 0).phase =
      .finished (.error (.stillInFlight 1 30)) := rfl
  have hpick : Picks fun _ => 0 := fun _ hqueue => List.length_pos_of_ne_nil hqueue
  rcases stops_in_run drainedRun 0 hlength with ⟨_, _, _, hreturns, _, hlast⟩
  rcases hlast _ hpick with ⟨_, _, hcalled⟩
  exact ⟨hlength, rfl, hphase, hreturns 0 _ hphase, hpick, (hcalled 0 (by decide)).2.2 rfl⟩

end Engine

end InferenceEngine
