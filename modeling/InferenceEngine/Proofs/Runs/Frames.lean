import InferenceEngine.Proofs.Runs.Operations

/-!
# Frames

What the functions of the engine leave alone, as equations between engines.  Looking after servers
leaves alone all that is about requests and memory; answering requests leaves alone the files, the
gate and the calls that stop servers.
-/

namespace InferenceEngine

/-- Nothing has changed of a server but its state, its models, its handles and its owner. -/
def Server.Alters (s s' : Server) : Prop :=
  s' = { s with
    state := s'.state, table := s'.table, registry := s'.registry, isKept := s'.isKept }

theorem Server.alters_isKept (s : Server) (isKept : Bool) : s.Alters { s with isKept := isKept } :=
  rfl

theorem Server.alters_table (s : Server) (table : ModelTable) :
    s.Alters { s with table := table } :=
  rfl

theorem Server.alters_registry (s : Server) (registry : Registry) :
    s.Alters { s with registry := registry } :=
  rfl

theorem Server.alters_shutDown (s : Server) : s.Alters s.shutDown.1 := by
  unfold shutDown
  split <;> rfl

theorem Server.alters_askToStop (s : Server) : s.Alters s.askToStop.1 := by
  unfold askToStop
  split <;> rfl

namespace Engine

theorem server_of_servers {e e' : Engine} (h : e'.servers = e.servers) (k : Nat) :
    e'.server k = e.server k := by
  unfold server
  rw [h]

theorem submission_of_submissions {e e' : Engine} (h : e'.submissions = e.submissions) (n : Nat) :
    e'.submission n = e.submission n := by
  unfold submission
  rw [h]

/-!
# Looking after servers
-/

/-- Nothing but servers and what is put on record about them has changed. -/
structure Manages (e e' : Engine) : Prop where
  rest : e' = { e with
    servers := e'.servers, stops := e'.stops, stats := e'.stats, events := e'.events,
    calls := e'.calls }
  length : e'.servers.length = e.servers.length
  server : forall k : Nat, (e.server k).Alters (e'.server k)

namespace Manages

variable {e middle e' : Engine}

theorem of_servers (hservers : e'.servers = e.servers)
    (hrest : e' = { e with
      servers := e'.servers, stops := e'.stops, stats := e'.stats, events := e'.events,
      calls := e'.calls }) : e.Manages e' where
  rest := hrest
  length := congrArg List.length hservers
  server k := by
    rw [server_of_servers hservers]
    rfl

theorem refl (e : Engine) : e.Manages e := of_servers rfl rfl

theorem trans (h : e.Manages middle) (k : middle.Manages e') : e.Manages e' where
  rest := by
    have hrest := h.rest
    have krest := k.rest
    rw [krest, hrest]
  length := k.length.trans h.length
  server n := by
    have hserver := h.server n
    have kserver := k.server n
    unfold Server.Alters at hserver kserver ⊢
    rw [kserver, hserver]

theorem submissions (h : e.Manages e') : e'.submissions = e.submissions := by
  rw [h.rest]

theorem directory (h : e.Manages e') : e'.directory = e.directory := by
  rw [h.rest]

theorem woken (h : e.Manages e') : e'.woken = e.woken := by
  rw [h.rest]

theorem started (h : e.Manages e') : e'.started = e.started := by
  rw [h.rest]

theorem gate (h : e.Manages e') : e'.gate = e.gate := by
  rw [h.rest]

theorem clock (h : e.Manages e') : e'.clock = e.clock := by
  rw [h.rest]

theorem completions (h : e.Manages e') : e'.completions = e.completions := by
  rw [h.rest]

end Manages

theorem manages_modifyServer (e : Engine) (n : Nat) {f : Server -> Server}
    (h : (e.server n).Alters (f (e.server n))) : e.Manages (e.modifyServer n f) where
  rest := rfl
  length := by simp [modifyServer]
  server k := by
    rw [server_modifyServer]
    split
    · rename_i hk
      rw [hk.1]
      exact h
    · rfl

theorem manages_report (e : Engine) (events : List Event) : e.Manages (e.report events) :=
  .of_servers rfl rfl

theorem manages_record (e : Engine) (call : Call) : e.Manages (e.record call) :=
  .of_servers rfl rfl

theorem manages_setStop (e : Engine) (n : Nat) (phase : StopPhase) :
    e.Manages (e.setStop n phase) :=
  .of_servers rfl rfl

theorem manages_addStop (e : Engine) (server : Nat) : e.Manages (e.addStop server).1 :=
  .of_servers rfl rfl

theorem manages_addStats (e : Engine) (next : Nat) : e.Manages (e.addStats next) :=
  .of_servers rfl rfl

theorem manages_shutDown (e : Engine) (n : Nat) : e.Manages (e.shutDown n) :=
  (manages_modifyServer e n (e.server n).alters_shutDown).trans (manages_report _ _)

theorem manages_askToStop (e : Engine) (n : Nat) : e.Manages (e.askToStop n) :=
  (manages_modifyServer e n (e.server n).alters_askToStop).trans (manages_report _ _)

theorem manages_collect (e : Engine) (n : Nat) : e.Manages (e.collect n) := by
  unfold collect
  split
  · exact Manages.refl e
  · exact (manages_shutDown e n).trans (manages_report _ _)

theorem manages_dropServer (e : Engine) (n : Nat) : e.Manages (e.dropServer n) :=
  (manages_modifyServer e n ((e.server n).alters_isKept false)).trans (manages_collect _ n)

theorem manages_settleStop (e : Engine) (n deadline : Nat) :
    e.Manages (e.settleStop n deadline) := by
  simp only [settleStop]
  split
  · exact (manages_shutDown e _).trans (manages_setStop _ n _)
  · split
    · exact ((manages_shutDown e _).trans (manages_report _ _)).trans (manages_setStop _ n _)
    · exact manages_setStop e n _

theorem manages_runStop (e : Engine) (n : Nat) : e.Manages (e.runStop n) := by
  simp only [runStop]
  split
  · split
    · exact manages_setStop e n _
    · exact (manages_askToStop e _).trans (manages_settleStop _ n _)
  · exact manages_settleStop e n _
  · exact Manages.refl e

theorem manages_callStop (e : Engine) (server : Nat) : e.Manages (e.callStop server) :=
  (manages_addStop e server).trans (manages_runStop _ _)

theorem manages_abandonStop (e : Engine) (n : Nat) : e.Manages (e.abandonStop n) := by
  unfold abandonStop
  split
  · exact (manages_setStop e n _).trans (manages_collect _ _)
  · exact Manages.refl e

theorem manages_perform (factory : Option BackendFactory) (polled : Option Nat) (e : Engine)
    (action : LoadAction) : e.Manages (perform factory polled e action) := by
  cases action with
  | report event => exact manages_report e [event]
  | create config version =>
      cases factory with
      | none => exact Manages.refl e
      | some factory =>
          cases polled with
          | none => exact manages_record e _
          | some n =>
              simp only [perform, Option.map_some]
              split
              · exact (((manages_record e _).trans (manages_addStop _ n)).trans
                  (manages_runStop _ _)).trans (manages_setStop _ _ _)
              · exact manages_record e _

theorem manages_load (factory : Option BackendFactory) (polled : Option Nat)
    (actions : List LoadAction) (e : Engine) :
    e.Manages (actions.foldl (perform factory polled) e) := by
  induction actions generalizing e with
  | nil => exact Manages.refl e
  | cons action rest ih => exact (manages_perform factory polled e action).trans (ih _)

theorem manages_reconcile (e : Engine) (factory : Option BackendFactory) (polled : Option Nat)
    (options : ServerOptions) (table : ModelTable) (models : List RepositoryModel) :
    e.Manages (e.reconcile factory polled options table models).2.2 :=
  (manages_load factory polled _ e).trans (manages_addStats _ _)

theorem manages_poll (e : Engine) (n : Nat) (scan : Except Failure (List RepositoryModel))
    (factory : Option BackendFactory) : e.Manages (e.poll n scan factory).2 := by
  simp only [poll]
  split
  · exact Manages.refl e
  · cases scan with
    | error failure => exact Manages.refl e
    | ok models =>
        refine (manages_reconcile e factory (some n) (e.server n).options (e.server n).table
          models).trans ?_
        simp only
        split
        · exact Manages.refl _
        · split
          · exact (manages_modifyServer _ n (Server.alters_table _ _)).trans (manages_report _ _)
          · exact (manages_modifyServer _ n (Server.alters_table _ _)).trans (manages_report _ _)

theorem manages_setRegistry (e : Engine) (server : Nat) (registry : Registry) :
    e.Manages (e.setRegistry server registry) :=
  manages_modifyServer e server ((e.server server).alters_registry registry)

theorem manages_register (e : Engine) (server : Nat) (name key : String) (offset size : Nat) :
    e.Manages (e.register server name key offset size) :=
  (manages_setRegistry e server _).trans (manages_report _ _)

theorem manages_unregister (e : Engine) (server : Nat) (name : String) :
    e.Manages (e.unregister server name) := by
  unfold unregister
  split
  · exact (manages_setRegistry e server _).trans (manages_report _ _)
  · exact Manages.refl e

theorem manages_unregisterAll (e : Engine) (server : Nat) :
    e.Manages (e.unregisterAll server) :=
  (manages_setRegistry e server _).trans (manages_report _ _)

/-!
# Answering requests

The only move that puts a panic on record is the one that unwinds the task.
-/

/-- Nothing has changed but what an answer is about: the requests, the counts and slots of their
servers, the buffers of their outputs, and what is put on record. -/
def Replies (e e' : Engine) : Prop :=
  e' = { e with
    servers := e'.servers, submissions := e'.submissions, allocators := e'.allocators,
    stats := e'.stats, woken := e'.woken, events := e'.events, completions := e'.completions,
    calling := e'.calling }

theorem Replies.trans {e middle e' : Engine} (h : e.Replies middle) (k : middle.Replies e') :
    e.Replies e' := by
  unfold Replies at h k ⊢
  rw [k, h]

theorem Replies.directory {e e' : Engine} (h : e.Replies e') : e'.directory = e.directory := by
  rw [h]

theorem Replies.gate {e e' : Engine} (h : e.Replies e') : e'.gate = e.gate := by
  rw [h]

theorem Replies.stops {e e' : Engine} (h : e.Replies e') : e'.stops = e.stops := by
  rw [h]

theorem replies_releaseSlot (e : Engine) (k : Nat) : e.Replies (e.releaseSlot k) := by
  unfold releaseSlot
  split <;> rfl

theorem replies_callBack (e : Engine) (n : Nat) (taken? : Option Nat) (response : Response) :
    e.Replies (e.callBack n taken? response) := by
  simp only [callBack, hand]
  split <;> rfl

theorem replies_respond (e : Engine) (n : Nat)
    (result : Except Failure (List (String × OutputStorage))) : e.Replies (e.respond n result) := by
  have hnoted : e.Replies (e.noteResult n result) := by
    cases result <;> rfl
  exact (hnoted.trans (replies_releaseSlot _ _)).trans (replies_callBack _ n _ _)

/-- An execution that ends calls its callback once, with the response to its result. -/
theorem completions_respond (e : Engine) (n : Nat)
    (result : Except Failure (List (String × OutputStorage))) : exists live ready : Bool,
      (e.respond n result).completions = e.completions ++
        [⟨n, (e.submission n).callback, (e.submission n).server, live, ready,
          some e.readings.computeTime, e.responseTo n e.readings.computeTime result⟩] := by
  have hnoted : (e.noteResult n result).completions = e.completions := by
    cases result <;> rfl
  have hreleased : ((e.noteResult n result).releaseSlot (e.submission n).server).completions =
      e.completions := by
    unfold releaseSlot
    split <;> exact hnoted
  have hspares :=
    (spares_noteResult e n result).trans (spares_releaseSlot _ (e.submission n).server)
  have hcallback := congrArg Submission.callback (hspares.submission n)
  have hserver := congrArg Submission.server (hspares.submission n)
  unfold respond
  rw [completions_callBack, hreleased, hcallback, hserver]
  exact ⟨_, _, rfl⟩

/-- A request that is given up has its callback called once, with the response that says so. -/
theorem completions_giveUp (e : Engine) (n : Nat) : exists live ready : Bool,
    (e.giveUp n).completions = e.completions ++
      [⟨n, (e.submission n).callback, (e.submission n).server, live, ready, none,
        e.responseTo n 0 (.error .cancelled)⟩] := by
  have hwithdrawn : (e.withdraw n).completions = e.completions := by
    simp only [withdraw, releaseSlot]
    split
    · split <;> rfl
    · rfl
  have hreported : ((e.withdraw n).report
      [.requestDropped (e.submission n).request.id]).completions = e.completions := hwithdrawn
  have hspares := spares_withdraw e n
  have hcallback := congrArg Submission.callback (hspares.submission n)
  have hserver := congrArg Submission.server (hspares.submission n)
  have hsame : ((e.withdraw n).report
      [.requestDropped (e.submission n).request.id]).submission n = (e.withdraw n).submission n :=
    rfl
  unfold giveUp
  rw [completions_callBack, hreported, hsame, hcallback, hserver]
  exact ⟨_, _, rfl⟩

/-- A move calls at most one callback, with the response to a result of its request. -/
theorem Move.completions {deed : Deed} {e e' : Engine} (h : Move deed e e') :
    e'.completions = e.completions ∨
      exists (c : Completion) (result : Except Failure (List (String × OutputStorage))),
        e'.completions = e.completions ++ [c] ∧ c.submission < e.submissions.length ∧
        c.response = e.responseTo c.submission c.computeTime result ∧
        c.computeTime < Text.wordBound ∧
        (c.isExecuted = true ∨
          (deed = .cancel c.submission ∨ deed = .unwind c.submission) ∧
            result = .error .cancelled) := by
  cases h with
  | takeSlot _ e' n hn htake =>
      rcases takeSlot?_eq_some htake with ⟨free, rfl⟩
      exact .inl rfl
  | gatherFails _ n failure hn hgather =>
      rcases completions_respond e n (.error failure) with ⟨live, ready, hcompletions⟩
      exact .inr ⟨_, .error failure, hcompletions, lt_of_phase (by rw [hn]; rfl), rfl,
        Text.toWord_lt _, .inl rfl⟩
  | allocateFails _ n failure a events hn hallocate =>
      rcases completions_respond
        ((e.setMemory (e.submission n).server ⟨a, e.directory⟩).report events) n (.error failure)
        with ⟨live, ready, hcompletions⟩
      exact .inr ⟨_, .error failure, hcompletions, lt_of_phase (by rw [hn]; rfl), rfl,
        Text.toWord_lt _, .inl rfl⟩
  | leave _ n held next result slots hn hnext =>
      rcases completions_respond (e.takeSlots n result slots) n (e.outcome n result slots).1
        with ⟨live, ready, hcompletions⟩
      exact .inr ⟨_, (e.outcome n result slots).1, hcompletions, lt_of_phase (by rw [hn]; rfl), rfl,
        Text.toWord_lt _, .inl rfl⟩
  | cancel _ n hn =>
      rcases completions_giveUp e n with ⟨live, ready, hcompletions⟩
      exact .inr
        ⟨_, .error .cancelled, hcompletions, lt_of_phase hn, rfl, (by decide : 0 < Text.wordBound),
          .inr ⟨.inl rfl, rfl⟩⟩
  | unwind _ n slots a events hn hallocate =>
      rcases completions_giveUp (e.forfeit n slots a events) n with ⟨live, ready, hcompletions⟩
      exact .inr ⟨_, .error .cancelled, hcompletions, lt_of_phase (by rw [hn]; rfl), rfl,
        (by decide : 0 < Text.wordBound), .inr ⟨.inr rfl, rfl⟩⟩
  | comeBack _ n hn => exact .inl (completions_comeBack e n)
  | _ => exact .inl rfl

theorem Move.unwindings {deed : Deed} {e e' : Engine} (h : Move deed e e') :
    e'.unwindings = e.unwindings ∧ (forall n : Nat, deed ≠ .unwind n) ∨
      exists (n : Nat) (slots : List OutputSlot), deed = .unwind n ∧
        e'.unwindings = e.unwindings ++ [⟨n, slots⟩] := by
  cases h with
  | takeSlot _ e' n hn htake =>
      rcases takeSlot?_eq_some htake with ⟨free, rfl⟩
      exact .inl ⟨rfl, nofun⟩
  | gatherFails _ n failure hn hgather => exact .inl ⟨(spares_respond e n _).unwindings, nofun⟩
  | allocateFails _ n failure a events hn hallocate =>
      exact .inl ⟨(spares_respond
        ((e.setMemory (e.submission n).server ⟨a, e.directory⟩).report events) n _).unwindings,
        nofun⟩
  | leave _ n held next result slots hn hnext =>
      exact .inl ⟨(spares_respond (e.takeSlots n result slots) n _).unwindings, nofun⟩
  | cancel _ n hn => exact .inl ⟨(spares_giveUp e n).unwindings, nofun⟩
  | unwind _ n slots a events hn hallocate =>
      exact .inr ⟨n, slots, rfl, (spares_giveUp (e.forfeit n slots a events) n).unwindings⟩
  | comeBack _ n hn => exact .inl ⟨(spares_comeBack e n).unwindings, nofun⟩
  | _ => exact .inl ⟨rfl, nofun⟩

/-- Whether no task has been dropped before its request was answered. -/
def NoneGivenUp (e : Engine) : Prop :=
  forall c : Completion, c ∈ e.completions -> c.isExecuted = true

theorem Move.noneGivenUp {deed : Deed} {e e' : Engine} (h : Move deed e e')
    (k : e'.NoneGivenUp) : e.NoneGivenUp := by
  intro c hc
  apply k
  rcases h.completions with hsame | ⟨made, _, hmade, _⟩
  · rw [hsame]
    exact hc
  · rw [hmade]
    exact List.mem_append_left _ hc

theorem Move.not_gives_up {deed : Deed} {e e' : Engine} (h : Move deed e e')
    (k : e'.NoneGivenUp) (n : Nat) : deed ≠ .cancel n ∧ deed ≠ .unwind n := by
  constructor
  · rintro rfl
    cases h with
    | cancel _ _ hn =>
        rcases completions_giveUp e n with ⟨live, ready, hcompletions⟩
        rw [NoneGivenUp, hcompletions] at k
        exact absurd (k _ (List.mem_append_right _ List.mem_cons_self)) Bool.false_ne_true
  · rintro rfl
    cases h with
    | unwind _ _ slots a events hn hallocate =>
        rcases completions_giveUp (e.forfeit n slots a events) n with ⟨live, ready, hcompletions⟩
        rw [NoneGivenUp, hcompletions] at k
        exact absurd (k _ (List.mem_append_right _ List.mem_cons_self)) Bool.false_ne_true

theorem Moves.of_noneGivenUp {also : Deed -> Prop} {e e' : Engine} (h : Moves also e e')
    (k : e'.NoneGivenUp) : e.NoneGivenUp ∧
      Moves (fun deed => also deed ∧ forall n : Nat, deed ≠ .cancel n ∧ deed ≠ .unwind n) e e' := by
  induction h with
  | refl => exact ⟨k, Moves.refl e⟩
  | tail hmoves hlast ih =>
      rcases hlast with ⟨deed, hdeed, hmove⟩
      rcases ih (hmove.noneGivenUp k) with ⟨hnone, hbefore⟩
      refine ⟨hnone, hbefore.tail ⟨deed, ?_, hmove⟩⟩
      exact hdeed.imp_right fun halso => ⟨halso, hmove.not_gives_up k⟩

theorem replies_countOut (e : Engine) (k : Nat) : e.Replies (e.countOut k) := by
  simp only [countOut]
  split <;> rfl

theorem replies_comeBack (e : Engine) (n : Nat) : e.Replies (e.comeBack n) := by
  have hcalling : e.Replies { e with calling := e.calling.erase n } := rfl
  exact hcalling.trans (replies_countOut _ _)

theorem replies_finish (e : Engine) (n : Nat)
    (result : Except Failure (List (String × OutputStorage))) : e.Replies (e.finish n result) :=
  (replies_respond e n result).trans (replies_comeBack _ n)

theorem replies_giveUp (e : Engine) (n : Nat) : e.Replies (e.giveUp n) := by
  have hwithdrawn : e.Replies (e.withdraw n) := by
    simp only [withdraw]
    split
    · exact replies_releaseSlot e _
    · rfl
  have hreported : e.Replies ((e.withdraw n).report
      [.requestDropped (e.submission n).request.id]) := Replies.trans hwithdrawn rfl
  exact hreported.trans (replies_callBack _ n none _)

/-!
# Executing requests
-/

/-- Nothing has changed of the clock, the calls that stop servers and the jobs that clients have
started, and the gate is closed if it was. -/
def Executes (e e' : Engine) : Prop :=
  e' = { e with
    servers := e'.servers, submissions := e'.submissions, allocators := e'.allocators,
    stats := e'.stats, directory := e'.directory,
    gate := { e.gate with permits := e'.gate.permits, waiting := e'.gate.waiting },
    woken := e'.woken, events := e'.events, calls := e'.calls, endings := e'.endings,
    unwindings := e'.unwindings, completions := e'.completions, calling := e'.calling }

theorem Executes.refl (e : Engine) : e.Executes e := rfl

theorem Executes.trans {e middle e' : Engine} (h : e.Executes middle) (k : middle.Executes e') :
    e.Executes e' := by
  unfold Executes at h k ⊢
  rw [k, h]

theorem Executes.stops {e e' : Engine} (h : e.Executes e') : e'.stops = e.stops := by
  rw [h]

theorem Executes.clock {e e' : Engine} (h : e.Executes e') : e'.clock = e.clock := by
  rw [h]

theorem Executes.isClosed {e e' : Engine} (h : e.Executes e') :
    e'.gate.isClosed = e.gate.isClosed := by
  rw [h]

theorem Replies.executes {e e' : Engine} (h : e.Replies e') : e.Executes e' := by
  unfold Replies at h
  unfold Executes
  rw [h]

theorem executes_setPhase (e : Engine) (n : Nat) (p : Phase) : e.Executes (e.setPhase n p) := rfl

theorem executes_enterBackend (e : Engine) (n : Nat) (batch : ExecutionBatch) :
    e.Executes (e.enterBackend n batch) := rfl

theorem executes_conclude (e : Engine) (n : Nat) (result : Except Failure Unit)
    (slots : List OutputSlot) : e.Executes (e.conclude n result slots) := by
  have htaken : e.Executes (e.takeSlots n result slots) := rfl
  exact (htaken.trans (replies_respond _ n _).executes).trans (replies_comeBack _ n).executes

theorem executes_unwind (e : Engine) (n : Nat) (slots : List OutputSlot) :
    e.Executes (e.unwind n slots) := by
  have hrecorded : e.Executes (e.recordUnwinding ⟨n, slots⟩) := rfl
  exact (hrecorded.trans (replies_giveUp _ n).executes).trans (replies_comeBack _ n).executes

theorem executes_proceed (e : Engine) (n : Nat) (next : Behaviour) :
    e.Executes (e.proceed n next) := by
  induction next generalizing e with
  | finish result slots => exact executes_conclude e n result slots
  | panic slots => exact executes_conclude e n _ slots
  | awaitGate slots resume ih =>
      have hgate : forall (p : Phase) (permits : Nat) (waiting : List Nat),
          e.Executes { e.setPhase n p with
            gate := { e.gate with permits := permits, waiting := waiting } } := fun _ _ _ => rfl
      unfold proceed
      split
      · exact (executes_setPhase e n _).trans (ih false _)
      · split
        · exact hgate _ _ _
        · exact (hgate _ _ _).trans (ih true _)

theorem executes_carryOut (e : Engine) (n : Nat) : e.Executes (e.carryOut n) := by
  have hmemory : forall (a : Allocator) (events : List Event),
      e.Executes ((e.setMemory (e.submission n).server ⟨a, e.directory⟩).report events) :=
    fun _ _ => rfl
  simp only [carryOut]
  split
  · exact (replies_finish e n _).executes
  · split
    · exact (hmemory _ _).trans (replies_finish _ n _).executes
    · exact (hmemory _ _).trans (executes_unwind _ n _)
    · exact ((hmemory _ _).trans (executes_enterBackend _ n _)).trans (executes_proceed _ n _)

theorem executes_execute (e : Engine) (n : Nat) : e.Executes (e.execute n) := by
  have hreported : forall events : List Event, e.Executes (e.report events) := fun _ => rfl
  exact (hreported _).trans (executes_carryOut _ n)

theorem executes_runRequest (e : Engine) (n : Nat) : e.Executes (e.runRequest n) := by
  unfold runRequest
  split
  · split
    · rename_i e' htake
      rcases takeSlot?_eq_some htake with ⟨free, rfl⟩
      have htaken : e.Executes ((e.modifyServer (e.submission n).server fun s =>
          { s with freeSlots := free }).setPhase n .granted) := rfl
      exact htaken.trans (executes_execute _ n)
    · rfl
  · exact executes_execute e n
  · exact (executes_setPhase e n _).trans (executes_proceed _ n _)
  · exact Executes.refl e

end Engine

end InferenceEngine
