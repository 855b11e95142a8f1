import InferenceEngine.Proofs.Runs.Move

/-!
# Operations are sequences of moves

The functions of the engine are taken apart from the inside out: what a job does while it runs,
what a stop does, what a reconciliation does, and last what an operation does.
-/

namespace InferenceEngine

namespace Engine

variable {also : Deed -> Prop}

/-!
# Sequences of moves

What every move keeps is kept by a sequence of moves.
-/

theorem Moves.refl (e : Engine) : Moves also e e := Relation.ReflTransGen.refl

theorem Moves.trans {e middle e' : Engine} (h : Moves also e middle)
    (k : Moves also middle e') : Moves also e e' :=
  Relation.ReflTransGen.trans h k

theorem Moves.one {e e' : Engine} (h : Move .other e e') : Moves also e e' :=
  Relation.ReflTransGen.single ⟨.other, .inl rfl, h⟩

theorem Moves.of_also {deed : Deed} {e e' : Engine} (hdeed : also deed)
    (h : Move deed e e') : Moves also e e' :=
  Relation.ReflTransGen.single ⟨deed, .inr hdeed, h⟩

theorem Moves.foldl {α : Type} {f : Engine -> α -> Engine}
    (h : forall (e : Engine) (a : α), Moves also e (f e a)) (xs : List α) (e : Engine) :
    Moves also e (xs.foldl f e) := by
  induction xs generalizing e with
  | nil => exact Moves.refl e
  | cons x rest ih => exact (h e x).trans (ih (f e x))

theorem Moves.mono {more : Deed -> Prop} (hmore : forall deed : Deed, also deed -> more deed)
    {e e' : Engine} (h : Moves also e e') : Moves more e e' := by
  refine Relation.ReflTransGen.mono ?_ _ _ h
  intro a b hmove
  rcases hmove with ⟨deed, hdeed, hmove⟩
  exact ⟨deed, hdeed.imp_right (hmore deed), hmove⟩

theorem Reachable.moves {e e' : Engine} (h : e.Reachable) (k : Moves also e e') :
    e'.Reachable :=
  Moves.trans h (k.mono fun _ _ => trivial)

theorem Moves.induct {P : Engine -> Prop}
    (hstep : forall (deed : Deed) (e e' : Engine), (deed = .other ∨ also deed) ->
      Move deed e e' -> P e -> P e')
    {e e' : Engine} (h : Moves also e e') (hP : P e) : P e' := by
  induction h with
  | refl => exact hP
  | tail _ hlast ih =>
      rcases hlast with ⟨deed, hdeed, hmove⟩
      exact hstep deed _ _ hdeed hmove ih

theorem Moves.induct_of_reachable {P : Engine -> Prop}
    (hstep : forall (deed : Deed) (e e' : Engine), (deed = .other ∨ also deed) ->
      e.Reachable -> Move deed e e' -> P e -> P e')
    {e e' : Engine} (h : Moves also e e') (hreachable : e.Reachable) (hP : P e) : P e' := by
  have hboth : e'.Reachable ∧ P e' := by
    refine Moves.induct (P := fun e => e.Reachable ∧ P e) ?_ h ⟨hreachable, hP⟩
    intro deed middle e' hdeed hmove hmiddle
    constructor
    · exact hmiddle.1.moves (@Moves.of_also (fun _ => True) _ _ _ trivial hmove)
    · exact hstep deed middle e' hdeed hmiddle.1 hmove hmiddle.2
  exact hboth.2

/-- What holds of an engine that has not done anything and is kept by every move from a reachable
engine holds of all of these. -/
theorem Reachable.induct {P : Engine -> Prop} (hempty : P empty)
    (hstep : forall (deed : Deed) (e e' : Engine), e.Reachable -> Move deed e e' -> P e -> P e')
    {e : Engine} (h : e.Reachable) : P e :=
  Moves.induct_of_reachable (fun deed e e' _ => hstep deed e e') h (Moves.refl empty) hempty

/-!
# Queues, events and the gate
-/

theorem moves_report (e : Engine) (events : List Event) : Moves also e (e.report events) :=
  Moves.one (.schedule e e.gate e.woken e.started e.clock e.readings (e.events ++ events))

theorem moves_wake (e : Engine) (jobs : List Job) : Moves also e (e.wake jobs) :=
  Moves.one (.schedule e e.gate (e.woken ++ jobs) e.started e.clock e.readings e.events)

theorem moves_start (e : Engine) (jobs : List Job) : Moves also e (e.start jobs) :=
  Moves.one (.schedule e e.gate e.woken (e.started ++ jobs) e.clock e.readings e.events)

theorem moves_gate (e : Engine) (gate : Gate) : Moves also e { e with gate := gate } :=
  Moves.one (.schedule e gate e.woken e.started e.clock e.readings e.events)

theorem dequeue_eq (e : Engine) (position : Nat) : exists woken started : List Job,
    e.dequeue position = { e with woken := woken, started := started } := by
  simp only [dequeue]
  split
  · exact ⟨_, e.started, rfl⟩
  · exact ⟨e.woken, _, rfl⟩

theorem moves_dequeue (e : Engine) (position : Nat) : Moves also e (e.dequeue position) := by
  rcases dequeue_eq e position with ⟨woken, started, hdequeue⟩
  rw [hdequeue]
  exact Moves.one (.schedule e e.gate woken started e.clock e.readings e.events)

theorem moves_letThrough (e : Engine) (n : Nat) : Moves also e (e.letThrough n) := by
  unfold letThrough
  split
  · rename_i slots resume hphase
    have hturn : (e.submission n).phase.Turns (.letThrough slots resume) := by
      rw [hphase]
      exact .letThrough slots resume
    exact (Moves.one (.turn e n _ hturn)).trans (moves_start _ _)
  · exact Moves.refl e

theorem moves_openGate (e : Engine) (permits : Nat) : Moves also e (e.openGate permits) :=
  (moves_gate e _).trans (Moves.foldl moves_letThrough _ _)

theorem moves_closeGate (e : Engine) : Moves also e e.closeGate :=
  (moves_gate e _).trans (Moves.foldl moves_letThrough _ _)

/-!
# Callbacks
-/

theorem mem_calling_respond (e : Engine) (n : Nat)
    (result : Except Failure (List (String × OutputStorage))) :
    n ∈ (e.respond n result).calling := by
  unfold respond
  rw [calling_callBack]
  exact List.mem_append_right _ (List.mem_singleton_self n)

theorem mem_calling_giveUp (e : Engine) (n : Nat) : n ∈ (e.giveUp n).calling := by
  unfold giveUp
  rw [calling_callBack]
  exact List.mem_append_right _ (List.mem_singleton_self n)

theorem moves_comeBack {e e' : Engine} {n : Nat} (h : Move .other e e') (hn : n ∈ e'.calling) :
    Moves also e (e'.comeBack n) :=
  (Moves.one h).trans (Moves.one (.comeBack e' n hn))

/-!
# Executing

A backend that has been entered goes on until it ends or waits at the gate.
-/

theorem moves_proceed (e : Engine) (n : Nat) (held : List OutputSlot) (next : Behaviour)
    (h : (e.submission n).phase = .inBackend held next) :
    Moves also e (e.proceed n next) := by
  induction next generalizing e held with
  | finish result slots =>
      exact moves_comeBack (.leave e n held _ _ slots h (.finish result slots))
        (mem_calling_respond _ n _)
  | panic slots =>
      exact moves_comeBack (.leave e n held _ _ slots h (.panic slots)) (mem_calling_respond _ n _)
  | awaitGate slots resume ih =>
      have hlt : n < e.submissions.length := lt_of_phase (by rw [h]; rfl)
      unfold proceed
      split
      · exact (Moves.one (.turn e n _ (h ▸ .pass held slots resume false))).trans
          (ih false _ slots (phase_setPhase_self hlt))
      · split
        · exact (Moves.one (.turn e n _ (h ▸ .await held slots resume))).trans (moves_gate _ _)
        · exact ((Moves.one (.turn e n _ (h ▸ .pass held slots resume true))).trans
            (moves_gate _ _)).trans (ih true _ slots (phase_setPhase_self hlt))

/-- A request that holds a slot is executed; only its own batch is handed over, and only its own
task can panic. -/
theorem moves_carryOut (halso : forall n : Nat, also (.enter n))
    (hunwind : forall n : Nat, also (.unwind n)) (e : Engine) (n : Nat)
    (h : (e.submission n).phase = .granted) : Moves also e (e.carryOut n) := by
  have hlt : n < e.submissions.length := lt_of_phase (by rw [h]; rfl)
  simp only [carryOut]
  split
  · rename_i failure hgather
    exact moves_comeBack (.gatherFails _ n failure h hgather) (mem_calling_respond _ n _)
  · rename_i inputs hgather
    split
    · rename_i failure hresult
      exact moves_comeBack (.allocateFails _ n failure _ _ h (Prod.ext hresult rfl))
        (mem_calling_respond _ n _)
    · rename_i slots hresult
      exact (Moves.of_also (hunwind n) (.unwind e n slots _ _ h (Prod.ext hresult rfl))).trans
        (Moves.one (.comeBack _ n (mem_calling_giveUp _ n)))
    · rename_i slots hresult
      exact (Moves.of_also (halso n)
        (.enter _ n inputs slots _ _ h hgather (Prod.ext hresult rfl))).trans
          (moves_proceed _ n slots _ (phase_setPhase_self hlt))

theorem moves_execute (halso : forall n : Nat, also (.enter n))
    (hunwind : forall n : Nat, also (.unwind n)) (e : Engine) (n : Nat)
    (h : (e.submission n).phase = .granted) : Moves also e (e.execute n) :=
  (moves_report e _).trans (moves_carryOut halso hunwind _ n h)

theorem moves_runRequest (halso : forall n : Nat, also (.enter n))
    (hunwind : forall n : Nat, also (.unwind n)) (e : Engine) (n : Nat) :
    Moves also e (e.runRequest n) := by
  unfold runRequest
  split
  · rename_i hphase
    split
    · rename_i e' htake
      rcases takeSlot?_eq_some htake with ⟨free, rfl⟩
      have hlt : n < e.submissions.length := lt_of_phase (by rw [hphase]; rfl)
      exact (Moves.one (.takeSlot e _ n hphase htake)).trans
        (moves_execute halso hunwind _ n (phase_setPhase_self hlt))
    · exact Moves.one (.awaitSlot e n hphase)
  · rename_i hphase
    exact moves_execute halso hunwind e n hphase
  · rename_i slots resume hphase
    have hlt : n < e.submissions.length := lt_of_phase (by rw [hphase]; rfl)
    exact (Moves.one (.turn e n _ (hphase ▸ .resume slots resume _))).trans
      (moves_proceed _ n slots _ (phase_setPhase_self hlt))
  · exact Moves.refl e

/-!
# Stopping
-/

theorem moves_shutDown (e : Engine) (n : Nat) : Moves also e (e.shutDown n) :=
  (Moves.one (.server e n _ (e.server n).becomes_shutDown)).trans (moves_report _ _)

theorem moves_collect (e : Engine) (n : Nat) : Moves also e (e.collect n) := by
  unfold collect
  split
  · exact Moves.refl e
  · exact (moves_shutDown e n).trans (moves_report _ _)

theorem modifyServer_eq (e : Engine) (n : Nat) (f : Server -> Server) :
    e.modifyServer n f = e.modifyServer n fun _ => f (e.server n) := by
  unfold modifyServer
  congr 1
  apply List.ext_getElem?
  intro m
  rw [List.getElem?_modify, List.getElem?_modify]
  by_cases hm : n = m
  · cases hs : e.servers[m]? with
    | none => rfl
    | some s => simp [hm, server, List.getD_eq_getElem?_getD, hs]
  · simp [hm]

theorem moves_modifyServer (e : Engine) (n : Nat) (f : Server -> Server)
    (h : (e.server n).Becomes (f (e.server n))) : Moves also e (e.modifyServer n f) := by
  rw [modifyServer_eq]
  exact Moves.one (.server e n _ h)

theorem moves_dropServer (e : Engine) (n : Nat) : Moves also e (e.dropServer n) :=
  (moves_modifyServer e n _ ⟨fun h => h, rfl, rfl, rfl, rfl, rfl, fun h => h⟩).trans
    (moves_collect _ n)

/-- The calls that wait are those that have waited before, unless one begins to wait for a server
that takes no more requests. -/
theorem mem_stops_setStop {e : Engine} {n : Nat} {phase : StopPhase} {c : StopCall}
    (h : c ∈ (e.setStop n phase).stops) :
    c ∈ e.stops ∨ (n < e.stops.length ∧ c = { e.stopCall n with phase := phase }) := by
  rcases List.mem_iff_getElem?.1 h with ⟨m, hm⟩
  unfold setStop at hm
  rw [List.getElem?_modify] at hm
  by_cases hn : n = m
  · cases hc : e.stops[m]? with
    | none => simp [hc] at hm
    | some old =>
        have hold : e.stopCall n = old := by
          simp [stopCall, List.getD_eq_getElem?_getD, hn, hc]
        have hlt : m < e.stops.length := (List.getElem?_eq_some_iff.1 hc).1
        right
        constructor
        · rw [hn]
          exact hlt
        · rw [hold]
          simpa [hn, hc] using hm.symm
  · left
    exact List.mem_iff_getElem?.2 ⟨m, by simpa [hn] using hm⟩

theorem moves_setStop (e : Engine) (n : Nat) (phase : StopPhase)
    (h : (StopCall.mk (e.stopCall n).server phase).deadline? = none) :
    Moves also e (e.setStop n phase) := by
  refine Moves.one (.stops e _ ?_)
  intro c hc hdeadline
  rcases mem_stops_setStop hc with hold | ⟨_, rfl⟩
  · exact .inl hold
  · rw [h] at hdeadline
    cases hdeadline

theorem moves_drain (e : Engine) (n deadline : Nat)
    (h : (e.stopCall n).phase = .draining deadline ∨
      ((e.stopCall n).server < e.servers.length ∧
        (e.server (e.stopCall n).server).state ≠ .serving)) :
    Moves also e (e.setStop n (.draining deadline)) := by
  refine Moves.one (.stops e _ ?_)
  intro c hc _
  rcases mem_stops_setStop hc with hold | ⟨hlt, rfl⟩
  · exact .inl hold
  · rcases h with hphase | hserver
    · left
      rw [← hphase]
      unfold stopCall
      rw [List.getD_eq_getElem?_getD, List.getElem?_eq_getElem hlt]
      exact List.getElem_mem hlt
    · exact .inr hserver

theorem moves_addStop (e : Engine) (server : Nat) : Moves also e (e.addStop server).1 := by
  refine Moves.one (.stops e _ ?_)
  intro c hc hdeadline
  rcases List.mem_append.1 hc with hold | hnew
  · exact .inl hold
  · rw [List.mem_singleton.1 hnew] at hdeadline
    cases hdeadline

theorem moves_askToStop (e : Engine) (n : Nat) : Moves also e (e.askToStop n) :=
  (Moves.one (.server e n _ (e.server n).becomes_askToStop)).trans (moves_report _ _)

theorem moves_settleStop (e : Engine) (n deadline : Nat)
    (h : (e.stopCall n).phase = .draining deadline ∨
      ((e.stopCall n).server < e.servers.length ∧
        (e.server (e.stopCall n).server).state ≠ .serving)) :
    Moves also e (e.settleStop n deadline) := by
  simp only [settleStop]
  split
  · exact (moves_shutDown e _).trans (moves_setStop _ n _ rfl)
  · split
    · exact ((moves_shutDown e _).trans (moves_report _ _)).trans (moves_setStop _ n _ rfl)
    · exact moves_drain e n _ h

theorem moves_runStop (e : Engine) (n : Nat) : Moves also e (e.runStop n) := by
  simp only [runStop]
  split
  · rename_i hpending
    split
    · exact moves_setStop e n _ rfl
    · rename_i hstate
      have hlt : (e.stopCall n).server < e.servers.length := lt_of_state hstate
      refine (moves_askToStop e _).trans (moves_settleStop _ n _ (.inr ?_))
      have hcall : (e.askToStop (e.stopCall n).server).stopCall n = e.stopCall n := rfl
      rw [hcall]
      constructor
      · simpa [askToStop, modifyServer, report] using hlt
      · have hserver : (e.askToStop (e.stopCall n).server).server (e.stopCall n).server =
            (e.server (e.stopCall n).server).askToStop.1 := by
          have h := server_modifyServer e (e.stopCall n).server (e.stopCall n).server
            fun _ => (e.server (e.stopCall n).server).askToStop.1
          rw [if_pos ⟨rfl, hlt⟩] at h
          exact h
        rw [hserver]
        exact Server.askToStop_not_serving _
  · rename_i deadline hphase
    exact moves_settleStop e n deadline (.inl hphase)
  · exact Moves.refl e

theorem moves_abandonStop (e : Engine) (n : Nat) : Moves also e (e.abandonStop n) := by
  unfold abandonStop
  split
  · exact (moves_setStop e n _ rfl).trans (moves_collect _ _)
  · exact Moves.refl e

theorem moves_callStop (e : Engine) (server : Nat) : Moves also e (e.callStop server) :=
  (moves_addStop e server).trans (moves_runStop _ _)

theorem moves_startStop (e : Engine) (server : Nat) : Moves also e (e.startStop server) :=
  (moves_addStop e server).trans (moves_start _ _)

/-!
# Loading models
-/

theorem moves_perform (factory : Option BackendFactory) (polled : Option Nat) (e : Engine)
    (action : LoadAction) : Moves also e (perform factory polled e action) := by
  cases action with
  | report event => exact moves_report e [event]
  | create config version =>
      cases factory with
      | none => exact Moves.refl e
      | some factory =>
          have hcreate : Moves also e (e.record (.create config version (polled.map fun n =>
              ((e.server n).isReady, (e.server n).table.contains config.name)))) :=
            Moves.one (.create e config version _)
          cases polled with
          | none => exact hcreate
          | some n =>
              apply hcreate.trans
              simp only [perform, Option.map_some]
              split
              · exact ((moves_addStop _ n).trans (moves_runStop _ _)).trans
                  (moves_setStop _ _ _ rfl)
              · exact Moves.refl _

theorem moves_reconcile (e : Engine) (factory : Option BackendFactory) (polled : Option Nat)
    (options : ServerOptions) (table : ModelTable) (models : List RepositoryModel) :
    Moves also e (e.reconcile factory polled options table models).2.2 :=
  (Moves.foldl (moves_perform factory polled) _ e).trans (Moves.one (.addStats _ _))

/-!
A reconciliation does not touch allocators, so that a server is put in with one that was there
before.
-/

theorem allocators_settleStop (e : Engine) (n deadline : Nat) :
    (e.settleStop n deadline).allocators = e.allocators := by
  simp only [settleStop]
  split
  · rfl
  · split <;> rfl

theorem allocators_runStop (e : Engine) (n : Nat) :
    (e.runStop n).allocators = e.allocators := by
  simp only [runStop]
  split
  · split
    · rfl
    · exact allocators_settleStop _ n _
  · exact allocators_settleStop e n _
  · rfl

theorem allocators_perform (factory : Option BackendFactory) (polled : Option Nat) (e : Engine)
    (action : LoadAction) :
    (perform factory polled e action).allocators = e.allocators := by
  cases action with
  | report event => rfl
  | create config version =>
      cases factory with
      | none => rfl
      | some factory =>
          cases polled with
          | none => rfl
          | some n =>
              simp only [perform, Option.map_some]
              split
              · exact allocators_runStop _ _
              · rfl

theorem allocators_reconcile (e : Engine) (factory : Option BackendFactory)
    (polled : Option Nat) (options : ServerOptions) (table : ModelTable)
    (models : List RepositoryModel) :
    (e.reconcile factory polled options table models).2.2.allocators = e.allocators := by
  have hfold : forall (actions : List LoadAction) (e : Engine),
      (actions.foldl (perform factory polled) e).allocators = e.allocators := by
    intro actions
    induction actions with
    | nil => exact fun _ => rfl
    | cons action rest ih =>
        intro e
        rw [List.foldl_cons, ih, allocators_perform]
  exact hfold _ e

theorem moves_build (e : Engine) (options : ServerOptions) (allocator : Option Nat)
    (scan : Except Failure (List RepositoryModel)) (factory : Option BackendFactory)
    (isInside : Bool) (hallocator : forall n, allocator = some n -> n < e.allocators.length) :
    Moves also e (e.build options allocator scan factory isInside).2 := by
  unfold build
  split
  · exact Moves.refl e
  · split
    · exact Moves.refl e
    · cases scan with
      | error failure => exact Moves.refl e
      | ok models =>
          have hmoves := @moves_reconcile also e factory none options .empty models
          have hallocators := allocators_reconcile e factory none options .empty models
          have htable : (e.reconcile factory none options .empty models).1.IsValid :=
            ModelTable.isValid_empty.reconcile _ _ _ models
          apply hmoves.trans
          simp only
          split
          · exact moves_report _ _
          · cases allocator with
            | some n =>
                have hn := hallocator n rfl
                rw [← hallocators] at hn
                exact (Moves.one (.addServer _ options n _ hn htable)).trans (moves_report _ _)
            | none =>
                have hn : forall e' : Engine, e'.allocators.length <
                    (e'.addAllocator (.pooled (.new options.memory))).1.allocators.length := by
                  intro e'
                  simp [addAllocator]
                exact ((Moves.one (.addAllocator _ (.pooled options.memory))).trans
                  (Moves.one (.addServer _ options _ _ (hn _) htable))).trans (moves_report _ _)

theorem moves_poll (e : Engine) (n : Nat) (scan : Except Failure (List RepositoryModel))
    (factory : Option BackendFactory) (h : (e.server n).table.IsValid) :
    Moves also e (e.poll n scan factory).2 := by
  simp only [poll]
  split
  · exact Moves.refl e
  · cases scan with
    | error failure => exact Moves.refl e
    | ok models =>
        have hmoves := @moves_reconcile also e factory (some n) (e.server n).options
          (e.server n).table models
        have htable : (e.reconcile factory (some n) (e.server n).options (e.server n).table
            models).1.IsValid := h.reconcile _ _ _ models
        apply hmoves.trans
        simp only
        split
        · exact Moves.refl _
        · have hset := @moves_modifyServer also
            (e.reconcile factory (some n) (e.server n).options (e.server n).table models).2.2 n
            (fun s => { s with table := (e.reconcile factory (some n) (e.server n).options
              (e.server n).table models).1 })
            ⟨fun h => h, rfl, rfl, rfl, rfl, rfl, fun _ => htable⟩
          split
          · exact hset.trans (moves_report _ _)
          · exact hset.trans (moves_report _ _)

end Engine

end InferenceEngine
