import InferenceEngine.Proofs.Regions.Handles
import InferenceEngine.Proofs.Runs.Frames

/-!
# The life of a server

This module says once what can happen to a server and shows that nothing else does, whatever the
engine is asked for.  A server serves, is asked to stop and stops, and never turns back; what it
has lost by then it does not get again.
-/

namespace InferenceEngine

/-!
# Steps of one server

A server stops with an empty table, and after that it gets no other.
-/

def ServerState.rank : ServerState -> Nat
  | serving => 0
  | stopping => 1
  | stopped => 2

namespace Server

inductive Step : Server -> Server -> Prop where
  /-- Slots are taken, given back or waited for. -/
  | slots (s : Server) (freeSlots : Nat) (waiting : List Nat) :
      Step s { s with freeSlots := freeSlots, waiting := waiting }
  /-- A request is counted in; only a serving server takes it. -/
  | countIn (s : Server) (h : s.state = .serving) : Step s { s with inflight := s.inflight + 1 }
  /-- A request is counted out. -/
  | countOut (s : Server) : Step s { s with inflight := s.inflight - 1 }
  /-- It is asked to stop. -/
  | askToStop (s : Server) : Step s s.askToStop.1
  /-- It stops. -/
  | shutDown (s : Server) : Step s s.shutDown.1
  /-- The one who asked for it lets it go. -/
  | letGo (s : Server) : Step s { s with isKept := false }
  /-- It gets another table, as long as it has not stopped. -/
  | setTable (s : Server) (table : ModelTable) (h : s.state ≠ .stopped) :
      Step s { s with table := table }
  /-- Handles come and go. -/
  | setRegistry (s : Server) (registry : Registry)
      (h : s.registry.IsSound -> registry.IsSound) : Step s { s with registry := registry }

def Steps : Server -> Server -> Prop := Relation.ReflTransGen Step

def IsNew (s : Server) : Prop :=
  exists (options : ServerOptions) (allocator : Nat) (readings : Readings) (table : ModelTable),
    options.executionSlots ≠ 0 ∧ s = { new options allocator readings with table := table }

theorem Steps.refl (s : Server) : s.Steps s := Relation.ReflTransGen.refl

theorem Steps.of_eq {s s' : Server} (h : s' = s) : s.Steps s' := by
  rw [h]
  exact Steps.refl s

theorem Steps.one {s s' : Server} (h : s.Step s') : s.Steps s' := Relation.ReflTransGen.single h

theorem Steps.trans {s middle s' : Server} (h : s.Steps middle) (k : middle.Steps s') :
    s.Steps s' :=
  Relation.ReflTransGen.trans h k

theorem Steps.induct {P : Server -> Prop}
    (hstep : forall s s' : Server, s.Step s' -> P s -> P s') {s s' : Server} (h : s.Steps s')
    (hP : P s) : P s' := by
  induction h with
  | refl => exact hP
  | tail _ hlast ih => exact hstep _ _ hlast ih

theorem Step.rank_le {s s' : Server} (h : s.Step s') : s.state.rank ≤ s'.state.rank := by
  cases h with
  | askToStop =>
      unfold Server.askToStop
      split
      · rename_i hserving
        rw [hserving]
        exact Nat.zero_le _
      · exact Nat.le_refl _
  | shutDown =>
      unfold Server.shutDown
      split
      · exact Nat.le_refl _
      · show s.state.rank ≤ 2
        cases s.state <;> decide
  | _ => exact Nat.le_refl _

theorem Steps.rank_le {s s' : Server} (h : s.Steps s') : s.state.rank ≤ s'.state.rank :=
  h.induct (P := fun middle => s.state.rank ≤ middle.state.rank)
    (fun _ _ hstep hmiddle => Nat.le_trans hmiddle hstep.rank_le) (Nat.le_refl _)

theorem Step.options {s s' : Server} (h : s.Step s') : s'.options = s.options := by
  cases h with
  | askToStop => exact (becomes_askToStop s).options
  | shutDown => exact (becomes_shutDown s).options
  | _ => rfl

theorem Steps.options {s s' : Server} (h : s.Steps s') : s'.options = s.options :=
  h.induct (P := fun middle => middle.options = s.options)
    (fun _ _ hstep hmiddle => hstep.options.trans hmiddle) rfl

theorem not_serving_of_rank_le {s s' : Server} (h : s.state.rank ≤ s'.state.rank)
    (hs : s.state ≠ .serving) : s'.state ≠ .serving := by
  intro hserving
  rw [hserving] at h
  cases hstate : s.state with
  | serving => exact hs hstate
  | stopping =>
      rw [hstate] at h
      cases h
  | stopped =>
      rw [hstate] at h
      cases h

theorem stopped_of_rank_le {s s' : Server} (h : s.state.rank ≤ s'.state.rank)
    (hs : s.state = .stopped) : s'.state = .stopped := by
  rw [hs] at h
  cases hstate : s'.state with
  | serving =>
      rw [hstate] at h
      cases h
  | stopping =>
      rw [hstate] at h
      exact absurd h (by decide)
  | stopped => rfl

theorem stopping_of_rank_le {s s' : Server} (h : s.state.rank ≤ s'.state.rank)
    (hs : s.state = .stopping) (hs' : s'.state ≠ .stopped) : s'.state = .stopping := by
  have hshut := not_serving_of_rank_le h (by rw [hs]; decide)
  cases hstate : s'.state with
  | serving => exact absurd hstate hshut
  | stopping => rfl
  | stopped => exact absurd hstate hs'

theorem Step.inflight_le {s s' : Server} (h : s.Step s') (hs : s.state ≠ .serving) :
    s'.inflight ≤ s.inflight := by
  cases h with
  | countIn hserving => exact absurd hserving hs
  | countOut => exact Nat.sub_le _ _
  | askToStop => exact Nat.le_of_eq (becomes_askToStop s).inflight
  | shutDown => exact Nat.le_of_eq (becomes_shutDown s).inflight
  | _ => exact Nat.le_refl _

theorem Steps.inflight_le {s s' : Server} (h : s.Steps s') (hs : s.state ≠ .serving) :
    s'.state ≠ .serving ∧ s'.inflight ≤ s.inflight := by
  refine h.induct (P := fun middle => middle.state ≠ .serving ∧ middle.inflight ≤ s.inflight)
    ?_ ⟨hs, Nat.le_refl _⟩
  intro middle s' hstep hmiddle
  constructor
  · exact not_serving_of_rank_le hstep.rank_le hmiddle.1
  · exact Nat.le_trans (hstep.inflight_le hmiddle.1) hmiddle.2

def IsCleared (s : Server) : Prop := s.state = .stopped -> s.table = .empty

theorem Step.isCleared {s s' : Server} (h : s.Step s') (hs : s.IsCleared) : s'.IsCleared := by
  cases h with
  | askToStop =>
      unfold Server.askToStop
      split
      · intro hstopped
        cases hstopped
      · exact hs
  | shutDown =>
      unfold Server.shutDown
      split
      · exact hs
      · intro _
        rfl
  | setTable table hstate => exact fun hstopped => absurd hstopped hstate
  | _ => exact hs

theorem Step.isSound {s s' : Server} (h : s.Step s') (hs : s.registry.IsSound) :
    s'.registry.IsSound := by
  cases h with
  | askToStop =>
      unfold Server.askToStop
      split <;> exact hs
  | shutDown =>
      unfold Server.shutDown
      split
      · exact hs
      · exact Registry.isSound_unregisterAll s.registry
  | setRegistry registry hregistry => exact hregistry hs
  | _ => exact hs

end Server

/-!
# Steps of all servers

From one engine to a later one no server goes away, and each comes further.
-/

namespace Engine

/-- The servers of an engine have come further, and some may have been built. -/
structure Tends (e e' : Engine) : Prop where
  length : e.servers.length ≤ e'.servers.length
  server : forall k : Nat, k < e.servers.length -> (e.server k).Steps (e'.server k)
  built : forall k : Nat, e.servers.length ≤ k -> k < e'.servers.length ->
    exists s : Server, s.IsNew ∧ s.Steps (e'.server k)

theorem Tends.of_servers {e e' : Engine} (h : e'.servers = e.servers) : e.Tends e' where
  length := Nat.le_of_eq (by rw [h])
  server k _ := Server.Steps.of_eq (server_of_servers h k)
  built k hk hk' := by
    rw [h] at hk'
    exact absurd hk' (Nat.not_lt_of_le hk)

theorem Tends.refl (e : Engine) : e.Tends e := Tends.of_servers rfl

theorem Tends.trans {e middle e' : Engine} (h : e.Tends middle) (k : middle.Tends e') :
    e.Tends e' where
  length := Nat.le_trans h.length k.length
  server n hn := (h.server n hn).trans (k.server n (Nat.lt_of_lt_of_le hn h.length))
  built n hn hn' := by
    rcases Nat.lt_or_ge n middle.servers.length with hlt | hge
    · rcases h.built n hn hlt with ⟨s, hnew, hsteps⟩
      exact ⟨s, hnew, hsteps.trans (k.server n hlt)⟩
    · exact k.built n hge hn'

theorem Tends.since {e middle e' : Engine} (k : middle.Tends e')
    (h : middle.servers = e.servers) : e.Tends e' :=
  (Tends.of_servers h).trans k

theorem Tends.until {e middle e' : Engine} (h : e.Tends middle)
    (k : e'.servers = middle.servers) : e.Tends e' :=
  h.trans (Tends.of_servers k)

theorem Tends.foldl {α : Type} {f : Engine -> α -> Engine}
    (h : forall (e : Engine) (a : α), e.Tends (f e a)) (xs : List α) (e : Engine) :
    e.Tends (xs.foldl f e) := by
  induction xs generalizing e with
  | nil => exact Tends.refl e
  | cons x rest ih => exact (h e x).trans (ih (f e x))

theorem tends_modifyServer {e : Engine} {n : Nat} {f : Server -> Server}
    (h : (e.server n).Step (f (e.server n))) : e.Tends (e.modifyServer n f) where
  length := by simp [modifyServer]
  server k _ := by
    rw [server_modifyServer]
    split
    · rename_i hk
      rw [hk.1]
      exact Server.Steps.one h
    · exact Server.Steps.refl _
  built k hk hk' := by
    have hlength : (e.modifyServer n f).servers.length = e.servers.length := by
      simp [modifyServer]
    rw [hlength] at hk'
    exact absurd hk' (Nat.not_lt_of_le hk)

theorem tends_addServer {e : Engine} {options : ServerOptions} (h : options.executionSlots ≠ 0)
    (allocator : Nat) (table : ModelTable) : e.Tends (e.addServer options allocator table) where
  length := by simp [addServer]
  server k hk := by
    rw [server_addServer, if_neg (Nat.ne_of_lt hk)]
    exact Server.Steps.refl _
  built k hk hk' := by
    have hlength : (e.addServer options allocator table).servers.length =
        e.servers.length + 1 := by simp [addServer]
    have hk : k = e.servers.length := by omega
    refine ⟨_, ⟨options, allocator, e.readings, table, h, rfl⟩, ?_⟩
    rw [server_addServer, if_pos hk]
    exact Server.Steps.refl _

theorem tends_report (e : Engine) (events : List Event) : e.Tends (e.report events) :=
  Tends.of_servers rfl

theorem tends_setStop (e : Engine) (n : Nat) (phase : StopPhase) : e.Tends (e.setStop n phase) :=
  Tends.of_servers rfl

/-!
# Answering requests
-/

theorem tends_releaseSlot (e : Engine) (k : Nat) : e.Tends (e.releaseSlot k) := by
  unfold releaseSlot
  split
  · exact tends_modifyServer (.slots _ _ _)
  · exact (tends_modifyServer (.slots _ _ _)).until rfl

theorem tends_callBack (e : Engine) (n : Nat) (taken? : Option Nat) (response : Response) :
    e.Tends (e.callBack n taken? response) :=
  Tends.of_servers (servers_hand _ n response)

theorem tends_respond (e : Engine) (n : Nat)
    (result : Except Failure (List (String × OutputStorage))) : e.Tends (e.respond n result) := by
  have hnoted : e.Tends (e.noteResult n result) := by
    cases result <;> exact Tends.of_servers rfl
  exact (hnoted.trans (tends_releaseSlot _ _)).trans (tends_callBack _ n _ _)

theorem tends_countOut (e : Engine) (k : Nat) : e.Tends (e.countOut k) := by
  simp only [countOut]
  split
  · exact (tends_modifyServer (.countOut _)).until rfl
  · exact tends_modifyServer (.countOut _)

theorem tends_comeBack (e : Engine) (n : Nat) : e.Tends (e.comeBack n) := by
  have hcalling : e.Tends { e with calling := e.calling.erase n } := Tends.of_servers rfl
  exact hcalling.trans (tends_countOut _ _)

theorem tends_finish (e : Engine) (n : Nat)
    (result : Except Failure (List (String × OutputStorage))) : e.Tends (e.finish n result) :=
  (tends_respond e n result).trans (tends_comeBack _ n)

theorem tends_conclude (e : Engine) (n : Nat) (result : Except Failure Unit)
    (slots : List OutputSlot) : e.Tends (e.conclude n result slots) := by
  have htaken : e.Tends (e.takeSlots n result slots) := Tends.of_servers rfl
  exact (htaken.trans (tends_respond _ n _)).trans (tends_comeBack _ n)

theorem tends_giveUp (e : Engine) (n : Nat) : e.Tends (e.giveUp n) := by
  have hwithdrawn : e.Tends (e.withdraw n) := by
    simp only [withdraw]
    split
    · exact tends_releaseSlot e _
    · exact tends_modifyServer (.slots _ _ _)
  exact hwithdrawn.trans ((tends_callBack _ n none _).since rfl)

theorem tends_cancel (e : Engine) (n : Nat) : e.Tends (e.cancel n) := by
  unfold cancel
  split
  · exact (tends_giveUp e n).trans (tends_comeBack _ n)
  · exact Tends.refl e

theorem tends_unwind (e : Engine) (n : Nat) (slots : List OutputSlot) :
    e.Tends (e.unwind n slots) := by
  have hgiven : e.Tends ((e.recordUnwinding ⟨n, slots⟩).giveUp n) := (tends_giveUp _ n).since rfl
  exact hgiven.trans (tends_comeBack _ n)

/-!
# Executing
-/

theorem tends_proceed (e : Engine) (n : Nat) (next : Behaviour) :
    e.Tends (e.proceed n next) := by
  induction next generalizing e with
  | finish result slots => exact tends_conclude e n result slots
  | panic slots => exact tends_conclude e n _ slots
  | awaitGate slots resume ih =>
      unfold proceed
      split
      · exact (ih false _).since rfl
      · split
        · exact Tends.of_servers rfl
        · exact (ih true _).since rfl

theorem tends_carryOut (e : Engine) (n : Nat) : e.Tends (e.carryOut n) := by
  simp only [carryOut]
  split
  · exact tends_finish e n _
  · split
    · exact (tends_finish _ n _).since rfl
    · exact (tends_unwind _ n _).since rfl
    · exact (tends_proceed _ n _).since rfl

theorem tends_execute (e : Engine) (n : Nat) : e.Tends (e.execute n) :=
  (tends_carryOut _ n).since rfl

theorem tends_runRequest (e : Engine) (n : Nat) : e.Tends (e.runRequest n) := by
  unfold runRequest
  split
  · split
    · rename_i e' htake
      rcases takeSlot?_eq_some htake with ⟨free, rfl⟩
      exact (tends_modifyServer (.slots _ _ _)).trans ((tends_execute _ n).since rfl)
    · exact (tends_modifyServer (.slots _ _ _)).until rfl
  · exact tends_execute e n
  · exact (tends_proceed _ n _).since rfl
  · exact Tends.refl e

/-!
# Stopping and loading
-/

theorem tends_shutDown (e : Engine) (n : Nat) : e.Tends (e.shutDown n) :=
  (tends_modifyServer (f := fun _ => (e.server n).shutDown.1) (.shutDown _)).trans
    (Tends.of_servers rfl)

theorem tends_collect (e : Engine) (n : Nat) : e.Tends (e.collect n) := by
  unfold collect
  split
  · exact Tends.refl e
  · exact (tends_shutDown e n).until rfl

theorem tends_dropServer (e : Engine) (n : Nat) : e.Tends (e.dropServer n) :=
  (tends_modifyServer (.letGo _)).trans (tends_collect _ n)

theorem tends_settleStop (e : Engine) (n deadline : Nat) :
    e.Tends (e.settleStop n deadline) := by
  simp only [settleStop]
  split
  · exact (tends_shutDown e _).until rfl
  · split
    · exact (tends_shutDown e _).until rfl
    · exact Tends.of_servers rfl

theorem tends_runStop (e : Engine) (n : Nat) : e.Tends (e.runStop n) := by
  simp only [runStop]
  split
  · split
    · exact Tends.of_servers rfl
    · have hasked : e.Tends (e.askToStop (e.stopCall n).server) :=
        (tends_modifyServer (f := fun _ => (e.server (e.stopCall n).server).askToStop.1)
          (.askToStop _)).until rfl
      exact hasked.trans (tends_settleStop _ n _)
  · exact tends_settleStop e n _
  · exact Tends.refl e

theorem tends_abandonStop (e : Engine) (n : Nat) : e.Tends (e.abandonStop n) := by
  unfold abandonStop
  split
  · exact (tends_collect _ _).since rfl
  · exact Tends.refl e

theorem tends_perform (factory : Option BackendFactory) (polled : Option Nat) (e : Engine)
    (action : LoadAction) : e.Tends (perform factory polled e action) := by
  cases action with
  | report event => exact Tends.of_servers rfl
  | create config version =>
      cases factory with
      | none => exact Tends.refl e
      | some factory =>
          cases polled with
          | none => exact Tends.of_servers rfl
          | some n =>
              simp only [perform, Option.map_some]
              split
              · exact ((tends_runStop _ _).trans (tends_setStop _ _ _)).since rfl
              · exact Tends.of_servers rfl

theorem tends_load (factory : Option BackendFactory) (polled : Option Nat)
    (actions : List LoadAction) (e : Engine) :
    e.Tends (actions.foldl (perform factory polled) e) :=
  Tends.foldl (tends_perform factory polled) actions e

theorem tends_build (e : Engine) (options : ServerOptions) (allocator : Option Nat)
    (scan : Except Failure (List RepositoryModel)) (factory : Option BackendFactory)
    (isInside : Bool) : e.Tends (e.build options allocator scan factory isInside).2 := by
  simp only [build]
  split
  · exact Tends.refl e
  · split
    · exact Tends.refl e
    · rename_i hslots
      cases scan with
      | error failure => exact Tends.refl e
      | ok models =>
          have hloaded : e.Tends (e.reconcile factory none options .empty models).2.2 :=
            (tends_load factory none _ e).until rfl
          apply hloaded.trans
          simp only
          split
          · exact Tends.of_servers rfl
          · cases allocator with
            | some n => exact (tends_addServer hslots _ _).until rfl
            | none =>
                exact ((tends_addServer hslots _ _).trans (tends_report _ _)).since rfl

theorem tends_poll (e : Engine) (n : Nat) (scan : Except Failure (List RepositoryModel))
    (factory : Option BackendFactory) : e.Tends (e.poll n scan factory).2 := by
  simp only [poll]
  split
  · exact Tends.refl e
  · cases scan with
    | error failure => exact Tends.refl e
    | ok models =>
        have hloaded : e.Tends (e.reconcile factory (some n) (e.server n).options
            (e.server n).table models).2.2 :=
          (tends_load factory (some n) _ e).until rfl
        apply hloaded.trans
        simp only
        split
        · exact Tends.refl _
        · rename_i hstate
          split
          · exact (tends_modifyServer (.setTable _ _ hstate)).until rfl
          · exact (tends_modifyServer (.setTable _ _ hstate)).until rfl

/-!
# Operations and runs

What holds of a new server and is kept by every step holds of every server.
-/

theorem tends_submit (e : Engine) (server callback : Nat) (provider : Provider) :
    e.Tends (e.submit server provider callback).2 := by
  unfold submit
  split
  · exact Tends.refl e
  · split
    · exact Tends.refl e
    · rename_i hstate
      have hserving : (e.server server).state = .serving := Classical.not_not.1 hstate
      have hcounted : e.Tends (e.countIn server) := tends_modifyServer (.countIn _ hserving)
      split
      · exact hcounted.trans (tends_countOut _ server)
      · apply hcounted.trans
        simp only [launch]
        split
        · exact Tends.of_servers rfl
        · exact (tends_cancel _ _).since rfl

theorem tends_dequeue (e : Engine) (position : Nat) : e.Tends (e.dequeue position) := by
  rcases dequeue_eq e position with ⟨woken, started, hdequeue⟩
  rw [hdequeue]
  exact Tends.of_servers rfl

theorem tends_runAt (e : Engine) (position : Nat) : e.Tends (e.runAt position) := by
  unfold runAt
  split
  · exact Tends.refl e
  · rename_i job _
    cases job with
    | request n => exact (tends_dequeue e position).trans (tends_runRequest _ n)
    | stop n => exact (tends_dequeue e position).trans (tends_runStop _ n)

theorem servers_letThrough (e : Engine) (n : Nat) : (e.letThrough n).servers = e.servers := by
  unfold letThrough
  split <;> rfl

theorem tends_close (e : Engine) : e.Tends e.close := by
  have hquit : e.Tends { e with isRunning := false } := Tends.of_servers rfl
  have hcancelled : e.Tends { e with isRunning := false }.cancelAll :=
    hquit.trans (Tends.foldl tends_cancel _ _)
  have habandoned : e.Tends { e with isRunning := false }.cancelAll.abandonAll :=
    hcancelled.trans (Tends.foldl tends_abandonStop _ _)
  exact habandoned.until rfl

theorem tends_operate (e : Engine) (op : Operation) : e.Tends (e.operate op) := by
  cases op with
  | build options allocator scan factory isInside =>
      simp only [operate]
      split
      · exact tends_build e options allocator scan factory isInside
      · exact Tends.refl e
  | poll server scan factory => exact tends_poll e server scan factory
  | submit server provider callback => exact tends_submit e server callback provider
  | runAt position => exact tends_runAt e position
  | cancel n => exact tends_cancel e n
  | callStop server => exact (tends_runStop _ _).since rfl
  | abandonStop call => exact tends_abandonStop e call
  | dropServer server => exact tends_dropServer e server
  | openGate permits =>
      exact (Tends.foldl (fun e n => Tends.of_servers (servers_letThrough e n)) _ _).since rfl
  | closeGate =>
      exact (Tends.foldl (fun e n => Tends.of_servers (servers_letThrough e n)) _ _).since rfl
  | dropResponse n =>
      apply Tends.of_servers
      simp only [operate, dropResponse]
      split <;> rfl
  | register server name key offset size =>
      exact (tends_modifyServer (.setRegistry _ _ fun h =>
        h.register e.directory (e.holdsMapping server) name key offset size)).until rfl
  | unregister server name =>
      simp only [operate, unregister]
      split
      · rename_i registry hregistry
        exact (tends_modifyServer (.setRegistry _ _ fun h => h.unregister hregistry)).until rfl
      · exact Tends.refl e
  | unregisterAll server =>
      exact (tends_modifyServer (.setRegistry _ _ fun _ =>
        Registry.isSound_unregisterAll _)).until rfl
  | allocate n domain region size =>
      apply Tends.of_servers
      simp only [operate, allocateFrom]
      split <;> rfl
  | close => exact tends_close e
  | beginStop | wakeStop | tick | ignore | setDirectory | report | addAllocator | free =>
      exact Tends.of_servers rfl

theorem tends_after (e : Engine) (ops : List Operation) : e.Tends (e.after ops) :=
  Tends.foldl tends_operate ops e

theorem Tends.holds {P : Server -> Prop} (hnew : forall s : Server, s.IsNew -> P s)
    (hstep : forall s s' : Server, s.Step s' -> P s -> P s') {e : Engine} (h : empty.Tends e)
    {k : Nat} (hk : k < e.servers.length) : P (e.server k) := by
  rcases h.built k (Nat.zero_le k) hk with ⟨s, hs, hsteps⟩
  exact hsteps.induct hstep (hnew s hs)

theorem tends_reached (ops : List Operation) : empty.Tends (reached ops) := tends_after empty ops

theorem Tends.isCleared {e : Engine} (h : empty.Tends e) (k : Nat) : (e.server k).IsCleared := by
  rcases Nat.lt_or_ge k e.servers.length with hlt | hge
  · refine h.holds ?_ (fun s s' hstep hs => hstep.isCleared hs) hlt
    rintro s ⟨options, allocator, readings, table, _, rfl⟩ hstopped
    cases hstopped
  · have hdefault : e.server k = default := by
      simp [Engine.server, hge]
    rw [hdefault]
    exact fun _ => rfl

theorem Tends.isSound {e : Engine} (h : empty.Tends e) (k : Nat) :
    (e.server k).registry.IsSound := by
  rcases Nat.lt_or_ge k e.servers.length with hlt | hge
  · refine h.holds (P := fun s => s.registry.IsSound) ?_ (fun s s' hstep hs => hstep.isSound hs) hlt
    rintro s ⟨options, allocator, readings, table, _, rfl⟩
    exact Registry.isSound_empty
  · have hdefault : e.server k = default := by
      simp [Engine.server, hge]
    rw [hdefault]
    exact Registry.isSound_empty

end Engine

end InferenceEngine
