import InferenceEngine.Proofs.Requests.Attempts
import InferenceEngine.Proofs.Servers.Steps
import Mathlib.Data.List.Induction

/-!
# Calls that stop servers

A call that stops a server looks at it a first time when it begins, and then whenever it is woken.
Each look either ends the call, with the server stopped, or leaves it waiting for the time that was
set at the first look.  So from a call that has ended one can read off when it began, when it ended
and what it found then.
-/

namespace InferenceEngine

namespace Engine

/-!
# Calls by number
-/

theorem stopCall_setStop (e : Engine) (n m : Nat) (p : StopPhase) :
    (e.setStop n p).stopCall m =
      if m = n ∧ n < e.stops.length then { e.stopCall n with phase := p } else e.stopCall m :=
  getD_modify e.stops n m _ default

theorem phase_setStop_self {e : Engine} {n : Nat} {p : StopPhase} (h : n < e.stops.length) :
    ((e.setStop n p).stopCall n).phase = p := by
  rw [stopCall_setStop, if_pos ⟨rfl, h⟩]

theorem stopCall_addStop (e : Engine) (server m : Nat) :
    (e.addStop server).1.stopCall m =
      if m = e.stops.length then ⟨server, .pending⟩ else e.stopCall m :=
  getD_concat e.stops m _ default

theorem stopCall_of_stops {e e' : Engine} (h : e'.stops = e.stops) (m : Nat) :
    e'.stopCall m = e.stopCall m := by
  unfold stopCall
  rw [h]

theorem stops_collect (e : Engine) (n : Nat) : (e.collect n).stops = e.stops := by
  unfold collect
  split <;> rfl

/-!
# One look at a server

The first look asks the server to stop; then it has stopped, or it is waited for.
-/

def WaitsUntil (e : Engine) (n deadline : Nat) : Prop :=
  (e.stopCall n).phase = .draining deadline ∨
    (e.stopCall n).phase = .pending ∧ (e.server (e.stopCall n).server).state ≠ .stopped ∧
      deadline = e.clock + (e.server (e.stopCall n).server).options.exitTimeout

/-- What a call that waits until a time and ends now finds. -/
def EndsNow (e : Engine) (n deadline : Nat) : Except Failure Unit -> Prop
  | .ok () => (e.server (e.stopCall n).server).inflight = 0
  | .error failure => deadline ≤ e.clock ∧ 0 < (e.server (e.stopCall n).server).inflight ∧
      failure = .stillInFlight (e.server (e.stopCall n).server).inflight
        (e.server (e.stopCall n).server).options.exitTimeout

theorem stopped_shutDown (e : Engine) (k : Nat) : ((e.shutDown k).server k).state = .stopped := by
  have hserver : (e.shutDown k).server k =
      if k = k ∧ k < e.servers.length then (e.server k).shutDown.1 else e.server k :=
    server_modifyServer e k k fun _ => (e.server k).shutDown.1
  rw [hserver]
  split
  · unfold Server.shutDown
    split
    · assumption
    · rfl
  · rename_i hlt
    by_cases hstate : (e.server k).state = .stopped
    · exact hstate
    · exact absurd ⟨rfl, lt_of_state hstate⟩ hlt

theorem stopCall_runStop_of_ne (e : Engine) {n m : Nat} (h : m ≠ n) :
    (e.runStop n).stopCall m = e.stopCall m := by
  have hset : forall (e' : Engine) (p : StopPhase),
      (e'.setStop n p).stopCall m = e'.stopCall m := by
    intro e' p
    rw [stopCall_setStop, if_neg fun hboth => h hboth.1]
  have hsettle : forall (e' : Engine) (deadline : Nat),
      (e'.settleStop n deadline).stopCall m = e'.stopCall m := by
    intro e' deadline
    simp only [settleStop]
    split
    · exact hset _ _
    · split
      · exact hset _ _
      · exact hset _ _
  simp only [runStop]
  split
  · split
    · exact hset _ _
    · exact hsettle _ _
  · exact hsettle _ _
  · rfl

theorem length_stops_runStop (e : Engine) (n : Nat) :
    (e.runStop n).stops.length = e.stops.length := by
  have hsettle : forall (e' : Engine) (deadline : Nat),
      (e'.settleStop n deadline).stops.length = e'.stops.length := by
    intro e' deadline
    simp only [settleStop]
    split
    · exact List.length_modify ..
    · split <;> exact List.length_modify ..
  simp only [runStop]
  split
  · split
    · exact List.length_modify ..
    · exact hsettle _ _
  · exact hsettle _ _
  · rfl

theorem runStop_of_not_running {e : Engine} {n : Nat} (h : (e.stopCall n).isRunning = false) :
    e.runStop n = e := by
  unfold StopCall.isRunning at h
  simp only [runStop]
  split
  · rename_i hphase
    rw [hphase] at h
    cases h
  · rename_i deadline hphase
    rw [hphase] at h
    cases h
  · rfl

theorem settleStop_spec {e : Engine} {n : Nat} (hn : n < e.stops.length) (deadline : Nat) :
    match ((e.settleStop n deadline).stopCall n).phase with
    | .finished result => e.EndsNow n deadline result ∧
        ((e.settleStop n deadline).server (e.stopCall n).server).state = .stopped
    | .draining d => d = deadline ∧ e.clock < deadline ∧
        0 < (e.server (e.stopCall n).server).inflight
    | _ => False := by
  by_cases hnone : (e.server (e.stopCall n).server).inflight = 0
  · have hsettle : e.settleStop n deadline =
        (e.shutDown (e.stopCall n).server).setStop n (.finished (.ok ())) := by
      simp only [settleStop]
      rw [if_pos hnone]
    rw [hsettle, phase_setStop_self]
    · exact ⟨hnone, stopped_shutDown e _⟩
    · exact hn
  · have hsome := Nat.pos_of_ne_zero hnone
    by_cases hover : deadline ≤ e.clock
    · have hsettle : e.settleStop n deadline =
          ((e.shutDown (e.stopCall n).server).report [.stopTimedOut
            (e.server (e.stopCall n).server).id
            (e.server (e.stopCall n).server).inflight]).setStop n
            (.finished (.error (.stillInFlight (e.server (e.stopCall n).server).inflight
              (e.server (e.stopCall n).server).options.exitTimeout))) := by
        simp only [settleStop]
        rw [if_neg hnone, if_pos hover]
      rw [hsettle, phase_setStop_self]
      · exact ⟨⟨hover, hsome, rfl⟩, stopped_shutDown e _⟩
      · exact hn
    · have hsettle : e.settleStop n deadline = e.setStop n (.draining deadline) := by
        simp only [settleStop]
        rw [if_neg hnone, if_neg hover]
      rw [hsettle, phase_setStop_self hn]
      exact ⟨rfl, Nat.lt_of_not_le hover, hsome⟩

theorem server_askToStop (e : Engine) (k : Nat) :
    (e.askToStop k).server k = (e.server k).askToStop.1 := by
  have hserver : (e.askToStop k).server k =
      if k = k ∧ k < e.servers.length then (e.server k).askToStop.1 else e.server k :=
    server_modifyServer e k k fun _ => (e.server k).askToStop.1
  rw [hserver]
  split
  · rfl
  · rename_i hlt
    have hstopped : (e.server k).state = .stopped := by
      by_cases hstate : (e.server k).state = .stopped
      · exact hstate
      · exact absurd ⟨rfl, lt_of_state hstate⟩ hlt
    unfold Server.askToStop
    rw [if_neg (by rw [hstopped]; decide)]

theorem runStop_spec {e : Engine} {n : Nat} (hn : n < e.stops.length) :
    match ((e.runStop n).stopCall n).phase with
    | .pending => False
    | .finished result =>
        (e.stopCall n).phase = .finished result ∨
        ((e.stopCall n).phase = .pending ∧
          (e.server (e.stopCall n).server).state = .stopped ∧ result = .ok () ∧
          e.runStop n = e.setStop n (.finished (.ok ()))) ∨
        (exists deadline : Nat, e.WaitsUntil n deadline ∧ e.EndsNow n deadline result ∧
          ((e.runStop n).server (e.stopCall n).server).state = .stopped)
    | .draining deadline => e.WaitsUntil n deadline ∧ e.clock < deadline
    | .abandoned => (e.stopCall n).phase = .abandoned := by
  cases hphase : (e.stopCall n).phase with
  | pending =>
      by_cases hstate : (e.server (e.stopCall n).server).state = .stopped
      · have hrun : e.runStop n = e.setStop n (.finished (.ok ())) := by
          simp only [runStop, hphase]
          rw [if_pos hstate]
        rw [hrun, stopCall_setStop, if_pos ⟨rfl, hn⟩]
        exact .inr (.inl ⟨rfl, hstate, rfl, rfl⟩)
      · have hrun : e.runStop n = (e.askToStop (e.stopCall n).server).settleStop n
            (e.clock + (e.server (e.stopCall n).server).options.exitTimeout) := by
          simp only [runStop, hphase]
          rw [if_neg hstate]
        have hbecomes := (e.server (e.stopCall n).server).becomes_askToStop
        have hserver := e.server_askToStop (e.stopCall n).server
        have hspec := settleStop_spec (e := e.askToStop (e.stopCall n).server) hn
          (e.clock + (e.server (e.stopCall n).server).options.exitTimeout)
        rw [← hrun] at hspec
        cases hafter : ((e.runStop n).stopCall n).phase with
        | pending | abandoned =>
            rw [hafter] at hspec
            exact hspec.elim
        | draining deadline =>
            rw [hafter] at hspec
            exact ⟨.inr ⟨hphase, hstate, hspec.1⟩, by rw [hspec.1]; exact hspec.2.1⟩
        | finished result =>
            rw [hafter] at hspec
            refine .inr (.inr ⟨_, .inr ⟨hphase, hstate, rfl⟩, ?_, hspec.2⟩)
            have hends := hspec.1
            have hcall : (e.askToStop (e.stopCall n).server).stopCall n = e.stopCall n := rfl
            unfold EndsNow at hends ⊢
            rw [hcall, hserver, hbecomes.inflight, hbecomes.options] at hends
            exact hends
  | draining waits =>
      have hrun : e.runStop n = e.settleStop n waits := by
        simp only [runStop, hphase]
      have hspec := settleStop_spec hn waits
      rw [← hrun] at hspec
      cases hafter : ((e.runStop n).stopCall n).phase with
      | pending | abandoned =>
          rw [hafter] at hspec
          exact hspec.elim
      | draining deadline =>
          rw [hafter] at hspec
          rw [hspec.1]
          exact ⟨.inl hphase, hspec.2.1⟩
      | finished result =>
          rw [hafter] at hspec
          exact .inr (.inr ⟨waits, .inl hphase, hspec⟩)
  | finished result =>
      rw [runStop_of_not_running (by unfold StopCall.isRunning; rw [hphase]), hphase]
      exact .inl rfl
  | abandoned =>
      rw [runStop_of_not_running (by unfold StopCall.isRunning; rw [hphase]), hphase]

/-!
# Calls from one operation to the next

A call that a factory makes has been given up by the time the factory returns.
-/

/-- An operation lets a stop call look at its server. -/
inductive Resumes (e : Engine) : Operation -> Nat -> Engine -> Prop where
  | call (server : Nat) : Resumes e (.callStop server) e.stops.length (e.addStop server).1
  | turn (position n : Nat) (h : e.queue[position]? = some (.stop n)) :
      Resumes e (.runAt position) n (e.dequeue position)

theorem Resumes.operate_eq {e start : Engine} {op : Operation} {n : Nat}
    (h : e.Resumes op n start) : e.operate op = start.runStop n := by
  cases h with
  | call server => rfl
  | turn position n hjob =>
      simp only [operate, runAt, hjob]
      rfl

theorem stops_dequeue (e : Engine) (position : Nat) : (e.dequeue position).stops = e.stops := by
  rcases dequeue_eq e position with ⟨woken, started, hdequeue⟩
  rw [hdequeue]

/-- Each call is as before, unless it has been given up. -/
def GivesUpStops (e e' : Engine) : Prop :=
  forall n : Nat, e'.stopCall n = e.stopCall n ∨ (e'.stopCall n).phase = .abandoned

theorem GivesUpStops.of_stops {e e' : Engine} (h : e'.stops = e.stops) : e.GivesUpStops e' :=
  fun n => .inl (stopCall_of_stops h n)

theorem GivesUpStops.trans {e middle e' : Engine} (h : e.GivesUpStops middle)
    (k : middle.GivesUpStops e') : e.GivesUpStops e' := by
  intro n
  rcases k n with hsame | hgone
  · rw [hsame]
    exact h n
  · exact .inr hgone

theorem GivesUpStops.foldl {α : Type} {f : Engine -> α -> Engine}
    (h : forall (e : Engine) (a : α), e.GivesUpStops (f e a)) (xs : List α) (e : Engine) :
    e.GivesUpStops (xs.foldl f e) := by
  induction xs generalizing e with
  | nil => exact .of_stops rfl
  | cons x rest ih => exact (h e x).trans (ih (f e x))

theorem givesUpStops_perform (factory : Option BackendFactory) (polled : Option Nat) (e : Engine)
    (action : LoadAction) : e.GivesUpStops (perform factory polled e action) := by
  cases action with
  | report event => exact .of_stops rfl
  | create config version =>
      cases factory with
      | none => exact .of_stops rfl
      | some factory =>
          cases polled with
          | none => exact .of_stops rfl
          | some k =>
              simp only [perform, Option.map_some]
              split
              · intro n
                by_cases hn : n = e.stops.length
                · right
                  rw [hn]
                  apply phase_setStop_self
                  rw [length_stops_runStop]
                  simp [addStop, record]
                · left
                  rw [stopCall_setStop, if_neg fun hboth => hn hboth.1, stopCall_runStop_of_ne,
                    stopCall_addStop, if_neg]
                  · rfl
                  · exact hn
                  · exact hn
              · exact .of_stops rfl

theorem givesUpStops_build (e : Engine) (options : ServerOptions) (allocator : Option Nat)
    (scan : Except Failure (List RepositoryModel)) (factory : Option BackendFactory)
    (isInside : Bool) : e.GivesUpStops (e.build options allocator scan factory isInside).2 := by
  simp only [build]
  split
  · exact .of_stops rfl
  · split
    · exact .of_stops rfl
    · cases scan with
      | error failure => exact .of_stops rfl
      | ok models =>
          have hloaded : e.GivesUpStops (e.reconcile factory none options .empty models).2.2 :=
            (GivesUpStops.foldl (givesUpStops_perform factory none) _ e).trans (.of_stops rfl)
          refine hloaded.trans (.of_stops ?_)
          simp only
          split
          · rfl
          · cases allocator <;> rfl

theorem givesUpStops_poll (e : Engine) (k : Nat) (scan : Except Failure (List RepositoryModel))
    (factory : Option BackendFactory) : e.GivesUpStops (e.poll k scan factory).2 := by
  simp only [poll]
  split
  · exact .of_stops rfl
  · cases scan with
    | error failure => exact .of_stops rfl
    | ok models =>
        have hloaded : e.GivesUpStops (e.reconcile factory (some k) (e.server k).options
            (e.server k).table models).2.2 :=
          (GivesUpStops.foldl (givesUpStops_perform factory (some k)) _ e).trans (.of_stops rfl)
        refine hloaded.trans (.of_stops ?_)
        simp only
        split
        · rfl
        · split <;> rfl

theorem givesUpStops_abandonStop (e : Engine) (n : Nat) : e.GivesUpStops (e.abandonStop n) := by
  unfold abandonStop
  split
  · rename_i hrunning
    intro m
    rw [stopCall_of_stops (stops_collect _ _), stopCall_setStop]
    split
    · exact .inr rfl
    · exact .inl rfl
  · exact .of_stops rfl

theorem givesUpStops_close (e : Engine) : e.GivesUpStops e.close := by
  have hquit : e.GivesUpStops { e with isRunning := false } := .of_stops rfl
  have hcancelled : e.GivesUpStops { e with isRunning := false }.cancelAll :=
    hquit.trans (GivesUpStops.foldl (fun e n => .of_stops (spares_cancel e n).stops) _ _)
  have habandoned : e.GivesUpStops { e with isRunning := false }.cancelAll.abandonAll :=
    hcancelled.trans (GivesUpStops.foldl givesUpStops_abandonStop _ _)
  exact habandoned.trans (.of_stops rfl)

theorem stops_submit (e : Engine) (server callback : Nat) (provider : Provider) :
    (e.submit server provider callback).2.stops = e.stops := by
  unfold submit
  split
  · rfl
  · split
    · rfl
    · split
      · exact (spares_countOut _ server).stops
      · exact (spares_launch _ server callback _).stops

theorem stops_letThrough (e : Engine) (n : Nat) : (e.letThrough n).stops = e.stops := by
  unfold letThrough
  split <;> rfl

/-- An operation leaves a call as it is, gives it up, makes it, or lets it look at its server. -/
theorem stopCall_operate (e : Engine) (op : Operation) (n : Nat) :
    (e.operate op).stopCall n = e.stopCall n ∨ ((e.operate op).stopCall n).phase = .abandoned ∨
      ((e.operate op).stopCall n).phase = .pending ∨
      exists start : Engine, e.Resumes op n start := by
  have hgiven : e.GivesUpStops (e.operate op) -> (e.operate op).stopCall n = e.stopCall n ∨
      ((e.operate op).stopCall n).phase = .abandoned ∨
      ((e.operate op).stopCall n).phase = .pending ∨
      exists start : Engine, e.Resumes op n start := by
    intro h
    rcases h n with hsame | hgone
    · exact .inl hsame
    · exact .inr (.inl hgone)
  cases op with
  | build options allocator scan factory isInside =>
      apply hgiven
      simp only [operate]
      split
      · exact givesUpStops_build e options allocator scan factory isInside
      · exact .of_stops rfl
  | poll server scan factory => exact hgiven (givesUpStops_poll e server scan factory)
  | submit server provider callback =>
      exact hgiven (.of_stops (stops_submit e server callback provider))
  | runAt position =>
      cases hjob : e.queue[position]? with
      | none =>
          apply hgiven
          simp only [operate, runAt, hjob]
          exact .of_stops rfl
      | some job =>
          cases job with
          | request m =>
              apply hgiven
              simp only [operate, runAt, hjob, runJob]
              exact .of_stops ((executes_runRequest _ m).stops.trans (stops_dequeue e position))
          | stop m =>
              by_cases hm : n = m
              · rw [hm]
                exact .inr (.inr (.inr ⟨_, .turn position m hjob⟩))
              · left
                simp only [operate, runAt, hjob, runJob]
                rw [stopCall_runStop_of_ne _ hm, stopCall_of_stops (stops_dequeue e position)]
  | cancel m => exact hgiven (.of_stops (spares_cancel e m).stops)
  | callStop server =>
      by_cases hn : n = e.stops.length
      · rw [hn]
        exact .inr (.inr (.inr ⟨_, .call server⟩))
      · left
        show ((e.addStop server).1.runStop e.stops.length).stopCall n = _
        rw [stopCall_runStop_of_ne _ hn, stopCall_addStop, if_neg hn]
  | beginStop server =>
      have hadded := stopCall_addStop e server n
      by_cases hn : n = e.stops.length
      · right; right; left
        rw [if_pos hn] at hadded
        exact congrArg StopCall.phase hadded
      · left
        rw [if_neg hn] at hadded
        exact hadded
  | abandonStop call => exact hgiven (givesUpStops_abandonStop e call)
  | dropServer server => exact hgiven (.of_stops (stops_collect _ server))
  | openGate permits =>
      exact hgiven (GivesUpStops.trans (.of_stops rfl)
        (GivesUpStops.foldl (fun e n => .of_stops (stops_letThrough e n)) _ _))
  | closeGate =>
      exact hgiven (GivesUpStops.trans (.of_stops rfl)
        (GivesUpStops.foldl (fun e n => .of_stops (stops_letThrough e n)) _ _))
  | dropResponse m =>
      apply hgiven
      apply GivesUpStops.of_stops
      simp only [operate, dropResponse]
      split <;> rfl
  | unregister server name =>
      apply hgiven
      apply GivesUpStops.of_stops
      simp only [operate, unregister]
      split <;> rfl
  | allocate m domain region size =>
      apply hgiven
      apply GivesUpStops.of_stops
      simp only [operate, allocateFrom]
      split <;> rfl
  | close => exact hgiven (givesUpStops_close e)
  | wakeStop | tick | ignore | register | unregisterAll | setDirectory | report | addAllocator
  | free =>
      exact .inl rfl

/-!
# Calls in a run

What is known of a call holds on as long as it is left alone.
-/

/-- In a run, the operation at a place lets a stop call look at its server. -/
def LooksAt (ops : List Operation) (i n : Nat) (start : Engine) : Prop :=
  exists op : Operation, ops[i]? = some op ∧ (reached (ops.take i)).Resumes op n start

def BeginsAt (ops : List Operation) (i n : Nat) (start : Engine) : Prop :=
  LooksAt ops i n start ∧ (start.stopCall n).phase = .pending

/-- What a call finds when it ends that began with a server which had not stopped. -/
def Finds (start finish : Engine) (n : Nat) : Except Failure Unit -> Prop
  | .ok () => (finish.server (start.stopCall n).server).inflight = 0 ∧
      forall m : Nat, (finish.submission m).server = (start.stopCall n).server ->
        finish.isInFlight m = false
  | .error failure => exists count : Nat,
      failure = .stillInFlight count
        (start.server (start.stopCall n).server).options.exitTimeout ∧
      failure.code = .unavailable ∧ 1 ≤ count ∧
      count = finish.flight (start.stopCall n).server ∧
      start.clock + (start.server (start.stopCall n).server).options.exitTimeout ≤ finish.clock

/-- How a call has come to its end in a run: with its server stopped, and, unless it had stopped
before the call began, with what it finds there. -/
def Returns (ops : List Operation) (n : Nat) (result : Except Failure Unit) : Prop :=
  exists (i j : Nat) (start finish : Engine), i ≤ j ∧ BeginsAt ops i n start ∧
    LooksAt ops j n finish ∧ ((reached (ops.take (j + 1))).stopCall n).phase = .finished result ∧
    ((reached (ops.take (j + 1))).server (start.stopCall n).server).state = .stopped ∧
    ((start.server (start.stopCall n).server).state = .stopped ∧ result = .ok () ∧
        reached (ops.take (j + 1)) = start.setStop n (.finished (.ok ())) ∨
      (start.server (start.stopCall n).server).state ≠ .stopped ∧ Finds start finish n result)

def Waits (ops : List Operation) (n deadline : Nat) : Prop :=
  exists (i : Nat) (start : Engine), BeginsAt ops i n start ∧
    (start.server (start.stopCall n).server).state ≠ .stopped ∧
    ((reached ops).stopCall n).server = (start.stopCall n).server ∧
    start.Tends (reached ops) ∧
    deadline = start.clock + (start.server (start.stopCall n).server).options.exitTimeout

def IsAccountedFor (ops : List Operation) (n : Nat) : Prop :=
  match ((reached ops).stopCall n).phase with
  | .draining deadline => Waits ops n deadline
  | .finished result => Returns ops n result
  | _ => True

theorem LooksAt.concat {ops : List Operation} {i n : Nat} {start : Engine}
    (h : LooksAt ops i n start) (op : Operation) : LooksAt (ops ++ [op]) i n start := by
  rcases h with ⟨other, hother, hresumes⟩
  have hlt : i < ops.length := (List.getElem?_eq_some_iff.1 hother).1
  refine ⟨other, ?_, ?_⟩
  · rw [List.getElem?_append_left hlt]
    exact hother
  · rw [List.take_append_of_le_length (Nat.le_of_lt hlt)]
    exact hresumes

theorem looksAt_last {ops : List Operation} {op : Operation} {n : Nat} {start : Engine}
    (h : (reached ops).Resumes op n start) : LooksAt (ops ++ [op]) ops.length n start := by
  refine ⟨op, by simp, ?_⟩
  rw [List.take_append_of_le_length (Nat.le_refl _), List.take_length]
  exact h

theorem LooksAt.lt_length {ops : List Operation} {i n : Nat} {start : Engine}
    (h : LooksAt ops i n start) : i < ops.length := by
  rcases h with ⟨_, hop, _⟩
  exact (List.getElem?_eq_some_iff.1 hop).1

theorem LooksAt.reached_eq {ops : List Operation} {i n : Nat} {start : Engine}
    (h : LooksAt ops i n start) : reached (ops.take (i + 1)) = start.runStop n := by
  rcases h with ⟨op, hop, hresumes⟩
  rw [List.take_add_one, hop]
  exact (reached_concat (ops.take i) op).trans hresumes.operate_eq

theorem Returns.concat {ops : List Operation} {n : Nat} {result : Except Failure Unit}
    (h : Returns ops n result) (op : Operation) : Returns (ops ++ [op]) n result := by
  rcases h with ⟨i, j, start, finish, hij, hbegins, hlooks, hrest⟩
  refine ⟨i, j, start, finish, hij, ⟨hbegins.1.concat op, hbegins.2⟩, hlooks.concat op, ?_⟩
  rw [List.take_append_of_le_length (Nat.succ_le_of_lt hlooks.lt_length)]
  exact hrest

theorem LooksAt.returns {ops : List Operation} {i j n : Nat} {start finish : Engine}
    {result : Except Failure Unit} (h : LooksAt ops j n finish) (hij : i ≤ j)
    (hbegins : BeginsAt ops i n start)
    (hphase : ((finish.runStop n).stopCall n).phase = .finished result)
    (hstopped : ((finish.runStop n).server (start.stopCall n).server).state = .stopped)
    (hends : (start.server (start.stopCall n).server).state = .stopped ∧ result = .ok () ∧
        finish.runStop n = start.setStop n (.finished (.ok ())) ∨
      (start.server (start.stopCall n).server).state ≠ .stopped ∧ Finds start finish n result) :
    Returns ops n result := by
  refine ⟨i, j, start, finish, hij, hbegins, h, ?_⟩
  rw [h.reached_eq]
  exact ⟨hphase, hstopped, hends⟩

theorem IsAccountedFor.concat {ops : List Operation} {n : Nat} (h : IsAccountedFor ops n)
    {op : Operation} (hsame : ((reached ops).operate op).stopCall n = (reached ops).stopCall n) :
    IsAccountedFor (ops ++ [op]) n := by
  unfold IsAccountedFor at h ⊢
  rw [reached_concat, hsame]
  cases hphase : ((reached ops).stopCall n).phase with
  | pending | abandoned => trivial
  | finished result =>
      rw [hphase] at h
      exact Returns.concat h op
  | draining deadline =>
      rw [hphase] at h
      rcases h with ⟨i, start, hbegins, hstate, hserver, htends, hdeadline⟩
      refine ⟨i, start, ⟨hbegins.1.concat op, hbegins.2⟩, hstate, ?_, ?_, hdeadline⟩
      · rw [reached_concat, hsame, hserver]
      · rw [reached_concat]
        exact htends.trans (tends_operate _ op)

theorem Resumes.parts {e start : Engine} {op : Operation} {n : Nat} (h : e.Resumes op n start) :
    e.Tends start ∧ Moves (fun _ => True) e start ∧
      ((start.stopCall n).phase = .pending ∨ start.stopCall n = e.stopCall n) := by
  cases h with
  | call server =>
      refine ⟨Tends.of_servers rfl, moves_addStop e server, .inl ?_⟩
      rw [stopCall_addStop, if_pos rfl]
  | turn position n hjob =>
      exact ⟨tends_dequeue e position, moves_dequeue e position,
        .inr (stopCall_of_stops (stops_dequeue e position) n)⟩

theorem server_stopCall_runStop (e : Engine) (n : Nat) :
    ((e.runStop n).stopCall n).server = (e.stopCall n).server := by
  have hset : forall (e' : Engine) (p : StopPhase),
      ((e'.setStop n p).stopCall n).server = (e'.stopCall n).server := by
    intro e' p
    rw [stopCall_setStop]
    split <;> rfl
  have hsettle : forall (e' : Engine) (deadline : Nat),
      ((e'.settleStop n deadline).stopCall n).server = (e'.stopCall n).server := by
    intro e' deadline
    simp only [settleStop]
    split
    · exact hset _ _
    · split
      · exact hset _ _
      · exact hset _ _
  simp only [runStop]
  split
  · split
    · exact hset _ _
    · exact hsettle _ _
  · exact hsettle _ _
  · rfl

theorem EndsNow.finds {start finish : Engine} {n deadline : Nat} {result : Except Failure Unit}
    (h : finish.EndsNow n deadline result) (htally : finish.Tally)
    (hserver : (finish.stopCall n).server = (start.stopCall n).server)
    (hoptions : (finish.server (start.stopCall n).server).options =
      (start.server (start.stopCall n).server).options)
    (hdeadline : deadline =
      start.clock + (start.server (start.stopCall n).server).options.exitTimeout) :
    Finds start finish n result := by
  cases result with
  | ok =>
      have hnone : (finish.server (finish.stopCall n).server).inflight = 0 := h
      rw [hserver] at hnone
      refine ⟨hnone, ?_⟩
      intro m hm
      apply Bool.eq_false_iff.2
      intro hflight
      have hlt : m < finish.submissions.length := by
        unfold isInFlight at hflight
        rcases Bool.or_eq_true_iff.1 hflight with hopen | hcalling
        · exact lt_of_phase hopen
        · exact (htally.closed m (List.contains_iff_mem.1 hcalling)).1
      have hcount := htally.inflight (start.stopCall n).server
      rw [hnone] at hcount
      have hzero := List.countP_eq_zero.1 hcount.symm m (List.mem_range.2 hlt)
      rw [hm, hflight] at hzero
      simp at hzero
  | error failure =>
      have hends : deadline ≤ finish.clock ∧
          0 < (finish.server (finish.stopCall n).server).inflight ∧
          failure = .stillInFlight (finish.server (finish.stopCall n).server).inflight
            (finish.server (finish.stopCall n).server).options.exitTimeout := h
      rw [hserver, hoptions] at hends
      refine ⟨_, hends.2.2, ?_, hends.2.1, htally.inflight _, ?_⟩
      · rw [hends.2.2]
        rfl
      · rw [← hdeadline]
        exact hends.1

theorem Resumes.isAccountedFor {ops : List Operation} {op : Operation} {n : Nat} {start : Engine}
    (h : (reached ops).Resumes op n start) (k : IsAccountedFor ops n) :
    IsAccountedFor (ops ++ [op]) n := by
  have hrun := h.operate_eq
  rcases h.parts with ⟨htends, hmoves, hcall⟩
  have htally : start.Tally := ((reachable_reached ops).moves hmoves).tally
  have hlooks := looksAt_last h
  by_cases hn : n < start.stops.length
  · have hspec := runStop_spec hn
    have hsteps := tends_runStop start n
    have hsame := server_stopCall_runStop start n
    unfold IsAccountedFor
    rw [reached_concat, hrun]
    cases hphase : ((start.runStop n).stopCall n).phase with
    | pending | abandoned => trivial
    | draining deadline =>
        rw [hphase] at hspec
        rcases hspec.1 with hwaits | ⟨hpending, hstate, hdeadline⟩
        · -- The call has waited before, and goes on with that.
          rcases hcall with hpending | hcall
          · rw [hpending] at hwaits
            cases hwaits
          · unfold IsAccountedFor at k
            rw [hcall] at hwaits hsame
            rw [hwaits] at k
            rcases k with ⟨i, first, hbegins, hstate, hserver, hfirst, hdeadline⟩
            refine ⟨i, first, ⟨hbegins.1.concat op, hbegins.2⟩, hstate, ?_, ?_, hdeadline⟩
            · rw [reached_concat, hrun, hsame, hserver]
            · rw [reached_concat, hrun]
              exact (hfirst.trans htends).trans hsteps
        · refine ⟨ops.length, start, ⟨hlooks, hpending⟩, hstate, ?_, ?_, hdeadline⟩
          · rw [reached_concat, hrun, hsame]
          · rw [reached_concat, hrun]
            exact hsteps
    | finished result =>
        rw [hphase] at hspec
        rcases hspec with hended | ⟨hpending, hstopped, hresult, hset⟩ |
          ⟨deadline, hwaits, hends, hstopped⟩
        · rcases hcall with hpending | hcall
          · rw [hpending] at hended
            cases hended
          · unfold IsAccountedFor at k
            rw [hcall] at hended
            rw [hended] at k
            exact Returns.concat k op
        · apply hlooks.returns (Nat.le_refl _) ⟨hlooks, hpending⟩ hphase
          · rw [hset]
            exact hstopped
          · exact .inl ⟨hstopped, hresult, hset⟩
        · rcases hwaits with hwaits | ⟨hpending, hstate, hdeadline⟩
          · rcases hcall with hpending | hcall
            · rw [hpending] at hwaits
              cases hwaits
            · unfold IsAccountedFor at k
              rw [hcall] at hwaits
              rw [hwaits] at k
              rcases k with ⟨i, first, hbegins, hstate, hserver, hfirst, hdeadline⟩
              have hserver' : (start.stopCall n).server = (first.stopCall n).server := by
                rw [hcall, hserver]
              have hoptions := ((hfirst.trans htends).server (first.stopCall n).server
                (lt_of_state hstate)).options
              rw [hserver'] at hstopped
              exact hlooks.returns (Nat.le_of_lt hbegins.1.lt_length)
                ⟨hbegins.1.concat op, hbegins.2⟩ hphase hstopped
                (.inr ⟨hstate, hends.finds htally hserver' hoptions hdeadline⟩)
          · exact hlooks.returns (Nat.le_refl _) ⟨hlooks, hpending⟩ hphase hstopped
              (.inr ⟨hstate, hends.finds htally rfl rfl hdeadline⟩)
  · -- There is no such call, and nothing happens.
    have hdefault : start.stopCall n = default := by
      simp [stopCall, Nat.le_of_not_lt hn]
    have hsame : start.runStop n = start := runStop_of_not_running (by rw [hdefault]; rfl)
    unfold IsAccountedFor
    rw [reached_concat, hrun, hsame, hdefault]
    trivial

theorem isAccountedFor (ops : List Operation) (n : Nat) : IsAccountedFor ops n := by
  induction ops using List.reverseRecOn with
  | nil =>
      have hdefault : (reached []).stopCall n = default := by
        simp [stopCall, reached, empty]
      unfold IsAccountedFor
      rw [hdefault]
      trivial
  | append_singleton ops op ih =>
      rcases stopCall_operate (reached ops) op n with hsame | hgone | hpending | ⟨start, hresumes⟩
      · exact ih.concat hsame
      · unfold IsAccountedFor
        rw [reached_concat, hgone]
        trivial
      · unfold IsAccountedFor
        rw [reached_concat, hpending]
        trivial
      · exact hresumes.isAccountedFor ih

end Engine

end InferenceEngine
