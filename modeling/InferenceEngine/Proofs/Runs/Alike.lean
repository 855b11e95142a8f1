import InferenceEngine.Proofs.Execution.Backends
import InferenceEngine.Proofs.Models.Numbering

/-!
# Engines that differ in the models of one server

Which models a server has decides for which of them providers can be made, and whether the server
says that it is ready.  A request has its model with it.  So two engines that differ in the models
of one server, in the numbers that models have been given and in what has been said about models
stay such under every operation: all requests go on in both in the same way.
-/

namespace InferenceEngine

/-!
# What is left out

What goes on without the models of a server goes on alike.
-/

/-- A server whose models are left out, or else only their numbers. -/
def Server.masked (hides : Bool) (s : Server) : Server :=
  { s with table := if hides then .empty else s.table.unnumbered }

/-- A call of a callback, leaving out whether the server had said that it is ready. -/
def Completion.masked (c : Completion) : Completion := { c with ready := false }

theorem Server.masked_askToStop (hides : Bool) (s : Server) :
    s.askToStop.1.masked hides = (s.masked hides).askToStop.1 := by
  have hstate : (s.masked hides).state = s.state := rfl
  unfold askToStop
  rw [hstate]
  split <;> rfl

theorem Server.masked_shutDown (hides : Bool) (s : Server) :
    s.shutDown.1.masked hides = (s.masked hides).shutDown.1 := by
  have hstate : (s.masked hides).state = s.state := rfl
  unfold shutDown
  rw [hstate]
  split
  · rfl
  · cases hides <;> rfl

namespace Engine

/-- An engine, leaving out the models of a server, the numbers of models and their counters, what
has been reported and which factories have been called. -/
def masked (k : Nat) (e : Engine) : Engine :=
  { e with
    servers := e.servers.mapIdx fun m s => s.masked (m == k)
    stats := []
    events := []
    calls := e.entries.map fun x => .execute x.1 x.2
    completions := e.completions.map Completion.masked }

/-- Whether two engines are equal but for the models of a server and what hangs on them. -/
def Alike (k : Nat) (e e' : Engine) : Prop := e.masked k = e'.masked k

variable {k : Nat} {e middle e' : Engine}

theorem Alike.refl (e : Engine) : Alike k e e := Eq.refl _

theorem Alike.symm (h : Alike k e e') : Alike k e' e := Eq.symm h

theorem Alike.trans (h : Alike k e middle) (h' : Alike k middle e') : Alike k e e' := Eq.trans h h'

theorem Alike.foldl {α : Type} {f : Engine -> α -> Engine}
    (hf : forall (e e' : Engine) (a : α), Alike k e e' -> Alike k (f e a) (f e' a)) (xs : List α)
    (h : Alike k e e') : Alike k (xs.foldl f e) (xs.foldl f e') := by
  induction xs generalizing e e' with
  | nil => exact h
  | cons x rest ih => exact ih (hf e e' x h)

theorem Alike.read {α : Type} (h : Alike k e e') (f : Engine -> α)
    (hf : forall e : Engine, f (e.masked k) = f e) : f e = f e' := by
  unfold Alike at h
  rw [← hf e, ← hf e', h]

theorem Alike.map (h : Alike k e e') (f : Engine -> Engine)
    (hf : forall e : Engine, (f e).masked k = f (e.masked k)) : Alike k (f e) (f e') := by
  unfold Alike at h ⊢
  rw [hf e, hf e', h]

/-!
# What is equal

What can be told of a server without its models is equal.
-/

theorem Alike.submissions (h : Alike k e e') : e.submissions = e'.submissions :=
  h.read Engine.submissions fun _ => rfl

theorem Alike.submission (h : Alike k e e') (n : Nat) : e.submission n = e'.submission n :=
  h.read (Engine.submission · n) fun _ => rfl

theorem Alike.stops (h : Alike k e e') : e.stops = e'.stops :=
  h.read Engine.stops fun _ => rfl

theorem Alike.stopCall (h : Alike k e e') (n : Nat) : e.stopCall n = e'.stopCall n :=
  h.read (Engine.stopCall · n) fun _ => rfl

theorem Alike.allocators (h : Alike k e e') : e.allocators = e'.allocators :=
  h.read Engine.allocators fun _ => rfl

theorem Alike.allocator (h : Alike k e e') (n : Nat) : e.allocator n = e'.allocator n :=
  h.read (Engine.allocator · n) fun _ => rfl

theorem Alike.directory (h : Alike k e e') : e.directory = e'.directory :=
  h.read Engine.directory fun _ => rfl

theorem Alike.gate (h : Alike k e e') : e.gate = e'.gate :=
  h.read Engine.gate fun _ => rfl

theorem Alike.woken (h : Alike k e e') : e.woken = e'.woken :=
  h.read Engine.woken fun _ => rfl

theorem Alike.queue (h : Alike k e e') : e.queue = e'.queue :=
  h.read Engine.queue fun _ => rfl

theorem Alike.clock (h : Alike k e e') : e.clock = e'.clock :=
  h.read Engine.clock fun _ => rfl

theorem Alike.readings (h : Alike k e e') : e.readings = e'.readings :=
  h.read Engine.readings fun _ => rfl

theorem Alike.isRunning (h : Alike k e e') : e.isRunning = e'.isRunning :=
  h.read Engine.isRunning fun _ => rfl

theorem Alike.endings (h : Alike k e e') : e.endings = e'.endings :=
  h.read Engine.endings fun _ => rfl

theorem Alike.entries (h : Alike k e e') : e.entries = e'.entries := by
  have hcalls : e.entries.map (fun x => Call.execute x.1 x.2) =
      e'.entries.map fun x => Call.execute x.1 x.2 := congrArg Engine.calls h
  refine List.map_injective_iff.2 ?_ hcalls
  intro x y hxy
  injection hxy with hfirst hsecond
  exact Prod.ext hfirst hsecond

theorem Alike.completions (h : Alike k e e') :
    e.completions.map Completion.masked = e'.completions.map Completion.masked :=
  congrArg Engine.completions h

theorem server_masked (k : Nat) (e : Engine) (m : Nat) :
    (e.masked k).server m = (e.server m).masked (m == k) := by
  show (e.servers.mapIdx fun m s => s.masked (m == k)).getD m default = _
  unfold Engine.server
  rw [List.getD_eq_getElem?_getD, List.getD_eq_getElem?_getD, List.getElem?_mapIdx]
  cases e.servers[m]? with
  | some s => rfl
  | none => cases m == k <;> rfl

theorem Alike.server (h : Alike k e e') (m : Nat) :
    (e.server m).masked (m == k) = (e'.server m).masked (m == k) := by
  rw [← server_masked, ← server_masked]
  exact congrArg (Engine.server · m) h

theorem Alike.length (h : Alike k e e') : e.servers.length = e'.servers.length := by
  have hlength := congrArg (fun e => e.servers.length) h
  simpa [masked] using hlength

theorem Alike.readServer {α : Type} (h : Alike k e e') (m : Nat) (f : Server -> α)
    (hf : forall (hides : Bool) (s : Server), f (s.masked hides) = f s) :
    f (e.server m) = f (e'.server m) := by
  rw [← hf (m == k) (e.server m), ← hf (m == k) (e'.server m), h.server m]

theorem Alike.options (h : Alike k e e') (m : Nat) :
    (e.server m).options = (e'.server m).options :=
  h.readServer m Server.options fun _ _ => rfl

theorem Alike.state (h : Alike k e e') (m : Nat) : (e.server m).state = (e'.server m).state :=
  h.readServer m Server.state fun _ _ => rfl

theorem Alike.registry (h : Alike k e e') (m : Nat) :
    (e.server m).registry = (e'.server m).registry :=
  h.readServer m Server.registry fun _ _ => rfl

theorem Alike.serverAllocator (h : Alike k e e') (m : Nat) :
    (e.server m).allocator = (e'.server m).allocator :=
  h.readServer m Server.allocator fun _ _ => rfl

theorem Alike.inflight (h : Alike k e e') (m : Nat) :
    (e.server m).inflight = (e'.server m).inflight :=
  h.readServer m Server.inflight fun _ _ => rfl

theorem Alike.freeSlots (h : Alike k e e') (m : Nat) :
    (e.server m).freeSlots = (e'.server m).freeSlots :=
  h.readServer m Server.freeSlots fun _ _ => rfl

theorem Alike.waiting (h : Alike k e e') (m : Nat) :
    (e.server m).waiting = (e'.server m).waiting :=
  h.readServer m Server.waiting fun _ _ => rfl

theorem Alike.isKept (h : Alike k e e') (m : Nat) :
    (e.server m).isKept = (e'.server m).isKept :=
  h.readServer m Server.isKept fun _ _ => rfl

theorem Alike.table (h : Alike k e e') {m : Nat} (hm : m ≠ k) :
    (e.server m).table.unnumbered = (e'.server m).table.unnumbered := by
  have hserver := h.server m
  rw [beq_false_of_ne hm] at hserver
  exact congrArg Server.table hserver

/-!
# Parts
-/

theorem masked_modifyServer (k : Nat) (e : Engine) (n : Nat) (f : Server -> Server) :
    (e.modifyServer n f).masked k =
      (e.masked k).modifyServer n fun _ => (f (e.server n)).masked (n == k) := by
  have hservers : (e.servers.modify n f).mapIdx (fun m s => s.masked (m == k)) =
      (e.servers.mapIdx fun m s => s.masked (m == k)).modify n
        fun _ => (f (e.server n)).masked (n == k) := by
    apply List.ext_getElem?
    intro m
    simp only [List.getElem?_mapIdx, List.getElem?_modify]
    by_cases hm : n = m
    · rw [← hm]
      unfold Engine.server
      rw [List.getD_eq_getElem?_getD]
      cases e.servers[n]? with
      | none => rfl
      | some s => simp
    · simp [hm]
  exact congrArg (fun servers => { e.masked k with servers := servers }) hservers

theorem Alike.modifyServer (h : Alike k e e') {n : Nat} {f f' : Server -> Server}
    (hf : (f (e.server n)).masked (n == k) = (f' (e'.server n)).masked (n == k)) :
    Alike k (e.modifyServer n f) (e'.modifyServer n f') := by
  unfold Alike at h ⊢
  rw [masked_modifyServer, masked_modifyServer, h, hf]

theorem Alike.setPhase (h : Alike k e e') (n : Nat) (p : Phase) :
    Alike k (e.setPhase n p) (e'.setPhase n p) :=
  h.map (Engine.setPhase · n p) fun _ => rfl

theorem Alike.setStop (h : Alike k e e') (n : Nat) (p : StopPhase) :
    Alike k (e.setStop n p) (e'.setStop n p) :=
  h.map (Engine.setStop · n p) fun _ => rfl

theorem Alike.setAllocator (h : Alike k e e') (n : Nat) (a : Allocator) :
    Alike k (e.setAllocator n a) (e'.setAllocator n a) :=
  h.map (Engine.setAllocator · n a) fun _ => rfl

theorem Alike.report (h : Alike k e e') (events events' : List Event) :
    Alike k (e.report events) (e'.report events') := h

theorem Alike.addStats (h : Alike k e e') (next next' : Nat) :
    Alike k (e.addStats next) (e'.addStats next') := h

theorem Alike.wake (h : Alike k e e') (jobs : List Job) : Alike k (e.wake jobs) (e'.wake jobs) :=
  h.map (Engine.wake · jobs) fun _ => rfl

theorem Alike.start (h : Alike k e e') (jobs : List Job) :
    Alike k (e.start jobs) (e'.start jobs) :=
  h.map (Engine.start · jobs) fun _ => rfl

theorem masked_recordCreation (k : Nat) (e : Engine) (config : ModelConfig) (version : Int)
    (polled : Option (Bool × Bool)) :
    (e.record (.create config version polled)).masked k = e.masked k := by
  have hentries : (e.record (.create config version polled)).entries = e.entries := by
    simp [Engine.entries, record]
  unfold masked
  rw [hentries]
  rfl

theorem Alike.recordCreation (h : Alike k e e') (config : ModelConfig) (version : Int)
    (polled polled' : Option (Bool × Bool)) :
    Alike k (e.record (.create config version polled))
      (e'.record (.create config version polled')) := by
  unfold Alike at h ⊢
  rw [masked_recordCreation, masked_recordCreation, h]

theorem Alike.setMemory (h : Alike k e e') (server : Nat) (m : Execution.Memory) :
    Alike k (e.setMemory server m) (e'.setMemory server m) := by
  unfold Engine.setMemory
  rw [h.serverAllocator server]
  exact (h.setAllocator _ _).map (fun e => { e with directory := m.directory }) fun _ => rfl

theorem Alike.memory (h : Alike k e e') (server : Nat) : e.memory server = e'.memory server := by
  unfold Engine.memory
  rw [h.serverAllocator server, h.allocator, h.directory]

theorem Alike.releaseResponse (h : Alike k e e') (response : Response) :
    Alike k (e.releaseResponse response) (e'.releaseResponse response) := by
  unfold Engine.releaseResponse
  rw [h.allocator]
  exact (h.setAllocator _ _).report _ _

/-!
# Slots and the gate
-/

theorem Alike.releaseSlot (h : Alike k e e') (server : Nat) :
    Alike k (e.releaseSlot server) (e'.releaseSlot server) := by
  unfold Engine.releaseSlot
  rw [h.waiting server]
  split
  · exact h.modifyServer
      (congrArg (fun s => { s with freeSlots := s.freeSlots + 1 }) (h.server server))
  · rename_i first rest _
    exact ((h.modifyServer
      (congrArg (fun s => { s with waiting := rest }) (h.server server))).setPhase first _).wake _

theorem Alike.takeSlot? (h : Alike k e e') (server : Nat) :
    Option.Rel (Alike k) (e.takeSlot? server) (e'.takeSlot? server) := by
  unfold Engine.takeSlot?
  rw [h.freeSlots server]
  split
  · exact .none
  · rename_i free _
    exact .some (h.modifyServer
      (congrArg (fun s => { s with freeSlots := free }) (h.server server)))

theorem Alike.awaitSlot (h : Alike k e e') (n : Nat) :
    Alike k (e.awaitSlot n) (e'.awaitSlot n) := by
  unfold Engine.awaitSlot
  rw [h.submission n]
  exact (h.modifyServer (congrArg (fun s => { s with waiting := s.waiting ++ [n] })
    (h.server _))).setPhase n _

theorem Alike.letThrough (h : Alike k e e') (n : Nat) :
    Alike k (e.letThrough n) (e'.letThrough n) := by
  unfold Engine.letThrough
  rw [h.submission n]
  split
  · exact (h.setPhase n _).start _
  · exact h

theorem Alike.setGate (h : Alike k e e') (gate : Gate) :
    Alike k { e with gate := gate } { e' with gate := gate } :=
  h.map (fun e => { e with gate := gate }) fun _ => rfl

theorem Alike.openGate (h : Alike k e e') (permits : Nat) :
    Alike k (e.openGate permits) (e'.openGate permits) := by
  unfold Engine.openGate
  rw [h.gate]
  exact Alike.foldl (fun _ _ n h => h.letThrough n) _ (h.setGate _)

theorem Alike.closeGate (h : Alike k e e') : Alike k e.closeGate e'.closeGate := by
  unfold Engine.closeGate
  rw [h.gate]
  exact Alike.foldl (fun _ _ n h => h.letThrough n) _ (h.setGate _)

/-!
# Answering requests
-/

theorem Alike.wakeStops (h : Alike k e e') (server : Nat) :
    Alike k (e.wakeStops server) (e'.wakeStops server) :=
  h.map (Engine.wakeStops · server) fun _ => rfl

theorem Alike.countIn (h : Alike k e e') (server : Nat) :
    Alike k (e.countIn server) (e'.countIn server) :=
  h.modifyServer (congrArg (fun s => { s with inflight := s.inflight + 1 }) (h.server server))

theorem Alike.countOut (h : Alike k e e') (server : Nat) :
    Alike k (e.countOut server) (e'.countOut server) := by
  have hcounted : Alike k (e.modifyServer server fun s => { s with inflight := s.inflight - 1 })
      (e'.modifyServer server fun s => { s with inflight := s.inflight - 1 }) :=
    h.modifyServer (congrArg (fun s => { s with inflight := s.inflight - 1 }) (h.server server))
  simp only [Engine.countOut]
  rw [hcounted.inflight server]
  split
  · exact hcounted.wakeStops server
  · exact hcounted

theorem Alike.hand (h : Alike k e e') (n : Nat) (response : Response) :
    Alike k (e.hand n response) (e'.hand n response) := by
  unfold Engine.hand
  rw [h.submission n]
  split
  · exact h.setPhase n _
  · exact (h.releaseResponse response).setPhase n _

/-- Callbacks are called alike, but for whether the server says then that it is ready. -/
theorem Alike.callBack (h : Alike k e e') (n : Nat) (taken? : Option Nat) (response : Response) :
    Alike k (e.callBack n taken? response) (e'.callBack n taken? response) := by
  have hmasked : forall (e : Engine) (c : Completion),
      { e with completions := e.completions ++ [c], calling := e.calling ++ [n] }.masked k =
        { e.masked k with
          completions := (e.masked k).completions ++ [c.masked]
          calling := (e.masked k).calling ++ [n] } := by
    intro e c
    unfold masked
    rw [List.map_append]
    rfl
  have hlive : (e.server (e'.submission n).server).isLive =
      (e'.server (e'.submission n).server).isLive := by
    unfold Server.isLive
    rw [h.state]
  unfold Engine.callBack
  apply Alike.hand
  unfold Alike at h ⊢
  rw [hmasked, hmasked, h, Alike.submission h n]
  unfold Completion.masked
  rw [hlive]

theorem Alike.comeBack (h : Alike k e e') (n : Nat) :
    Alike k (e.comeBack n) (e'.comeBack n) := by
  have hreturned : Alike k { e with calling := e.calling.erase n }
      { e' with calling := e'.calling.erase n } :=
    h.map (fun e => { e with calling := e.calling.erase n }) fun _ => rfl
  unfold Engine.comeBack
  rw [h.submission n]
  exact hreturned.countOut _

theorem Alike.noteResult (h : Alike k e e') (n : Nat)
    (result : Except Failure (List (String × OutputStorage))) :
    Alike k (e.noteResult n result) (e'.noteResult n result) := by
  cases result with
  | ok outputs => exact h
  | error failure => exact h

theorem Alike.responseTo (h : Alike k e e') (n computeTime : Nat)
    (result : Except Failure (List (String × OutputStorage))) :
    e.responseTo n computeTime result = e'.responseTo n computeTime result := by
  unfold Engine.responseTo
  rw [h.submission n, h.serverAllocator]

theorem Alike.respond (h : Alike k e e') (n : Nat)
    (result : Except Failure (List (String × OutputStorage))) :
    Alike k (e.respond n result) (e'.respond n result) := by
  unfold Engine.respond
  rw [h.submission n, h.readings, h.responseTo n _ result]
  exact ((h.noteResult n result).releaseSlot _).callBack n _ _

theorem Alike.finish (h : Alike k e e') (n : Nat)
    (result : Except Failure (List (String × OutputStorage))) :
    Alike k (e.finish n result) (e'.finish n result) :=
  (h.respond n result).comeBack n

/-!
# Giving requests up
-/

theorem Alike.giveUp (h : Alike k e e') (n : Nat) : Alike k (e.giveUp n) (e'.giveUp n) := by
  have hwithdrawn : Alike k (e.withdraw n) (e'.withdraw n) := by
    simp only [Engine.withdraw]
    rw [h.submission n]
    split
    · exact h.releaseSlot _
    · exact h.modifyServer (congrArg
        (fun s => { s with waiting := s.waiting.filter (· != n) }) (h.server _))
  unfold Engine.giveUp
  rw [h.responseTo n]
  exact (hwithdrawn.report _ _).callBack n none _

theorem Alike.cancel (h : Alike k e e') (n : Nat) : Alike k (e.cancel n) (e'.cancel n) := by
  unfold Engine.cancel
  rw [h.submission n]
  split
  · exact (h.giveUp n).comeBack n
  · exact h

theorem Alike.unwind (h : Alike k e e') (n : Nat) (slots : List OutputSlot) :
    Alike k (e.unwind n slots) (e'.unwind n slots) := by
  have hrecorded : Alike k (e.recordUnwinding ⟨n, slots⟩) (e'.recordUnwinding ⟨n, slots⟩) :=
    h.map (Engine.recordUnwinding · ⟨n, slots⟩) fun _ => rfl
  exact (hrecorded.giveUp n).comeBack n

/-!
# Executing requests
-/

theorem Alike.outcome (h : Alike k e e') (n : Nat) (result : Except Failure Unit)
    (slots : List OutputSlot) : e.outcome n result slots = e'.outcome n result slots := by
  simp only [Engine.outcome]
  rw [h.submission n, h.memory]

theorem Alike.conclude (h : Alike k e e') (n : Nat) (result : Except Failure Unit)
    (slots : List OutputSlot) :
    Alike k (e.conclude n result slots) (e'.conclude n result slots) := by
  have hended : Alike k (e.recordEnding ⟨n, result, slots⟩) (e'.recordEnding ⟨n, result, slots⟩) :=
    h.map (Engine.recordEnding · ⟨n, result, slots⟩) fun _ => rfl
  unfold Engine.conclude Engine.leaveBackend Engine.takeSlots
  rw [h.submission n, h.outcome n result slots]
  exact (((hended.setMemory _ _).report _ _).respond n _).comeBack n

theorem Alike.proceed (h : Alike k e e') (n : Nat) (next : Behaviour) :
    Alike k (e.proceed n next) (e'.proceed n next) := by
  induction next generalizing e e' with
  | finish result slots => exact h.conclude n result slots
  | panic slots =>
      unfold Engine.proceed
      rw [h.submission n]
      exact h.conclude n _ slots
  | awaitGate slots resume ih =>
      unfold Engine.proceed
      rw [h.gate]
      split
      · exact ih false (h.setPhase n _)
      · split
        · exact (h.setPhase n _).setGate _
        · exact ih true ((h.setPhase n _).setGate _)

theorem Alike.enterBackend (h : Alike k e e') (n : Nat) (batch : ExecutionBatch) :
    Alike k (e.enterBackend n batch) (e'.enterBackend n batch) := by
  have hmasked : forall e : Engine, (e.record (.execute n batch)).masked k =
      (e.masked k).record (.execute n batch) := by
    intro e
    have hentries : (e.record (.execute n batch)).entries = e.entries ++ [(n, batch)] := by
      simp [Engine.entries, record]
    unfold masked
    rw [hentries, List.map_append]
    rfl
  unfold Engine.enterBackend
  rw [h.submission n]
  exact (h.map (Engine.record · (.execute n batch)) hmasked).setPhase n _

theorem Alike.carryOut (h : Alike k e e') (n : Nat) :
    Alike k (e.carryOut n) (e'.carryOut n) := by
  simp only [Engine.carryOut]
  rw [h.submission n, h.directory, h.memory]
  split
  · exact h.finish n _
  · split
    · exact ((h.setMemory _ _).report _ _).finish n _
    · exact ((h.setMemory _ _).report _ _).unwind n _
    · exact (((h.setMemory _ _).report _ _).enterBackend n _).proceed n _

theorem Alike.execute (h : Alike k e e') (n : Nat) : Alike k (e.execute n) (e'.execute n) :=
  (h.report _ _).carryOut n

theorem Alike.runRequest (h : Alike k e e') (n : Nat) :
    Alike k (e.runRequest n) (e'.runRequest n) := by
  unfold Engine.runRequest
  rw [h.submission n, h.gate]
  split
  · have htaken := h.takeSlot? (e'.submission n).server
    revert htaken
    generalize e.takeSlot? (e'.submission n).server = taken
    generalize e'.takeSlot? (e'.submission n).server = taken'
    rintro (_ | htaken)
    · exact (Alike.setPhase (by assumption) n .granted).execute n
    · exact h.awaitSlot n
  · exact h.execute n
  · exact (h.setPhase n _).proceed n _
  · exact h

/-!
# Stopping servers
-/

theorem Alike.shutDown (h : Alike k e e') (n : Nat) : Alike k (e.shutDown n) (e'.shutDown n) := by
  have hserver : (e.server n).shutDown.1.masked (n == k) =
      (e'.server n).shutDown.1.masked (n == k) := by
    rw [Server.masked_shutDown, Server.masked_shutDown, h.server n]
  exact (h.modifyServer hserver).report _ _

theorem Alike.askToStop (h : Alike k e e') (n : Nat) :
    Alike k (e.askToStop n) (e'.askToStop n) := by
  have hserver : (e.server n).askToStop.1.masked (n == k) =
      (e'.server n).askToStop.1.masked (n == k) := by
    rw [Server.masked_askToStop, Server.masked_askToStop, h.server n]
  exact (h.modifyServer hserver).report _ _

theorem Alike.collect (h : Alike k e e') (n : Nat) : Alike k (e.collect n) (e'.collect n) := by
  have howned : e.isOwned n = e'.isOwned n := by
    unfold Engine.isOwned
    rw [h.isKept, h.stops]
  unfold Engine.collect
  rw [howned, h.state n]
  split
  · exact h
  · exact (h.shutDown n).report _ _

theorem Alike.dropServer (h : Alike k e e') (n : Nat) :
    Alike k (e.dropServer n) (e'.dropServer n) :=
  (h.modifyServer (congrArg (fun s => { s with isKept := false }) (h.server n))).collect n

theorem Alike.addStop (h : Alike k e e') (server : Nat) :
    (e.addStop server).2 = (e'.addStop server).2 ∧
      Alike k (e.addStop server).1 (e'.addStop server).1 :=
  ⟨congrArg List.length h.stops, h.map (fun e => (e.addStop server).1) fun _ => rfl⟩

theorem Alike.settleStop (h : Alike k e e') (n deadline : Nat) :
    Alike k (e.settleStop n deadline) (e'.settleStop n deadline) := by
  simp only [Engine.settleStop]
  rw [h.stopCall n, h.inflight, h.clock, h.options]
  split
  · exact (h.shutDown _).setStop n _
  · split
    · exact ((h.shutDown _).report _ _).setStop n _
    · exact h.setStop n _

theorem Alike.runStop (h : Alike k e e') (n : Nat) : Alike k (e.runStop n) (e'.runStop n) := by
  simp only [Engine.runStop]
  rw [h.stopCall n, h.clock, h.state, h.options]
  split
  · split
    · exact h.setStop n _
    · exact (h.askToStop _).settleStop n _
  · exact h.settleStop n _
  · exact h

theorem Alike.abandonStop (h : Alike k e e') (n : Nat) :
    Alike k (e.abandonStop n) (e'.abandonStop n) := by
  unfold Engine.abandonStop
  rw [h.stopCall n]
  split
  · exact (h.setStop n _).collect _
  · exact h

theorem Alike.callStop (h : Alike k e e') (server : Nat) :
    Alike k (e.callStop server) (e'.callStop server) := by
  rcases h.addStop server with ⟨hnumber, hadded⟩
  unfold Engine.callStop
  simp only
  rw [hnumber]
  exact hadded.runStop _

theorem Alike.startStop (h : Alike k e e') (server : Nat) :
    Alike k (e.startStop server) (e'.startStop server) :=
  h.map (Engine.startStop · server) fun _ => rfl

/-!
# Loading models

Tables that differ only in numbers are reconciled alike.
-/

theorem Alike.perform (h : Alike k e e') (factory : Option BackendFactory) (polled : Option Nat)
    (action : LoadAction) :
    Alike k (perform factory polled e action) (perform factory polled e' action) := by
  cases action with
  | report event => exact h
  | create config version =>
      cases factory with
      | none => exact h
      | some factory =>
          cases polled with
          | none => exact h.recordCreation config version _ _
          | some n =>
              simp only [Engine.perform, Option.map_some]
              split
              · rcases (h.recordCreation config version
                  (some ((e.server n).isReady, (e.server n).table.contains config.name))
                  (some ((e'.server n).isReady,
                    (e'.server n).table.contains config.name))).addStop n with ⟨hnumber, hadded⟩
                rw [hnumber]
                exact (hadded.runStop _).setStop _ _
              · exact h.recordCreation config version _ _

theorem Alike.reconcile (h : Alike k e e') (factory : Option BackendFactory) (polled : Option Nat)
    (options : ServerOptions) {table table' : ModelTable}
    (htable : table.unnumbered = table'.unnumbered) (models : List RepositoryModel) :
    (e.reconcile factory polled options table models).1.unnumbered =
        (e'.reconcile factory polled options table' models).1.unnumbered ∧
      (e.reconcile factory polled options table models).2.1 =
        (e'.reconcile factory polled options table' models).2.1 ∧
      Alike k (e.reconcile factory polled options table models).2.2
        (e'.reconcile factory polled options table' models).2.2 := by
  have hmatches := ModelTable.reconcile_matches (factory.getD .absent) options.strictModelConfig
    htable e.stats.length e'.stats.length models
  refine ⟨hmatches.value, hmatches.report, ?_⟩
  simp only [Engine.reconcile]
  rw [hmatches.actions]
  exact (Alike.foldl (fun _ _ action h => h.perform factory polled action) _ h).addStats _ _

theorem masked_addServer (k : Nat) (e : Engine) (options : ServerOptions) (allocator : Nat)
    (table : ModelTable) : (e.addServer options allocator table).masked k =
      { e.masked k with servers := (e.masked k).servers ++
        [Server.masked (e.servers.length == k)
          { Server.new options allocator e.readings with table := table }] } := by
  unfold masked addServer
  simp only [List.mapIdx_append, List.mapIdx_cons, List.mapIdx_nil, Nat.zero_add]
  rfl

theorem Alike.addServer (h : Alike k e e') (options : ServerOptions) (allocator : Nat)
    {table table' : ModelTable} (htable : table.unnumbered = table'.unnumbered) :
    Alike k (e.addServer options allocator table) (e'.addServer options allocator table') := by
  have hlength := h.length
  have hserver : Server.masked (e'.servers.length == k)
      { Server.new options allocator e.readings with table := table } =
        Server.masked (e'.servers.length == k)
          { Server.new options allocator e'.readings with table := table' } := by
    unfold Server.masked
    simp only
    rw [htable, h.readings]
  unfold Alike at h ⊢
  rw [masked_addServer, masked_addServer, h, hlength, hserver]

theorem Alike.addAllocator (h : Alike k e e') (a : Allocator) :
    Alike k (e.addAllocator a).1 (e'.addAllocator a).1 :=
  h.map (fun e => (e.addAllocator a).1) fun _ => rfl

theorem Alike.build (h : Alike k e e') (options : ServerOptions) (allocator : Option Nat)
    (scan : Except Failure (List RepositoryModel)) (factory : Option BackendFactory)
    (isInside : Bool) : Alike k (e.build options allocator scan factory isInside).2
      (e'.build options allocator scan factory isInside).2 := by
  simp only [Engine.build]
  rw [h.isRunning]
  split
  · exact h
  · split
    · exact h
    · cases scan with
      | error failure => exact h
      | ok models =>
          rcases h.reconcile factory none options (rfl : ModelTable.unnumbered .empty = _) models
            with ⟨htable, hreport, hloaded⟩
          simp only
          rw [hreport]
          cases (e'.reconcile factory none options .empty models).2.1.failure?.filter
            fun _ => options.exitOnError with
          | some failure => exact hloaded
          | none =>
              cases allocator with
              | some n => exact hloaded.addServer options n htable
              | none =>
                  have hnumber := congrArg List.length hloaded.allocators
                  simp only [Engine.addAllocator]
                  rw [hnumber]
                  exact (hloaded.addAllocator _).addServer options _ htable

theorem Alike.poll (h : Alike k e e') {n : Nat} (hn : n ≠ k)
    (scan : Except Failure (List RepositoryModel)) (factory : Option BackendFactory) :
    Alike k (e.poll n scan factory).2 (e'.poll n scan factory).2 := by
  simp only [Engine.poll]
  rw [h.state n, h.options n]
  split
  · exact h
  · cases scan with
    | error failure => exact h
    | ok models =>
        rcases h.reconcile factory (some n) (e'.server n).options (h.table hn) models with
          ⟨htable, hreport, hloaded⟩
        simp only
        rw [hreport, hloaded.state n]
        split
        · exact hloaded
        · have hput : Alike k
              ((e.reconcile factory (some n) (e'.server n).options (e.server n).table
                models).2.2.modifyServer n fun s => { s with table :=
                  (e.reconcile factory (some n) (e'.server n).options (e.server n).table
                    models).1 })
              ((e'.reconcile factory (some n) (e'.server n).options (e'.server n).table
                models).2.2.modifyServer n fun s => { s with table :=
                  (e'.reconcile factory (some n) (e'.server n).options (e'.server n).table
                    models).1 }) := by
            apply hloaded.modifyServer
            have hserver := hloaded.server n
            rw [beq_false_of_ne hn] at hserver ⊢
            have hchanged := congrArg (fun s => { s with table :=
              (e'.reconcile factory (some n) (e'.server n).options (e'.server n).table
                models).1.unnumbered }) hserver
            unfold Server.masked at hchanged ⊢
            simp only at hchanged ⊢
            rw [htable]
            exact hchanged
          cases (e'.reconcile factory (some n) (e'.server n).options (e'.server n).table
            models).2.1.failure?.filter fun _ => (e'.server n).options.exitOnError with
          | some failure => exact hput
          | none => exact hput

/-!
# Operations

All operations but polls of the server go on alike.
-/

theorem Alike.launch (h : Alike k e e') (server : Nat) (request : PreparedRequest)
    (callback : Nat) :
    Alike k (e.launch server request callback) (e'.launch server request callback) := by
  have henrolled : Alike k (e.enroll server request callback)
      (e'.enroll server request callback) :=
    h.map (Engine.enroll · server request callback) fun _ => rfl
  have hrunning : ((e.enroll server request callback).report
      [.requestAccepted request.id request.model.config.name]).isRunning =
    ((e'.enroll server request callback).report
      [.requestAccepted request.id request.model.config.name]).isRunning := h.isRunning
  simp only [Engine.launch]
  rw [hrunning, h.submissions]
  split
  · exact (henrolled.report _ _).start _
  · exact (henrolled.report _ _).cancel _

theorem Alike.submit (h : Alike k e e') (server : Nat) (provider : Provider) (callback : Nat) :
    (e.submit server provider callback).1 = (e'.submit server provider callback).1 ∧
      Alike k (e.submit server provider callback).2 (e'.submit server provider callback).2 := by
  have hid : (e.server server).id = (e'.server server).id := by
    unfold Server.id
    rw [h.options]
  unfold Engine.submit
  rw [h.state server, h.registry server, hid, h.submissions]
  split
  · exact ⟨rfl, h⟩
  · split
    · exact ⟨rfl, h⟩
    · split
      · exact ⟨rfl, (h.countIn server).countOut server⟩
      · exact ⟨rfl, (h.countIn server).launch server _ callback⟩

theorem Alike.runAt (h : Alike k e e') (position : Nat) :
    Alike k (e.runAt position) (e'.runAt position) := by
  have htaken : Alike k (e.dequeue position) (e'.dequeue position) := by
    have hlength : e.woken.length = e'.woken.length := congrArg List.length h.woken
    unfold Engine.dequeue
    rw [hlength]
    split
    · exact h.map (fun e => { e with woken := e.woken.eraseIdx position }) fun _ => rfl
    · exact h.map (fun e => { e with
        started := e.started.eraseIdx (position - e'.woken.length) }) fun _ => rfl
  unfold Engine.runAt
  rw [h.queue]
  split
  · exact h
  · rename_i job _
    cases job with
    | request n => exact htaken.runRequest n
    | stop n => exact htaken.runStop n

theorem Alike.dropResponse (h : Alike k e e') (n : Nat) :
    Alike k (e.dropResponse n) (e'.dropResponse n) := by
  unfold Engine.dropResponse
  rw [h.submission n]
  split
  · exact (h.releaseResponse _).setPhase n _
  · exact h

theorem Alike.setRegistry (h : Alike k e e') (server : Nat) (registry : Registry) :
    Alike k (e.setRegistry server registry) (e'.setRegistry server registry) :=
  h.modifyServer (congrArg (fun s => { s with registry := registry }) (h.server server))

theorem Alike.register (h : Alike k e e') (server : Nat) (name key : String)
    (offset size : Nat) :
    Alike k (e.register server name key offset size)
      (e'.register server name key offset size) := by
  have hheld : e.holdsMapping server = e'.holdsMapping server :=
    h.read (Engine.holdsMapping · server) fun _ => rfl
  unfold Engine.register
  rw [h.registry server, h.directory, hheld]
  exact (h.setRegistry server _).report _ _

theorem Alike.unregister (h : Alike k e e') (server : Nat) (name : String) :
    Alike k (e.unregister server name) (e'.unregister server name) := by
  unfold Engine.unregister
  rw [h.registry server]
  split
  · exact (h.setRegistry server _).report _ _
  · exact h

theorem Alike.unregisterAll (h : Alike k e e') (server : Nat) :
    Alike k (e.unregisterAll server) (e'.unregisterAll server) := by
  unfold Engine.unregisterAll
  rw [h.registry server]
  exact (h.setRegistry server _).report _ _

theorem Alike.allocateFrom (h : Alike k e e') (n : Nat) (domain : MemoryDomain) (region : Int)
    (size : Nat) :
    Alike k (e.allocateFrom n domain region size) (e'.allocateFrom n domain region size) := by
  unfold Engine.allocateFrom
  rw [h.allocator n]
  split
  · exact h.setAllocator n _
  · exact (h.setAllocator n _).report _ _

theorem Alike.freeTo (h : Alike k e e') (n : Nat) (buffer : Buffer) (given : BufferTriple) :
    Alike k (e.freeTo n buffer given) (e'.freeTo n buffer given) := by
  unfold Engine.freeTo
  rw [h.allocator n]
  exact h.setAllocator n _

theorem Alike.cancelAll (h : Alike k e e') : Alike k e.cancelAll e'.cancelAll := by
  unfold Engine.cancelAll
  rw [h.submissions]
  exact Alike.foldl (fun _ _ n h => h.cancel n) _ h

theorem Alike.abandonAll (h : Alike k e e') : Alike k e.abandonAll e'.abandonAll := by
  unfold Engine.abandonAll
  rw [h.stops]
  exact Alike.foldl (fun _ _ n h => h.abandonStop n) _ h

theorem Alike.close (h : Alike k e e') : Alike k e.close e'.close := by
  have hquit : Alike k { e with isRunning := false } { e' with isRunning := false } :=
    h.map (fun e => { e with isRunning := false }) fun _ => rfl
  exact hquit.cancelAll.abandonAll.map Engine.clearQueues fun _ => rfl

end Engine

def Operation.isPollOf (k : Nat) : Operation -> Bool
  | .poll server _ _ => server = k
  | _ => false

namespace Engine

variable {k : Nat} {e middle e' : Engine}

theorem Alike.operate (h : Alike k e e') {op : Operation} (hop : op.isPollOf k = false) :
    Alike k (e.operate op) (e'.operate op) := by
  cases op with
  | build options allocator scan factory isInside =>
      simp only [Engine.operate]
      rw [h.allocators]
      split
      · exact h.build options allocator scan factory isInside
      · exact h
  | poll server scan factory => exact h.poll (of_decide_eq_false hop) scan factory
  | submit server provider callback => exact (h.submit server provider callback).2
  | runAt position => exact h.runAt position
  | cancel n => exact h.cancel n
  | callStop server => exact h.callStop server
  | beginStop server => exact h.startStop server
  | wakeStop call => exact h.wake _
  | abandonStop call => exact h.abandonStop call
  | dropServer server => exact h.dropServer server
  | tick seconds readings =>
      exact h.map (fun e => { e with clock := e.clock + seconds, readings := readings })
        fun _ => rfl
  | openGate permits => exact h.openGate permits
  | closeGate => exact h.closeGate
  | dropResponse n => exact h.dropResponse n
  | ignore n => exact h.map (Engine.ignore · n) fun _ => rfl
  | register server name key offset size => exact h.register server name key offset size
  | unregister server name => exact h.unregister server name
  | unregisterAll server => exact h.unregisterAll server
  | setDirectory d => exact h.map (fun e => { e with directory := d }) fun _ => rfl
  | report events => exact h.report events events
  | addAllocator plan => exact h.addAllocator plan.allocator
  | allocate n domain region size => exact h.allocateFrom n domain region size
  | free n buffer given => exact h.freeTo n buffer given
  | close => exact h.close

end Engine

end InferenceEngine
