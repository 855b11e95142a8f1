import InferenceEngine.Proofs.Runs.Effects
import InferenceEngine.Proofs.Models.Validity
import Mathlib.Logic.Relation

/-!
# Moves

Every operation on an engine is a sequence of moves, changes of the engine that leave its books
in order.  This module says once what a move can do and takes the operations apart; what holds
along a run is then shown for each kind of move.
-/

namespace InferenceEngine

/-!
# What stays with a server
-/

/-- What a server keeps when its state, its models or its handles change. -/
structure Server.Becomes (s s' : Server) : Prop where
  state : s.state ≠ .serving -> s'.state ≠ .serving
  options : s'.options = s.options
  allocator : s'.allocator = s.allocator
  inflight : s'.inflight = s.inflight
  freeSlots : s'.freeSlots = s.freeSlots
  waiting : s'.waiting = s.waiting
  table : s.table.IsValid -> s'.table.IsValid

theorem Server.becomes_shutDown (s : Server) : s.Becomes s.shutDown.1 := by
  unfold shutDown
  split
  · exact ⟨fun h => h, rfl, rfl, rfl, rfl, rfl, fun h => h⟩
  · exact ⟨fun _ => by simp, rfl, rfl, rfl, rfl, rfl, fun _ => ModelTable.isValid_empty⟩

theorem Server.becomes_askToStop (s : Server) : s.Becomes s.askToStop.1 := by
  unfold askToStop
  split
  · exact ⟨fun _ => by simp, rfl, rfl, rfl, rfl, rfl, fun h => h⟩
  · exact ⟨fun h => h, rfl, rfl, rfl, rfl, rfl, fun h => h⟩

theorem Server.askToStop_not_serving (s : Server) : s.askToStop.1.state ≠ .serving := by
  unfold askToStop
  split
  · simp
  · assumption

/-!
# Backends step by step
-/

/-- How a backend comes to its end in one step, for a model of a given name. -/
inductive Behaviour.EndsWith (model : String) :
    Behaviour -> Except Failure Unit -> List OutputSlot -> Prop where
  | finish (result : Except Failure Unit) (slots : List OutputSlot) :
      EndsWith model (.finish result slots) result slots
  | panic (slots : List OutputSlot) :
      EndsWith model (.panic slots) (.error (.backendPanicked model)) slots

inductive Phase.Turns : Phase -> Phase -> Prop where
  /-- It is let through the gate at once, or finds it closed. -/
  | pass (held slots : List OutputSlot) (resume : Bool -> Behaviour) (isThrough : Bool) :
      Turns (.inBackend held (.awaitGate slots resume)) (.inBackend slots (resume isThrough))
  /-- It has to wait at the gate. -/
  | await (held slots : List OutputSlot) (resume : Bool -> Behaviour) :
      Turns (.inBackend held (.awaitGate slots resume)) (.atGate slots resume)
  /-- It is let through the gate. -/
  | letThrough (slots : List OutputSlot) (resume : Bool -> Behaviour) :
      Turns (.atGate slots resume) (.letThrough slots resume)
  /-- It goes on behind the gate. -/
  | resume (slots : List OutputSlot) (resume : Bool -> Behaviour) (isThrough : Bool) :
      Turns (.letThrough slots resume) (.inBackend slots (resume isThrough))

theorem Phase.Turns.isOpen_eq {p p' : Phase} (h : p.Turns p') : p'.isOpen = p.isOpen := by
  cases h <;> rfl

/-!
# Moves
-/

/-- What a move is about, as far as runs are told apart by it. -/
inductive Deed where
  /-- Something else. -/
  | other
  /-- A request is accepted with a callback. -/
  | accept (callback : Nat)
  /-- A batch is handed over to the backend of a request. -/
  | enter (submission : Nat)
  /-- A request is given up. -/
  | cancel (submission : Nat)
  /-- The task of a request panics. -/
  | unwind (submission : Nat)
  /-- A client uses an allocator. -/
  | use (allocator : Nat)
  /-- From now on nothing is run. -/
  | close

namespace Engine

/-- The engine when the task of a request has panicked while its slots were allocated: the allocator
stays as it is then, and the slots that there were are forfeited. -/
def forfeit (e : Engine) (n : Nat) (slots : List OutputSlot) (a : Allocator)
    (events : List Event) : Engine :=
  ((e.setMemory (e.submission n).server ⟨a, e.directory⟩).report events).recordUnwinding ⟨n, slots⟩

inductive Move : Deed -> Engine -> Engine -> Prop where
  /-- The queue, the gate, the clocks and the reported events change. -/
  | schedule (e : Engine) (gate : Gate) (woken started : List Job) (clock : Nat)
      (readings : Readings) (events : List Event) :
      Move .other e { e with
        gate := gate, woken := woken, started := started, clock := clock, readings := readings
        events := events }
  /-- From now on nothing is run. -/
  | close (e : Engine) : Move .close e { e with isRunning := false }
  /-- The files change. -/
  | directory (e : Engine) (d : Directory) : Move .other e { e with directory := d }
  /-- The calls of stops change; a call that begins to wait waits for a server that takes no more
  requests. -/
  | stops (e : Engine) (stops : List StopCall)
      (h : forall c, c ∈ stops -> c.deadline?.isSome = true ->
        c ∈ e.stops ∨ (c.server < e.servers.length ∧ (e.server c.server).state ≠ .serving)) :
      Move .other e { e with stops := stops }
  /-- A factory is called. -/
  | create (e : Engine) (config : ModelConfig) (version : Int) (polled : Option (Bool × Bool)) :
      Move .other e (e.record (.create config version polled))
  /-- Counters are made. -/
  | addStats (e : Engine) (next : Nat) : Move .other e (e.addStats next)
  /-- A server is put in. -/
  | addServer (e : Engine) (options : ServerOptions) (allocator : Nat) (table : ModelTable)
      (hallocator : allocator < e.allocators.length) (htable : table.IsValid) :
      Move .other e (e.addServer options allocator table)
  /-- The state, the models or the handles of a server change. -/
  | server (e : Engine) (n : Nat) (s : Server) (h : (e.server n).Becomes s) :
      Move .other e (e.modifyServer n fun _ => s)
  /-- An allocator is put in. -/
  | addAllocator (e : Engine) (plan : AllocatorPlan) :
      Move .other e (e.addAllocator plan.allocator).1
  /-- A client uses an allocator. -/
  | useAllocator (e : Engine) (n : Nat) (a : Allocator) : Move (.use n) e (e.setAllocator n a)
  /-- A request is accepted. -/
  | enroll (e : Engine) (server callback : Nat) (provider : Provider) (request : PreparedRequest)
      (hstate : (e.server server).state = .serving)
      (hprepare : PreparedRequest.prepare (e.server server).registry provider = .ok request) :
      Move (.accept callback) e ((e.countIn server).enroll server request callback)
  /-- A request waits for a slot. -/
  | awaitSlot (e : Engine) (n : Nat) (h : (e.submission n).phase = .accepted) :
      Move .other e (e.awaitSlot n)
  /-- A request takes a slot. -/
  | takeSlot (e e' : Engine) (n : Nat) (h : (e.submission n).phase = .accepted)
      (htake : e.takeSlot? (e.submission n).server = some e') :
      Move .other e (e'.setPhase n .granted)
  /-- The inputs of a request cannot be gathered. -/
  | gatherFails (e : Engine) (n : Nat) (failure : Failure)
      (h : (e.submission n).phase = .granted)
      (hgather : Execution.gather e.directory (e.submission n).request = .error failure) :
      Move .other e (e.respond n (.error failure))
  /-- The slots of a request cannot be allocated. -/
  | allocateFails (e : Engine) (n : Nat) (failure : Failure) (a : Allocator)
      (events : List Event) (h : (e.submission n).phase = .granted)
      (hallocate : Execution.allocate (e.submission n).request.model.config.placement
        (e.memory (e.submission n).server).allocator [] (e.submission n).request.outputs =
          (.failed failure, a, events)) :
      Move .other e (((e.setMemory (e.submission n).server ⟨a, e.directory⟩).report events).respond
        n (.error failure))
  /-- The task of a request panics while its slots are allocated, and the request is given up. -/
  | unwind (e : Engine) (n : Nat) (slots : List OutputSlot) (a : Allocator) (events : List Event)
      (h : (e.submission n).phase = .granted)
      (hallocate : Execution.allocate (e.submission n).request.model.config.placement
        (e.memory (e.submission n).server).allocator [] (e.submission n).request.outputs =
          (.panicked slots, a, events)) :
      Move (.unwind n) e ((e.forfeit n slots a events).giveUp n)
  /-- A request is handed over to its backend. -/
  | enter (e : Engine) (n : Nat) (inputs : List InputTensor) (slots : List OutputSlot)
      (a : Allocator) (events : List Event) (h : (e.submission n).phase = .granted)
      (hgather : Execution.gather e.directory (e.submission n).request = .ok inputs)
      (hallocate : Execution.allocate (e.submission n).request.model.config.placement
        (e.memory (e.submission n).server).allocator [] (e.submission n).request.outputs =
          (.made slots, a, events)) :
      Move (.enter n) e
        (((e.setMemory (e.submission n).server ⟨a, e.directory⟩).report events).enterBackend n
          ⟨(e.submission n).request.model.config, (e.submission n).request.model.version,
            (e.submission n).request.batchSize, inputs, slots⟩)
  /-- A request goes on inside its backend. -/
  | turn (e : Engine) (n : Nat) (p : Phase) (h : (e.submission n).phase.Turns p) :
      Move .other e (e.setPhase n p)
  /-- The backend of a request has ended. -/
  | leave (e : Engine) (n : Nat) (held : List OutputSlot) (next : Behaviour)
      (result : Except Failure Unit) (slots : List OutputSlot)
      (h : (e.submission n).phase = .inBackend held next)
      (hnext : next.EndsWith (e.submission n).request.model.config.name result slots) :
      Move .other e (e.leaveBackend n result slots)
  /-- A request is given up. -/
  | cancel (e : Engine) (n : Nat) (h : (e.submission n).phase.isOpen = true) :
      Move (.cancel n) e (e.giveUp n)
  /-- The callback of a request returns. -/
  | comeBack (e : Engine) (n : Nat) (h : n ∈ e.calling) : Move .other e (e.comeBack n)
  /-- A response is dropped. -/
  | dropResponse (e : Engine) (n : Nat) (response : Response)
      (h : (e.submission n).phase = .answered response) :
      Move .other e ((e.releaseResponse response).setPhase n .closed)
  /-- Nobody waits for a response any more. -/
  | ignore (e : Engine) (n : Nat) : Move .other e (e.ignore n)

/-- A sequence of moves; beside those that are about nothing in particular it has only the given
ones. -/
def Moves (also : Deed -> Prop) : Engine -> Engine -> Prop :=
  Relation.ReflTransGen fun e e' => exists deed : Deed,
    (deed = .other ∨ also deed) ∧ Move deed e e'

/-- The engines that moves lead to from one that has not done anything, in whatever order tasks
and clients make them. -/
def Reachable (e : Engine) : Prop := Moves (fun _ => True) empty e

end Engine

end InferenceEngine
