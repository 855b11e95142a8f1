import InferenceEngine.Engine.Schedule

/-!
# Runs

All that can happen to an engine is an operation: a call of a client, a turn of a job, a lapse
of time, the loss of a task. A job may be run from any place of the queue, and a task may be
lost at any moment, so that a run is any list of operations. A server is not built with an
allocator that does not exist.
-/

namespace InferenceEngine

inductive Operation where
  /-- A server is built. -/
  | build (options : ServerOptions) (allocator : Option Nat)
      (scan : Except Failure (List RepositoryModel)) (factory : Option BackendFactory)
      (isInside : Bool)
  /-- The repository of a server is polled. -/
  | poll (server : Nat) (scan : Except Failure (List RepositoryModel))
      (factory : Option BackendFactory)
  /-- A request is submitted with a callback. -/
  | submit (server : Nat) (provider : Provider) (callback : Nat)
  /-- The job at a place of the queue is run. -/
  | runAt (position : Nat)
  /-- A task is dropped with its request. -/
  | cancel (submission : Nat)
  /-- A client calls for a stop and waits for it. -/
  | callStop (server : Nat)
  /-- A client starts a job that stops a server. -/
  | beginStop (server : Nat)
  /-- A call that stops a server looks again. -/
  | wakeStop (call : Nat)
  /-- A call that stops a server is given up. -/
  | abandonStop (call : Nat)
  /-- A server is let go. -/
  | dropServer (server : Nat)
  /-- Seconds go by, after which the clocks of the machine show some readings. -/
  | tick (seconds : Nat) (readings : Readings)
  /-- Backends are let through the gate. -/
  | openGate (permits : Nat)
  /-- The gate is closed. -/
  | closeGate
  /-- A response is dropped. -/
  | dropResponse (submission : Nat)
  /-- Nobody waits for the response to a request any more. -/
  | ignore (submission : Nat)
  /-- A range of shared memory is registered with a server. -/
  | register (server : Nat) (name key : String) (offset size : Nat)
  /-- A handle is taken from a server. -/
  | unregister (server : Nat) (name : String)
  /-- All handles are taken from a server. -/
  | unregisterAll (server : Nat)
  /-- Someone changes the files of the shared memory. -/
  | setDirectory (directory : Directory)
  /-- Somebody who has regions and handles of his own tells what becomes of them. -/
  | report (events : List Event)
  /-- A client makes an allocator. -/
  | addAllocator (plan : AllocatorPlan)
  /-- A client asks an allocator for a buffer. -/
  | allocate (allocator : Nat) (domain : MemoryDomain) (region : Int) (size : Nat)
  /-- A client gives a buffer back to an allocator. -/
  | free (allocator : Nat) (buffer : Buffer) (given : BufferTriple)
  /-- Nothing is run any more, and all tasks are dropped. -/
  | close

namespace Engine

/-!
# Calls of clients
-/

/-- Calls for a stop of a server; the call is under way at once. -/
def callStop (e : Engine) (server : Nat) : Engine :=
  let (e, call) := e.addStop server
  e.runStop call

def startStop (e : Engine) (server : Nat) : Engine :=
  let (e, call) := e.addStop server
  e.start [.stop call]

def setRegistry (e : Engine) (server : Nat) (registry : Registry) : Engine :=
  e.modifyServer server fun s => { s with registry := registry }

def register (e : Engine) (server : Nat) (name key : String) (offset size : Nat) : Engine :=
  let (_, registry, events) := (e.server server).registry.register e.directory
    (e.holdsMapping server) name key offset size
  (e.setRegistry server registry).report events

def unregister (e : Engine) (server : Nat) (name : String) : Engine :=
  match (e.server server).registry.unregister name with
  | .ok registry => (e.setRegistry server registry).report [.handleUnregistered name]
  | .error _ => e

def unregisterAll (e : Engine) (server : Nat) : Engine :=
  let (registry, events) := (e.server server).registry.unregisterAll
  (e.setRegistry server registry).report events

def allocateFrom (e : Engine) (n : Nat) (domain : MemoryDomain) (region : Int) (size : Nat) :
    Engine :=
  match (e.allocator n).allocate domain region size with
  | (.refused _, a) => e.setAllocator n a
  | (_, a) => (e.setAllocator n a).report (a.allocationEvents domain region size)

def freeTo (e : Engine) (n : Nat) (buffer : Buffer) (given : BufferTriple) : Engine :=
  e.setAllocator n ((e.allocator n).free buffer given).2

/-!
# Operations
-/

def operate (e : Engine) : Operation -> Engine
  | .build options allocator scan factory isInside =>
    if allocator.all fun n => n < e.allocators.length then
      (e.build options allocator scan factory isInside).2
    else e
  | .poll server scan factory => (e.poll server scan factory).2
  | .submit server provider callback => (e.submit server provider callback).2
  | .runAt position => e.runAt position
  | .cancel n => e.cancel n
  | .callStop server => e.callStop server
  | .beginStop server => e.startStop server
  | .wakeStop call => e.wake [.stop call]
  | .abandonStop call => e.abandonStop call
  | .dropServer server => e.dropServer server
  | .tick seconds readings => { e with clock := e.clock + seconds, readings := readings }
  | .openGate permits => e.openGate permits
  | .closeGate => e.closeGate
  | .dropResponse n => e.dropResponse n
  | .ignore n => e.ignore n
  | .register server name key offset size => e.register server name key offset size
  | .unregister server name => e.unregister server name
  | .unregisterAll server => e.unregisterAll server
  | .setDirectory d => { e with directory := d }
  | .report events => e.report events
  | .addAllocator plan => (e.addAllocator plan.allocator).1
  | .allocate n domain region size => e.allocateFrom n domain region size
  | .free n buffer given => e.freeTo n buffer given
  | .close => e.close

def after (e : Engine) (ops : List Operation) : Engine := ops.foldl operate e

@[simp] theorem after_nil (e : Engine) : e.after [] = e := rfl

@[simp] theorem after_cons (e : Engine) (op : Operation) (ops : List Operation) :
    e.after (op :: ops) = (e.operate op).after ops := rfl

theorem after_append (e : Engine) (ops more : List Operation) :
    e.after (ops ++ more) = (e.after ops).after more := by
  simp [after]

/-- The engine that a run comes to, from one that has not done anything. -/
def reached (ops : List Operation) : Engine := empty.after ops

end Engine

end InferenceEngine
