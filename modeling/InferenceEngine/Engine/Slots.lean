import InferenceEngine.Engine.Basic

/-!
# Slots and gates

Execution slots and passages through the gate are given in the order in which they were
asked for. A slot that is given back goes to the first request that waits for one.
-/

namespace InferenceEngine.Engine

/-!
# Slots
-/

/-- Gives a slot of a server back, or hands it to the first request that waits for it. -/
def releaseSlot (e : Engine) (server : Nat) : Engine :=
  match (e.server server).waiting with
  | [] => e.modifyServer server fun s => { s with freeSlots := s.freeSlots + 1 }
  | first :: rest =>
    ((e.modifyServer server fun s => { s with waiting := rest }).setPhase first .granted).wake
      [.request first]

/-- Takes a free slot of a server for a request, if there is one. -/
def takeSlot? (e : Engine) (server : Nat) : Option Engine :=
  match (e.server server).freeSlots with
  | 0 => none
  | free + 1 => some (e.modifyServer server fun s => { s with freeSlots := free })

def awaitSlot (e : Engine) (n : Nat) : Engine :=
  (e.modifyServer (e.submission n).server fun s =>
    { s with waiting := s.waiting ++ [n] }).setPhase n .waiting

/-!
# The gate
-/

/-- Lets a request whose backend waits at the gate go on. -/
def letThrough (e : Engine) (n : Nat) : Engine :=
  match (e.submission n).phase with
  | .atGate slots resume => (e.setPhase n (.letThrough slots resume)).start [.request n]
  | _ => e

/-- Adds permits to the gate: the first requests that wait are let through, and what is
left over is kept for later ones. -/
def openGate (e : Engine) (permits : Nat) : Engine :=
  let through := e.gate.waiting.take permits
  let gate := { e.gate with
    permits := e.gate.permits + (permits - through.length)
    waiting := e.gate.waiting.drop permits }
  through.foldl letThrough { e with gate := gate }

/-- Closes the gate: all requests that wait go on, and learn that it is closed. -/
def closeGate (e : Engine) : Engine :=
  e.gate.waiting.foldl letThrough { e with gate := { e.gate with waiting := [], isClosed := true } }

end InferenceEngine.Engine
