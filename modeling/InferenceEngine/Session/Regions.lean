import InferenceEngine.Engine.Operation
import InferenceEngine.Session.Basic

/-!
# Shared memory

The steps on regions, on registered handles and on blocks, as a session calls handles that
it has been given by its own registry.
-/

namespace InferenceEngine.Session

/-!
# Regions
-/

def setDirectory (d : Directory) : SessionStep Unit :=
  SessionStep.change fun e => { e with directory := d }

def createRegion (label key : String) (size : Nat) : SessionStep Region := do
  let (result, d) := Region.create (← get).engine.directory key size
  setDirectory d
  let region ← SessionStep.ofExcept result
  SessionStep.change fun e => e.report [region.creationEvent]
  modify fun s => { s with regions := s.regions.insert label region }
  return region

def openRegion (label key : String) : SessionStep Region := do
  let region ← SessionStep.ofExcept (Region.openKey (← get).engine.directory key)
  modify fun s => { s with regions := s.regions.insert label region }
  return region

def unlinkRegion (key : String) : SessionStep Unit := do
  let d ← SessionStep.ofExcept ((← get).engine.directory.unlink key)
  setDirectory d

def readRegion (label : String) (offset size : Nat) : SessionStep Bytes := do
  let region ← SessionStep.find Session.regions label
  SessionStep.ofExcept (region.read (← get).engine.directory offset size)

def writeRegion (label : String) (offset : Nat) (data : Bytes) : SessionStep Unit := do
  let region ← SessionStep.find Session.regions label
  let d ← SessionStep.ofExcept (region.write (← get).engine.directory offset data)
  setDirectory d

def dropRegion (label : String) : SessionStep Unit := do
  let _ ← SessionStep.find Session.regions label
  modify fun s => { s with regions := s.regions.erase label }

def resizeFile (name : String) (size : Nat) : SessionStep Unit := do
  setDirectory ((← get).engine.directory.resize name size)

/-!
# Handles
-/

/-- A registry of the session, and who else holds its mappings. -/
structure RegistryView where
  registry : Registry
  isElsewhere : Nat -> Bool
  /-- Puts another registry in its place and reports some events. -/
  put : Registry -> List Event -> Session -> Session

/-- The session's own registry; its blocks may hold mappings. -/
def ownRegistry (s : Session) : RegistryView where
  registry := s.registry
  isElsewhere n := s.blocks.values.any fun h => h.mapping.number = n
  put registry events s := { s with registry := registry, engine := s.engine.report events }

/-- The registry of a server; its requests may hold mappings. -/
def serverRegistry (s : Session) (n : Nat) : RegistryView where
  registry := (s.engine.server n).registry
  isElsewhere := s.engine.holdsMapping n
  put registry events s := { s with engine := (s.engine.setRegistry n registry).report events }

def registryView (server : Option String) : SessionStep RegistryView := do
  match server with
  | none => return (← get).ownRegistry
  | some label =>
    let n ← SessionStep.find Session.servers label
    return (← get).serverRegistry n

def register (server : Option String) (name key : String) (offset size : Nat) :
    SessionStep Unit := do
  let view ← registryView server
  let (result, registry, events) := view.registry.register (← get).engine.directory
    view.isElsewhere name key offset size
  modify (view.put registry events)
  SessionStep.ofExcept result

def unregister (server : Option String) (name : String) : SessionStep Unit := do
  let view ← registryView server
  let registry ← SessionStep.ofExcept (view.registry.unregister name)
  modify (view.put registry [.handleUnregistered name])

def unregisterAll (server : Option String) : SessionStep Unit := do
  let view ← registryView server
  let (registry, events) := view.registry.unregisterAll
  modify (view.put registry events)

def handleStatus (server : Option String) : SessionStep (List HandleStatus) := do
  let view ← registryView server
  return view.registry.status

/-!
# Blocks
-/

def getBlock (name label : String) : SessionStep HandleStatus := do
  let block ← SessionStep.ofExcept ((← get).registry.get name)
  modify fun s => { s with blocks := s.blocks.insert label block }
  return block.status

def readBlock (label : String) (offset size : Nat) : SessionStep Bytes := do
  let block ← SessionStep.find Session.blocks label
  SessionStep.ofExcept (block.read (← get).engine.directory offset size)

def blockElement (label : String) (index stride : Nat) : SessionStep Bytes := do
  let block ← SessionStep.find Session.blocks label
  SessionStep.ofExcept (block.element (← get).engine.directory index stride)

def writeBlock (label : String) (offset : Nat) (data : Bytes) : SessionStep Unit := do
  let block ← SessionStep.find Session.blocks label
  let d ← SessionStep.ofExcept (block.write (← get).engine.directory offset data)
  setDirectory d

def dropBlock (label : String) : SessionStep Unit := do
  let _ ← SessionStep.find Session.blocks label
  modify fun s => { s with blocks := s.blocks.erase label }

end InferenceEngine.Session
