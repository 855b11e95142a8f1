import InferenceEngine.SharedMemory.Region
import InferenceEngine.Status

/-!
# Registered handles

A registry gives names to ranges of regions. Handles over the same file share its mapping
for as long as someone holds it; when the name of the file means another one by now, the
file is mapped anew, and the handles that hold the old mapping keep it.
-/

namespace InferenceEngine

/-- A mapping of a region; mappings are told apart by their numbers. -/
structure Mapping where
  number : Nat
  region : Region
  deriving DecidableEq, Inhabited

structure Handle where
  name : String
  mapping : Mapping
  offset : Nat
  size : Nat
  deriving DecidableEq, Inhabited

namespace Handle

def status (h : Handle) : HandleStatus := ⟨h.name, h.mapping.region.key, h.offset, h.size⟩

def read (h : Handle) (d : Directory) (offset size : Nat) : Except Failure Bytes := do
  checkRange (.handle h.name) offset size h.size
  h.mapping.region.read d (h.offset + offset) size

def write (h : Handle) (d : Directory) (offset : Nat) (data : Bytes) :
    Except Failure Directory := do
  checkRange (.handle h.name) offset data.length h.size
  h.mapping.region.write d (h.offset + offset) data

def element (h : Handle) (d : Directory) (index stride : Nat) : Except Failure Bytes :=
  if index * stride < Text.wordBound then h.read d (index * stride) stride
  else .error .elementOverflow

end Handle

/-- The handles of a server, and the last mapping of each file name. -/
structure Registry where
  handles : OrderedMap String Handle
  mappings : OrderedMap String Mapping
  /-- The number of the next mapping. -/
  next : Nat

namespace Registry

def empty : Registry := ⟨.empty, .empty, 0⟩

instance : Inhabited Registry := ⟨empty⟩

/-- Whether a mapping is held, by a handle of the registry or by someone else. -/
def isHeld (r : Registry) (elsewhere : Nat -> Bool) (number : Nat) : Bool :=
  (r.handles.values.any fun h => h.mapping.number = number) || elsewhere number

/-- The mapping of the file that a key means: the last one if it is held and current, else
a new one of what is opened. -/
def mapKeyBy (r : Registry) (isCurrent : Region -> Bool) (opened : Except Failure Region)
    (elsewhere : Nat -> Bool) (key : String) : Except Failure Mapping × Registry × List Event :=
  match fileName? key with
  | .error failure => (.error failure, r, [])
  | .ok name =>
    let last? := (r.mappings.get? name).filter fun m => r.isHeld elsewhere m.number
    let fresh := fun (events : List Event) =>
      match opened with
      | .error failure => (.error failure, r, events)
      | .ok region =>
        let mapping : Mapping := ⟨r.next, region⟩
        (.ok mapping,
          { r with mappings := r.mappings.insert name mapping, next := r.next + 1 }, events)
    match last? with
    | none => fresh []
    | some mapping =>
      if isCurrent mapping.region then (.ok mapping, r, []) else fresh [.regionReplaced key]

/-- Registers a range of the region of a key under a name. -/
def registerBy (r : Registry) (isCurrent : Region -> Bool) (opened : Except Failure Region)
    (elsewhere : Nat -> Bool) (name key : String) (offset size : Nat) :
    Except Failure Unit × Registry × List Event :=
  if name = "" then (.error .unnamedHandle, r, [])
  else if r.handles.contains name then (.error (.handleExists name), r, [])
  else
    match r.mapKeyBy isCurrent opened elsewhere key with
    | (.error failure, r, events) => (.error failure, r, events)
    | (.ok mapping, r, events) =>
      match checkRange (.keyedRegion key) offset size mapping.region.size with
      | .error failure => (.error failure, r, events)
      | .ok () =>
        (.ok (), { r with handles := r.handles.insert name ⟨name, mapping, offset, size⟩ },
          events ++ [.handleRegistered name key offset size])

def mapKey (r : Registry) (d : Directory) (elsewhere : Nat -> Bool) (key : String) :
    Except Failure Mapping × Registry × List Event :=
  r.mapKeyBy (fun region => region.isCurrent d) (Region.openKey d key) elsewhere key

def register (r : Registry) (d : Directory) (elsewhere : Nat -> Bool) (name key : String)
    (offset size : Nat) : Except Failure Unit × Registry × List Event :=
  r.registerBy (fun region => region.isCurrent d) (Region.openKey d key) elsewhere name key offset
    size

def get (r : Registry) (name : String) : Except Failure Handle :=
  match r.handles.get? name with
  | some h => .ok h
  | none => .error (.missingHandle name)

def unregister (r : Registry) (name : String) : Except Failure Registry :=
  if r.handles.contains name then .ok { r with handles := r.handles.erase name }
  else .error (.missingHandle name)

def unregisterAll (r : Registry) : Registry × List Event :=
  ({ r with handles := .empty },
    if r.handles.isEmpty then [] else [.handlesUnregistered r.handles.size])

/-- The status of all handles, in the order of their names. -/
def status (r : Registry) : List HandleStatus := r.handles.values.map Handle.status

end Registry

end InferenceEngine
