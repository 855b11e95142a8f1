import InferenceEngine.SharedMemory.Directory

/-!
# Regions

A region is a file that has been mapped: it remembers the key it was opened by, the file
and the size that the file had. Its bytes are those of the file.
-/

namespace InferenceEngine

structure Region where
  /-- The key by which the file was opened, as it was spelled. -/
  key : String
  /-- The name that the file had. -/
  name : String
  /-- The size that the file had. -/
  size : Nat
  /-- The number of the file. -/
  file : Nat
  deriving DecidableEq, Inhabited

/-- Checks that a range lies inside what it is taken from. -/
def checkRange (owner : RangeOwner) (offset size available : Nat) : Except Failure Unit :=
  if offset + size ≤ available then .ok ()
  else .error (.rangeExceeds offset size owner available)

namespace Region

def description (r : Region) : String :=
  Text.record "SharedMemoryRegion" [
    ("key", Text.quoted r.key),
    ("path", Text.quoted (Directory.path r.name)),
    ("byte_size", toString r.size)]

def creationEvent (r : Region) : Event := .regionCreated r.key r.size (Directory.path r.name)

/-- Creates a file under a key and maps it. If the size is refused, the file stays behind
without bytes. -/
def create (d : Directory) (key : String) (size : Nat) : Except Failure Region × Directory :=
  let checked : Except Failure String := do
    let name ← fileName? key
    if size = 0 then .error (.emptyRegion key)
    else
      checkName name
      if d.names.contains name then
        .error (.fileFault .alreadyExists "File exists (os error 17)")
      else .ok name
  match checked with
  | .error failure => (.error failure, d)
  | .ok name =>
    if size < Text.signedBound then (.ok ⟨key, name, size, d.files.length⟩, d.addFile name size)
    else
      (.error (.fileFault .invalidInput "number too large to fit in target type"),
        d.addFile name 0)

def openKey (d : Directory) (key : String) : Except Failure Region := do
  let name ← fileName? key
  checkName name
  match d.names.get? name with
  | none => .error (.missingRegion key)
  | some number =>
    let size := (d.file number).size
    if size = 0 then .error (.emptyFile key) else .ok ⟨key, name, size, number⟩

/-- Whether the name still means the file, with the size that it had. -/
def isCurrent (r : Region) (d : Directory) : Bool :=
  d.names.get? r.name = some r.file && (d.file r.file).size = r.size

def read (r : Region) (d : Directory) (offset size : Nat) : Except Failure Bytes := do
  checkRange .region offset size r.size
  .ok ((d.file r.file).read offset size)

def write (r : Region) (d : Directory) (offset : Nat) (data : Bytes) :
    Except Failure Directory := do
  checkRange .region offset data.length r.size
  .ok (d.modifyFile r.file fun f => f.write offset data)

end Region

end InferenceEngine
