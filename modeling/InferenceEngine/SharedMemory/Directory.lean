import InferenceEngine.Event

/-!
# The directory of shared memory

Regions of shared memory are files of one directory. A file is an object with a size and
contents; the directory gives names to files. A file that has lost its name goes on for
those who have mapped it, and a new file under the old name is another object.
-/

namespace InferenceEngine

/-!
# Files
-/

/-- A file: its size, and its bytes up to the last one that was written. All bytes after
them are zero. -/
structure File where
  size : Nat
  written : Bytes
  deriving DecidableEq, Inhabited

namespace File

def zeroed (size : Nat) : File := ⟨size, []⟩

def byte (f : File) (position : Nat) : UInt8 := f.written.getD position 0

def read (f : File) (offset size : Nat) : Bytes :=
  let held := f.written.slice offset size
  held ++ Bytes.zeros (size - held.length)

def write (f : File) (offset : Nat) (data : Bytes) : File :=
  { f with written := (f.written ++ Bytes.zeros (offset - f.written.length)).overwrite offset data }

def resize (f : File) (size : Nat) : File := ⟨size, f.written.take size⟩

end File

/-!
# Keys
-/

/-- The name of the file that a key means: a slash in front of it is left out. -/
def fileName? (key : String) : Except Failure String :=
  let chars := key.toList
  let name := match chars with
    | '/' :: rest => rest
    | _ => chars
  if name = [] ∨ '/' ∈ name ∨ name = ['.'] ∨ name = ['.', '.'] then .error (.invalidKey key)
  else .ok (String.ofList name)

/-- Checks that the file system takes a name: it has no zero character and at most 255
bytes. -/
def checkName (name : String) : Except Failure Unit :=
  if '\x00' ∈ name.toList then
    .error (.fileFault .invalidInput "file name contained an unexpected NUL byte")
  else if 255 < name.utf8ByteSize then
    .error (.fileFault .other "File name too long (os error 36)")
  else .ok ()

/-!
# Directories
-/

/-- A directory: all files that were ever made, by number, and the names of some of them. -/
structure Directory where
  files : List File
  names : OrderedMap String Nat

namespace Directory

def empty : Directory := ⟨[], .empty⟩

instance : Inhabited Directory := ⟨empty⟩

def path (name : String) : String := "<dir>/" ++ name

def file (d : Directory) (number : Nat) : File := d.files.getD number (.zeroed 0)

def modifyFile (d : Directory) (number : Nat) (f : File -> File) : Directory :=
  { d with files := d.files.modify number f }

def addFile (d : Directory) (name : String) (size : Nat) : Directory :=
  ⟨d.files ++ [.zeroed size], d.names.insert name d.files.length⟩

/-- Sets the size of the file of a name, which is made if there is none. -/
def resize (d : Directory) (name : String) (size : Nat) : Directory :=
  match d.names.get? name with
  | some number => d.modifyFile number fun f => f.resize size
  | none => d.addFile name size

def unlink (d : Directory) (key : String) : Except Failure Directory := do
  let name ← fileName? key
  checkName name
  match d.names.get? name with
  | none => .error (.missingRegion key)
  | some _ => .ok { d with names := d.names.erase name }

end Directory

end InferenceEngine
