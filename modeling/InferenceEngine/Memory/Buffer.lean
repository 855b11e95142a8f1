import InferenceEngine.Bytes
import InferenceEngine.Json.Record
import InferenceEngine.Text.Quoted

/-!
# Buffers

A buffer is a byte string that an allocator has placed in a region of some memory domain.
Allocators take a buffer back only together with its own triple of size, domain and
region.
-/

namespace InferenceEngine

/-- A kind of memory in which output buffers can lie. -/
inductive MemoryDomain where
  | host
  | accelerator
  deriving DecidableEq, Inhabited

namespace MemoryDomain

def name : MemoryDomain -> String
  | host => "host"
  | accelerator => "accelerator"

def ofName? : String -> Option MemoryDomain
  | "host" => some host
  | "accelerator" => some accelerator
  | _ => none

def description : MemoryDomain -> String
  | host => "Host"
  | accelerator => "Accelerator"

def toJson (d : MemoryDomain) : Json := .ofText d.name

def ofJson? : Json -> Option MemoryDomain := Json.choice? ofName?

end MemoryDomain

/-- A byte string placed in a region of a memory domain. -/
structure Buffer where
  bytes : Bytes
  domain : MemoryDomain
  region : Int
  /-- The number by which the allocator that has handed it out tells it from others. -/
  serial : Nat := 0
  deriving DecidableEq, Inhabited

namespace Buffer

def zeroed (domain : MemoryDomain) (region : Int) (size : Nat) : Buffer :=
  { bytes := .zeros size, domain := domain, region := region }

/-- Makes a buffer of zero bytes. Storage whose size is not a signed word cannot be asked for:
that ends in a panic. -/
def zeroed? (domain : MemoryDomain) (region : Int) (size : Nat) : Option Buffer :=
  if size < Text.signedBound then some (zeroed domain region size) else none

def size (b : Buffer) : Nat := b.bytes.length

theorem zeroed?_of_lt {domain : MemoryDomain} {region : Int} {size : Nat}
    (h : size < Text.signedBound) : zeroed? domain region size = some (zeroed domain region size) :=
  if_pos h

theorem zeroed?_of_le {domain : MemoryDomain} {region : Int} {size : Nat}
    (h : Text.signedBound ≤ size) : zeroed? domain region size = none :=
  if_neg (Nat.not_lt_of_le h)

@[simp] theorem size_zeroed (domain : MemoryDomain) (region : Int) (size : Nat) :
    (zeroed domain region size).size = size :=
  Bytes.length_zeros size

/-- The description of a buffer, which does not show its bytes. -/
def description (b : Buffer) : String :=
  Text.record "Buffer" [
    ("byte_size", toString b.size),
    ("domain", b.domain.description),
    ("region_id", toString b.region)]

end Buffer

/-- What an allocator is told about a buffer that it is to take back. -/
structure BufferTriple where
  size : Nat
  domain : MemoryDomain
  region : Int
  deriving DecidableEq, Inhabited

def Buffer.triple (b : Buffer) : BufferTriple := ⟨b.size, b.domain, b.region⟩

/-- A buffer as the books of its allocator know it, by its number and its triple. -/
structure BufferTag where
  serial : Nat
  triple : BufferTriple
  deriving DecidableEq, Inhabited

def Buffer.tag (b : Buffer) : BufferTag := ⟨b.serial, b.triple⟩

def BufferTriple.phrase (t : BufferTriple) : String :=
  s!"{t.size} bytes, {t.domain.name}, region {t.region}"

end InferenceEngine
