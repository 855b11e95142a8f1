import InferenceEngine.Event
import InferenceEngine.Options.Server

/-!
# Allocators

An allocator hands out zeroed buffers and takes them back with their own triple of size,
domain and region. To decide what it may hand out it only keeps count: a host allocator of
all bytes that it has handed out, a pooled allocator of those of each pool. A client can also
bring an allocator of its own. Beside that the books of an allocator list each buffer that it
has handed out, taken back or refused, and what it was asked for when it panicked.
-/

namespace InferenceEngine

/-- The sum of two sizes, unless it reaches the bound of a word. -/
def sum? (a b : Nat) : Option Nat := if a + b < Text.wordBound then some (a + b) else none

/-- Checks that a buffer comes back with its own triple. -/
def Buffer.checkTriple (buffer : Buffer) (given : BufferTriple) : Except Failure Unit :=
  if given = buffer.triple then .ok () else .error (.tripleMismatch given buffer.triple)

/-- What comes of a call that asks for a buffer. -/
inductive Allocation where
  | made (buffer : Buffer)
  | refused (failure : Failure)
  /-- The call panics, and there is no buffer. -/
  | panicked

/-- A call of an allocator: it is asked for memory, or given a buffer with a triple. -/
inductive AllocatorCall where
  | allocate (domain : MemoryDomain) (region : Int) (size : Nat)
  | free (buffer : Buffer) (given : BufferTriple)

namespace Allocation

def zeroed (domain : MemoryDomain) (region : Int) (size : Nat) : Allocation :=
  match Buffer.zeroed? domain region size with
  | some buffer => .made buffer
  | none => .panicked

theorem zeroed_of_lt {domain : MemoryDomain} {region : Int} {size : Nat}
    (h : size < Text.signedBound) :
    zeroed domain region size = .made (.zeroed domain region size) := by
  unfold zeroed
  rw [Buffer.zeroed?_of_lt h]

theorem zeroed_of_le {domain : MemoryDomain} {region : Int} {size : Nat}
    (h : Text.signedBound ≤ size) : zeroed domain region size = .panicked := by
  unfold zeroed
  rw [Buffer.zeroed?_of_le h]

theorem zeroed_cases (domain : MemoryDomain) (region : Int) (size : Nat) :
    (size < Text.signedBound ∧
        zeroed domain region size = .made (.zeroed domain region size)) ∨
      (Text.signedBound ≤ size ∧ zeroed domain region size = .panicked) := by
  by_cases hsize : size < Text.signedBound
  · exact .inl ⟨hsize, zeroed_of_lt hsize⟩
  · have hle := Nat.le_of_not_lt hsize
    exact .inr ⟨hle, zeroed_of_le hle⟩

end Allocation

/-!
# Host memory
-/

/-- An allocator of host memory, with a limit or without one. -/
structure HostAllocator where
  limit : Option Nat
  /-- The bytes in use, a word that wraps. -/
  used : Nat
  deriving DecidableEq, Inhabited

namespace HostAllocator

def new (limit : Option Nat) : HostAllocator := ⟨limit, 0⟩

def reserve (a : HostAllocator) (size : Nat) : Except Failure HostAllocator :=
  match a.limit with
  | none => .ok { a with used := (a.used + size) % Text.wordBound }
  | some limit =>
    match sum? a.used size with
    | some next =>
      if next ≤ limit then .ok { a with used := next }
      else .error (.hostExhausted size a.used limit)
    | none => .error (.hostExhausted size a.used limit)

/-- Bytes are counted before their storage is made. -/
def allocate (a : HostAllocator) (domain : MemoryDomain) (region : Int) (size : Nat) :
    Allocation × HostAllocator :=
  if domain = .host then
    match a.reserve size with
    | .ok a => (.zeroed domain region size, a)
    | .error failure => (.refused failure, a)
  else (.refused (.hostOnly domain), a)

def free (a : HostAllocator) (buffer : Buffer) (given : BufferTriple) :
    Except Failure HostAllocator := do
  buffer.checkTriple given
  .ok { a with used := (a.used + (Text.wordBound - given.size % Text.wordBound)) % Text.wordBound }

end HostAllocator

/-!
# Pools
-/

/-- The count of one pool; without a capacity it is bounded by the size of a word. -/
structure Pool where
  capacity : Option Nat
  used : Nat
  deriving DecidableEq, Inhabited

namespace Pool

def bound (p : Pool) : Nat := p.capacity.getD (Text.wordBound - 1)

def take? (p : Pool) (size : Nat) : Option Pool :=
  match sum? p.used size with
  | none => none
  | some next =>
    match p.capacity with
    | none => some { p with used := next }
    | some capacity => if next ≤ capacity then some { p with used := next } else none

def give (p : Pool) (size : Nat) : Pool := { p with used := p.used - size }

end Pool

/-- An allocator with one pool for all host memory and one for each device. -/
structure PooledAllocator where
  host : Pool
  devices : OrderedMap Int Pool

namespace PooledAllocator

/-- The pools that options ask for; of devices listed twice the last one counts. -/
def new (options : MemoryOptions) : PooledAllocator where
  host := ⟨options.hostLimit, 0⟩
  devices := .ofList (options.accelerators.map fun d => (d.device, ⟨some d.capacity, 0⟩))

def pool? (a : PooledAllocator) : MemoryDomain -> Int -> Option Pool
  | .host, _ => some a.host
  | .accelerator, region => a.devices.get? region

def setPool (a : PooledAllocator) (domain : MemoryDomain) (region : Int) (p : Pool) :
    PooledAllocator :=
  match domain with
  | .host => { a with host := p }
  | .accelerator => { a with devices := a.devices.insert region p }

def usage (a : PooledAllocator) (domain : MemoryDomain) (region : Int) : Option Nat :=
  (a.pool? domain region).map Pool.used

/-- Bytes are counted before their storage is made. -/
def allocate (a : PooledAllocator) (domain : MemoryDomain) (region : Int) (size : Nat) :
    Allocation × PooledAllocator :=
  match a.pool? domain region with
  | none => (.refused (.unknownDevice region), a)
  | some p =>
    match p.take? size with
    | none => (.refused (.poolExhausted domain region size p.used p.bound), a)
    | some p => (.zeroed domain region size, a.setPool domain region p)

def free (a : PooledAllocator) (buffer : Buffer) (given : BufferTriple) :
    Except Failure PooledAllocator := do
  buffer.checkTriple given
  match a.pool? given.domain given.region with
  | none => .error (.unknownPool given.domain given.region)
  | some p => .ok (a.setPool given.domain given.region (p.give given.size))

end PooledAllocator

/-!
# Allocators of clients
-/

/-- An allocator that a client brings along. What a call comes to may depend on all calls that
were made before it. -/
structure CallerAllocator where
  onAllocate : List AllocatorCall -> MemoryDomain -> Int -> Nat -> Allocation
  onFree : List AllocatorCall -> Buffer -> BufferTriple -> Except Failure Unit
  onUsage : List AllocatorCall -> MemoryDomain -> Int -> Option Nat
  /-- The calls that have been made, in order. -/
  calls : List AllocatorCall

namespace CallerAllocator

def called (a : CallerAllocator) (c : AllocatorCall) : CallerAllocator :=
  { a with calls := a.calls ++ [c] }

def allocate (a : CallerAllocator) (domain : MemoryDomain) (region : Int) (size : Nat) :
    Allocation × CallerAllocator :=
  (a.onAllocate a.calls domain region size, a.called (.allocate domain region size))

def free (a : CallerAllocator) (buffer : Buffer) (given : BufferTriple) :
    Except Failure Unit × CallerAllocator :=
  (a.onFree a.calls buffer given, a.called (.free buffer given))

def usage (a : CallerAllocator) (domain : MemoryDomain) (region : Int) : Option Nat :=
  a.onUsage a.calls domain region

end CallerAllocator

/-!
# Allocators in general
-/

structure Ledger where
  /-- The buffers that were handed out, in order; the number of a buffer is its place. -/
  handedOut : List BufferTag
  /-- The buffers that were taken back, each with the triple that it was given back with. -/
  takenBack : List BufferTag
  /-- The buffers of outputs that were given back and not taken. -/
  refused : List BufferTag
  /-- What was asked for in calls that panicked, in order. -/
  panicked : List BufferTag
  deriving DecidableEq, Inhabited

namespace Ledger

def empty : Ledger := ⟨[], [], [], []⟩

def handOut (l : Ledger) (tag : BufferTag) : Ledger := { l with handedOut := l.handedOut ++ [tag] }

def takeBack (l : Ledger) (tag : BufferTag) : Ledger := { l with takenBack := l.takenBack ++ [tag] }

def refuse (l : Ledger) (tag : BufferTag) : Ledger := { l with refused := l.refused ++ [tag] }

def panic (l : Ledger) (triple : BufferTriple) : Ledger :=
  { l with panicked := l.panicked ++ [⟨l.panicked.length, triple⟩] }

end Ledger

/-- What an allocator goes by when it is asked for memory. -/
inductive AllocatorKind where
  | host (a : HostAllocator)
  | pooled (a : PooledAllocator)
  | caller (a : CallerAllocator)

namespace AllocatorKind

def allocate (a : AllocatorKind) (domain : MemoryDomain) (region : Int) (size : Nat) :
    Allocation × AllocatorKind :=
  match a with
  | host a => (a.allocate domain region size).map id host
  | pooled a => (a.allocate domain region size).map id pooled
  | caller a => (a.allocate domain region size).map id caller

/-- Host memory and pools change only if they take the buffer. -/
def free (a : AllocatorKind) (buffer : Buffer) (given : BufferTriple) :
    Except Failure Unit × AllocatorKind :=
  match a with
  | host a =>
    match a.free buffer given with
    | .ok a => (.ok (), host a)
    | .error failure => (.error failure, host a)
  | pooled a =>
    match a.free buffer given with
    | .ok a => (.ok (), pooled a)
    | .error failure => (.error failure, pooled a)
  | caller a => (a.free buffer given).map id caller

def usage (a : AllocatorKind) (domain : MemoryDomain) (region : Int) : Option Nat :=
  match a with
  | host a => some a.used
  | pooled a => a.usage domain region
  | caller a => a.usage domain region

end AllocatorKind

structure Allocator where
  kind : AllocatorKind
  ledger : Ledger

namespace Allocator

def host (a : HostAllocator) : Allocator := ⟨.host a, .empty⟩

def pooled (a : PooledAllocator) : Allocator := ⟨.pooled a, .empty⟩

def caller (a : CallerAllocator) : Allocator := ⟨.caller a, .empty⟩

instance : Inhabited Allocator := ⟨.host default⟩

def allocate (a : Allocator) (domain : MemoryDomain) (region : Int) (size : Nat) :
    Allocation × Allocator :=
  match a.kind.allocate domain region size with
  | (.made buffer, kind) =>
    let buffer := { buffer with serial := a.ledger.handedOut.length }
    (.made buffer, ⟨kind, a.ledger.handOut buffer.tag⟩)
  | (.refused failure, kind) => (.refused failure, ⟨kind, a.ledger⟩)
  | (.panicked, kind) => (.panicked, ⟨kind, a.ledger.panic ⟨size, domain, region⟩⟩)

def free (a : Allocator) (buffer : Buffer) (given : BufferTriple) :
    Except Failure Unit × Allocator :=
  match a.kind.free buffer given with
  | (.ok (), kind) => (.ok (), ⟨kind, a.ledger.takeBack ⟨buffer.serial, given⟩⟩)
  | (.error failure, kind) => (.error failure, ⟨kind, a.ledger⟩)

/-- What an allocator reports when it makes the storage of a buffer; only pools do. -/
def allocationEvents (a : Allocator) (domain : MemoryDomain) (region : Int) (size : Nat) :
    List Event :=
  match a.kind with
  | .pooled _ => [.bufferAllocated domain region size]
  | _ => []

def usage (a : Allocator) (domain : MemoryDomain) (region : Int) : Option Nat :=
  a.kind.usage domain region

/-- Gives a buffer back with its own triple, and reports it if that fails. -/
def release (a : Allocator) (output : String) (buffer : Buffer) : Allocator × List Event :=
  match a.free buffer buffer.triple with
  | (.ok (), a) => (a, [])
  | (.error failure, a) =>
    ({ a with ledger := a.ledger.refuse buffer.tag },
      [.bufferNotFreed output buffer.triple failure])

/-- Gives the buffers of several outputs back, in order. -/
def releaseAll (a : Allocator) : List (String × Buffer) -> Allocator × List Event
  | [] => (a, [])
  | (output, buffer) :: rest =>
    let (a, events) := a.release output buffer
    let (a, more) := a.releaseAll rest
    (a, events ++ more)

end Allocator

inductive AllocatorPlan where
  | host (limit : Option Nat)
  | pooled (options : MemoryOptions)
  | caller (a : CallerAllocator)

/-- The allocator that is made, with nothing in use. -/
def AllocatorPlan.allocator : AllocatorPlan -> Allocator
  | host limit => .host (.new limit)
  | pooled options => .pooled (.new options)
  | caller a => .caller a

end InferenceEngine
