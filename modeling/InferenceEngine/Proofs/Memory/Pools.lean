import InferenceEngine.Proofs.Memory.Accounts

/-!
# Pools under any calls

An allocator of pools can be called in any order, and calls may fail.  As long as only buffers are
given back that it has handed out and that are still out, each pool counts exactly the bytes of its
buffers that are out, stays within its capacity, and refuses what would not fit into it.  What fits
and is too much to be made is counted all the same, and stays counted.
-/

namespace InferenceEngine

/-!
# The pools that options ask for

Regions of one pool are treated alike.
-/

namespace MemoryOptions

/-- The capacity of the pool of a region, if there is such a pool.  All of host memory is one pool,
and of devices that are listed twice the last one counts. -/
def pool? (options : MemoryOptions) : MemoryDomain -> Int -> Option (Option Nat)
  | .host, _ => some options.hostLimit
  | .accelerator, region =>
      (options.accelerators.reverse.find? fun d => d.device = region).map fun d => some d.capacity

/-- The most bytes that the pool of a region may hold; where no capacity is given this is the
greatest word. -/
def bound? (options : MemoryOptions) (domain : MemoryDomain) (region : Int) : Option Nat :=
  (options.pool? domain region).map fun capacity => capacity.getD (Text.wordBound - 1)

structure IsOfWords (options : MemoryOptions) : Prop where
  host : forall limit : Nat, options.hostLimit = some limit -> limit < Text.wordBound
  devices : forall d : AcceleratorPool, d ∈ options.accelerators -> d.capacity < Text.wordBound

theorem pool?_eq_none_iff {options : MemoryOptions} {domain : MemoryDomain} {region : Int} :
    options.pool? domain region = none ↔
      domain = .accelerator ∧ region ∉ options.accelerators.map AcceleratorPool.device := by
  cases domain with
  | host => simp [pool?]
  | accelerator => simp [pool?]

theorem IsOfWords.capacity_lt {options : MemoryOptions} (h : options.IsOfWords)
    {domain : MemoryDomain} {region : Int} {capacity : Nat}
    (hpool : options.pool? domain region = some (some capacity)) : capacity < Text.wordBound := by
  cases domain with
  | host => exact h.host capacity (Option.some.inj hpool)
  | accelerator =>
      rcases Option.map_eq_some_iff.1 hpool with ⟨d, hfound, hcapacity⟩
      rw [← Option.some.inj hcapacity]
      exact h.devices d (List.mem_reverse.1 (List.mem_of_find?_eq_some hfound))

theorem pool?_of_pool {options : MemoryOptions} {domain domain' : MemoryDomain}
    {region region' : Int} (h : domain'.pool region' = domain.pool region) :
    options.pool? domain' region' = options.pool? domain region := by
  cases domain with
  | host =>
      cases domain' with
      | host => rfl
      | accelerator => cases h
  | accelerator =>
      cases domain' with
      | host => cases h
      | accelerator => rw [(Prod.mk.inj h).2]

end MemoryOptions

/-!
# What fits into a pool
-/

namespace Pool

/-- A pool without a capacity takes what a word can count, and else what its capacity allows. -/
theorem take?_eq {p : Pool} (hword : forall capacity : Nat, p.capacity = some capacity ->
    capacity < Text.wordBound) (size : Nat) :
    p.take? size =
      if p.used + size ≤ p.bound then some { p with used := p.used + size } else none := by
  have hpositive : 0 < Text.wordBound := by decide
  unfold take? sum? bound
  by_cases hsum : p.used + size < Text.wordBound
  · simp only [if_pos hsum]
    cases p.capacity with
    | none => exact (if_pos (show p.used + size ≤ Text.wordBound - 1 by omega)).symm
    | some capacity => rfl
  · simp only [if_neg hsum]
    cases hcapacity : p.capacity with
    | none => exact (if_neg (show ¬ p.used + size ≤ Text.wordBound - 1 by omega)).symm
    | some capacity =>
        have hlt := hword capacity hcapacity
        exact (if_neg (show ¬ p.used + size ≤ capacity by omega)).symm

end Pool

namespace PooledAllocator

/-- Whether an allocator has the pools that options ask for, each within its bound. -/
structure Serves (a : PooledAllocator) (options : MemoryOptions) : Prop where
  pools : forall (domain : MemoryDomain) (region : Int),
    (a.pool? domain region).map Pool.capacity = options.pool? domain region
  within : forall (domain : MemoryDomain) (region : Int) (p : Pool),
    a.pool? domain region = some p -> p.used ≤ p.bound

variable {a a' : PooledAllocator} {options : MemoryOptions} {live live' : List BufferTag}
variable {domain : MemoryDomain} {region : Int} {p : Pool}

theorem serves_new (options : MemoryOptions) : (new options).Serves options where
  pools domain region := by
    cases domain with
    | host => rfl
    | accelerator =>
        show ((OrderedMap.ofList _).get? region).map Pool.capacity = _
        rw [OrderedMap.get?_ofList, ← List.map_reverse, List.find?_map, Option.map_map,
          Option.map_map]
        rfl
  within domain region p hp := by
    have hused := (counts_new options).used domain region p hp
    exact Nat.le_trans (Nat.le_of_eq hused) (Nat.zero_le _)

theorem Serves.setPool {p' : Pool} (h : a.Serves options) (hp : a.pool? domain region = some p)
    (hcapacity : p'.capacity = p.capacity) (hwithin : p'.used ≤ p'.bound) :
    (a.setPool domain region p').Serves options where
  pools domain' region' := by
    rw [pool?_setPool]
    split
    · rename_i hsame
      rw [MemoryOptions.pool?_of_pool hsame, ← h.pools domain region, hp, Option.map_some,
        Option.map_some, hcapacity]
    · exact h.pools domain' region'
  within domain' region' q hq := by
    rw [pool?_setPool] at hq
    split at hq
    · cases hq
      exact hwithin
    · exact h.within domain' region' q hq

theorem Serves.capacity (h : a.Serves options) (hp : a.pool? domain region = some p) :
    options.pool? domain region = some p.capacity := by
  rw [← h.pools domain region, hp]
  rfl

theorem Serves.bound (h : a.Serves options) (hp : a.pool? domain region = some p) :
    options.bound? domain region = some p.bound := by
  unfold MemoryOptions.bound?
  rw [h.capacity hp]
  rfl

theorem Serves.pool?_isSome (h : a.Serves options) {bound : Nat}
    (hbound : options.bound? domain region = some bound) :
    exists p : Pool, a.pool? domain region = some p ∧ p.bound = bound := by
  rcases Option.map_eq_some_iff.1 hbound with ⟨capacity, hcapacity, hsame⟩
  rcases Option.map_eq_some_iff.1 ((h.pools domain region).trans hcapacity) with ⟨p, hp, hp'⟩
  exact ⟨p, hp, by rw [← hsame, ← hp']; rfl⟩

theorem Serves.take?_eq (h : a.Serves options) (hwords : options.IsOfWords)
    (hcounts : a.Counts live) (hp : a.pool? domain region = some p) (size : Nat) :
    p.take? size =
      if bytesIn domain region live + size ≤ p.bound then
        some { p with used := bytesIn domain region live + size }
      else none := by
  have hword : forall capacity : Nat, p.capacity = some capacity -> capacity < Text.wordBound := by
    intro capacity hcapacity
    exact hwords.capacity_lt ((h.capacity hp).trans (congrArg some hcapacity))
  rw [Pool.take?_eq hword, hcounts.used domain region p hp]

theorem Serves.allocate_of_lt (h : a.Serves options) (hwords : options.IsOfWords)
    (hcounts : a.Counts live) (hp : a.pool? domain region = some p) {size : Nat}
    (hover : p.bound < bytesIn domain region live + size) :
    a.allocate domain region size =
      (.refused (.poolExhausted domain region size (bytesIn domain region live) p.bound), a) := by
  have htake := h.take?_eq hwords hcounts hp size
  rw [if_neg (Nat.not_le.2 hover)] at htake
  unfold PooledAllocator.allocate
  simp only [hp, htake, hcounts.used domain region p hp]

theorem Serves.allocate_of_le (h : a.Serves options) (hwords : options.IsOfWords)
    (hcounts : a.Counts live) (hp : a.pool? domain region = some p) {size : Nat}
    (hfits : bytesIn domain region live + size ≤ p.bound) :
    a.allocate domain region size = (.zeroed domain region size,
      a.setPool domain region { p with used := bytesIn domain region live + size }) := by
  have htake := h.take?_eq hwords hcounts hp size
  rw [if_pos hfits] at htake
  unfold PooledAllocator.allocate
  simp only [hp, htake]

end PooledAllocator

/-!
# Calls
-/

/-- Whether a call does not ask for more bytes than can be made. -/
def AllocatorCall.IsModest : AllocatorCall -> Prop
  | .allocate _ _ size => size < Text.signedBound
  | .free .. => True

namespace Allocator

def outstanding (a : Allocator) : List BufferTag :=
  a.ledger.handedOut.filter fun t => t ∉ a.ledger.takenBack

/-- What an allocator has to count: the buffers that are out, and what it was asked for in calls
that panicked. -/
def counted (a : Allocator) : List BufferTag := a.outstanding ++ a.ledger.panicked

def failure? (a : Allocator) : AllocatorCall -> Option Failure
  | .allocate domain region size =>
      match (a.allocate domain region size).1 with
      | .refused failure => some failure
      | _ => none
  | .free buffer given =>
      match (a.free buffer given).1 with
      | .error failure => some failure
      | .ok () => none

def afterCall (a : Allocator) : AllocatorCall -> Allocator
  | .allocate domain region size => (a.allocate domain region size).2
  | .free buffer given => (a.free buffer given).2

def afterCalls (a : Allocator) (calls : List AllocatorCall) : Allocator := calls.foldl afterCall a

theorem failure?_allocate (a : Allocator) (domain : MemoryDomain) (region : Int) (size : Nat)
    (failure : Failure) : a.failure? (.allocate domain region size) = some failure ↔
      (a.allocate domain region size).1 = .refused failure := by
  simp only [failure?]
  split
  · rename_i hrefused
    rw [hrefused]
    simp
  · rename_i hother
    constructor
    · intro hnone
      cases hnone
    · exact fun hrefused => absurd hrefused (hother failure)

theorem failure?_free (a : Allocator) (b : Buffer) (given : BufferTriple) (failure : Failure) :
    a.failure? (.free b given) = some failure ↔ (a.free b given).1 = .error failure := by
  simp only [failure?]
  split <;> simp_all

/-- Whether the buffer that a call gives back is one that is out, with whatever bytes. -/
def Owns (a : Allocator) : AllocatorCall -> Prop
  | .allocate .. => True
  | .free buffer _ => buffer.tag ∈ a.outstanding

/-- Whether each of several calls only gives back a buffer that is out when it is made. -/
def Rightful (a : Allocator) : List AllocatorCall -> Prop
  | [] => True
  | c :: rest => a.Owns c ∧ (a.afterCall c).Rightful rest

instance (a : Allocator) : (c : AllocatorCall) -> Decidable (a.Owns c)
  | .allocate .. => .isTrue trivial
  | .free buffer _ => inferInstanceAs (Decidable (buffer.tag ∈ a.outstanding))

instance decidableRightful : (calls : List AllocatorCall) -> (a : Allocator) ->
    Decidable (a.Rightful calls)
  | [], _ => .isTrue trivial
  | c :: rest, a =>
      have := decidableRightful rest (a.afterCall c)
      inferInstanceAs (Decidable (a.Owns c ∧ (a.afterCall c).Rightful rest))

/-- Whether two allocators differ in the count of one pool only, and there by a function. -/
def Shifts (a a' : Allocator) (domain : MemoryDomain) (region : Int) (f : Nat -> Nat) : Prop :=
  forall (domain' : MemoryDomain) (region' : Int),
    a'.usage domain' region' =
      if domain'.pool region' = domain.pool region then (a.usage domain' region').map f
      else a.usage domain' region'

/-- Whether an allocator has the pools of options, which count the buffers that are out. -/
structure Balances (a : Allocator) (options : MemoryOptions) (p : PooledAllocator)
    (live : List BufferTag) : Prop where
  kind : a.kind = .pooled p
  serves : p.Serves options
  accounts : a.Accounts live a.ledger.panicked

variable {a a' : Allocator} {options : MemoryOptions} {p : PooledAllocator}
variable {live spent : List BufferTag} {b : Buffer} {domain : MemoryDomain} {region : Int}
variable {size bound : Nat}

/-!
# The buffers that are out
-/

theorem Accounts.nodup_handedOut (h : a.Accounts live spent) : a.ledger.handedOut.Nodup := by
  apply List.Nodup.of_map BufferTag.serial
  rw [h.serials]
  exact List.nodup_range

theorem Accounts.outstanding_perm (h : a.Accounts live spent) : a.outstanding.Perm live := by
  have hnodup := (h.returned.nodup_iff).1 h.nodup_handedOut
  have hapart := (List.nodup_append.1 hnodup).2.2
  have hnone : a.ledger.takenBack.filter (fun t => t ∉ a.ledger.takenBack) = [] := by
    rw [List.filter_eq_nil_iff]
    intro t ht
    simp [ht]
  have hall : live.filter (fun t => t ∉ a.ledger.takenBack) = live := by
    rw [List.filter_eq_self]
    intro t ht
    exact decide_eq_true fun htaken => hapart t htaken t ht rfl
  have hperm := h.returned.filter fun t => t ∉ a.ledger.takenBack
  rw [List.filter_append, hnone, List.nil_append, hall] at hperm
  exact hperm

theorem Accounts.counted_perm (h : a.Accounts live spent) : a.counted.Perm (live ++ spent) := by
  rw [← h.panicked]
  exact h.outstanding_perm.append_right _

/-!
# Pools that count what is out
-/

theorem balances_plan (options : MemoryOptions) :
    (AllocatorPlan.pooled options).allocator.Balances options (.new options) [] where
  kind := rfl
  serves := PooledAllocator.serves_new options
  accounts := inOrder_plan (.pooled options) rfl

namespace Balances

theorem counts (h : a.Balances options p live) : p.Counts a.counted := by
  have hcounts := h.accounts.counts
  rw [h.kind] at hcounts
  exact PooledAllocator.Counts.perm hcounts h.accounts.counted_perm.symm

theorem usage_eq (h : a.Balances options p live) (domain : MemoryDomain) (region : Int) :
    a.usage domain region = (p.pool? domain region).map Pool.used := by
  unfold Allocator.usage
  rw [h.kind]
  rfl

theorem usage (h : a.Balances options p live) (domain : MemoryDomain) (region : Int) :
    a.usage domain region = (options.bound? domain region).map fun _ =>
      bytesIn domain region a.counted := by
  rw [h.usage_eq]
  cases hp : p.pool? domain region with
  | none =>
      unfold MemoryOptions.bound?
      rw [← h.serves.pools domain region, hp]
      rfl
  | some pool =>
      rw [h.serves.bound hp, Option.map_some, h.counts.used domain region pool hp]
      rfl

theorem le_bound (h : a.Balances options p live)
    (hbound : options.bound? domain region = some bound) :
    bytesIn domain region a.counted ≤ bound := by
  rcases h.serves.pool?_isSome hbound with ⟨pool, hp, hsame⟩
  rw [← h.counts.used domain region pool hp, ← hsame]
  exact h.serves.within domain region pool hp

theorem perm {live' : List BufferTag} (h : a.Balances options p live) (k : live.Perm live') :
    a.Balances options p live' where
  kind := h.kind
  serves := h.serves
  accounts := h.accounts.perm k

theorem outstanding (h : a.Balances options p live) : a.Balances options p a.outstanding :=
  h.perm h.accounts.outstanding_perm.symm

theorem kind_allocate (h : a.Balances options p live) (domain : MemoryDomain) (region : Int)
    (size : Nat) : a.kind.allocate domain region size =
      ((p.allocate domain region size).1, .pooled (p.allocate domain region size).2) := by
  rw [h.kind]
  rfl

theorem kind_free (h : a.Balances options p live) {given : BufferTriple}
    {result : Except Failure PooledAllocator} (hfree : p.free b given = result) :
    a.kind.free b given = (result.map fun _ => (), .pooled (result.toOption.getD p)) := by
  rw [h.kind, ← hfree]
  simp only [AllocatorKind.free]
  cases p.free b given <;> rfl

/-!
# Asking for memory

What fits into its pool is handed out, all zero and under a number of its own.
-/

theorem allocate_of_unknown (h : a.Balances options p live)
    (hnone : options.pool? domain region = none) (size : Nat) :
    a.allocate domain region size = (.refused (.unknownDevice region), a) := by
  have hp : p.pool? domain region = none := Option.map_eq_none_iff.1
    ((h.serves.pools domain region).trans hnone)
  have hinner : p.allocate domain region size = (.refused (.unknownDevice region), p) := by
    unfold PooledAllocator.allocate
    rw [hp]
  have hkind := h.kind_allocate domain region size
  rw [hinner, ← h.kind] at hkind
  unfold Allocator.allocate
  rw [hkind]

theorem allocate_of_lt (h : a.Balances options p live) (hwords : options.IsOfWords)
    (hbound : options.bound? domain region = some bound)
    (hover : bound < bytesIn domain region a.counted + size) :
    a.allocate domain region size =
      (.refused (.poolExhausted domain region size (bytesIn domain region a.counted) bound),
        a) := by
  rcases h.serves.pool?_isSome hbound with ⟨pool, hp, rfl⟩
  have hkind := h.kind_allocate domain region size
  rw [h.serves.allocate_of_lt hwords h.counts hp hover, ← h.kind] at hkind
  unfold Allocator.allocate
  rw [hkind]

theorem kind_of_le (h : a.Balances options p live) (hwords : options.IsOfWords)
    (hbound : options.bound? domain region = some bound)
    (hfits : bytesIn domain region a.counted + size ≤ bound) :
    exists p' : PooledAllocator, p'.Serves options ∧
      a.kind.allocate domain region size = (.zeroed domain region size, .pooled p') := by
  rcases h.serves.pool?_isSome hbound with ⟨pool, hp, rfl⟩
  have hkind := h.kind_allocate domain region size
  rw [h.serves.allocate_of_le hwords h.counts hp hfits] at hkind
  have hcapacity : ({ pool with used := bytesIn domain region a.counted + size } : Pool).capacity =
      pool.capacity := rfl
  exact ⟨_, h.serves.setPool hp hcapacity hfits, hkind⟩

theorem allocate_of_le (h : a.Balances options p live) (hwords : options.IsOfWords)
    (hbound : options.bound? domain region = some bound)
    (hfits : bytesIn domain region a.counted + size ≤ bound) (hsize : size < Text.signedBound) :
    exists (b : Buffer) (a' : Allocator) (p' : PooledAllocator),
      a.allocate domain region size = (.made b, a') ∧
      b = { Buffer.zeroed domain region size with serial := a.ledger.handedOut.length } ∧
      a'.ledger.panicked = a.ledger.panicked ∧ a'.Balances options p' (b.tag :: live) := by
  rcases h.kind_of_le hwords hbound hfits with ⟨p', hserves, hkind⟩
  rw [Allocation.zeroed_of_lt hsize] at hkind
  have houter : a.allocate domain region size =
      (.made { Buffer.zeroed domain region size with serial := a.ledger.handedOut.length },
        ⟨.pooled p', a.ledger.handOut ⟨a.ledger.handedOut.length,
          (Buffer.zeroed domain region size).triple⟩⟩) := by
    unfold Allocator.allocate
    rw [hkind]
    rfl
  have horder : a.InOrder live a.ledger.panicked := fun _ => h.accounts
  exact ⟨_, _, p', houter, rfl, rfl, rfl, hserves, horder.allocate houter rfl⟩

/-- What fits into its pool and is too much to be made is counted, and there is no buffer. -/
theorem allocate_of_vast (h : a.Balances options p live) (hwords : options.IsOfWords)
    (hbound : options.bound? domain region = some bound)
    (hfits : bytesIn domain region a.counted + size ≤ bound) (hsize : Text.signedBound ≤ size) :
    exists (a' : Allocator) (p' : PooledAllocator),
      a.allocate domain region size = (.panicked, a') ∧
      a'.ledger = a.ledger.panic ⟨size, domain, region⟩ ∧ a'.Balances options p' live := by
  rcases h.kind_of_le hwords hbound hfits with ⟨p', hserves, hkind⟩
  rw [Allocation.zeroed_of_le hsize] at hkind
  have houter : a.allocate domain region size =
      (.panicked, ⟨.pooled p', a.ledger.panic ⟨size, domain, region⟩⟩) := by
    unfold Allocator.allocate
    rw [hkind]
  have horder : a.InOrder live a.ledger.panicked := fun _ => h.accounts
  exact ⟨_, p', houter, rfl, rfl, hserves, horder.panicked houter rfl⟩

/-!
# Giving buffers back

A buffer that is out is taken back with its own triple.
-/

theorem free_of_ne (h : a.Balances options p live) {given : BufferTriple}
    (hother : given ≠ b.triple) :
    a.free b given = (.error (.tripleMismatch given b.triple), a) := by
  have hcheck : b.checkTriple given = .error (.tripleMismatch given b.triple) := if_neg hother
  have hinner : p.free b given = .error (.tripleMismatch given b.triple) := by
    unfold PooledAllocator.free
    rw [hcheck]
    rfl
  have hkind : a.kind.free b given = (.error (.tripleMismatch given b.triple), a.kind) := by
    rw [h.kind_free hinner, h.kind]
    rfl
  unfold Allocator.free
  rw [hkind]

theorem free_of_mem (h : a.Balances options p live) (hout : b.tag ∈ live) :
    exists (a' : Allocator) (p' : PooledAllocator),
      a.free b b.triple = (.ok (), a') ∧ a'.ledger.panicked = a.ledger.panicked ∧
        a'.Balances options p' (live.erase b.tag) := by
  have hbefore := h.perm (List.perm_cons_erase hout)
  rcases hbefore.accounts.free with ⟨hok, haccounts⟩
  have hcounts := hbefore.accounts.counts
  rw [h.kind] at hcounts
  rcases PooledAllocator.Counts.free hcounts with ⟨p', hfree, _⟩
  have houter : a.free b b.triple = (.ok (), ⟨.pooled p', a.ledger.takeBack b.tag⟩) := by
    unfold Allocator.free
    rw [h.kind_free hfree]
    rfl
  rw [houter] at haccounts
  refine ⟨_, p', houter, rfl, rfl, ?_, haccounts⟩
  rcases hcounts.known b.tag List.mem_cons_self with ⟨pool, hp⟩
  have hp : p.pool? b.triple.domain b.triple.region = some pool := hp
  have hset : p.setPool b.triple.domain b.triple.region (pool.give b.triple.size) = p' := by
    have hcheck : b.checkTriple b.triple = .ok () := if_pos rfl
    unfold PooledAllocator.free at hfree
    simp only [hcheck, hp, bind, Except.bind] at hfree
    exact Except.ok.inj hfree
  rw [← hset]
  have hwithin := Nat.le_trans (Nat.sub_le _ b.triple.size) (h.serves.within _ _ pool hp)
  exact h.serves.setPool hp rfl hwithin

/-!
# Sequences of calls

Whatever is called, the pools go on counting what is out.
-/

theorem allocate_cases (h : a.Balances options p live) (hwords : options.IsOfWords)
    (domain : MemoryDomain) (region : Int) (size : Nat) :
    (options.bound? domain region = none ∧
      a.allocate domain region size = (.refused (.unknownDevice region), a)) ∨
    exists bound : Nat, options.bound? domain region = some bound ∧
      ((bound < bytesIn domain region a.counted + size ∧
          a.allocate domain region size = (.refused (.poolExhausted domain region size
            (bytesIn domain region a.counted) bound), a)) ∨
        (bytesIn domain region a.counted + size ≤ bound ∧
          exists (a' : Allocator) (p' : PooledAllocator) (live' : List BufferTag),
            a'.Balances options p' live' ∧
              ((size < Text.signedBound ∧ a'.ledger.panicked = a.ledger.panicked ∧
                  exists b : Buffer, a.allocate domain region size = (.made b, a')) ∨
                (Text.signedBound ≤ size ∧ a.allocate domain region size = (.panicked, a'))))) := by
  cases hbound : options.bound? domain region with
  | none => exact .inl ⟨rfl, h.allocate_of_unknown (Option.map_eq_none_iff.1 hbound) size⟩
  | some bound =>
      refine .inr ⟨bound, rfl, ?_⟩
      by_cases hfits : bytesIn domain region a.counted + size ≤ bound
      · refine .inr ⟨hfits, ?_⟩
        by_cases hsize : size < Text.signedBound
        · rcases h.allocate_of_le hwords hbound hfits hsize with
            ⟨b, a', p', hmade, _, hsame, hbalances⟩
          exact ⟨a', p', _, hbalances, .inl ⟨hsize, hsame, b, hmade⟩⟩
        · have hvast := Nat.le_of_not_lt hsize
          rcases h.allocate_of_vast hwords hbound hfits hvast with
            ⟨a', p', hpanicked, _, hbalances⟩
          exact ⟨a', p', _, hbalances, .inr ⟨hvast, hpanicked⟩⟩
      · have hover := Nat.not_le.1 hfits
        exact .inl ⟨hover, h.allocate_of_lt hwords hbound hover⟩

theorem afterCall (h : a.Balances options p live) (hwords : options.IsOfWords)
    {c : AllocatorCall} (howns : a.Owns c) : exists (p' : PooledAllocator) (live' : List BufferTag),
      (a.afterCall c).Balances options p' live' := by
  cases c with
  | allocate domain region size =>
      show exists (p' : PooledAllocator) (live' : List BufferTag),
        (a.allocate domain region size).2.Balances options p' live'
      rcases h.allocate_cases hwords domain region size with
        ⟨_, hrefused⟩ | ⟨bound, _, ⟨_, hrefused⟩ | ⟨_, a', p', live', hbalances, hends⟩⟩
      · rw [hrefused]
        exact ⟨p, live, h⟩
      · rw [hrefused]
        exact ⟨p, live, h⟩
      · rcases hends with ⟨_, _, b, hmade⟩ | ⟨_, hpanicked⟩
        · rw [hmade]
          exact ⟨p', live', hbalances⟩
        · rw [hpanicked]
          exact ⟨p', live', hbalances⟩
  | free b given =>
      show exists (p' : PooledAllocator) (live' : List BufferTag),
        (a.free b given).2.Balances options p' live'
      by_cases hgiven : given = b.triple
      · rcases h.outstanding.free_of_mem howns with ⟨made, p', hmade, _, hbalances⟩
        rw [hgiven, hmade]
        exact ⟨p', _, hbalances⟩
      · rw [h.free_of_ne hgiven]
        exact ⟨p, live, h⟩

theorem afterCalls (h : a.Balances options p live) (hwords : options.IsOfWords)
    {calls : List AllocatorCall} (hcalls : a.Rightful calls) :
    exists p' : PooledAllocator,
      (a.afterCalls calls).Balances options p' (a.afterCalls calls).outstanding := by
  induction calls generalizing a p live with
  | nil => exact ⟨p, h.outstanding⟩
  | cons c rest ih =>
      rcases h.afterCall hwords hcalls.1 with ⟨p', live', hnext⟩
      exact ih hnext hcalls.2

/-!
# What a call changes

A buffer that is out is counted with its whole size, and comes off as such.
-/

theorem usage_cons {t : BufferTag} {counted : List BufferTag} (h : a.Balances options p live)
    (hcounted : a.counted.Perm (t :: counted)) (domain : MemoryDomain) (region : Int) :
    a.usage domain region = (options.bound? domain region).map fun _ =>
      (if domain.pool region = t.triple.domain.pool t.triple.region then t.triple.size else 0) +
        bytesIn domain region counted := by
  rw [h.usage, bytesIn_perm hcounted, bytesIn_cons]
  by_cases hin : domain.pool region = t.triple.domain.pool t.triple.region
  · have hisIn : t.isIn domain region = true := decide_eq_true hin.symm
    rw [if_pos hin, if_pos hisIn]
  · have hisIn : ¬ t.isIn domain region = true := fun hisIn =>
      hin (of_decide_eq_true hisIn).symm
    rw [if_neg hin, if_neg hisIn]

theorem shifts_of_cons {t : BufferTag} {p' : PooledAllocator} {live' : List BufferTag}
    (h : a.Balances options p live) (h' : a'.Balances options p' live')
    (hcounted : a'.counted.Perm (t :: a.counted)) :
    a.Shifts a' t.triple.domain t.triple.region (· + t.triple.size) := by
  intro domain region
  rw [h'.usage_cons hcounted, h.usage, Option.map_map]
  split
  · congr 1
    funext bound
    exact Nat.add_comm _ _
  · congr 1
    funext bound
    exact Nat.zero_add _

theorem shifts_of_erase {t : BufferTag} {p' : PooledAllocator} {live' : List BufferTag}
    (h : a.Balances options p live) (h' : a'.Balances options p' live')
    (hcounted : a.counted.Perm (t :: a'.counted)) :
    a.Shifts a' t.triple.domain t.triple.region (· - t.triple.size) := by
  intro domain region
  rw [h.usage_cons hcounted, h'.usage, Option.map_map]
  split
  · congr 1
    funext bound
    exact (Nat.add_sub_cancel_left _ _).symm
  · congr 1
    funext bound
    exact (Nat.zero_add _).symm

theorem counted_cons {t : BufferTag} {p' : PooledAllocator} (h : a.Balances options p live)
    (h' : a'.Balances options p' (t :: live)) (hsame : a'.ledger.panicked = a.ledger.panicked) :
    a'.counted.Perm (t :: a.counted) := by
  apply h'.accounts.counted_perm.trans
  rw [hsame]
  exact (h.accounts.counted_perm.symm).cons t

theorem free_shifts (h : a.Balances options p live) (hout : b.tag ∈ live) :
    exists (used : Nat) (a' : Allocator),
      a.usage b.domain b.region = some used ∧ b.size ≤ used ∧
        a.free b b.triple = (.ok (), a') ∧ a.Shifts a' b.domain b.region (· - b.size) := by
  rcases h.free_of_mem hout with ⟨a', p', hfree, hsame, hbalances⟩
  have hbefore := h.perm (List.perm_cons_erase hout)
  have hcounted := hbalances.counted_cons hbefore hsame.symm
  rcases h.counts.known b.tag (hcounted.mem_iff.2 List.mem_cons_self) with ⟨pool, hp⟩
  have husage := hbefore.usage_cons hcounted b.domain b.region
  rw [show options.bound? b.domain b.region = some pool.bound from h.serves.bound hp,
    if_pos (show b.domain.pool b.region = b.tag.triple.domain.pool b.tag.triple.region from rfl)]
    at husage
  exact ⟨_, a', husage, Nat.le_add_right _ _, hfree,
    hbefore.shifts_of_erase hbalances hcounted⟩

/-- What has just been handed out can be given back, whatever was written to it, and then all
pools are as before. -/
theorem free_allocated (h : a.Balances options p live) {p' : PooledAllocator}
    (h' : a'.Balances options p' (b.tag :: live))
    (hsame : a'.ledger.panicked = a.ledger.panicked) : exists a'' : Allocator,
      a'.free b b.triple = (.ok (), a'') ∧
        forall (domain : MemoryDomain) (region : Int),
          a''.usage domain region = a.usage domain region := by
  rcases h'.free_of_mem List.mem_cons_self with ⟨a'', p'', hfree, hsame', hbalances⟩
  rw [List.erase_cons_head] at hbalances
  have hcounted : a''.counted.Perm a.counted := by
    apply hbalances.accounts.counted_perm.trans
    rw [hsame', hsame]
    exact h.accounts.counted_perm.symm
  refine ⟨a'', hfree, fun domain region => ?_⟩
  rw [hbalances.usage, h.usage, bytesIn_perm hcounted]

/-!
# Answers

A size that fits and can be made is handed out and can be taken back at once.
-/

theorem allocate_invalidArg_iff (h : a.Balances options p live) (hwords : options.IsOfWords) :
    (exists failure : Failure, (a.allocate domain region size).1 = .refused failure ∧
        failure.code = .invalidArg) ↔
      domain = .accelerator ∧ region ∉ options.accelerators.map AcceleratorPool.device := by
  rw [← MemoryOptions.pool?_eq_none_iff]
  constructor
  · rintro ⟨failure, hfailure, hcode⟩
    rcases h.allocate_cases hwords domain region size with
      ⟨hnone, _⟩ | ⟨bound, _, ⟨_, hrefused⟩ | ⟨_, a', p', live', _, hends⟩⟩
    · exact Option.map_eq_none_iff.1 hnone
    · rw [hrefused] at hfailure
      cases hfailure
      cases hcode
    · rcases hends with ⟨_, _, b, hmade⟩ | ⟨_, hpanicked⟩
      · rw [hmade] at hfailure
        cases hfailure
      · rw [hpanicked] at hfailure
        cases hfailure
  · intro hnone
    rw [h.allocate_of_unknown hnone size]
    exact ⟨_, rfl, rfl⟩

theorem allocate_unavailable_iff (h : a.Balances options p live) (hwords : options.IsOfWords) :
    (exists failure : Failure, (a.allocate domain region size).1 = .refused failure ∧
        failure.code = .unavailable) ↔
      exists bound : Nat, options.bound? domain region = some bound ∧
        bound < bytesIn domain region a.counted + size := by
  constructor
  · rintro ⟨failure, hfailure, hcode⟩
    rcases h.allocate_cases hwords domain region size with
      ⟨_, hunknown⟩ | ⟨bound, hbound, ⟨hover, _⟩ | ⟨_, a', p', live', _, hends⟩⟩
    · rw [hunknown] at hfailure
      cases hfailure
      cases hcode
    · exact ⟨bound, hbound, hover⟩
    · rcases hends with ⟨_, _, b, hmade⟩ | ⟨_, hpanicked⟩
      · rw [hmade] at hfailure
        cases hfailure
      · rw [hpanicked] at hfailure
        cases hfailure
  · rintro ⟨bound, hbound, hover⟩
    rw [h.allocate_of_lt hwords hbound hover]
    exact ⟨_, rfl, rfl⟩

theorem allocate_and_free (h : a.Balances options p live) (hwords : options.IsOfWords)
    (hbound : options.bound? domain region = some bound)
    (hfits : bytesIn domain region a.counted + size ≤ bound) (hsize : size < Text.signedBound) :
    exists (b : Buffer) (a' : Allocator), a.allocate domain region size = (.made b, a') ∧
      b.bytes = Bytes.zeros size ∧ b.triple = ⟨size, domain, region⟩ ∧
      b.tag ∉ a.ledger.handedOut ∧ a.Shifts a' domain region (· + size) ∧
      forall written : Buffer, written.tag = b.tag -> exists a'' : Allocator,
        a'.free written ⟨size, domain, region⟩ = (.ok (), a'') ∧
          forall (domain' : MemoryDomain) (region' : Int),
            a''.usage domain' region' = a.usage domain' region' := by
  rcases h.allocate_of_le hwords hbound hfits hsize with ⟨b, a', p', hmade, hb, hsame, hnext⟩
  have htriple : b.triple = ⟨size, domain, region⟩ := by
    rw [hb]
    exact congrArg (BufferTriple.mk · domain region) (Buffer.size_zeroed domain region size)
  have hshifts := h.shifts_of_cons hnext (h.counted_cons hnext hsame)
  rw [show b.tag.triple = ⟨size, domain, region⟩ from htriple] at hshifts
  refine ⟨b, a', hmade, by rw [hb]; rfl, htriple, ?_, hshifts, ?_⟩
  · intro hold
    have hserial := List.mem_map_of_mem (f := BufferTag.serial) hold
    rw [h.accounts.serials, List.mem_range, hb] at hserial
    exact Nat.lt_irrefl _ hserial
  · intro written hwritten
    have hwritten' : written.triple = ⟨size, domain, region⟩ :=
      (congrArg BufferTag.triple hwritten).trans htriple
    rw [← hwritten']
    exact h.free_allocated (hwritten.symm ▸ hnext) hsame

theorem allocate_panics (h : a.Balances options p live) (hwords : options.IsOfWords)
    (hbound : options.bound? domain region = some bound)
    (hfits : bytesIn domain region a.counted + size ≤ bound) (hsize : Text.signedBound ≤ size) :
    exists a' : Allocator, a.allocate domain region size = (.panicked, a') ∧
      a'.outstanding = a.outstanding ∧ a.Shifts a' domain region (· + size) := by
  rcases h.allocate_of_vast hwords hbound hfits hsize with ⟨a', p', hpanicked, hledger, hnext⟩
  have hcounted : a'.counted.Perm
      (⟨a.ledger.panicked.length, ⟨size, domain, region⟩⟩ :: a.counted) := by
    unfold counted Allocator.outstanding
    rw [hledger]
    show (_ ++ (a.ledger.panicked ++ [_])).Perm _
    rw [← List.append_assoc]
    exact List.perm_append_singleton _ _
  refine ⟨a', hpanicked, ?_, h.shifts_of_cons hnext hcounted⟩
  unfold Allocator.outstanding
  rw [hledger]
  rfl

theorem free_error_iff (h : a.Balances options p live) (hout : b.tag ∈ live)
    {given : BufferTriple} :
    ((exists failure : Failure, (a.free b given).1 = .error failure) ↔ given ≠ b.triple) ∧
      forall failure : Failure,
        (a.free b given).1 = .error failure -> failure.code = .invalidArg := by
  by_cases hgiven : given = b.triple
  · rcases h.free_of_mem hout with ⟨a', p', hfree, _⟩
    rw [hgiven, hfree]
    simp
  · rw [h.free_of_ne hgiven]
    simp [hgiven, Failure.code]

theorem afterCall_of_failure (h : a.Balances options p live) {c : AllocatorCall}
    (howns : a.Owns c) {failure : Failure} (hfailure : a.failure? c = some failure) :
    a.afterCall c = a := by
  cases c with
  | allocate domain region size =>
      have hrefused := (a.failure?_allocate domain region size failure).1 hfailure
      exact h.accounts.eq_of_refused (Prod.ext hrefused rfl)
  | free b given =>
      show (a.free b given).2 = a
      have herror := (a.failure?_free b given failure).1 hfailure
      by_cases hgiven : given = b.triple
      · rcases h.outstanding.free_of_mem howns with ⟨a', p', hfree, _⟩
        rw [hgiven, hfree] at herror
        cases herror
      · rw [h.free_of_ne hgiven]

end Balances

/-!
# Calls that panic

Where no call asks for too much, none panics.
-/

theorem Balances.panicked_afterCall (h : a.Balances options p live) (hwords : options.IsOfWords)
    {c : AllocatorCall} (hmodest : c.IsModest) :
    (a.afterCall c).ledger.panicked = a.ledger.panicked := by
  cases c with
  | allocate domain region size =>
      show (a.allocate domain region size).2.ledger.panicked = _
      rcases h.allocate_cases hwords domain region size with
        ⟨_, hrefused⟩ | ⟨bound, _, ⟨_, hrefused⟩ | ⟨_, a', p', live', _, hends⟩⟩
      · rw [hrefused]
      · rw [hrefused]
      · rcases hends with ⟨_, hsame, b, hmade⟩ | ⟨hvast, _⟩
        · rw [hmade]
          exact hsame
        · exact absurd hmodest (Nat.not_lt_of_le hvast)
  | free b given =>
      show (a.free b given).2.ledger.panicked = _
      rcases free_eq_cases (Prod.eta (a.free b given)).symm with
        ⟨_, _, hledger⟩ | ⟨_, _, _, hledger⟩
      · rw [hledger]
        rfl
      · rw [hledger]

theorem Balances.panicked_afterCalls (h : a.Balances options p live) (hwords : options.IsOfWords)
    {calls : List AllocatorCall} (hcalls : a.Rightful calls)
    (hmodest : forall c : AllocatorCall, c ∈ calls -> c.IsModest) :
    (a.afterCalls calls).ledger.panicked = a.ledger.panicked := by
  induction calls generalizing a p live with
  | nil => rfl
  | cons c rest ih =>
      rcases h.afterCall hwords hcalls.1 with ⟨p', live', hnext⟩
      have hrest := ih hnext hcalls.2 fun c hc => hmodest c (List.mem_cons_of_mem _ hc)
      exact hrest.trans (h.panicked_afterCall hwords (hmodest c List.mem_cons_self))

/-- After any calls that only give back buffers which are out: each pool that the options ask for
counts the bytes of its buffers that are out and of what was asked for in calls that panicked, and
stays within its bound.  A request is refused as invalid only for a device without a pool, as
unavailable only where it does not fit; else it is counted, and answered by a buffer of zeros that
is as asked for, unless it asks for so much that the call panics.  Giving a buffer back fails only
with a triple that is not its own, and takes the whole size off.  A call changes the count of one
pool, and none if it is refused. -/
theorem pools_count_what_is_out (options : MemoryOptions) (hwords : options.IsOfWords)
    (calls : List AllocatorCall)
    (hcalls : (AllocatorPlan.pooled options).allocator.Rightful calls) :
    let a := (AllocatorPlan.pooled options).allocator.afterCalls calls
    (forall (domain : MemoryDomain) (region : Int),
      a.usage domain region = (options.bound? domain region).map fun _ =>
        bytesIn domain region a.counted) ∧
    ((forall c : AllocatorCall, c ∈ calls -> c.IsModest) -> a.counted = a.outstanding) ∧
    (forall (domain : MemoryDomain) (region : Int) (bound : Nat),
      options.bound? domain region = some bound ->
        bytesIn domain region a.counted ≤ bound) ∧
    (forall (domain : MemoryDomain) (region : Int) (size : Nat),
      ((exists failure : Failure, (a.allocate domain region size).1 = .refused failure ∧
          failure.code = .invalidArg) ↔
        domain = .accelerator ∧ region ∉ options.accelerators.map AcceleratorPool.device) ∧
      ((exists failure : Failure, (a.allocate domain region size).1 = .refused failure ∧
          failure.code = .unavailable) ↔
        exists bound : Nat, options.bound? domain region = some bound ∧
          bound < bytesIn domain region a.counted + size) ∧
      forall bound : Nat, options.bound? domain region = some bound ->
        bytesIn domain region a.counted + size ≤ bound ->
          (size < Text.signedBound -> exists (b : Buffer) (a' : Allocator),
            a.allocate domain region size = (.made b, a') ∧
            b.bytes = Bytes.zeros size ∧ b.triple = ⟨size, domain, region⟩ ∧
            b.tag ∉ a.ledger.handedOut ∧ a.Shifts a' domain region (· + size) ∧
            forall written : Buffer, written.tag = b.tag -> exists a'' : Allocator,
              a'.free written ⟨size, domain, region⟩ = (.ok (), a'') ∧
                forall (domain' : MemoryDomain) (region' : Int),
                  a''.usage domain' region' = a.usage domain' region') ∧
          (Text.signedBound ≤ size -> exists a' : Allocator,
            a.allocate domain region size = (.panicked, a') ∧
              a'.outstanding = a.outstanding ∧ a.Shifts a' domain region (· + size))) ∧
    (forall b : Buffer, b.tag ∈ a.outstanding ->
      (forall given : BufferTriple,
        ((exists failure : Failure, (a.free b given).1 = .error failure) ↔ given ≠ b.triple) ∧
        forall failure : Failure,
          (a.free b given).1 = .error failure -> failure.code = .invalidArg) ∧
      exists (used : Nat) (a' : Allocator),
        a.usage b.domain b.region = some used ∧ b.size ≤ used ∧
          a.free b b.triple = (.ok (), a') ∧ a.Shifts a' b.domain b.region (· - b.size)) ∧
    forall (c : AllocatorCall) (failure : Failure), a.Owns c ->
      a.failure? c = some failure -> a.afterCall c = a := by
  intro a
  have hmade := balances_plan options
  rcases hmade.afterCalls hwords hcalls with ⟨p, hbalances⟩
  have hbalances : a.Balances options p a.outstanding := hbalances
  refine ⟨hbalances.usage, ?_, fun domain region bound => hbalances.le_bound, ?_, ?_, ?_⟩
  · intro hmodest
    have hnone : a.ledger.panicked = [] := hmade.panicked_afterCalls hwords hcalls hmodest
    unfold counted
    rw [hnone, List.append_nil]
  · intro domain region size
    exact ⟨hbalances.allocate_invalidArg_iff hwords, hbalances.allocate_unavailable_iff hwords,
      fun bound hbound hfits => ⟨hbalances.allocate_and_free hwords hbound hfits,
        hbalances.allocate_panics hwords hbound hfits⟩⟩
  · intro b hout
    exact ⟨fun given => hbalances.free_error_iff hout, hbalances.free_shifts hout⟩
  · exact fun c failure howns hfailure => hbalances.afterCall_of_failure howns hfailure

/-- Host memory of 64 bytes and a device that is listed twice, at last with 16 bytes. -/
def narrowPools : MemoryOptions := ⟨some 64, [⟨1, 32⟩, ⟨1, 16⟩]⟩

/-- The first buffer stays out, since it is given back for another region; no device has the number
seven. -/
def narrowCalls : List AllocatorCall := [
  .allocate .host 3 40,
  .allocate .accelerator 1 10,
  .allocate .accelerator 7 1,
  .allocate .host 0 8,
  .free (.zeroed .host 3 40) ⟨40, .host, 0⟩,
  .free { Buffer.zeroed .host 0 8 with serial := 2 } ⟨8, .host, 0⟩]

/-- The pools are not full, yet what is asked for does not fit. -/
theorem pools_of_narrowCalls :
    narrowPools.IsOfWords ∧ (AllocatorPlan.pooled narrowPools).allocator.Rightful narrowCalls ∧
    let a := (AllocatorPlan.pooled narrowPools).allocator.afterCalls narrowCalls
    a.usage .host 5 = some 40 ∧ a.usage .accelerator 1 = some 10 ∧
    (exists failure : Failure,
      (a.allocate .accelerator 1 7).1 = .refused failure ∧ failure.code = .unavailable) ∧
    (exists (b : Buffer) (a' : Allocator), a.allocate .accelerator 1 6 = (.made b, a') ∧
      b.triple = ⟨6, .accelerator, 1⟩) ∧
    exists (used : Nat) (a' : Allocator), a.usage .host 3 = some used ∧ 40 ≤ used ∧
      a.free (.zeroed .host 3 40) ⟨40, .host, 3⟩ = (.ok (), a') := by
  have hwords : narrowPools.IsOfWords := by
    constructor
    · intro limit hlimit
      cases hlimit
      decide
    · decide
  have hcalls : (AllocatorPlan.pooled narrowPools).allocator.Rightful narrowCalls := by decide
  have hpools := pools_count_what_is_out narrowPools hwords narrowCalls hcalls
  rcases hpools with ⟨husage, _, _, hallocate, hfree, _⟩
  rcases ((hallocate .accelerator 1 6).2.2 16 rfl (by decide)).1 (by decide) with
    ⟨b, a', hmade, _, htriple, _⟩
  rcases (hfree (.zeroed .host 3 40) (by decide)).2 with
    ⟨used, freed, hused, hle, hfreed, _⟩
  exact ⟨hwords, hcalls, husage .host 5, husage .accelerator 1,
    (hallocate .accelerator 1 7).2.1.2 ⟨16, rfl, by decide⟩, ⟨b, a', hmade, htriple⟩,
    used, freed, hused, hle, hfreed⟩

/-- Half of what a word can count fits into memory without a limit, but it is never handed out, and
it stays counted though nothing is out. -/
theorem vast_buffer_counted_not_made :
    let before := (AllocatorPlan.pooled ⟨none, []⟩).allocator
    let after := before.afterCalls [.allocate .host 0 0x8000000000000000]
    (before.allocate .host 0 0x8000000000000000).1 = .panicked ∧
      after.outstanding = [] ∧ after.usage .host 0 = some 0x8000000000000000 := by
  exact ⟨rfl, rfl, rfl⟩

end Allocator

end InferenceEngine
