import InferenceEngine.Proofs.Memory.Pools

/-!
# Host memory from either allocator

Asked for host memory, an allocator of host memory and an allocator of pools go by the same two
numbers: how many bytes may be in use, and how many are.  Calls about host memory therefore cannot
tell them apart, whatever is refused meanwhile and whichever call panics, as long as all bytes in
use add up to a word.
-/

namespace InferenceEngine

/-- The limit that an allocator has for all host memory; one of a client has none. -/
def AllocatorKind.hostLimit? : AllocatorKind -> Option (Option Nat)
  | host a => some a.limit
  | pooled a => some a.host.capacity
  | caller _ => none

def AllocatorKind.isHost : AllocatorKind -> Bool
  | host _ => true
  | pooled _ | caller _ => false

/-- Whether that many bytes of host memory may be out under a limit. -/
def MayBeOut (limit : Option Nat) (bytes : Nat) : Prop :=
  bytes < Text.wordBound ∧ forall most : Nat, limit = some most -> bytes ≤ most

def AllocatorCall.IsAboutHost : AllocatorCall -> Prop
  | .allocate domain _ _ => domain = .host
  | .free .. => True

namespace Allocator

/-- What a call is answered with, as far as clients tell answers apart: failures by their kind. -/
inductive Answer where
  | made (buffer : Buffer)
  | takenBack
  | refused (code : FailureCode)
  | panicked
  deriving DecidableEq

def answer (a : Allocator) : AllocatorCall -> Answer
  | .allocate domain region size =>
      match (a.allocate domain region size).1 with
      | .made buffer => .made buffer
      | .refused failure => .refused failure.code
      | .panicked => .panicked
  | .free buffer given =>
      match (a.free buffer given).1 with
      | .ok () => .takenBack
      | .error failure => .refused failure.code

/-- What can be seen of an allocator while calls are made: the answer to each, and the bytes of
host memory that are in use after it. -/
def observed (a : Allocator) (region : Int) :
    List AllocatorCall -> List (Answer × Option Nat)
  | [] => []
  | c :: rest =>
      (a.answer c, (a.afterCall c).usage .host region) :: (a.afterCall c).observed region rest

/-- Whether calls are about host memory, only give back buffers that are out, and never let the
bytes in use reach the bound of a word. -/
def StaysInHost (a : Allocator) : List AllocatorCall -> Prop
  | [] => True
  | c :: rest =>
      c.IsAboutHost ∧ a.Owns c ∧
        bytesIn .host 0 (a.afterCall c).counted < Text.wordBound ∧
        (a.afterCall c).StaysInHost rest

instance : (c : AllocatorCall) -> Decidable c.IsAboutHost
  | .allocate domain _ _ => inferInstanceAs (Decidable (domain = .host))
  | .free .. => .isTrue trivial

instance decidableStaysInHost : (calls : List AllocatorCall) -> (a : Allocator) ->
    Decidable (a.StaysInHost calls)
  | [], _ => .isTrue trivial
  | c :: rest, a =>
      have := decidableStaysInHost rest (a.afterCall c)
      inferInstanceAs (Decidable (c.IsAboutHost ∧ a.Owns c ∧
        bytesIn .host 0 (a.afterCall c).counted < Text.wordBound ∧
        (a.afterCall c).StaysInHost rest))

/-- Whether an allocator has a limit for host memory, and counts the buffers that are out. -/
structure LimitsHost (a : Allocator) (limit : Option Nat) : Prop where
  limit : a.kind.hostLimit? = some limit
  accounts : a.Accounts a.outstanding a.ledger.panicked

end Allocator

/-!
# What fits under a limit

Where there is a limit, what does not fit is refused.
-/

theorem HostAllocator.reserve_of_mayBeOut {a : HostAllocator} {size : Nat}
    (h : MayBeOut a.limit (a.used + size)) :
    a.reserve size = .ok { a with used := a.used + size } := by
  have hsum : sum? a.used size = some (a.used + size) := if_pos h.1
  unfold reserve
  split
  · rw [Nat.mod_eq_of_lt h.1]
  · rename_i most hmost
    simp only [hsum]
    rw [if_pos (h.2 most hmost)]

theorem HostAllocator.reserve_of_not_mayBeOut {a : HostAllocator} {size most : Nat}
    (hmost : a.limit = some most) (h : ¬ MayBeOut a.limit (a.used + size)) :
    a.reserve size = .error (.hostExhausted size a.used most) := by
  unfold reserve sum?
  rw [hmost]
  by_cases hword : a.used + size < Text.wordBound
  · have hover : ¬ a.used + size ≤ most := by
      intro hle
      refine h ⟨hword, fun other hother => ?_⟩
      rw [hmost] at hother
      cases hother
      exact hle
    simp only [if_pos hword]
    rw [if_neg hover]
  · simp only [if_neg hword]

theorem Pool.take?_of_mayBeOut {p : Pool} {size : Nat}
    (h : MayBeOut p.capacity (p.used + size)) :
    p.take? size = some { p with used := p.used + size } := by
  have hsum : sum? p.used size = some (p.used + size) := if_pos h.1
  unfold take?
  simp only [hsum]
  split
  · rfl
  · rename_i most hmost
    rw [if_pos (h.2 most hmost)]

theorem Pool.take?_of_not_mayBeOut {p : Pool} {size : Nat}
    (h : ¬ MayBeOut p.capacity (p.used + size)) : p.take? size = none := by
  unfold take? sum?
  by_cases hword : p.used + size < Text.wordBound
  · simp only [if_pos hword]
    cases hcapacity : p.capacity with
    | none =>
        refine absurd ⟨hword, fun most hmost => ?_⟩ h
        rw [hcapacity] at hmost
        cases hmost
    | some most =>
        have hover : ¬ p.used + size ≤ most := by
          intro hle
          refine h ⟨hword, fun other hother => ?_⟩
          rw [hcapacity] at hother
          cases hother
          exact hle
        exact if_neg hover
  · simp only [if_neg hword]

/-!
# The limit stays

The bytes of host memory that are in use are those that are counted.
-/

theorem Pool.capacity_take? {p p' : Pool} {size : Nat} (h : p.take? size = some p') :
    p'.capacity = p.capacity := by
  by_cases hfits : MayBeOut p.capacity (p.used + size)
  · rw [take?_of_mayBeOut hfits] at h
    cases h
    rfl
  · rw [take?_of_not_mayBeOut hfits] at h
    cases h

theorem HostAllocator.limit_reserve {a a' : HostAllocator} {size : Nat}
    (h : a.reserve size = .ok a') : a'.limit = a.limit := by
  unfold reserve at h
  split at h
  · cases h
    rfl
  · split at h
    · split at h
      · cases h
        rfl
      · cases h
    · cases h

theorem PooledAllocator.capacity_setPool {a : PooledAllocator} {domain : MemoryDomain}
    {region : Int} {p p' : Pool} (hp : a.pool? domain region = some p)
    (hcapacity : p'.capacity = p.capacity) :
    (a.setPool domain region p').host.capacity = a.host.capacity := by
  cases domain with
  | host =>
      cases hp
      exact hcapacity
  | accelerator => rfl

namespace AllocatorKind

variable {a a' : AllocatorKind} {b : Buffer}

theorem hostLimit?_allocate (a : AllocatorKind) (domain : MemoryDomain) (region : Int)
    (size : Nat) : (a.allocate domain region size).2.hostLimit? = a.hostLimit? := by
  cases a with
  | host a =>
      show some (a.allocate domain region size).2.limit = some a.limit
      unfold HostAllocator.allocate
      split
      · split
        · rename_i reserved hreserve
          exact congrArg some (HostAllocator.limit_reserve hreserve)
        · rfl
      · rfl
  | pooled a =>
      show some (a.allocate domain region size).2.host.capacity = some a.host.capacity
      unfold PooledAllocator.allocate
      split
      · rfl
      · rename_i p hp
        split
        · rfl
        · rename_i p' htake
          exact congrArg some (PooledAllocator.capacity_setPool hp (Pool.capacity_take? htake))
  | caller a => rfl

theorem hostLimit?_free (a : AllocatorKind) (b : Buffer) (given : BufferTriple) :
    (a.free b given).2.hostLimit? = a.hostLimit? := by
  cases a with
  | host a =>
      simp only [free]
      split
      · rename_i inner hfree
        rcases bind_eq_ok hfree with ⟨_, _, hok⟩
        cases hok
        rfl
      · rfl
  | pooled a =>
      simp only [free]
      split
      · rename_i inner hfree
        rcases bind_eq_ok hfree with ⟨_, _, hrest⟩
        split at hrest
        · cases hrest
        · rename_i p hp
          cases hrest
          exact congrArg some (PooledAllocator.capacity_setPool hp rfl)
      · rfl
  | caller a => rfl

theorem isHost_allocate (a : AllocatorKind) (domain : MemoryDomain) (region : Int) (size : Nat) :
    (a.allocate domain region size).2.isHost = a.isHost := by
  cases a <;> rfl

theorem isHost_free (a : AllocatorKind) (b : Buffer) (given : BufferTriple) :
    (a.free b given).2.isHost = a.isHost := by
  cases a with
  | host a | pooled a =>
      simp only [free]
      split <;> rfl
  | caller a => rfl

theorem free_of_ne {given : BufferTriple} {limit : Option Nat} (hlimit : a.hostLimit? = some limit)
    (h : given ≠ b.triple) : a.free b given = (.error (.tripleMismatch given b.triple), a) := by
  have hcheck : b.checkTriple given = .error (.tripleMismatch given b.triple) := if_neg h
  cases a with
  | host a => simp only [AllocatorKind.free, HostAllocator.free, hcheck, bind, Except.bind]
  | pooled a => simp only [AllocatorKind.free, PooledAllocator.free, hcheck, bind, Except.bind]
  | caller a => cases hlimit

theorem Counts.usage_host {live : List BufferTag} (h : a.Counts live)
    (hword : bytesIn .host 0 live < Text.wordBound) (region : Int) :
    a.usage .host region = some (bytesIn .host 0 live) := by
  cases a with
  | host a => exact congrArg some (h.used.trans (Nat.mod_eq_of_lt hword))
  | pooled a => exact congrArg some (h.used .host region a.host rfl)
  | caller a => exact h.elim

theorem Counts.allocate_of_mayBeOut {live : List BufferTag} {limit : Option Nat} {size : Nat}
    (h : a.Counts live) (hlimit : a.hostLimit? = some limit)
    (hfits : MayBeOut limit (bytesIn .host 0 live + size)) (region : Int) :
    (a.allocate .host region size).1 = .zeroed .host region size := by
  have hword : bytesIn .host 0 live < Text.wordBound :=
    Nat.lt_of_le_of_lt (Nat.le_add_right _ size) hfits.1
  have hused := h.usage_host hword region
  cases a with
  | host a =>
      cases hlimit
      rw [← Option.some.inj hused] at hfits
      have hreserve := HostAllocator.reserve_of_mayBeOut hfits
      show (a.allocate .host region size).1 = _
      unfold HostAllocator.allocate
      rw [if_pos rfl, hreserve]
  | pooled a =>
      cases hlimit
      rw [← Option.some.inj hused] at hfits
      have htake := Pool.take?_of_mayBeOut hfits
      show (a.allocate .host region size).1 = _
      simp only [PooledAllocator.allocate, PooledAllocator.pool?, htake]
  | caller a => cases hlimit

theorem allocate_of_unlimited (hhost : a.isHost = true) (hlimit : a.hostLimit? = some none)
    (region : Int) (size : Nat) :
    (a.allocate .host region size).1 = .zeroed .host region size := by
  cases a with
  | host a =>
      have hlimit : a.limit = none := Option.some.inj hlimit
      show (a.allocate .host region size).1 = _
      unfold HostAllocator.allocate HostAllocator.reserve
      rw [if_pos rfl, hlimit]
  | pooled a => cases hhost
  | caller a => cases hhost

/-- What may not be in use is refused, unless an allocator has no limit: then its count would
wrap, or its pool is full. -/
theorem Counts.allocate_of_not_mayBeOut {live : List BufferTag} {most size : Nat}
    (h : a.Counts live) (hlimit : a.hostLimit? = some (some most))
    (hword : bytesIn .host 0 live < Text.wordBound)
    (hover : ¬ MayBeOut (some most) (bytesIn .host 0 live + size)) (region : Int) :
    exists failure : Failure,
      (a.allocate .host region size).1 = .refused failure ∧ failure.code = .unavailable := by
  have hused := h.usage_host hword region
  cases a with
  | host a =>
      have hlimit : a.limit = some most := Option.some.inj hlimit
      rw [← Option.some.inj hused, ← hlimit] at hover
      have hreserve := HostAllocator.reserve_of_not_mayBeOut hlimit hover
      refine ⟨.hostExhausted size a.used most, ?_, rfl⟩
      show (a.allocate .host region size).1 = _
      unfold HostAllocator.allocate
      rw [if_pos rfl, hreserve]
  | pooled a =>
      have hlimit : a.host.capacity = some most := Option.some.inj hlimit
      rw [← Option.some.inj hused, ← hlimit] at hover
      have htake := Pool.take?_of_not_mayBeOut hover
      refine ⟨.poolExhausted .host region size a.host.used a.host.bound, ?_, rfl⟩
      show (a.allocate .host region size).1 = _
      simp only [PooledAllocator.allocate, PooledAllocator.pool?, htake]
  | caller a => cases hlimit

end AllocatorKind

/-!
# Answers by the limit and the books alone

Whether memory is made depends on the limit and on the bytes in use.
-/

namespace Allocator

variable {a a' : Allocator} {limit : Option Nat} {region : Int} {size : Nat} {b : Buffer}
variable {given : BufferTriple}

theorem kind_allocate (a : Allocator) (domain : MemoryDomain) (region : Int) (size : Nat) :
    (a.allocate domain region size).2.kind = (a.kind.allocate domain region size).2 := by
  rcases allocate_eq_cases (Prod.eta (a.allocate domain region size)).symm with
    ⟨failure, _, hkind, _⟩ | ⟨inner, _, hkind, _⟩ | ⟨_, hkind, _⟩ <;>
  · rw [hkind]

theorem kind_free (a : Allocator) (b : Buffer) (given : BufferTriple) :
    (a.free b given).2.kind = (a.kind.free b given).2 := by
  rcases free_eq_cases (Prod.eta (a.free b given)).symm with
    ⟨_, hkind, _⟩ | ⟨failure, _, hkind, _⟩ <;>
  · rw [hkind]

theorem hostLimit?_afterCall (a : Allocator) (c : AllocatorCall) :
    (a.afterCall c).kind.hostLimit? = a.kind.hostLimit? := by
  cases c with
  | allocate domain region size =>
      show (a.allocate domain region size).2.kind.hostLimit? = _
      rw [kind_allocate, AllocatorKind.hostLimit?_allocate]
  | free b given =>
      show (a.free b given).2.kind.hostLimit? = _
      rw [kind_free, AllocatorKind.hostLimit?_free]

theorem isHost_afterCall (a : Allocator) (c : AllocatorCall) :
    (a.afterCall c).kind.isHost = a.kind.isHost := by
  cases c with
  | allocate domain region size =>
      show (a.allocate domain region size).2.kind.isHost = _
      rw [kind_allocate, AllocatorKind.isHost_allocate]
  | free b given =>
      show (a.free b given).2.kind.isHost = _
      rw [kind_free, AllocatorKind.isHost_free]

theorem counted_eq (h : a'.ledger = a.ledger) : a'.counted = a.counted := by
  unfold counted outstanding
  rw [h]

theorem ledger_free (h : (a.free b given).1 = .ok ()) :
    (a.free b given).2.ledger = a.ledger.takeBack ⟨b.serial, given⟩ := by
  rcases free_eq_cases (Prod.eta (a.free b given)).symm with
    ⟨_, _, hledger⟩ | ⟨failure, herror, _⟩
  · exact hledger
  · cases h.symm.trans herror

namespace LimitsHost

theorem isRegular (h : a.LimitsHost limit) : a.kind.isRegular = true := by
  have hlimit := h.limit
  cases hkind : a.kind with
  | host inner => rfl
  | pooled inner => rfl
  | caller inner =>
      rw [hkind] at hlimit
      cases hlimit

theorem of_accounts {live spent : List BufferTag} (hlimit : a.kind.hostLimit? = some limit)
    (haccounts : a.Accounts live spent) : a.LimitsHost limit where
  limit := hlimit
  accounts := by
    rw [haccounts.panicked]
    exact haccounts.perm haccounts.outstanding_perm.symm

theorem of_plan {plan : AllocatorPlan} (hregular : plan.allocator.kind.isRegular = true)
    (hlimit : plan.allocator.kind.hostLimit? = some limit) : plan.allocator.LimitsHost limit :=
  of_accounts hlimit (inOrder_plan plan hregular)

theorem counts (h : a.LimitsHost limit) : a.kind.Counts a.counted := h.accounts.counts

theorem usage (h : a.LimitsHost limit)
    (hword : bytesIn .host 0 a.counted < Text.wordBound) (region : Int) :
    a.usage .host region = some (bytesIn .host 0 a.counted) :=
  h.counts.usage_host hword region

theorem afterCall (h : a.LimitsHost limit) {c : AllocatorCall} (howns : a.Owns c) :
    (a.afterCall c).LimitsHost limit := by
  have hlimit := (hostLimit?_afterCall a c).trans h.limit
  have horder : a.InOrder a.outstanding a.ledger.panicked := fun _ => h.accounts
  cases c with
  | allocate domain region size =>
      have hregular := (isRegular_allocate a domain region size).trans h.isRegular
      cases hresult : (a.allocate domain region size).1 with
      | made b => exact of_accounts hlimit (horder.allocate (Prod.ext hresult rfl) hregular)
      | refused failure => exact of_accounts hlimit (horder.refused (Prod.ext hresult rfl) hregular)
      | panicked => exact of_accounts hlimit (horder.panicked (Prod.ext hresult rfl) hregular)
  | free b given =>
      by_cases hgiven : given = b.triple
      · have hbefore := h.accounts.perm
          (List.perm_cons_erase (show b.tag ∈ a.outstanding from howns))
        rw [hgiven] at hlimit ⊢
        exact of_accounts hlimit hbefore.free.2
      · show (a.free b given).2.LimitsHost limit
        unfold Allocator.free
        rw [AllocatorKind.free_of_ne h.limit hgiven]
        exact h

theorem allocate_cases (h : a.LimitsHost limit)
    (hword : bytesIn .host 0 a.counted < Text.wordBound)
    (hunlimited : limit = none -> bytesIn .host 0 a.counted + size < Text.wordBound)
    (region : Int) :
    (MayBeOut limit (bytesIn .host 0 a.counted + size) ∧
      (a.kind.allocate .host region size).1 = .zeroed .host region size) ∨
    (¬ MayBeOut limit (bytesIn .host 0 a.counted + size) ∧
      exists failure : Failure,
        (a.kind.allocate .host region size).1 = .refused failure ∧
          failure.code = .unavailable) := by
  by_cases hfits : MayBeOut limit (bytesIn .host 0 a.counted + size)
  · exact .inl ⟨hfits, h.counts.allocate_of_mayBeOut h.limit hfits region⟩
  · cases limit with
    | none =>
        refine absurd ⟨hunlimited rfl, fun most hmost => ?_⟩ hfits
        cases hmost
    | some most =>
        exact .inr ⟨hfits, h.counts.allocate_of_not_mayBeOut h.limit hword hfits region⟩

end LimitsHost

/-- What an allocator answers and enters into its books follows from what it goes by. -/
theorem allocate_of_kind {p : Allocator} {domain : MemoryDomain}
    (hsame : (p.kind.allocate domain region size).1 = (a.kind.allocate domain region size).1)
    (hledger : p.ledger = a.ledger) :
    (p.allocate domain region size).1 = (a.allocate domain region size).1 ∧
      (p.allocate domain region size).2.ledger = (a.allocate domain region size).2.ledger := by
  unfold Allocator.allocate
  rw [show p.kind.allocate domain region size = ((a.kind.allocate domain region size).1,
    (p.kind.allocate domain region size).2) from Prod.ext hsame rfl, hledger]
  cases (a.kind.allocate domain region size) with
  | mk result kind =>
      cases result with
      | made b => exact ⟨rfl, rfl⟩
      | refused failure => exact ⟨rfl, rfl⟩
      | panicked => exact ⟨rfl, rfl⟩

theorem refused_of_kind {domain : MemoryDomain} {failure : Failure}
    (h : (a.kind.allocate domain region size).1 = .refused failure) :
    (a.allocate domain region size).1 = .refused failure ∧
      (a.allocate domain region size).2.ledger = a.ledger := by
  unfold Allocator.allocate
  rw [show a.kind.allocate domain region size = (.refused failure,
    (a.kind.allocate domain region size).2) from Prod.ext h rfl]
  exact ⟨rfl, rfl⟩

/-- A buffer that is out is taken back with its own triple alone, by whichever allocator has a
limit. -/
theorem free_alike {p : Allocator} (h : a.LimitsHost limit) (k : p.LimitsHost limit)
    (hledger : p.ledger = a.ledger) (hout : b.tag ∈ a.outstanding) (hout' : b.tag ∈ p.outstanding)
    (given : BufferTriple) :
    a.answer (.free b given) = p.answer (.free b given) ∧
      (p.free b given).2.ledger = (a.free b given).2.ledger := by
  by_cases hgiven : given = b.triple
  · rw [hgiven]
    have hfree := (h.accounts.perm (List.perm_cons_erase hout)).free.1
    have hfree' := (k.accounts.perm (List.perm_cons_erase hout')).free.1
    constructor
    · simp only [answer, hfree, hfree']
    · rw [ledger_free hfree, ledger_free hfree', hledger]
  · have hrefused : a.free b given = (.error (.tripleMismatch given b.triple), a) := by
      unfold Allocator.free
      rw [AllocatorKind.free_of_ne h.limit hgiven]
    have hrefused' : p.free b given = (.error (.tripleMismatch given b.triple), p) := by
      unfold Allocator.free
      rw [AllocatorKind.free_of_ne k.limit hgiven]
    constructor
    · simp only [answer, hrefused, hrefused']
    · rw [hrefused, hrefused']
      exact hledger

/-!
# Two allocators with the same limit

A buffer that is given back is taken or refused alike, and the two stay alike.
-/

/-- Two allocators with the same limit and the same books, the first of them one of host memory. -/
structure Twins (limit : Option Nat) (a p : Allocator) : Prop where
  isHost : a.kind.isHost = true
  first : a.LimitsHost limit
  second : p.LimitsHost limit
  ledger : p.ledger = a.ledger

namespace Twins

variable {p p' : Allocator} {c : AllocatorCall}

theorem usage (h : Twins limit a p)
    (hword : bytesIn .host 0 a.counted < Text.wordBound) (region : Int) :
    a.usage .host region = p.usage .host region := by
  have hcounted := counted_eq h.ledger
  rw [h.first.usage hword, h.second.usage (by rw [hcounted]; exact hword), hcounted]

/-- If the bytes in use stay a word, a request without a limit is one for which they do. -/
theorem lt_wordBound (h : Twins limit a p) (hlimit : limit = none)
    (hafter : bytesIn .host 0 (a.afterCall (.allocate .host region size)).counted <
      Text.wordBound) : bytesIn .host 0 a.counted + size < Text.wordBound := by
  have hunlimited : a.kind.hostLimit? = some none := by rw [h.first.limit, hlimit]
  have hkind := AllocatorKind.allocate_of_unlimited h.isHost hunlimited region size
  have hkept : (a.afterCall (.allocate .host region size)).LimitsHost limit :=
    h.first.afterCall trivial
  have hcounted : forall t : BufferTag, t.triple = ⟨size, .host, region⟩ ->
      (a.afterCall (.allocate .host region size)).counted.Perm (t :: a.counted) ->
        bytesIn .host 0 a.counted + size < Text.wordBound := by
    intro t ht hperm
    rw [bytesIn_perm hperm, HostAllocator.Counts.bytesIn_host (by rw [ht]), ht] at hafter
    have hafter : size + bytesIn .host 0 a.counted < Text.wordBound := hafter
    omega
  have horder : a.InOrder a.outstanding a.ledger.panicked := fun _ => h.first.accounts
  have hregular := (isRegular_allocate a .host region size).trans h.first.isRegular
  rcases allocate_eq_cases (Prod.eta (a.allocate .host region size)).symm with
    ⟨failure, _, hrefused, _⟩ | ⟨b, hmade, hkind', hledger⟩ | ⟨_, _, hledger⟩
  · rw [hrefused] at hkind
    rcases Allocation.zeroed_cases .host region size with ⟨_, hzeroed⟩ | ⟨_, hzeroed⟩
    · cases hkind.trans hzeroed
    · cases hkind.trans hzeroed
  · have haccounts := horder.allocate (Prod.ext hmade rfl) hregular
    have hb := AllocatorKind.eq_zeroed h.first.isRegular hkind'
    refine hcounted ⟨a.ledger.handedOut.length, b.triple⟩ ?_ ?_
    · rw [hb]
      exact congrArg (BufferTriple.mk · .host region) (Buffer.size_zeroed _ _ _)
    · exact haccounts.counted_perm.trans (List.Perm.refl _)
  · apply hcounted ⟨a.ledger.panicked.length, ⟨size, .host, region⟩⟩ rfl
    show List.Perm (counted (a.allocate .host region size).2) _
    unfold counted outstanding
    rw [hledger]
    show (_ ++ (a.ledger.panicked ++ [_])).Perm _
    rw [← List.append_assoc]
    exact List.perm_append_singleton _ _

theorem allocate (h : Twins limit a p)
    (hword : bytesIn .host 0 a.counted < Text.wordBound)
    (hunlimited : limit = none -> bytesIn .host 0 a.counted + size < Text.wordBound)
    (region : Int) :
    a.answer (.allocate .host region size) = p.answer (.allocate .host region size) ∧
      Twins limit (a.afterCall (.allocate .host region size))
        (p.afterCall (.allocate .host region size)) := by
  have hout := counted_eq h.ledger
  rw [← hout] at hword hunlimited
  have hsecond := h.second.allocate_cases hword hunlimited region
  rw [hout] at hsecond hword hunlimited
  have hfirst : (a.afterCall (.allocate .host region size)).LimitsHost limit :=
    h.first.afterCall trivial
  have hkept : (p.afterCall (.allocate .host region size)).LimitsHost limit :=
    h.second.afterCall trivial
  have hhost := (isHost_afterCall a (.allocate .host region size)).trans h.isHost
  rcases h.first.allocate_cases hword hunlimited region with
    ⟨hfits, hmade⟩ | ⟨hover, failure, hrefused, hcode⟩
  · rcases hsecond with ⟨_, hmade'⟩ | ⟨hover, _⟩
    · have hsame := allocate_of_kind (hmade'.trans hmade.symm) h.ledger
      refine ⟨?_, hhost, hfirst, hkept, hsame.2⟩
      simp only [answer, hsame.1]
    · exact absurd hfits hover
  · rcases hsecond with ⟨hfits, _⟩ | ⟨_, failure', hrefused', hcode'⟩
    · exact absurd hfits hover
    · have houter := refused_of_kind hrefused
      have houter' := refused_of_kind hrefused'
      refine ⟨?_, hhost, hfirst, hkept, ?_⟩
      · simp only [answer, houter.1, houter'.1, hcode, hcode']
      · show (p.allocate .host region size).2.ledger = (a.allocate .host region size).2.ledger
        rw [houter.2, houter'.2, h.ledger]

theorem free (h : Twins limit a p) (hout : b.tag ∈ a.outstanding) (given : BufferTriple) :
    a.answer (.free b given) = p.answer (.free b given) ∧
      Twins limit (a.afterCall (.free b given)) (p.afterCall (.free b given)) := by
  have hout' : b.tag ∈ p.outstanding := by
    unfold outstanding
    rw [h.ledger]
    exact hout
  have hfirst := h.first.afterCall (c := .free b given) hout
  have hsecond := h.second.afterCall (c := .free b given) hout'
  have hhost := (isHost_afterCall a (.free b given)).trans h.isHost
  have hsame := free_alike h.first h.second h.ledger hout hout' given
  exact ⟨hsame.1, hhost, hfirst, hsecond, hsame.2⟩

theorem observed (h : Twins limit a p) {calls : List AllocatorCall}
    (hword : bytesIn .host 0 a.counted < Text.wordBound) (hcalls : a.StaysInHost calls)
    (region : Int) : a.observed region calls = p.observed region calls := by
  induction calls generalizing a p with
  | nil => rfl
  | cons c rest ih =>
      rcases hcalls with ⟨hhost, howns, hafter, hrest⟩
      have hstep : a.answer c = p.answer c ∧ Twins limit (a.afterCall c) (p.afterCall c) := by
        cases c with
        | allocate domain region size =>
            cases (show domain = .host from hhost)
            exact h.allocate hword (fun hlimit => h.lt_wordBound hlimit hafter) region
        | free b given => exact h.free howns given
      unfold Allocator.observed
      rw [hstep.1, hstep.2.usage hafter region, ih hstep.2 hafter hrest]

end Twins

/-- An allocator of host memory and one of pools with the same limit for it cannot be told apart
by calls about host memory, as long as all bytes in use add up to a word: every call is answered by
the same buffer or by a failure of the same kind, or panics, and then as many bytes are in use,
whichever host region is asked for and whatever devices there are. -/
theorem host_memory_observed_alike (limit : Option Nat) (devices : List AcceleratorPool)
    (calls : List AllocatorCall)
    (hcalls : (AllocatorPlan.host limit).allocator.StaysInHost calls) (region : Int) :
    (AllocatorPlan.host limit).allocator.observed region calls =
      (AllocatorPlan.pooled ⟨limit, devices⟩).allocator.observed region calls := by
  have htwins : Twins limit (AllocatorPlan.host limit).allocator
      (AllocatorPlan.pooled ⟨limit, devices⟩).allocator :=
    ⟨rfl, .of_plan rfl rfl, .of_plan rfl rfl, rfl⟩
  have hnothing : bytesIn .host 0 (AllocatorPlan.host limit).allocator.counted = 0 := rfl
  exact htwins.observed (by rw [hnothing]; decide) hcalls region

/-- Of 64 bytes 40 are asked for, then too many, then the rest; the first buffer is given back for
another region, then rightly. -/
def tightCalls : List AllocatorCall := [
  .allocate .host 3 40,
  .allocate .host 0 18446744073709551615,
  .allocate .host 0 24,
  .free (.zeroed .host 3 40) ⟨40, .accelerator, 3⟩,
  .free (.zeroed .host 3 40) ⟨40, .host, 3⟩]

/-- What is refused by one is refused by the other, and the buffers have the same numbers. -/
theorem observed_of_tightCalls :
    (AllocatorPlan.host (some 64)).allocator.StaysInHost tightCalls ∧
    (AllocatorPlan.pooled ⟨some 64, [⟨3, 16⟩]⟩).allocator.observed 7 tightCalls = [
      (.made (.zeroed .host 3 40), some 40),
      (.refused .unavailable, some 40),
      (.made { Buffer.zeroed .host 0 24 with serial := 1 }, some 64),
      (.refused .invalidArg, some 64),
      (.takenBack, some 24)] := by
  have hcalls : (AllocatorPlan.host (some 64)).allocator.StaysInHost tightCalls := by decide
  refine ⟨hcalls, ?_⟩
  rw [← host_memory_observed_alike (some 64) [⟨3, 16⟩] tightCalls hcalls 7]
  rfl

end Allocator

end InferenceEngine
