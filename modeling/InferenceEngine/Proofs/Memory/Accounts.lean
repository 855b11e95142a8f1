import InferenceEngine.Memory.Allocator
import InferenceEngine.Proofs.OrderedMap
import InferenceEngine.Proofs.Verdict

/-!
# The accounts of allocators

An allocator counts, pool by pool, the bytes of the buffers that are out and of what it was asked
for when it panicked.  Its books are in order if each buffer that it has ever handed out has either
been taken back once, with its own triple, or is still out.
-/

namespace InferenceEngine

/-!
# Pools
-/

/-- The pool that a region of a domain belongs to; all host memory is one pool. -/
def MemoryDomain.pool : MemoryDomain -> Int -> MemoryDomain × Int
  | host, _ => (host, 0)
  | accelerator, region => (accelerator, region)

def BufferTag.isIn (t : BufferTag) (domain : MemoryDomain) (region : Int) : Bool :=
  t.triple.domain.pool t.triple.region = domain.pool region

def bytesIn (domain : MemoryDomain) (region : Int) (tags : List BufferTag) : Nat :=
  (tags.filter fun t => t.isIn domain region).foldr (fun t bytes => t.triple.size + bytes) 0

theorem bytesIn_cons (domain : MemoryDomain) (region : Int) (t : BufferTag)
    (tags : List BufferTag) : bytesIn domain region (t :: tags) =
      (if t.isIn domain region then t.triple.size else 0) + bytesIn domain region tags := by
  unfold bytesIn
  cases hin : t.isIn domain region with
  | true => simp [hin]
  | false => simp [hin]

theorem bytesIn_perm {domain : MemoryDomain} {region : Int} {tags tags' : List BufferTag}
    (h : tags.Perm tags') : bytesIn domain region tags = bytesIn domain region tags' := by
  unfold bytesIn
  apply (h.filter _).foldr_eq'
  intro t _ t' _ bytes
  exact Nat.add_left_comm _ _ _

/-!
# Host memory

What is asked for is refused, or counted and then made if it can be.
-/

/-- Whether a host allocator counts the buffers that are out.  Without a limit its count is a word
that wraps; a limit keeps it from doing so. -/
structure HostAllocator.Counts (a : HostAllocator) (live : List BufferTag) : Prop where
  host : forall t : BufferTag, t ∈ live -> t.triple.domain = .host
  used : a.used = bytesIn .host 0 live % Text.wordBound
  bounded : a.limit.isSome = true -> bytesIn .host 0 live < Text.wordBound

namespace HostAllocator.Counts

variable {a a' : HostAllocator} {live live' : List BufferTag}

theorem perm (h : a.Counts live) (k : live.Perm live') : a.Counts live' where
  host t ht := h.host t (k.mem_iff.2 ht)
  used := by
    rw [← bytesIn_perm k]
    exact h.used
  bounded hlimit := by
    rw [← bytesIn_perm k]
    exact h.bounded hlimit

theorem bytesIn_host {t : BufferTag} (h : t.triple.domain = .host) :
    bytesIn .host 0 (t :: live) = t.triple.size + bytesIn .host 0 live := by
  have hin : t.isIn .host 0 = true := by simp [BufferTag.isIn, h, MemoryDomain.pool]
  rw [bytesIn_cons, if_pos hin]

theorem reserve {size : Nat} {t : BufferTag} (h : a.Counts live)
    (ht : t.triple.domain = .host) (hsize : t.triple.size = size)
    (hreserve : a.reserve size = .ok a') : a'.Counts (t :: live) := by
  have hbytes : bytesIn .host 0 (t :: live) = size + bytesIn .host 0 live := by
    rw [bytesIn_host ht, hsize]
  have hhost : forall s : BufferTag, s ∈ t :: live -> s.triple.domain = .host :=
    List.forall_mem_cons.2 ⟨ht, h.host⟩
  have hused := h.used
  unfold HostAllocator.reserve at hreserve
  cases hlimit : a.limit with
  | none =>
      rw [hlimit] at hreserve
      cases hreserve
      refine ⟨hhost, ?_, ?_⟩
      · show (a.used + size) % Text.wordBound = _
        rw [hbytes, hused, Nat.mod_add_mod, Nat.add_comm]
      · intro hsome
        cases hsome
  | some limit =>
      have hexact := Nat.mod_eq_of_lt (h.bounded (by rw [hlimit]; rfl))
      rw [hlimit] at hreserve
      simp only [sum?] at hreserve
      split at hreserve
      · rename_i next hnext
        split at hnext
        · rename_i hbound
          cases hnext
          split at hreserve
          · cases hreserve
            have hnew : bytesIn .host 0 (t :: live) < Text.wordBound := by omega
            refine ⟨hhost, ?_, fun _ => hnew⟩
            show a.used + size = _
            rw [Nat.mod_eq_of_lt hnew]
            omega
          · cases hreserve
        · cases hnext
      · cases hreserve

theorem allocate {domain : MemoryDomain} {region : Int} {size : Nat} {t : BufferTag}
    (h : a.Counts live) (ht : t.triple = ⟨size, domain, region⟩) :
    (exists failure : Failure, a.allocate domain region size = (.refused failure, a)) ∨
      exists a' : HostAllocator, a.allocate domain region size = (.zeroed domain region size, a') ∧
        a'.Counts (t :: live) := by
  unfold HostAllocator.allocate
  split
  · rename_i hdomain
    cases hreserve : a.reserve size with
    | error failure => exact .inl ⟨failure, rfl⟩
    | ok reserved =>
        have hhost : t.triple.domain = .host := by rw [ht, hdomain]
        have hsize : t.triple.size = size := by rw [ht]
        exact .inr ⟨reserved, rfl, h.reserve hhost hsize hreserve⟩
  · exact .inl ⟨_, rfl⟩

theorem free {b : Buffer} (h : a.Counts (b.tag :: live)) :
    exists a' : HostAllocator, a.free b b.triple = .ok a' ∧ a'.Counts live := by
  have hchecked : b.checkTriple b.triple = .ok () := if_pos rfl
  have hb : b.tag.triple.domain = .host := h.host b.tag List.mem_cons_self
  have hsize : b.tag.triple.size = b.triple.size := rfl
  have hbytes : bytesIn .host 0 (b.tag :: live) = b.triple.size + bytesIn .host 0 live :=
    bytesIn_host hb
  refine ⟨{ a with used := (a.used + (Text.wordBound - b.triple.size % Text.wordBound)) %
    Text.wordBound }, ?_, ?_⟩
  · unfold HostAllocator.free
    rw [hchecked]
    rfl
  · refine ⟨fun t ht => h.host t (List.mem_cons_of_mem _ ht), ?_, ?_⟩
    · show (a.used + (Text.wordBound - b.triple.size % Text.wordBound)) % Text.wordBound = _
      rw [h.used, hbytes]
      unfold Text.wordBound
      omega
    · intro hlimit
      have hbounded := h.bounded hlimit
      omega

end HostAllocator.Counts

/-!
# Pooled memory

What is asked for is refused, or counted and then made if it can be.
-/

/-- Whether a pooled allocator counts the buffers that are out, each of which lies in one of its
pools. -/
structure PooledAllocator.Counts (a : PooledAllocator) (live : List BufferTag) : Prop where
  used : forall (domain : MemoryDomain) (region : Int) (p : Pool),
    a.pool? domain region = some p -> p.used = bytesIn domain region live
  known : forall t : BufferTag, t ∈ live ->
    exists p : Pool, a.pool? t.triple.domain t.triple.region = some p

namespace PooledAllocator

theorem pool?_setPool (a : PooledAllocator) (domain domain' : MemoryDomain)
    (region region' : Int) (p : Pool) :
    (a.setPool domain region p).pool? domain' region' =
      if domain'.pool region' = domain.pool region then some p else a.pool? domain' region' := by
  cases domain with
  | host =>
      cases domain' with
      | host => rfl
      | accelerator => rfl
  | accelerator =>
      cases domain' with
      | host => rfl
      | accelerator =>
          by_cases hregion : region' = region
          · simp [setPool, pool?, hregion]
          · simp [setPool, pool?, MemoryDomain.pool, hregion,
              OrderedMap.get?_insert_of_ne hregion]

theorem counts_new (options : MemoryOptions) : (new options).Counts [] where
  used domain region p hp := by
    cases domain with
    | host =>
        cases hp
        rfl
    | accelerator =>
        rcases List.mem_map.1 (OrderedMap.mem_values_ofList (OrderedMap.mem_values_of_get? hp))
          with ⟨entry, hentry, hsame⟩
        rcases List.mem_map.1 hentry with ⟨device, hdevice, hmade⟩
        rw [← hsame, ← hmade]
        rfl
  known t ht := by cases ht

end PooledAllocator

namespace PooledAllocator.Counts

variable {a a' : PooledAllocator} {live live' : List BufferTag}

theorem perm (h : a.Counts live) (k : live.Perm live') : a.Counts live' where
  used domain region p hp := by
    rw [← bytesIn_perm k]
    exact h.used domain region p hp
  known t ht := h.known t (k.mem_iff.2 ht)

theorem setPool {domain : MemoryDomain} {region : Int} {p : Pool} (h : a.Counts live)
    (hknown : forall t : BufferTag, t ∈ live' -> t ∈ live ∨ t.isIn domain region = true)
    (hpool : p.used = bytesIn domain region live')
    (hothers : forall (domain' : MemoryDomain) (region' : Int),
      domain'.pool region' ≠ domain.pool region ->
        bytesIn domain' region' live' = bytesIn domain' region' live) :
    (a.setPool domain region p).Counts live' where
  used domain' region' q hq := by
    rw [pool?_setPool] at hq
    by_cases hsame : domain'.pool region' = domain.pool region
    · rw [if_pos hsame] at hq
      cases hq
      rw [hpool]
      unfold bytesIn BufferTag.isIn
      rw [hsame]
    · rw [if_neg hsame] at hq
      rw [hothers domain' region' hsame]
      exact h.used domain' region' q hq
  known t ht := by
    rw [pool?_setPool]
    by_cases hsame : t.triple.domain.pool t.triple.region = domain.pool region
    · exact ⟨p, if_pos hsame⟩
    · rcases hknown t ht with hold | hin
      · rw [if_neg hsame]
        exact h.known t hold
      · exact absurd (of_decide_eq_true hin) hsame

theorem used_take? {p p' : Pool} {size : Nat} (h : p.take? size = some p') :
    p'.used = p.used + size := by
  unfold Pool.take? sum? at h
  split at h
  · cases h
  · rename_i next hnext
    split at hnext
    · cases hnext
      split at h
      · cases h
        rfl
      · split at h
        · cases h
          rfl
        · cases h
    · cases hnext

theorem allocate {domain : MemoryDomain} {region : Int} {size : Nat} {t : BufferTag}
    (h : a.Counts live) (ht : t.triple = ⟨size, domain, region⟩) :
    (exists failure : Failure, a.allocate domain region size = (.refused failure, a)) ∨
      exists a' : PooledAllocator,
        a.allocate domain region size = (.zeroed domain region size, a') ∧
          a'.Counts (t :: live) := by
  unfold PooledAllocator.allocate
  cases hp : a.pool? domain region with
  | none => exact .inl ⟨_, rfl⟩
  | some p =>
      cases htake : p.take? size with
      | none =>
          simp only [htake]
          exact .inl ⟨_, rfl⟩
      | some p' =>
          simp only [htake]
          have hin : t.isIn domain region = true := by
            unfold BufferTag.isIn
            rw [ht]
            exact decide_eq_true rfl
          refine .inr ⟨_, rfl, h.setPool ?_ ?_ ?_⟩
          · intro other hother
            rcases List.mem_cons.1 hother with rfl | hold
            · exact .inr hin
            · exact .inl hold
          · rw [used_take? htake, h.used domain region p hp, bytesIn_cons, if_pos hin, ht,
              Nat.add_comm]
          · intro domain' region' hother
            rw [bytesIn_cons, if_neg, Nat.zero_add]
            intro hin'
            unfold BufferTag.isIn at hin'
            rw [ht] at hin'
            exact hother (of_decide_eq_true hin').symm

theorem free {b : Buffer} (h : a.Counts (b.tag :: live)) :
    exists a' : PooledAllocator, a.free b b.triple = .ok a' ∧ a'.Counts live := by
  have hchecked : b.checkTriple b.triple = .ok () := if_pos rfl
  rcases h.known b.tag List.mem_cons_self with ⟨p, hp⟩
  have hp : a.pool? b.triple.domain b.triple.region = some p := hp
  have hused := h.used _ _ p hp
  have hin : b.tag.isIn b.triple.domain b.triple.region = true := decide_eq_true rfl
  have hsize : b.tag.triple.size = b.triple.size := rfl
  refine ⟨a.setPool b.triple.domain b.triple.region (p.give b.triple.size), ?_, ?_⟩
  · unfold PooledAllocator.free
    simp only [hchecked, hp, bind, Except.bind]
  · apply h.setPool (fun t ht => .inl (List.mem_cons_of_mem _ ht))
    · show p.used - b.triple.size = _
      rw [hused, bytesIn_cons, if_pos hin, hsize, Nat.add_sub_cancel_left]
    · intro domain' region' hother
      rw [bytesIn_cons, if_neg, Nat.zero_add]
      intro hother'
      exact hother (of_decide_eq_true hother').symm

end PooledAllocator.Counts

/-!
# Allocators in general

A regular allocator makes what it is asked for, all zero, or nothing.
-/

namespace AllocatorKind

variable {a a' : AllocatorKind} {live live' : List BufferTag}

/-- Whether an allocator hands out and takes back what it is asked to. -/
def isRegular : AllocatorKind -> Bool
  | host _ | pooled _ => true
  | caller _ => false

def Counts (live : List BufferTag) : AllocatorKind -> Prop
  | host a => a.Counts live
  | pooled a => a.Counts live
  | caller _ => False

theorem Counts.perm (h : a.Counts live) (k : live.Perm live') : a.Counts live' := by
  cases a with
  | host a => exact HostAllocator.Counts.perm h k
  | pooled a => exact PooledAllocator.Counts.perm h k
  | caller a => cases h

theorem isRegular_allocate (a : AllocatorKind) (domain : MemoryDomain) (region : Int)
    (size : Nat) : (a.allocate domain region size).2.isRegular = a.isRegular := by
  cases a <;> rfl

theorem isRegular_free (a : AllocatorKind) (b : Buffer) (given : BufferTriple) :
    (a.free b given).2.isRegular = a.isRegular := by
  cases a with
  | host a =>
      simp only [free]
      split <;> rfl
  | pooled a =>
      simp only [free]
      split <;> rfl
  | caller a => rfl

theorem Counts.allocate {domain : MemoryDomain} {region : Int} {size : Nat} {t : BufferTag}
    (h : a.Counts live) (ht : t.triple = ⟨size, domain, region⟩) :
    (exists failure : Failure, a.allocate domain region size = (.refused failure, a)) ∨
      exists a' : AllocatorKind, a.allocate domain region size = (.zeroed domain region size, a') ∧
        a'.Counts (t :: live) := by
  cases a with
  | host a =>
      rcases HostAllocator.Counts.allocate h ht with ⟨failure, hrefused⟩ | ⟨a', hmade, hcounts⟩
      · exact .inl ⟨failure, by rw [AllocatorKind.allocate, hrefused]; rfl⟩
      · exact .inr ⟨.host a', by rw [AllocatorKind.allocate, hmade]; rfl, hcounts⟩
  | pooled a =>
      rcases PooledAllocator.Counts.allocate h ht with ⟨failure, hrefused⟩ | ⟨a', hmade, hcounts⟩
      · exact .inl ⟨failure, by rw [AllocatorKind.allocate, hrefused]; rfl⟩
      · exact .inr ⟨.pooled a', by rw [AllocatorKind.allocate, hmade]; rfl, hcounts⟩
  | caller a => cases h

theorem eq_zeroed {domain : MemoryDomain} {region : Int} {size : Nat} {b : Buffer}
    (hregular : a.isRegular = true) (h : a.allocate domain region size = (.made b, a')) :
    b = .zeroed domain region size := by
  have hmade : Allocation.zeroed domain region size = .made b := by
    cases a with
    | host a =>
        have hfst : (a.allocate domain region size).1 = .made b := congrArg Prod.fst h
        unfold HostAllocator.allocate at hfst
        split at hfst
        · split at hfst
          · exact hfst
          · cases hfst
        · cases hfst
    | pooled a =>
        have hfst : (a.allocate domain region size).1 = .made b := congrArg Prod.fst h
        unfold PooledAllocator.allocate at hfst
        split at hfst
        · cases hfst
        · split at hfst
          · cases hfst
          · exact hfst
    | caller a => cases hregular
  rcases Allocation.zeroed_cases domain region size with ⟨_, hzeroed⟩ | ⟨_, hpanicked⟩
  · cases hmade.symm.trans hzeroed
    rfl
  · cases hmade.symm.trans hpanicked

theorem Counts.free {b : Buffer} (h : a.Counts (b.tag :: live)) :
    exists a' : AllocatorKind, a.free b b.triple = (.ok (), a') ∧ a'.Counts live := by
  cases a with
  | host a =>
      rcases HostAllocator.Counts.free h with ⟨a', hfree, hcounts⟩
      exact ⟨.host a', by simp only [AllocatorKind.free, hfree], hcounts⟩
  | pooled a =>
      rcases PooledAllocator.Counts.free h with ⟨a', hfree, hcounts⟩
      exact ⟨.pooled a', by simp only [AllocatorKind.free, hfree], hcounts⟩
  | caller a => cases h

end AllocatorKind

/-- Whether the books of an allocator are in order while certain buffers are out: its counts are
right, no two buffers have the same number, each buffer that was handed out has been taken back
once with its own triple or is out, and none was refused.  What calls that panicked had counted by
then stays counted. -/
structure Allocator.Accounts (a : Allocator) (live spent : List BufferTag) : Prop where
  counts : a.kind.Counts (live ++ spent)
  serials : a.ledger.handedOut.map BufferTag.serial = List.range a.ledger.handedOut.length
  returned : a.ledger.handedOut.Perm (a.ledger.takenBack ++ live)
  refused : a.ledger.refused = []
  panicked : a.ledger.panicked = spent

/-- Whether an allocator keeps its books in order, unless it is one that a client brings along. -/
def Allocator.InOrder (a : Allocator) (live spent : List BufferTag) : Prop :=
  a.kind.isRegular = true -> a.Accounts live spent

namespace Allocator

variable {a a' : Allocator} {live live' spent : List BufferTag}

theorem inOrder_plan (plan : AllocatorPlan) : plan.allocator.InOrder [] [] := by
  intro hregular
  have hbooks : plan.allocator.ledger = .empty := by
    cases plan <;> rfl
  have hcounts : plan.allocator.kind.Counts [] := by
    cases plan with
    | host limit => exact ⟨fun t ht => (by cases ht), rfl, fun _ => by decide⟩
    | pooled options => exact PooledAllocator.counts_new options
    | caller => cases hregular
  constructor
  · exact hcounts
  · rw [hbooks]
    rfl
  · rw [hbooks]
    exact List.Perm.refl []
  · rw [hbooks]
    rfl
  · rw [hbooks]
    rfl

theorem Accounts.perm (h : a.Accounts live spent) (k : live.Perm live') :
    a.Accounts live' spent where
  counts := h.counts.perm (k.append_right _)
  serials := h.serials
  returned := h.returned.trans (List.Perm.append_left _ k)
  refused := h.refused
  panicked := h.panicked

theorem InOrder.perm (h : a.InOrder live spent) (k : live.Perm live') : a.InOrder live' spent :=
  fun hregular => (h hregular).perm k

/-!
# Asking for a buffer

An allocator refuses what it is asked for, or it hands out a buffer or panics.
-/

theorem allocate_eq_cases {domain : MemoryDomain} {region : Int} {size : Nat}
    {result : Allocation} (h : a.allocate domain region size = (result, a')) :
    (exists failure : Failure, result = .refused failure ∧
      a.kind.allocate domain region size = (.refused failure, a'.kind) ∧ a'.ledger = a.ledger) ∨
    (exists b : Buffer, result = .made { b with serial := a.ledger.handedOut.length } ∧
      a.kind.allocate domain region size = (.made b, a'.kind) ∧
        a'.ledger = a.ledger.handOut ⟨a.ledger.handedOut.length, b.triple⟩) ∨
    (result = .panicked ∧ a.kind.allocate domain region size = (.panicked, a'.kind) ∧
      a'.ledger = a.ledger.panic ⟨size, domain, region⟩) := by
  unfold Allocator.allocate at h
  split at h
  · rename_i b kind hkind
    cases h
    exact .inr (.inl ⟨b, rfl, hkind, rfl⟩)
  · rename_i failure kind hkind
    cases h
    exact .inl ⟨failure, rfl, hkind, rfl⟩
  · rename_i kind hkind
    cases h
    exact .inr (.inr ⟨rfl, hkind, rfl⟩)

theorem isRegular_allocate (a : Allocator) (domain : MemoryDomain) (region : Int) (size : Nat) :
    (a.allocate domain region size).2.kind.isRegular = a.kind.isRegular := by
  have hkind := AllocatorKind.isRegular_allocate a.kind domain region size
  rcases allocate_eq_cases (Prod.eta (a.allocate domain region size)).symm with
    ⟨failure, _, hsame, _⟩ | ⟨b, _, hsame, _⟩ | ⟨_, hsame, _⟩ <;>
  · rw [hsame] at hkind
    exact hkind

theorem isRegular_of_allocate {domain : MemoryDomain} {region : Int} {size : Nat}
    {result : Allocation} (h : a.allocate domain region size = (result, a')) :
    a'.kind.isRegular = a.kind.isRegular := by
  rw [← isRegular_allocate a domain region size, h]

theorem bytes_allocate {domain : MemoryDomain} {region : Int} {size : Nat} {b : Buffer}
    (hregular : a.kind.isRegular = true) (h : a.allocate domain region size = (.made b, a')) :
    b.bytes = Bytes.zeros size := by
  rcases allocate_eq_cases h with
    ⟨failure, hrefused, _⟩ | ⟨inner, hmade, hkind, _⟩ | ⟨hpanicked, _⟩
  · cases hrefused
  · cases hmade
    rw [AllocatorKind.eq_zeroed hregular hkind]
    rfl
  · cases hpanicked

theorem InOrder.allocate {domain : MemoryDomain} {region : Int} {size : Nat} {b : Buffer}
    (h : a.InOrder live spent) (hallocate : a.allocate domain region size = (.made b, a')) :
    a'.InOrder (b.tag :: live) spent := by
  intro hregular
  rw [isRegular_of_allocate hallocate] at hregular
  have haccounts := h hregular
  rcases allocate_eq_cases hallocate with
    ⟨failure, hrefused, _⟩ | ⟨inner, hmade, hkind, hledger⟩ | ⟨hpanicked, _⟩
  · cases hrefused
  · cases hmade
    have htriple : inner.triple = ⟨size, domain, region⟩ := by
      rw [AllocatorKind.eq_zeroed hregular hkind]
      exact congrArg (BufferTriple.mk · domain region) (Buffer.size_zeroed domain region size)
    rcases haccounts.counts.allocate (t := ⟨a.ledger.handedOut.length, inner.triple⟩) htriple with
      ⟨failure, hrefused⟩ | ⟨kind, hkind', hcounts⟩
    · cases hkind.symm.trans hrefused
    · have hsame : a'.kind = kind := (Prod.mk.inj (hkind.symm.trans hkind')).2
      constructor
      · rw [hsame]
        exact hcounts
      · rw [hledger]
        show (a.ledger.handedOut ++ [_]).map BufferTag.serial = List.range (_ ++ [_]).length
        rw [List.map_append, haccounts.serials, List.length_append, List.length_singleton,
          List.range_succ]
        rfl
      · rw [hledger]
        show (a.ledger.handedOut ++ [_]).Perm (a.ledger.takenBack ++ _ :: live)
        exact (haccounts.returned.append_right _).trans
          ((List.perm_append_singleton _ _).trans List.perm_middle.symm)
      · rw [hledger]
        exact haccounts.refused
      · rw [hledger]
        exact haccounts.panicked
  · cases hpanicked

theorem Accounts.eq_of_refused {domain : MemoryDomain} {region : Int} {size : Nat}
    {failure : Failure} (h : a.Accounts live spent)
    (hallocate : a.allocate domain region size = (.refused failure, a')) : a' = a := by
  rcases allocate_eq_cases hallocate with
    ⟨_, hrefused, hkind, hledger⟩ | ⟨inner, hmade, _⟩ | ⟨hpanicked, _⟩
  · cases hrefused
    rcases h.counts.allocate (t := ⟨0, ⟨size, domain, region⟩⟩) rfl with
      ⟨failure', hrefused⟩ | ⟨kind, hkind', _⟩
    · have hsame : a'.kind = a.kind := (Prod.mk.inj (hkind.symm.trans hrefused)).2
      cases a
      cases a'
      cases hsame
      cases hledger
      rfl
    · have hzeroed := (Prod.mk.inj (hkind.symm.trans hkind')).1
      rcases Allocation.zeroed_cases domain region size with ⟨_, hmade⟩ | ⟨_, hpanicked⟩
      · cases hzeroed.trans hmade
      · cases hzeroed.trans hpanicked
  · cases hmade
  · cases hpanicked

theorem InOrder.refused {domain : MemoryDomain} {region : Int} {size : Nat} {failure : Failure}
    (h : a.InOrder live spent)
    (hallocate : a.allocate domain region size = (.refused failure, a')) :
    a'.InOrder live spent := by
  intro hregular
  rw [isRegular_of_allocate hallocate] at hregular
  have haccounts := h hregular
  rw [haccounts.eq_of_refused hallocate]
  exact haccounts

theorem InOrder.panicked {domain : MemoryDomain} {region : Int} {size : Nat}
    (h : a.InOrder live spent) (hallocate : a.allocate domain region size = (.panicked, a')) :
    a'.InOrder live (spent ++ [⟨spent.length, ⟨size, domain, region⟩⟩]) := by
  intro hregular
  rw [isRegular_of_allocate hallocate] at hregular
  have haccounts := h hregular
  rcases allocate_eq_cases hallocate with
    ⟨_, hrefused, _⟩ | ⟨inner, hmade, _⟩ | ⟨_, hkind, hledger⟩
  · cases hrefused
  · cases hmade
  · have hcounted := haccounts.counts.allocate (t := ⟨spent.length, ⟨size, domain, region⟩⟩) rfl
    rcases hcounted with ⟨failure, hrefused⟩ | ⟨kind, hkind', hcounts⟩
    · cases hkind.symm.trans hrefused
    · have hsame : a'.kind = kind := (Prod.mk.inj (hkind.symm.trans hkind')).2
      constructor
      · rw [hsame]
        refine hcounts.perm ?_
        rw [← List.append_assoc]
        exact (List.perm_append_singleton _ _).symm
      · rw [hledger]
        exact haccounts.serials
      · rw [hledger]
        exact haccounts.returned
      · rw [hledger]
        exact haccounts.refused
      · rw [hledger, ← haccounts.panicked]
        rfl

/-!
# Giving buffers back

A buffer that is out is taken back, and then it is not out any more.
-/

theorem free_eq_cases {b : Buffer} {given : BufferTriple} {result : Except Failure Unit}
    (h : a.free b given = (result, a')) :
    (result = .ok () ∧ a.kind.free b given = (.ok (), a'.kind) ∧
      a'.ledger = a.ledger.takeBack ⟨b.serial, given⟩) ∨
    exists failure : Failure, result = .error failure ∧
      a.kind.free b given = (.error failure, a'.kind) ∧ a'.ledger = a.ledger := by
  unfold Allocator.free at h
  split at h
  · rename_i kind hkind
    cases h
    exact .inl ⟨rfl, hkind, rfl⟩
  · rename_i failure kind hkind
    cases h
    exact .inr ⟨failure, rfl, hkind, rfl⟩

theorem isRegular_free (a : Allocator) (b : Buffer) (given : BufferTriple) :
    (a.free b given).2.kind.isRegular = a.kind.isRegular := by
  have hkind := AllocatorKind.isRegular_free a.kind b given
  rcases free_eq_cases (Prod.eta (a.free b given)).symm with
    ⟨_, hsame, _⟩ | ⟨failure, _, hsame, _⟩ <;>
  · rw [hsame] at hkind
    exact hkind

theorem Accounts.free {b : Buffer} (h : a.Accounts (b.tag :: live) spent) :
    (a.free b b.triple).1 = .ok () ∧ (a.free b b.triple).2.Accounts live spent := by
  rcases AllocatorKind.Counts.free h.counts with ⟨kind, hfree, hcounts⟩
  have hmade : a.free b b.triple = (.ok (), ⟨kind, a.ledger.takeBack b.tag⟩) := by
    unfold Allocator.free
    rw [hfree]
    rfl
  rw [hmade]
  refine ⟨rfl, hcounts, h.serials, ?_, h.refused, h.panicked⟩
  show a.ledger.handedOut.Perm ((a.ledger.takenBack ++ [b.tag]) ++ live)
  rw [List.append_assoc]
  exact h.returned

theorem isRegular_release (a : Allocator) (output : String) (b : Buffer) :
    (a.release output b).1.kind.isRegular = a.kind.isRegular := by
  have hfree := isRegular_free a b b.triple
  unfold release
  split
  · rename_i a' hsame
    rw [hsame] at hfree
    exact hfree
  · rename_i failure a' hsame
    rw [hsame] at hfree
    exact hfree

theorem InOrder.release {b : Buffer} (h : a.InOrder (b.tag :: live) spent) (output : String) :
    (a.release output b).1.InOrder live spent := by
  intro hregular
  rw [isRegular_release] at hregular
  rcases (h hregular).free with ⟨hok, haccounts⟩
  have hrelease : (a.release output b).1 = (a.free b b.triple).2 := by
    unfold Allocator.release
    rw [show a.free b b.triple = (.ok (), (a.free b b.triple).2) from Prod.ext hok rfl]
  rw [hrelease]
  exact haccounts

theorem InOrder.releaseAll {outputs : List (String × Buffer)}
    (h : a.InOrder (outputs.map (fun o => o.2.tag) ++ live) spent) :
    (a.releaseAll outputs).1.InOrder live spent := by
  induction outputs generalizing a with
  | nil => exact h
  | cons o rest ih => exact ih (InOrder.release h o.1)

theorem Accounts.usage_eq_zero (h : a.Accounts [] []) {domain : MemoryDomain} {region : Int}
    {used : Nat} (hused : a.usage domain region = some used) : used = 0 := by
  have hcounts := h.counts
  unfold Allocator.usage at hused
  cases hkind : a.kind with
  | host inner =>
      rw [hkind] at hcounts hused
      rw [← Option.some.inj hused]
      exact hcounts.used
  | pooled inner =>
      rw [hkind] at hcounts hused
      rcases Option.map_eq_some_iff.1 hused with ⟨p, hp, hsame⟩
      rw [← hsame]
      exact hcounts.used domain region p hp
  | caller inner =>
      rw [hkind] at hcounts
      exact hcounts.elim

end Allocator

end InferenceEngine
