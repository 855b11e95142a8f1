import InferenceEngine.Proofs.Memory.Usage

/-!
# Buffers that go back

If nothing comes of an execution, all the buffers that its backend has left are given back, each of
them with its own triple, and nothing else happens to the allocator.
-/

namespace InferenceEngine

/-- The buffers that were given back, whether they were taken or not. -/
def Ledger.returned (l : Ledger) : List BufferTag := l.takenBack ++ l.refused

namespace Allocator

variable {a a' : Allocator}

theorem returned_release (a : Allocator) (output : String) (b : Buffer) :
    (a.release output b).1.ledger.handedOut = a.ledger.handedOut ∧
      (a.release output b).1.ledger.returned.Perm (a.ledger.returned ++ [b.tag]) := by
  rcases free_eq_cases (Prod.eta (a.free b b.triple)).symm with
    ⟨hok, _, hledger⟩ | ⟨failure, herror, _, hledger⟩
  · have hrelease : (a.release output b).1.ledger = a.ledger.takeBack b.tag := by
      unfold release
      rw [show a.free b b.triple = (.ok (), (a.free b b.triple).2) from Prod.ext hok rfl]
      exact hledger
    rw [hrelease]
    refine ⟨rfl, ?_⟩
    show (a.ledger.takenBack ++ [b.tag] ++ a.ledger.refused).Perm
      (a.ledger.takenBack ++ a.ledger.refused ++ [b.tag])
    rw [List.append_assoc, List.append_assoc]
    exact List.perm_append_comm.append_left _
  · have hrelease : (a.release output b).1.ledger = a.ledger.refuse b.tag := by
      unfold release
      rw [show a.free b b.triple = (.error failure, (a.free b b.triple).2) from
        Prod.ext herror rfl]
      show (a.free b b.triple).2.ledger.refuse b.tag = _
      rw [hledger]
    rw [hrelease]
    refine ⟨rfl, ?_⟩
    show (a.ledger.takenBack ++ (a.ledger.refused ++ [b.tag])).Perm _
    rw [← List.append_assoc]
    exact List.Perm.refl _

theorem returned_releaseAll (a : Allocator) (outputs : List (String × Buffer)) :
    (a.releaseAll outputs).1.ledger.handedOut = a.ledger.handedOut ∧
      (a.releaseAll outputs).1.ledger.returned.Perm
        (a.ledger.returned ++ outputs.map fun o => o.2.tag) := by
  induction outputs generalizing a with
  | nil =>
      rw [List.map_nil, List.append_nil]
      exact ⟨rfl, List.Perm.refl _⟩
  | cons o rest ih =>
      rcases a.returned_release o.1 o.2 with ⟨hhanded, hreturned⟩
      rcases ih (a.release o.1 o.2).1 with ⟨hrest, hothers⟩
      refine ⟨hrest.trans hhanded, hothers.trans ?_⟩
      rw [List.map_cons, ← List.singleton_append, ← List.append_assoc]
      exact hreturned.append_right _

end Allocator

namespace Engine

variable {e : Engine} {n : Nat}

theorem allocators_releaseResponse_of_nil {response : Response} (h : response.buffers = []) :
    (e.releaseResponse response).allocators = e.allocators := by
  have hset : (e.releaseResponse response).allocators =
      e.allocators.set response.allocator (e.allocator response.allocator) := by
    unfold releaseResponse
    rw [h]
    rfl
  rw [hset]
  unfold allocator
  rcases Nat.lt_or_ge response.allocator e.allocators.length with hlt | hge
  · rw [List.getD_eq_getElem?_getD, List.getElem?_eq_getElem hlt, Option.getD_some,
      List.set_getElem_self]
  · exact List.set_eq_of_length_le hge

theorem allocators_respond_error (e : Engine) (n : Nat) (failure : Failure) :
    (e.respond n (.error failure)).allocators = e.allocators := by
  unfold respond
  rw [allocators_callBack]
  split
  · rw [allocators_releaseSlot, allocators_noteResult]
  · rw [allocators_releaseResponse_of_nil rfl, allocators_releaseSlot, allocators_noteResult]

/-- If nothing comes of an execution, all slots that its backend leaves are given back to the
allocator of its server. -/
theorem allocator_leaveBackend_error {result : Except Failure Unit} {slots : List OutputSlot}
    {failure : Failure} {memory : Execution.Memory} {events : List Event}
    (houtcome : e.outcome n result slots = (.error failure, memory, events))
    (hexists : (e.server (e.submission n).server).allocator < e.allocators.length) :
    (e.leaveBackend n result slots).allocator (e.server (e.submission n).server).allocator =
      memory.allocator := by
  have hallocators : (e.leaveBackend n result slots).allocators =
      (e.takeSlots n result slots).allocators := by
    unfold leaveBackend
    rw [houtcome]
    exact allocators_respond_error _ n failure
  have htaken : (e.takeSlots n result slots).allocator
      (e.server (e.submission n).server).allocator = (e.outcome n result slots).2.1.allocator := by
    refine (allocator_setAllocator (e.recordEnding ⟨n, result, slots⟩) _ _ _).trans ?_
    exact if_pos ⟨rfl, hexists⟩
  unfold allocator at htaken ⊢
  rw [hallocators, htaken, houtcome]

end Engine

end InferenceEngine
