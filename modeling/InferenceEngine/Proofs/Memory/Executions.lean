import InferenceEngine.Server.Execution
import InferenceEngine.Proofs.Memory.Accounts

/-!
# The buffers of one execution

An execution allocates slots, hands them to a backend, takes them back in whatever order, and
delivers them or gives them back.  Wherever it ends, the buffers that it has not given back are
those that its result holds inline.
-/

namespace InferenceEngine

def slotTags (slots : List OutputSlot) : List BufferTag := slots.map fun slot => slot.buffer.tag

def inlineTags (outputs : List (String × OutputStorage)) : List BufferTag :=
  outputs.filterMap fun o => o.2.buffer?.map Buffer.tag

/-- The tags of the buffers that the result of an execution holds. -/
def resultTags : Except Failure (List (String × OutputStorage)) -> List BufferTag
  | .ok outputs => inlineTags outputs
  | .error _ => []

def Response.tags (r : Response) : List BufferTag := r.buffers.map fun b => b.2.tag

theorem slotTags_append (slots more : List OutputSlot) :
    slotTags (slots ++ more) = slotTags slots ++ slotTags more :=
  List.map_append

theorem inlineTags_append (outputs more : List (String × OutputStorage)) :
    inlineTags (outputs ++ more) = inlineTags outputs ++ inlineTags more :=
  List.filterMap_append

theorem tags_named (slots : List OutputSlot) :
    (slots.map OutputSlot.named).map (fun o => o.2.tag) = slotTags slots := by
  rw [List.map_map]
  rfl

theorem tags_buffers (outputs : List (String × OutputStorage)) :
    (outputs.filterMap fun o => o.2.buffer?.map fun buffer => (o.1, buffer)).map
      (fun b => b.2.tag) = inlineTags outputs := by
  unfold inlineTags
  rw [List.map_filterMap]
  congr 1
  funext o
  cases o.2.buffer? <;> rfl

theorem Response.tags_eq (r : Response) : r.tags = inlineTags r.outputs := tags_buffers r.outputs

theorem Response.tags_ofResult (request : PreparedRequest) (allocator computeTime : Nat)
    (result : Except Failure (List (String × OutputStorage))) :
    (Response.ofResult request allocator computeTime result).tags = resultTags result := by
  rw [Response.tags_eq]
  cases result <;> rfl

theorem Rearranged.tags {given slots : List OutputSlot} (h : Rearranged given slots) :
    (slotTags slots).Perm (slotTags given) := by
  have htags := List.Perm.map Prod.snd h
  rw [List.map_map, List.map_map] at htags
  exact htags

namespace Execution

variable {a a' : Allocator} {live spent : List BufferTag}

/-- The tags of the buffers that an allocation of slots leaves to a request, or lost. -/
def allocatedTags : Allotment -> List BufferTag
  | .made slots | .panicked slots => slotTags slots
  | .failed _ => []

theorem inOrder_releaseSlots {slots : List OutputSlot}
    (h : a.InOrder (slotTags slots ++ live) spent) :
    (a.releaseAll (slots.map OutputSlot.named)).1.InOrder live spent := by
  apply Allocator.InOrder.releaseAll
  rw [tags_named]
  exact h

/-- If the allocation fails at some output, all that it had allocated is given back; if it panics,
that is out, and what was asked for last is spent. -/
theorem inOrder_allocate {placement : Placement} {outputs : List PreparedOutput}
    {slots : List OutputSlot} {result : Allotment} {events : List Event}
    (h : a.InOrder (slotTags slots ++ live) spent)
    (hallocate : allocate placement a slots outputs = (result, a', events)) :
    exists more : List BufferTag, a'.InOrder (allocatedTags result ++ live) (spent ++ more) ∧
      ((forall slots : List OutputSlot, result ≠ .panicked slots) -> more = []) := by
  have hnone : forall {a' : Allocator} {live : List BufferTag}, a'.InOrder live spent ->
      a'.InOrder live (spent ++ []) := by
    intro a' live hsame
    rw [List.append_nil]
    exact hsame
  induction outputs generalizing a slots events with
  | nil =>
      cases hallocate
      exact ⟨[], hnone h, fun _ => rfl⟩
  | cons output rest ih =>
      unfold allocate at hallocate
      split at hallocate
      · rename_i failure next hrefused
        cases hallocate
        exact ⟨[], hnone (inOrder_releaseSlots (Allocator.InOrder.refused h hrefused)),
          fun _ => rfl⟩
      · rename_i next hpanicked
        cases hallocate
        exact ⟨_, Allocator.InOrder.panicked h hpanicked, fun hnot => absurd rfl (hnot slots)⟩
      · rename_i buffer next hbuffer
        have hout := Allocator.InOrder.allocate h hbuffer
        by_cases hsize : buffer.size = output.size
        · simp only [hsize, if_true] at hallocate
          cases hallocate
          have hnext : next.InOrder (slotTags (slots ++ [⟨output.spec, buffer⟩]) ++ live)
              spent := by
            apply hout.perm
            rw [slotTags_append, List.append_assoc]
            exact List.perm_middle.symm
          exact ih hnext rfl
        · simp only [hsize, if_false] at hallocate
          cases hallocate
          refine ⟨[], hnone (Allocator.InOrder.releaseAll ?_), fun _ => rfl⟩
          rw [List.map_cons, tags_named]
          exact hout

/-!
# Delivery
-/

/-- What is delivered elsewhere is given back at once, and what is held inline is kept. -/
theorem inOrder_deliverSlot {s : Delivery} {slot : OutputSlot} {output : PreparedOutput}
    (h : s.memory.allocator.InOrder (inlineTags s.outputs ++ slot.buffer.tag :: live) spent) :
    (deliverSlot s slot output).memory.allocator.InOrder
      (inlineTags (deliverSlot s slot output).outputs ++ live) spent := by
  unfold deliverSlot
  cases hdestination : output.destination with
  | none =>
      show s.memory.allocator.InOrder (inlineTags (s.outputs ++ [_]) ++ live) spent
      rw [inlineTags_append, List.append_assoc]
      exact h
  | some range =>
      show (s.memory.allocator.release _ _).1.InOrder (inlineTags (s.outputs ++ [_]) ++ live) spent
      rw [inlineTags_append, List.append_assoc]
      exact Allocator.InOrder.release (h.perm List.perm_middle) _

theorem inOrder_deliverSlots {pairs : List (OutputSlot × PreparedOutput)} {s : Delivery}
    (h : s.memory.allocator.InOrder
      (inlineTags s.outputs ++ (slotTags (pairs.map Prod.fst) ++ live)) spent) :
    (pairs.foldl (fun s pair => deliverSlot s pair.1 pair.2) s).memory.allocator.InOrder
      (inlineTags (pairs.foldl (fun s pair => deliverSlot s pair.1 pair.2) s).outputs ++
        live) spent := by
  induction pairs generalizing s with
  | nil => exact h
  | cons pair rest ih => exact ih (inOrder_deliverSlot h)

theorem inOrder_deliver {m m' : Memory} {slots : List OutputSlot}
    {outputs : List PreparedOutput}
    {result : Except Failure (List (String × OutputStorage))} {events : List Event}
    (h : m.allocator.InOrder (slotTags slots ++ live) spent)
    (hlength : slots.length = outputs.length)
    (hdeliver : deliver m slots outputs = (result, m', events)) :
    m'.allocator.InOrder (resultTags result ++ live) spent := by
  have hslots : (slots.zip outputs).map Prod.fst = slots :=
    List.map_fst_zip (Nat.le_of_eq hlength)
  have hpairs : m.allocator.InOrder
      (inlineTags [] ++ (slotTags ((slots.zip outputs).map Prod.fst) ++ live)) spent := by
    rw [hslots]
    exact h
  have hdone := inOrder_deliverSlots (s := ⟨m, none, [], []⟩) hpairs
  simp only [deliver] at hdeliver
  split at hdeliver
  · cases hdeliver
    exact hdone
  · cases hdeliver
    apply Allocator.InOrder.releaseAll
    rw [tags_buffers]
    exact hdone

theorem length_of_checkSlots {config : ModelConfig} {slots : List OutputSlot}
    {outputs : List PreparedOutput} (h : checkSlots config slots outputs = .ok ()) :
    slots.length = outputs.length := by
  unfold checkSlots at h
  split at h
  · cases h
  · rename_i hlength
    exact Classical.not_not.1 hlength

/-- However a backend has ended and whatever it has left, all buffers are given back but those
that the result holds. -/
theorem inOrder_conclude {m m' : Memory} {config : ModelConfig} {outputs : List PreparedOutput}
    {left : Except Failure Unit} {slots : List OutputSlot}
    {result : Except Failure (List (String × OutputStorage))} {events : List Event}
    (h : m.allocator.InOrder (slotTags slots ++ live) spent)
    (hconclude : conclude m config outputs left slots = (result, m', events)) :
    m'.allocator.InOrder (resultTags result ++ live) spent := by
  unfold conclude at hconclude
  split at hconclude
  · rename_i hchecked
    rcases bind_eq_ok hchecked with ⟨_, _, hslots⟩
    exact inOrder_deliver h (length_of_checkSlots hslots) hconclude
  · cases hconclude
    exact inOrder_releaseSlots h

end Execution

end InferenceEngine
