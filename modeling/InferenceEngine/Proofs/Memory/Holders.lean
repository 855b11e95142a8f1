import InferenceEngine.Proofs.Requests.Callbacks
import InferenceEngine.Proofs.Execution.Backends
import InferenceEngine.Proofs.Memory.Executions
import Mathlib.Data.List.Basic

/-!
# Who holds the buffers of an allocator

The buffers that an allocator has handed out to servers are held by their requests: by a backend in
its slots, or by whoever has a response.
-/

namespace InferenceEngine

def Phase.tags : Phase -> List BufferTag
  | answered response => response.tags
  | p => slotTags p.slots

theorem Phase.Stays.tags {p p' : Phase} (h : p.Stays p') : p'.tags = p.tags := by
  rcases h with hsame | ⟨rfl, rfl⟩
  · rw [hsame]
  · rfl

theorem Phase.tags_of_isInside {p : Phase} (h : p.isInside = true) :
    p.tags = slotTags p.slots := by
  cases p with
  | answered => cases h
  | _ => rfl

namespace Engine

/-- The tags of the buffers of an allocator that a request holds. -/
def tagsOf (e : Engine) (a n : Nat) : List BufferTag :=
  if (e.server (e.submission n).server).allocator = a then (e.submission n).phase.tags else []

/-- The tags of the buffers of an allocator that requests hold: the slots of those inside their
backends, and what responses hold inline. -/
def live (e : Engine) (a : Nat) : List BufferTag :=
  (List.range e.submissions.length).flatMap (e.tagsOf a)

/-- The tags of the buffers of an allocator that other requests hold. -/
def liveBut (e : Engine) (a n : Nat) : List BufferTag :=
  ((List.range e.submissions.length).erase n).flatMap (e.tagsOf a)

theorem live_perm {e : Engine} {n : Nat} (h : n < e.submissions.length) (a : Nat) :
    (e.live a).Perm (e.tagsOf a n ++ e.liveBut a n) :=
  (List.perm_cons_erase (List.mem_range.2 h)).flatMap_right (e.tagsOf a)

theorem live_congr {e e' : Engine} {a : Nat}
    (hlength : e'.submissions.length = e.submissions.length)
    (h : forall m : Nat, m < e.submissions.length -> e'.tagsOf a m = e.tagsOf a m) :
    e'.live a = e.live a := by
  unfold live
  rw [hlength]
  apply List.flatMap_congr
  intro m hm
  exact h m (List.mem_range.1 hm)

theorem liveBut_congr {e e' : Engine} {a n : Nat}
    (hlength : e'.submissions.length = e.submissions.length)
    (h : forall m : Nat, m ≠ n -> m < e.submissions.length -> e'.tagsOf a m = e.tagsOf a m) :
    e'.liveBut a n = e.liveBut a n := by
  unfold liveBut
  rw [hlength]
  apply List.flatMap_congr
  intro m hm
  rcases (List.nodup_range.mem_erase_iff).1 hm with ⟨hne, hm⟩
  exact h m hne (List.mem_range.1 hm)

theorem live_eq_nil {e : Engine} {a : Nat}
    (h : forall m : Nat, m < e.submissions.length -> e.tagsOf a m = []) : e.live a = [] := by
  unfold live
  rw [List.flatMap_eq_nil_iff]
  intro m hm
  exact h m (List.mem_range.1 hm)

/-- The allocator of a request stays, and so what it holds of it hangs on how far it has come. -/
theorem Spares.tagsOf {e e' : Engine} (h : e.Spares e') {m : Nat}
    (hphase : (e'.submission m).phase.tags = (e.submission m).phase.tags) (a : Nat) :
    e'.tagsOf a m = e.tagsOf a m := by
  unfold Engine.tagsOf
  rw [hphase, h.submission m, h.server]

/-!
# The allocators of servers and of responses

Servers and requests keep their allocators, whatever is done for others.
-/

/-- Servers have allocators that exist, and their responses go back to these. -/
structure Homes (e : Engine) : Prop where
  allocator : forall k : Nat, k < e.servers.length ->
    (e.server k).allocator < e.allocators.length
  answered : forall (n : Nat) (response : Response),
    (e.submission n).phase = .answered response ->
      response.allocator = (e.server (e.submission n).server).allocator

theorem homes_empty : empty.Homes where
  allocator k hk := by cases hk
  answered n response h := by cases h

theorem Spares.homes {e e' : Engine} (h : e.Spares e') (k : e.Homes)
    (hallocators : e'.allocators.length = e.allocators.length)
    (hphase : forall (m : Nat) (response : Response),
      (e'.submission m).phase = .answered response ->
        (e.submission m).phase = .answered response ∨
          response.allocator = (e.server (e.submission m).server).allocator) : e'.Homes where
  allocator j hj := by
    rw [h.servers] at hj
    rw [h.server j, hallocators]
    exact k.allocator j hj
  answered m response hm := by
    rw [h.submission m, h.server]
    rcases hphase m response hm with hold | hnew
    · exact k.answered m response hold
    · exact hnew

theorem allocator_responseTo (e : Engine) (n computeTime : Nat)
    (result : Except Failure (List (String × OutputStorage))) :
    (e.responseTo n computeTime result).allocator =
      (e.server (e.submission n).server).allocator := by
  cases result <;> rfl

theorem length_setAllocator (e : Engine) (n : Nat) (a : Allocator) :
    (e.setAllocator n a).allocators.length = e.allocators.length :=
  List.length_set

theorem length_releaseResponse (e : Engine) (response : Response) :
    (e.releaseResponse response).allocators.length = e.allocators.length :=
  length_setAllocator e _ _

theorem length_callBack (e : Engine) (n : Nat) (taken? : Option Nat) (response : Response) :
    (e.callBack n taken? response).allocators.length = e.allocators.length := by
  simp only [callBack, hand]
  split
  · rfl
  · exact length_releaseResponse _ response

theorem allocators_releaseSlot (e : Engine) (k : Nat) :
    (e.releaseSlot k).allocators = e.allocators := by
  unfold releaseSlot
  split <;> rfl

theorem allocators_noteResult (e : Engine) (n : Nat)
    (result : Except Failure (List (String × OutputStorage))) :
    (e.noteResult n result).allocators = e.allocators := by
  cases result <;> rfl

theorem length_respond (e : Engine) (n : Nat)
    (result : Except Failure (List (String × OutputStorage))) :
    (e.respond n result).allocators.length = e.allocators.length := by
  unfold respond
  rw [length_callBack, allocators_releaseSlot, allocators_noteResult]

theorem length_giveUp (e : Engine) (n : Nat) :
    (e.giveUp n).allocators.length = e.allocators.length := by
  unfold giveUp
  rw [length_callBack]
  show (e.withdraw n).allocators.length = _
  simp only [withdraw]
  split
  · rw [allocators_releaseSlot]
  · rfl

theorem Homes.respond {e : Engine} (h : e.Homes) (hlined : e.Lined) (n : Nat)
    (result : Except Failure (List (String × OutputStorage))) : (e.respond n result).Homes := by
  apply (spares_respond e n result).homes h (length_respond e n result)
  intro m response hm
  by_cases hn : m = n
  · rw [hn] at hm ⊢
    have hlt : n < e.submissions.length := by
      have hlength := (spares_respond e n result).submissions
      rw [← hlength]
      exact lt_of_answered hm
    rw [phase_respond hlt] at hm
    rw [eq_of_received hm]
    exact .inr (allocator_responseTo e n _ result)
  · exact .inl (answered_of_stays (stays_respond hlined hn result) hm)

theorem Homes.giveUp {e : Engine} (h : e.Homes) (hlined : e.Lined) (n : Nat) :
    (e.giveUp n).Homes := by
  apply (spares_giveUp e n).homes h (length_giveUp e n)
  intro m response hm
  by_cases hn : m = n
  · rw [hn] at hm ⊢
    unfold Engine.giveUp at hm
    rw [phase_callBack] at hm
    split at hm
    · rw [eq_of_received hm]
      exact .inr (allocator_responseTo e n 0 _)
    · rename_i hlt
      have hlt' := lt_of_answered (e := e.withdraw n) hm
      exact absurd ⟨rfl, hlt'⟩ hlt
  · exact .inl (answered_of_stays (stays_giveUp hlined hn) hm)

theorem Homes.setPhase {e : Engine} (h : e.Homes) {n : Nat} {p : Phase}
    (hp : p.response? = none) : (e.setPhase n p).Homes := by
  apply (spares_setPhase e n p).homes h rfl
  intro m response hm
  rw [submission_setPhase] at hm
  split at hm
  · have hp' : p = .answered response := hm
    rw [hp'] at hp
    cases hp
  · exact .inl hm

theorem Homes.of_servers {e e' : Engine} (h : e.Homes)
    (hservers : e'.servers.length = e.servers.length)
    (hallocator : forall k : Nat, (e'.server k).allocator = (e.server k).allocator)
    (hallocators : e.allocators.length ≤ e'.allocators.length)
    (hsubmissions : e'.submissions = e.submissions) : e'.Homes where
  allocator k hk := by
    rw [hservers] at hk
    rw [hallocator]
    exact Nat.lt_of_lt_of_le (h.allocator k hk) hallocators
  answered n response hn := by
    unfold submission at hn ⊢
    rw [hsubmissions] at hn ⊢
    rw [hallocator]
    exact h.answered n response hn

theorem Homes.of_parts {e e' : Engine} (h : e.Homes) (hservers : e'.servers = e.servers)
    (hallocators : e.allocators.length ≤ e'.allocators.length)
    (hsubmissions : e'.submissions = e.submissions) : e'.Homes := by
  refine h.of_servers (congrArg List.length hservers) ?_ hallocators hsubmissions
  intro k
  unfold server
  rw [hservers]

theorem allocator_modifyServer {e : Engine} {n : Nat} {f : Server -> Server}
    (hf : (f (e.server n)).allocator = (e.server n).allocator) (k : Nat) :
    ((e.modifyServer n f).server k).allocator = (e.server k).allocator := by
  rw [server_modifyServer]
  split
  · rename_i hk
    rw [hf, hk.1]
  · rfl

theorem Homes.modifyServer {e : Engine} (h : e.Homes) {n : Nat} {f : Server -> Server}
    (hf : (f (e.server n)).allocator = (e.server n).allocator) : (e.modifyServer n f).Homes :=
  h.of_servers (by simp [Engine.modifyServer]) (allocator_modifyServer hf) (Nat.le_refl _) rfl

theorem Homes.enterBackend {e : Engine} (h : e.Homes) (n : Nat) (batch : ExecutionBatch) :
    (e.enterBackend n batch).Homes := by
  have hrecorded : (e.record (.execute n batch)).Homes := h.of_parts rfl (Nat.le_refl _) rfl
  exact hrecorded.setPhase rfl

theorem Homes.enroll {e : Engine} (h : e.Homes) (server callback : Nat)
    (request : PreparedRequest) :
    ((e.countIn server).enroll server request callback).Homes := by
  have hcounted : (e.countIn server).Homes := h.modifyServer rfl
  constructor
  · exact hcounted.allocator
  · intro n response hn
    rw [submission_enroll] at hn ⊢
    split at hn
    · cases hn
    · rename_i hold
      rw [if_neg hold]
      exact hcounted.answered n response hn

theorem Homes.addServer {e : Engine} (h : e.Homes) (htally : e.Tally) {options : ServerOptions}
    {allocator : Nat} {table : ModelTable} (hallocator : allocator < e.allocators.length) :
    (e.addServer options allocator table).Homes := by
  constructor
  · intro k hk
    rw [server_addServer]
    split
    · exact hallocator
    · rename_i hne
      have hlength : (e.addServer options allocator table).servers.length =
          e.servers.length + 1 := by simp [Engine.addServer]
      exact h.allocator k (by omega)
  · intro n response hn
    have hlt := htally.server n (lt_of_answered hn)
    rw [server_addServer]
    show response.allocator =
      (if (e.submission n).server = e.servers.length then _ else _ : Server).allocator
    rw [if_neg (Nat.ne_of_lt hlt)]
    exact h.answered n response hn

theorem Move.homes {deed : Deed} {e e' : Engine} (h : Move deed e e') (hlined : e.Lined)
    (htally : e.Tally) (k : e.Homes) : e'.Homes := by
  cases h with
  | schedule | close | directory | stops | create | addStats =>
      exact k.of_parts rfl (Nat.le_refl _) rfl
  | addServer _ options allocator table hallocator htable => exact k.addServer htally hallocator
  | server _ n s hs => exact k.modifyServer hs.allocator
  | addAllocator _ plan =>
      refine k.of_parts rfl ?_ rfl
      simp [Engine.addAllocator]
  | useAllocator _ n a =>
      exact k.of_parts rfl (Nat.le_of_eq (length_setAllocator e n a).symm) rfl
  | enroll _ server callback provider request hstate hprepare =>
      exact k.enroll server callback request
  | awaitSlot _ n hn =>
      have hqueue : (e.modifyServer (e.submission n).server fun s =>
          { s with waiting := s.waiting ++ [n] }).Homes := k.modifyServer rfl
      exact hqueue.setPhase rfl
  | takeSlot _ e' n hn htake =>
      rcases takeSlot?_eq_some htake with ⟨free, rfl⟩
      have htaken : (e.modifyServer (e.submission n).server fun s =>
          { s with freeSlots := free }).Homes := k.modifyServer rfl
      exact htaken.setPhase rfl
  | gatherFails _ n failure hn hgather => exact k.respond hlined n _
  | allocateFails _ n failure a events hn hallocate =>
      have hset : ((e.setMemory (e.submission n).server ⟨a, e.directory⟩).report events).Homes :=
        k.of_parts rfl (Nat.le_of_eq (length_setAllocator e _ a).symm) rfl
      have hqueues : ((e.setMemory (e.submission n).server ⟨a, e.directory⟩).report
          events).Lined := hlined.of_parts rfl rfl
      exact hset.respond hqueues n _
  | unwind _ n slots a events hn hallocate =>
      have hset : (e.forfeit n slots a events).Homes :=
        k.of_parts rfl (Nat.le_of_eq (length_setAllocator e _ a).symm) rfl
      have hqueues : (e.forfeit n slots a events).Lined := hlined.of_parts rfl rfl
      exact hset.giveUp hqueues n
  | enter _ n inputs slots a events hn hgather hallocate =>
      have hset : ((e.setMemory (e.submission n).server ⟨a, e.directory⟩).report events).Homes :=
        k.of_parts rfl (Nat.le_of_eq (length_setAllocator e _ a).symm) rfl
      exact hset.enterBackend n _
  | turn _ n p hn => exact k.setPhase hn.response?_eq
  | leave _ n held next result slots hn hnext =>
      have hset : (e.takeSlots n result slots).Homes :=
        k.of_parts rfl (Nat.le_of_eq (length_setAllocator e _ _).symm) rfl
      have hqueues : (e.takeSlots n result slots).Lined := hlined.of_parts rfl rfl
      exact hset.respond hqueues n _
  | cancel _ n hn => exact k.giveUp hlined n
  | comeBack _ n hn =>
      apply (spares_comeBack e n).homes k
      · rw [allocators_comeBack]
      · intro m response hm
        unfold submission at hm
        rw [submissions_comeBack] at hm
        exact .inl hm
  | dropResponse _ n response hn =>
      have hset : (e.releaseResponse response).Homes :=
        k.of_parts rfl (Nat.le_of_eq (length_releaseResponse e response).symm) rfl
      exact hset.setPhase rfl
  | ignore _ n =>
      apply (spares_ignore e n).homes k rfl
      intro m response hm
      rw [phase_ignore] at hm
      exact .inl hm

theorem Move.length_allocators {deed : Deed} {e e' : Engine} (h : Move deed e e') :
    e.allocators.length ≤ e'.allocators.length := by
  cases h with
  | addAllocator _ plan => simp [Engine.addAllocator]
  | useAllocator _ n a => exact Nat.le_of_eq (length_setAllocator e n a).symm
  | takeSlot _ e' n hn htake =>
      rcases takeSlot?_eq_some htake with ⟨free, rfl⟩
      exact Nat.le_refl _
  | gatherFails _ n failure hn hgather => exact Nat.le_of_eq (length_respond e n _).symm
  | allocateFails _ n failure a events hn hallocate =>
      rw [length_respond]
      exact Nat.le_of_eq (length_setAllocator e _ a).symm
  | unwind _ n slots a events hn hallocate =>
      rw [length_giveUp]
      exact Nat.le_of_eq (length_setAllocator e _ a).symm
  | enter _ n inputs slots a events hn hgather hallocate =>
      exact Nat.le_of_eq (length_setAllocator e _ a).symm
  | leave _ n held next result slots hn hnext =>
      unfold leaveBackend
      rw [length_respond]
      exact Nat.le_of_eq (length_setAllocator e _ _).symm
  | cancel _ n hn => exact Nat.le_of_eq (length_giveUp e n).symm
  | comeBack _ n hn => exact Nat.le_of_eq (congrArg List.length (allocators_comeBack e n)).symm
  | dropResponse _ n response hn => exact Nat.le_of_eq (length_releaseResponse e response).symm
  | _ => exact Nat.le_refl _

theorem Moves.length_allocators {also : Deed -> Prop} {e e' : Engine} (h : Moves also e e') :
    e.allocators.length ≤ e'.allocators.length := by
  refine Moves.induct (P := fun middle => e.allocators.length ≤ middle.allocators.length) ?_ h
    (Nat.le_refl _)
  intro deed middle e' _ hmove hmiddle
  exact Nat.le_trans hmiddle hmove.length_allocators

theorem Reachable.homes {e : Engine} (h : e.Reachable) : e.Homes := by
  apply Reachable.induct homes_empty _ h
  intro deed e e' hreachable hmove hhomes
  exact hmove.homes hreachable.lined hreachable.tally hhomes

end Engine

end InferenceEngine
