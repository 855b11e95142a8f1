import InferenceEngine.Proofs.Requests.Acceptance
import InferenceEngine.Proofs.Memory.Holders
import InferenceEngine.Proofs.Runs.Frames

/-!
# Usage of memory

As long as no task is dropped or panics and no client uses an allocator beside its servers, the
allocator counts exactly the buffers that requests hold, and each buffer that nobody holds any more
has been taken back once.
-/

namespace InferenceEngine

def Deed.Leaves (a : Nat) (deed : Deed) : Prop := deed ≠ .use a

/-- Whether a move leaves an allocator to its servers, and no task is dropped or panics. -/
def Deed.IsOrderly (a : Nat) : Deed -> Prop
  | .cancel _ | .unwind _ => False
  | .use n => n ≠ a
  | _ => True

def Operation.Leaves (a : Nat) : Operation -> Prop
  | .allocate n _ _ _ | .free n _ _ => n ≠ a
  | _ => True

theorem Operation.Leaves.of_does {a : Nat} {op : Operation} (h : op.Leaves a) {isRunning : Bool}
    {deed : Deed} (hdoes : op.Does isRunning deed) : deed.Leaves a := by
  rintro rfl
  cases op with
  | allocate | free => exact h hdoes.symm
  | _ => exact hdoes.elim

namespace Engine

/-- Whether the books of an allocator are in order while requests hold what they do, and no call has
panicked. -/
def Books (e : Engine) (a : Nat) : Prop := (e.allocator a).InOrder (e.live a) []

/-- Whether the books of an allocator are in order while requests hold what they do and nobody holds
certain other buffers that are out, nor what calls that panicked have spent. -/
def BooksWith (e : Engine) (a : Nat) (lost spent : List BufferTag) : Prop :=
  (e.allocator a).InOrder (e.live a ++ lost) spent

theorem booksWith_nil {e : Engine} {a : Nat} : e.BooksWith a [] [] ↔ e.Books a := by
  unfold BooksWith Books
  rw [List.append_nil]

variable {lost spent : List BufferTag}

/-!
# Changes that leave the buffers where they are
-/

theorem BooksWith.of_tags {e e' : Engine} {a : Nat} (h : e.BooksWith a lost spent)
    (hallocator : e'.allocator a = e.allocator a)
    (hlength : e'.submissions.length = e.submissions.length)
    (htags : forall m : Nat, m < e.submissions.length -> e'.tagsOf a m = e.tagsOf a m) :
    e'.BooksWith a lost spent := by
  unfold BooksWith
  rw [hallocator, live_congr hlength htags]
  exact h

theorem BooksWith.of_parts {e e' : Engine} {a : Nat} (h : e.BooksWith a lost spent)
    (hservers : e'.servers = e.servers) (hsubmissions : e'.submissions = e.submissions)
    (hallocator : e'.allocator a = e.allocator a) : e'.BooksWith a lost spent := by
  apply h.of_tags hallocator (congrArg List.length hsubmissions)
  intro m _
  unfold tagsOf server submission
  rw [hservers, hsubmissions]

theorem Spares.booksWith {e e' : Engine} {a : Nat} (h : e.Spares e') (k : e.BooksWith a lost spent)
    (hallocators : e'.allocators = e.allocators)
    (hphase : forall m : Nat, (e'.submission m).phase.tags = (e.submission m).phase.tags) :
    e'.BooksWith a lost spent := by
  refine k.of_tags ?_ h.submissions fun m _ => h.tagsOf (hphase m) a
  unfold allocator
  rw [hallocators]

theorem BooksWith.modifyServer {e : Engine} {a n : Nat} {f : Server -> Server}
    (h : e.BooksWith a lost spent) (hf : (f (e.server n)).allocator = (e.server n).allocator) :
    (e.modifyServer n f).BooksWith a lost spent := by
  refine h.of_tags rfl rfl ?_
  intro m _
  unfold tagsOf
  rw [allocator_modifyServer hf]
  rfl

theorem tags_setPhase {e : Engine} {n : Nat} {p : Phase}
    (h : p.tags = (e.submission n).phase.tags) (m : Nat) :
    ((e.setPhase n p).submission m).phase.tags = (e.submission m).phase.tags := by
  rw [submission_setPhase]
  split
  · rename_i hm
    rw [hm.1]
    exact h
  · rfl

theorem BooksWith.setPhase {e : Engine} {a n : Nat} {p : Phase} (h : e.BooksWith a lost spent)
    (hp : p.tags = (e.submission n).phase.tags) : (e.setPhase n p).BooksWith a lost spent :=
  (spares_setPhase e n p).booksWith h rfl (tags_setPhase hp)

/-!
# Changes of what one request holds

What a request holds is put in order by itself.
-/

theorem perm_live {e : Engine} {a n : Nat} (hn : n < e.submissions.length) :
    (e.live a ++ lost).Perm (e.tagsOf a n ++ (e.liveBut a n ++ lost)) := by
  rw [← List.append_assoc]
  exact (live_perm hn a).append_right lost

theorem BooksWith.split {e : Engine} {a n : Nat} (h : e.BooksWith a lost spent)
    (hn : n < e.submissions.length) :
    (e.allocator a).InOrder (e.tagsOf a n ++ (e.liveBut a n ++ lost)) spent :=
  Allocator.InOrder.perm h (perm_live hn)

theorem BooksWith.of_split {e : Engine} {a n : Nat} (hn : n < e.submissions.length)
    (h : (e.allocator a).InOrder (e.tagsOf a n ++ (e.liveBut a n ++ lost)) spent) :
    e.BooksWith a lost spent :=
  Allocator.InOrder.perm h (perm_live hn).symm

theorem BooksWith.of_setPhase {e : Engine} {a b n : Nat} {p : Phase} {rest : List BufferTag}
    (hn : n < e.submissions.length)
    (hhome : (e.server (e.submission n).server).allocator = b) (hrest : e.liveBut a n = rest)
    (h : (e.allocator a).InOrder ((if b = a then p.tags else []) ++ (rest ++ lost)) spent) :
    (e.setPhase n p).BooksWith a lost spent := by
  have hspares := spares_setPhase e n p
  have hothers : (e.setPhase n p).liveBut a n = rest := by
    rw [← hrest]
    apply liveBut_congr hspares.submissions
    intro m hm _
    refine hspares.tagsOf ?_ a
    rw [submission_setPhase, if_neg fun hboth => hm hboth.1]
  have hown : (e.setPhase n p).tagsOf a n = if b = a then p.tags else [] := by
    unfold tagsOf
    rw [phase_setPhase_self hn, hspares.submission n, ← hhome]
    rfl
  apply BooksWith.of_split (n := n) (by rw [hspares.submissions]; exact hn)
  rw [hothers, hown]
  exact h

theorem inOrder_releaseResponse {e : Engine} {a : Nat} {response : Response}
    {rest : List BufferTag} (hexists : response.allocator < e.allocators.length)
    (h : (e.allocator a).InOrder
      ((if response.allocator = a then response.tags else []) ++ rest) spent) :
    ((e.releaseResponse response).allocator a).InOrder rest spent := by
  have hset : (e.releaseResponse response).allocator a =
      if a = response.allocator ∧ response.allocator < e.allocators.length then
        ((e.allocator response.allocator).releaseAll response.buffers).1
      else e.allocator a :=
    allocator_setAllocator e response.allocator a _
  rw [hset]
  by_cases ha : response.allocator = a
  · rw [if_pos ha] at h
    rw [if_pos ⟨ha.symm, hexists⟩, ha]
    exact Allocator.InOrder.releaseAll h
  · rw [if_neg ha] at h
    rw [if_neg fun hboth => ha hboth.1.symm]
    exact h

theorem allocators_callBack (e : Engine) (n : Nat) (taken? : Option Nat) (response : Response) :
    (e.callBack n taken? response).allocators =
      if (e.submission n).isAwaited then e.allocators
      else (e.releaseResponse response).allocators := by
  simp only [callBack, hand]
  split
  · rename_i hawaited
    exact (if_pos (show (e.submission n).isAwaited = true from hawaited)).symm
  · rename_i hignored
    exact (if_neg (show ¬ (e.submission n).isAwaited = true from hignored)).symm

/-- A response is held by whoever waits for it, and else what it holds is given back. -/
theorem booksWith_respond {e : Engine} {a b n : Nat} {rest : List BufferTag}
    {result : Except Failure (List (String × OutputStorage))} (hlined : e.Lined)
    (hn : n < e.submissions.length)
    (hhome : (e.server (e.submission n).server).allocator = b) (hrest : e.liveBut a n = rest)
    (hexists : b < e.allocators.length)
    (h : (e.allocator a).InOrder ((if b = a then resultTags result else []) ++ (rest ++ lost))
      spent) :
    (e.respond n result).BooksWith a lost spent := by
  have hspares := spares_respond e n result
  have hothers : (e.respond n result).liveBut a n = rest := by
    rw [← hrest]
    apply liveBut_congr hspares.submissions
    intro m hm _
    exact hspares.tagsOf (stays_respond hlined hm result).tags a
  have hown : (e.respond n result).tagsOf a n =
      if b = a then (e.received n (e.responseTo n e.readings.computeTime result)).tags else [] := by
    unfold tagsOf
    rw [phase_respond hn, hspares.submission n, hspares.server, hhome]
  have hresponse : (e.responseTo n e.readings.computeTime result).allocator = b := by
    rw [allocator_responseTo, hhome]
  have htags : (e.responseTo n e.readings.computeTime result).tags = resultTags result :=
    Response.tags_ofResult _ _ _ result
  have hmiddle : ((e.noteResult n result).releaseSlot (e.submission n).server).allocators =
      e.allocators := by rw [allocators_releaseSlot, allocators_noteResult]
  have hallocators : (e.respond n result).allocators =
      if (e.submission n).isAwaited then e.allocators
      else (e.releaseResponse (e.responseTo n e.readings.computeTime result)).allocators := by
    have hawaited : (((e.noteResult n result).releaseSlot
        (e.submission n).server).submission n).isAwaited = (e.submission n).isAwaited := by
      rw [isAwaited_releaseSlot]
      cases result <;> rfl
    unfold respond
    rw [allocators_callBack, hawaited, hmiddle]
    unfold releaseResponse setAllocator allocator
    rw [hmiddle]
    rfl
  apply BooksWith.of_split (n := n) (by rw [hspares.submissions]; exact hn)
  rw [hothers, hown]
  unfold received allocator
  rw [hallocators]
  cases hawaited : (e.submission n).isAwaited with
  | true =>
      show (e.allocator a).InOrder
        ((if _ then (e.responseTo n e.readings.computeTime result).tags else []) ++ _) spent
      rw [htags]
      exact h
  | false =>
      show ((e.releaseResponse (e.responseTo n e.readings.computeTime result)).allocator a).InOrder
        ((if _ then [] else []) ++ _) spent
      rw [ite_self, List.nil_append]
      apply inOrder_releaseResponse
      · rw [hresponse]
        exact hexists
      · rw [htags, hresponse]
        exact h

/-!
# Moves

Each move keeps the books of an allocator, those that use it for a request as well.
-/

theorem inOrder_setMemory {e : Engine} {a k : Nat} {m : Execution.Memory}
    {tags rest : List BufferTag} (hexists : (e.server k).allocator < e.allocators.length)
    (hused : (e.server k).allocator = a -> m.allocator.InOrder (tags ++ rest) spent)
    (hother : (e.server k).allocator ≠ a -> (e.allocator a).InOrder rest spent) :
    ((e.setMemory k m).allocator a).InOrder
      ((if (e.server k).allocator = a then tags else []) ++ rest) spent := by
  have hset : (e.setMemory k m).allocator a =
      if a = (e.server k).allocator ∧ (e.server k).allocator < e.allocators.length then
        m.allocator else e.allocator a :=
    allocator_setAllocator e _ a m.allocator
  rw [hset]
  by_cases ha : (e.server k).allocator = a
  · rw [if_pos ⟨ha.symm, hexists⟩, if_pos ha]
    exact hused ha
  · rw [if_neg fun hboth => ha hboth.1.symm, if_neg ha]
    exact hother ha

theorem BooksWith.liveBut {e : Engine} {a n : Nat} (h : e.BooksWith a lost spent)
    (hn : n < e.submissions.length) (htags : e.tagsOf a n = []) :
    (e.allocator a).InOrder (e.liveBut a n ++ lost) spent := by
  have hsplit := h.split hn
  rw [htags] at hsplit
  exact hsplit

theorem tagsOf_eq_nil {e : Engine} {a n : Nat} (h : (e.submission n).phase.tags = []) :
    e.tagsOf a n = [] := by
  unfold tagsOf
  rw [h, ite_self]

theorem BooksWith.addAllocator {e : Engine} {a : Nat} (h : e.BooksWith a lost spent)
    (hhomes : e.Homes)
    (htally : e.Tally) (hlost : e.allocators.length ≤ a -> lost = [] ∧ spent = [])
    (plan : AllocatorPlan) :
    (e.addAllocator plan.allocator).1.BooksWith a lost spent := by
  have hconcat : (e.addAllocator plan.allocator).1.allocator a =
      if a = e.allocators.length then plan.allocator else e.allocator a :=
    getD_concat e.allocators a plan.allocator default
  by_cases ha : a = e.allocators.length
  · have hnone : (e.addAllocator plan.allocator).1.live a = [] := by
      apply live_eq_nil
      intro m hm
      unfold tagsOf
      rw [if_neg]
      have hlt := hhomes.allocator _ (htally.server m hm)
      rw [ha]
      exact Nat.ne_of_lt hlt
    rcases hlost (Nat.le_of_eq ha.symm) with ⟨hlost, hspent⟩
    unfold BooksWith
    rw [hconcat, if_pos ha, hnone, hlost, hspent]
    exact Allocator.inOrder_plan plan
  · rw [if_neg ha] at hconcat
    exact h.of_parts rfl rfl hconcat

theorem BooksWith.enroll {e : Engine} {a : Nat} (h : e.BooksWith a lost spent)
    (server callback : Nat)
    (request : PreparedRequest) :
    ((e.countIn server).enroll server request callback).BooksWith a lost spent := by
  have hcounted : (e.countIn server).BooksWith a lost spent := h.modifyServer rfl
  have hlength : ((e.countIn server).enroll server request callback).submissions.length =
      e.submissions.length + 1 := by simp [Engine.enroll, countIn, Engine.modifyServer]
  have hsubmission : forall m : Nat,
      ((e.countIn server).enroll server request callback).submission m =
        if m = e.submissions.length then ⟨server, request, callback, .accepted, true⟩
        else (e.countIn server).submission m :=
    submission_enroll (e.countIn server) server callback request
  have hlive : ((e.countIn server).enroll server request callback).live a =
      (e.countIn server).live a := by
    unfold live
    rw [hlength, List.range_succ, List.flatMap_append]
    have hnew : ((e.countIn server).enroll server request callback).tagsOf a
        e.submissions.length = [] := by
      apply tagsOf_eq_nil
      rw [hsubmission, if_pos rfl]
      rfl
    rw [List.flatMap_singleton, hnew, List.append_nil]
    apply List.flatMap_congr
    intro m hm
    unfold tagsOf
    rw [hsubmission, if_neg (Nat.ne_of_lt (List.mem_range.1 hm))]
    rfl
  unfold BooksWith
  rw [hlive]
  exact hcounted

theorem liveBut_of_parts {e e' : Engine} (hservers : e'.servers = e.servers)
    (hsubmissions : e'.submissions = e.submissions) (a n : Nat) :
    e'.liveBut a n = e.liveBut a n := by
  apply liveBut_congr (congrArg List.length hsubmissions)
  intro m _ _
  unfold tagsOf server submission
  rw [hservers, hsubmissions]

/-- A request that holds nothing yet has its slots allocated, or none of them, or some of them until
its task panics. -/
theorem BooksWith.allocate {e : Engine} {a n : Nat} {k : Allocator} {events : List Event}
    {placement : Placement} {outputs : List PreparedOutput} {result : Execution.Allotment}
    (h : e.BooksWith a lost spent) (hhomes : e.Homes) (htally : e.Tally)
    (hn : (e.submission n).phase = .granted)
    (hallocate : Execution.allocate placement (e.memory (e.submission n).server).allocator []
      outputs = (result, k, events)) :
    exists more : List BufferTag,
      ((e.setMemory (e.submission n).server ⟨k, e.directory⟩).allocator a).InOrder
        ((if (e.server (e.submission n).server).allocator = a then
          Execution.allocatedTags result else []) ++ (e.liveBut a n ++ lost)) (spent ++ more) ∧
      ((forall slots : List OutputSlot, result ≠ .panicked slots) -> more = []) ∧
      ((e.server (e.submission n).server).allocator ≠ a -> more = []) := by
  have hlt : n < e.submissions.length := lt_of_phase (by rw [hn]; rfl)
  have hexists := hhomes.allocator _ (htally.server n hlt)
  have hrest : (e.allocator a).InOrder (e.liveBut a n ++ lost) spent :=
    h.liveBut hlt (tagsOf_eq_nil (by rw [hn]; rfl))
  by_cases ha : (e.server (e.submission n).server).allocator = a
  · have hgiven : (e.memory (e.submission n).server).allocator.InOrder
        (slotTags [] ++ (e.liveBut a n ++ lost)) spent := by
      show (e.allocator (e.server (e.submission n).server).allocator).InOrder _ spent
      rw [ha]
      exact hrest
    rcases Execution.inOrder_allocate hgiven hallocate with ⟨more, hused, hmore⟩
    exact ⟨more, inOrder_setMemory hexists (fun _ => hused) fun hother => absurd ha hother, hmore,
      fun hother => absurd ha hother⟩
  · refine ⟨[], ?_, fun _ => rfl, fun _ => rfl⟩
    rw [List.append_nil]
    exact inOrder_setMemory hexists (fun hsame => absurd hsame ha) fun _ => hrest

theorem BooksWith.allocateFails {e : Engine} {a n : Nat} {k : Allocator} {events : List Event}
    {placement : Placement} {outputs : List PreparedOutput} {failure : Failure}
    (h : e.BooksWith a lost spent) (hhomes : e.Homes) (htally : e.Tally) (hlined : e.Lined)
    (hn : (e.submission n).phase = .granted)
    (hallocate : Execution.allocate placement (e.memory (e.submission n).server).allocator []
      outputs = (.failed failure, k, events)) :
    (((e.setMemory (e.submission n).server ⟨k, e.directory⟩).report events).respond n
      (.error failure)).BooksWith a lost spent := by
  have hlt : n < e.submissions.length := lt_of_phase (by rw [hn]; rfl)
  have hrest : ((e.setMemory (e.submission n).server ⟨k, e.directory⟩).report events).liveBut a n =
      e.liveBut a n := liveBut_of_parts rfl rfl a n
  refine booksWith_respond (b := (e.server (e.submission n).server).allocator)
    (hlined.of_parts rfl rfl) hlt rfl hrest ?_ ?_
  · show _ < (e.setAllocator _ k).allocators.length
    rw [length_setAllocator]
    exact hhomes.allocator _ (htally.server n hlt)
  · rcases h.allocate hhomes htally hn hallocate with ⟨more, hused, hmore, _⟩
    rw [hmore (by simp), List.append_nil] at hused
    exact hused

theorem BooksWith.enterBackend {e : Engine} {a n : Nat} {k : Allocator} {events : List Event}
    {placement : Placement} {outputs : List PreparedOutput} {batch : ExecutionBatch}
    (h : e.BooksWith a lost spent) (hhomes : e.Homes) (htally : e.Tally)
    (hn : (e.submission n).phase = .granted)
    (hallocate : Execution.allocate placement (e.memory (e.submission n).server).allocator []
      outputs = (.made batch.outputs, k, events)) :
    (((e.setMemory (e.submission n).server ⟨k, e.directory⟩).report events).enterBackend n
      batch).BooksWith a lost spent := by
  have hlt : n < e.submissions.length := lt_of_phase (by rw [hn]; rfl)
  have hrest : (((e.setMemory (e.submission n).server ⟨k, e.directory⟩).report events).record
      (.execute n batch)).liveBut a n = e.liveBut a n := liveBut_of_parts rfl rfl a n
  rcases h.allocate hhomes htally hn hallocate with ⟨more, hused, hmore, _⟩
  rw [hmore (by simp), List.append_nil] at hused
  exact BooksWith.of_setPhase (b := (e.server (e.submission n).server).allocator) hlt rfl hrest
    hused

theorem BooksWith.turn {e : Engine} {a n : Nat} {p : Phase} (h : e.BooksWith a lost spent)
    (hcarried : e.Carried) (hn : (e.submission n).phase.Turns p) :
    (e.setPhase n p).BooksWith a lost spent := by
  have hinside := hn.isInside
  have hlt : n < e.submissions.length := lt_of_phase (Phase.isOpen_of_isInside hinside.1)
  rcases hcarried.inside n hinside.1 with ⟨batch, hentered, hfollows⟩
  have hkeeps := (e.submission n).request.model.backend.keeps n batch
  have hbefore := (hfollows.rearranged hkeeps hinside.1).tags
  have hafter := ((hn.follows hkeeps hfollows).rearranged hkeeps hinside.2).tags
  refine BooksWith.of_setPhase hlt rfl rfl ((h.split hlt).perm ?_)
  apply List.Perm.append_right _
  unfold tagsOf
  split
  · rw [Phase.tags_of_isInside hinside.1, Phase.tags_of_isInside hinside.2]
    exact hbefore.trans hafter.symm
  · exact List.Perm.refl _

theorem BooksWith.leaveBackend {e : Engine} {a n : Nat} {held slots : List OutputSlot}
    {next : Behaviour} {result : Except Failure Unit} (h : e.BooksWith a lost spent)
    (hhomes : e.Homes)
    (htally : e.Tally) (hlined : e.Lined) (hcarried : e.Carried)
    (hn : (e.submission n).phase = .inBackend held next)
    (hnext : next.EndsWith (e.submission n).request.model.config.name result slots) :
    (e.leaveBackend n result slots).BooksWith a lost spent := by
  have hlt : n < e.submissions.length := lt_of_phase (by rw [hn]; rfl)
  have hexists := hhomes.allocator _ (htally.server n hlt)
  rcases hcarried.inside n (by rw [hn]; rfl) with ⟨batch, hentered, hfollows⟩
  rw [hn] at hfollows
  have hcan : (e.submission n).request.model.backend.CanEnd
      (e.submission n).request.model.config.name n batch result slots :=
    ⟨next, hfollows.2, hnext⟩
  have hslots : (slotTags held).Perm (slotTags slots) :=
    hfollows.1.tags.trans hcan.rearranged.tags.symm
  have hrest : (e.takeSlots n result slots).liveBut a n = e.liveBut a n :=
    liveBut_of_parts rfl rfl a n
  refine booksWith_respond (b := (e.server (e.submission n).server).allocator)
    (hlined.of_parts rfl rfl) hlt rfl hrest ?_ ?_
  · show _ < (e.setAllocator _ _).allocators.length
    rw [length_setAllocator]
    exact hexists
  · have hsplit := h.split hlt
    apply inOrder_setMemory (m := (e.outcome n result slots).2.1) hexists
    · intro (ha : (e.server (e.submission n).server).allocator = a)
      have hgiven : (e.memory (e.submission n).server).allocator.InOrder
          (slotTags slots ++ (e.liveBut a n ++ lost)) spent := by
        show (e.allocator (e.server (e.submission n).server).allocator).InOrder _ spent
        unfold tagsOf at hsplit
        rw [if_pos ha, hn] at hsplit
        rw [ha]
        exact hsplit.perm (List.Perm.append_right _ hslots)
      have houtcome : Execution.conclude (e.memory (e.submission n).server)
          (e.submission n).request.model.config (e.submission n).request.outputs result slots =
            ((e.outcome n result slots).1, (e.outcome n result slots).2.1,
              (e.outcome n result slots).2.2) := rfl
      exact Execution.inOrder_conclude hgiven houtcome
    · intro (ha : (e.server (e.submission n).server).allocator ≠ a)
      unfold tagsOf at hsplit
      rw [if_neg ha] at hsplit
      exact hsplit

theorem BooksWith.dropResponse {e : Engine} {a n : Nat} {response : Response}
    (h : e.BooksWith a lost spent) (hhomes : e.Homes) (htally : e.Tally)
    (hn : (e.submission n).phase = .answered response) :
    ((e.releaseResponse response).setPhase n .closed).BooksWith a lost spent := by
  have hlt : n < e.submissions.length := lt_of_answered hn
  have hhome := hhomes.answered n response hn
  have hsplit := h.split hlt
  unfold tagsOf at hsplit
  rw [hn, ← hhome] at hsplit
  have hrest : (e.releaseResponse response).liveBut a n = e.liveBut a n :=
    liveBut_of_parts rfl rfl a n
  refine BooksWith.of_setPhase (b := response.allocator) hlt hhome.symm hrest ?_
  have hnothing : Phase.closed.tags = [] := rfl
  rw [hnothing, ite_self, List.nil_append]
  refine inOrder_releaseResponse ?_ hsplit
  rw [hhome]
  exact hhomes.allocator _ (htally.server n hlt)

theorem Move.booksWith {deed : Deed} {e e' : Engine} {a : Nat} (h : Move deed e e')
    (hdeed : deed.IsOrderly a) (hreachable : e.Reachable)
    (hlost : e.allocators.length ≤ a -> lost = [] ∧ spent = []) (k : e.BooksWith a lost spent) :
    e'.BooksWith a lost spent := by
  have hlined := hreachable.lined
  have htally := hreachable.tally
  have hhomes := hreachable.homes
  have hcarried := hreachable.carried
  cases h with
  | cancel | unwind => exact hdeed.elim
  | schedule | close | directory | stops | create | addStats => exact k.of_parts rfl rfl rfl
  | addServer _ options allocator table hallocator htable =>
      refine k.of_tags rfl rfl ?_
      intro m hm
      have hlt := htally.server m hm
      unfold tagsOf
      rw [server_addServer]
      show (if (if (e.submission m).server = _ then _ else _ : Server).allocator = a then _
        else _) = _
      rw [if_neg (Nat.ne_of_lt hlt)]
      rfl
  | server _ n s hs => exact k.modifyServer hs.allocator
  | addAllocator _ plan => exact k.addAllocator hhomes htally hlost plan
  | useAllocator _ n b =>
      have hother : (e.setAllocator n b).allocator a = e.allocator a := by
        rw [allocator_setAllocator, if_neg fun hboth => hdeed hboth.1.symm]
      exact k.of_parts rfl rfl hother
  | enroll _ server callback provider request hstate hprepare =>
      exact k.enroll server callback request
  | awaitSlot _ n hn =>
      have hqueue : (e.modifyServer (e.submission n).server fun s =>
          { s with waiting := s.waiting ++ [n] }).BooksWith a lost spent := k.modifyServer rfl
      apply hqueue.setPhase
      show [] = (e.submission n).phase.tags
      rw [hn]
      rfl
  | takeSlot _ e' n hn htake =>
      rcases takeSlot?_eq_some htake with ⟨free, rfl⟩
      have htaken : (e.modifyServer (e.submission n).server fun s =>
          { s with freeSlots := free }).BooksWith a lost spent := k.modifyServer rfl
      apply htaken.setPhase
      show [] = (e.submission n).phase.tags
      rw [hn]
      rfl
  | gatherFails _ n failure hn hgather =>
      have hlt : n < e.submissions.length := lt_of_phase (by rw [hn]; rfl)
      apply booksWith_respond hlined hlt rfl rfl (hhomes.allocator _ (htally.server n hlt))
      have hnothing : resultTags (.error failure) = [] := rfl
      rw [hnothing, ite_self]
      exact k.liveBut hlt (tagsOf_eq_nil (by rw [hn]; rfl))
  | allocateFails _ n failure b events hn hallocate =>
      exact k.allocateFails hhomes htally hlined hn hallocate
  | enter _ n inputs slots b events hn hgather hallocate =>
      exact k.enterBackend hhomes htally hn hallocate
  | turn _ n p hn => exact k.turn hcarried hn
  | leave _ n held next result slots hn hnext =>
      exact k.leaveBackend hhomes htally hlined hcarried hn hnext
  | comeBack _ n hn =>
      apply (spares_comeBack e n).booksWith k (allocators_comeBack e n)
      intro m
      unfold submission
      rw [submissions_comeBack]
  | dropResponse _ n response hn => exact k.dropResponse hhomes htally hn
  | ignore _ n =>
      apply (spares_ignore e n).booksWith k rfl
      intro m
      rw [phase_ignore]

theorem Move.books {deed : Deed} {e e' : Engine} {a : Nat} (h : Move deed e e')
    (hdeed : deed.IsOrderly a) (hreachable : e.Reachable) (k : e.Books a) : e'.Books a :=
  booksWith_nil.1 (h.booksWith hdeed hreachable (fun _ => ⟨rfl, rfl⟩) (booksWith_nil.2 k))

/-!
# Runs
-/

theorem Moves.books {e e' : Engine} {a : Nat} (h : Moves (Deed.IsOrderly a) e e')
    (hreachable : e.Reachable) (k : e.Books a) : e'.Books a := by
  apply Moves.induct_of_reachable _ h hreachable k
  intro deed middle e' hdeed hmiddle hmove hbooks
  have horderly : deed.IsOrderly a := by
    rcases hdeed with rfl | horderly
    · exact trivial
    · exact horderly
  exact hmove.books horderly hmiddle hbooks

theorem books_empty (a : Nat) : empty.Books a := Allocator.inOrder_plan (.host none)

/-- Once no request of its servers is in flight and no response of theirs is held, nobody holds a
buffer of an allocator. -/
theorem Reachable.live_eq_nil {e : Engine} (h : e.Reachable) {a : Nat}
    (hdone : forall k : Nat, (e.server k).allocator = a -> (e.server k).inflight = 0)
    (hdropped : forall n : Nat, (e.server (e.submission n).server).allocator = a ->
      e.response? n = none) : e.live a = [] := by
  apply Engine.live_eq_nil
  intro n hn
  unfold tagsOf
  split
  · rename_i ha
    have hzero := hdone _ ha
    rw [h.tally.inflight] at hzero
    have hout : e.isInFlight n = false := by
      apply Bool.eq_false_iff.2
      intro hin
      apply List.countP_eq_zero.1 hzero n (List.mem_range.2 hn)
      simp [hin]
    have hclosed : (e.submission n).phase.isOpen = false := by
      unfold isInFlight at hout
      exact (Bool.or_eq_false_iff.1 hout).1
    have hnone := hdropped n ha
    unfold response? at hnone
    cases hphase : (e.submission n).phase with
    | answered response =>
        rw [hphase] at hnone
        cases hnone
    | closed => rfl
    | _ =>
        rw [hphase] at hclosed
        cases hclosed
  · rfl

/-- At each moment of a run that leaves an allocator to its servers, as long as no task has been
dropped: each pool counts the bytes of the buffers that requests of these servers hold, in slots or
in responses, and all other buffers have been taken back once each with their own triple, none of
them in vain.  Nothing is in use once no request is in flight and all responses are dropped. -/
theorem usage_and_returns (a : Nat) (ops : List Operation) (e : Engine)
    (hops : forall op : Operation, op ∈ ops -> op.Leaves a)
    (he : Moves (Deed.Leaves a) (reached ops) e) (hnone : e.NoneGivenUp)
    (hregular : (e.allocator a).kind.isRegular = true) :
    (e.allocator a).Accounts (e.live a) [] ∧
      ((e.allocator a).ledger.takenBack ++ e.live a).Nodup ∧
      ((forall k : Nat, (e.server k).allocator = a -> (e.server k).inflight = 0) ->
        (forall n : Nat, (e.server (e.submission n).server).allocator = a ->
          e.response? n = none) ->
        (e.allocator a).ledger.handedOut.Perm (e.allocator a).ledger.takenBack ∧
          forall (domain : MemoryDomain) (region : Int) (used : Nat),
            (e.allocator a).usage domain region = some used -> used = 0) := by
  have hrun : Moves (Deed.Leaves a) empty (reached ops) :=
    moves_after sound_empty ops fun op hop _ _ hdoes => (hops op hop).of_does hdoes
  have horderly : Moves (Deed.IsOrderly a) empty e := by
    apply ((hrun.trans he).of_noneGivenUp hnone).2.mono
    rintro deed ⟨hleaves, hnot⟩
    cases deed with
    | cancel n => exact absurd rfl (hnot n).1
    | unwind n => exact absurd rfl (hnot n).2
    | use n => exact fun hsame => hleaves (congrArg Deed.use hsame)
    | _ => exact trivial
  have haccounts : (e.allocator a).Accounts (e.live a) [] :=
    horderly.books (Moves.refl empty) (books_empty a) hregular
  have hreachable : e.Reachable := (reachable_reached ops).moves he
  refine ⟨haccounts, ?_, ?_⟩
  · have hserials : ((e.allocator a).ledger.handedOut.map BufferTag.serial).Nodup := by
      rw [haccounts.serials]
      exact List.nodup_range
    exact haccounts.returned.nodup_iff.1 hserials.of_map
  · intro hdone hdropped
    rw [hreachable.live_eq_nil hdone hdropped] at haccounts
    constructor
    · have hreturned := haccounts.returned
      rw [List.append_nil] at hreturned
      exact hreturned
    · intro domain region used hused
      exact haccounts.usage_eq_zero hused

theorem usage_of_answeredRun : (forall op : Operation, op ∈ answeredRun -> op.Leaves 0) ∧
    Moves (Deed.Leaves 0) (reached answeredRun) (reached answeredRun) ∧
    (reached answeredRun).NoneGivenUp ∧
    ((reached answeredRun).allocator 0).kind.isRegular = true ∧
    (reached answeredRun).live 0 = [⟨0, 2, .host, 0⟩] ∧
    ((reached answeredRun).allocator 0).Accounts [⟨0, 2, .host, 0⟩] [] := by
  have hops : forall op : Operation, op ∈ answeredRun -> op.Leaves 0 := by
    intro op hop
    rcases List.mem_cons.1 hop with rfl | hop
    · exact trivial
    · rcases List.mem_cons.1 hop with rfl | hop
      · exact trivial
      · rw [List.mem_singleton.1 hop]
        exact trivial
  have hnone : (reached answeredRun).NoneGivenUp := by
    have hcompletions : exists c : Completion, (reached answeredRun).completions = [c] ∧
        c.isExecuted = true := ⟨_, rfl, rfl⟩
    rcases hcompletions with ⟨c, hcompletions, hexecuted⟩
    intro other hother
    rw [hcompletions, List.mem_singleton] at hother
    rw [hother]
    exact hexecuted
  have hregular : ((reached answeredRun).allocator 0).kind.isRegular = true := rfl
  have hlive : (reached answeredRun).live 0 = [⟨0, 2, .host, 0⟩] := rfl
  have hall := usage_and_returns 0 answeredRun _ hops (Moves.refl _) hnone hregular
  refine ⟨hops, Moves.refl _, hnone, hregular, hlive, ?_⟩
  rw [← hlive]
  exact hall.1

end Engine

end InferenceEngine
