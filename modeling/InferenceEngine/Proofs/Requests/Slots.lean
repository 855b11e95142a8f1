import InferenceEngine.Proofs.Execution.Backends
import InferenceEngine.Proofs.Requests.Driven

/-!
# Execution slots

Each slot of a server is free or held by one of the server's requests, which keeps it from the
moment it is given the slot until it is answered or given up.  An answer gives the slot back first
and then calls the callback: in between, each slot is free or held by another request.
-/

namespace InferenceEngine

namespace Engine

def holds (e : Engine) (k m : Nat) : Bool :=
  (e.submission m).server = k && (e.submission m).phase.holdsSlot

def holders (e : Engine) (k : Nat) : Nat :=
  (List.range e.submissions.length).countP (e.holds k)

/-- How many requests hold a slot of a server, without one of them. -/
def otherHolders (e : Engine) (n k : Nat) : Nat :=
  (List.range e.submissions.length).countP fun m => m != n && e.holds k m

def Balanced (e : Engine) : Prop :=
  forall k : Nat, k < e.servers.length ->
    (e.server k).freeSlots + e.holders k = (e.server k).options.executionSlots

def Released (n : Nat) (e : Engine) : Prop :=
  forall k : Nat, k < e.servers.length ->
    (e.server k).freeSlots + e.otherHolders n k = (e.server k).options.executionSlots

theorem balanced_empty : empty.Balanced := by
  intro k hk
  cases hk

variable {e e' : Engine} {n : Nat}

theorem holds_of_phase {p : Phase} (h : (e.submission n).phase = p) (hp : p.holdsSlot = false)
    (k : Nat) : e.holds k n = false := by
  unfold holds
  rw [h, hp, Bool.and_false]

/-!
# Changes that leave the slots alone
-/

theorem Balanced.of_holds (h : e.Balanced) (hlength : e'.servers.length = e.servers.length)
    (hserver : forall k : Nat, (e'.server k).freeSlots = (e.server k).freeSlots ∧
      (e'.server k).options = (e.server k).options)
    (hsubmissions : e'.submissions.length = e.submissions.length)
    (hholds : forall k m : Nat, e'.holds k m = e.holds k m) : e'.Balanced := by
  intro k hk
  rw [hlength] at hk
  have hsame : e'.holders k = e.holders k := by
    unfold holders
    rw [hsubmissions]
    exact countP_range_congr fun m _ => hholds k m
  rw [(hserver k).1, (hserver k).2, hsame]
  exact h k hk

theorem Balanced.setPhase (h : e.Balanced) {p : Phase}
    (hp : p.holdsSlot = (e.submission n).phase.holdsSlot) : (e.setPhase n p).Balanced := by
  refine h.of_holds rfl (fun _ => ⟨rfl, rfl⟩) ?_ ?_
  · simp [Engine.setPhase]
  · intro k m
    unfold holds
    rw [server_of_submission_setPhase, submission_setPhase]
    split
    · rename_i hm
      rw [hm.1, ← hp]
    · rfl

theorem Balanced.modifyServer (h : e.Balanced) {k : Nat} {f : Server -> Server}
    (hf : (f (e.server k)).freeSlots = (e.server k).freeSlots ∧
      (f (e.server k)).options = (e.server k).options) : (e.modifyServer k f).Balanced := by
  refine h.of_holds (by simp [Engine.modifyServer]) ?_ rfl fun _ _ => rfl
  intro j
  rw [server_modifyServer]
  split
  · rename_i hj
    rw [hj.1]
    exact hf
  · exact ⟨rfl, rfl⟩

theorem Balanced.addServer (h : e.Balanced) (htally : e.Tally) (options : ServerOptions)
    (allocator : Nat) (table : ModelTable) :
    (e.addServer options allocator table).Balanced := by
  have hlength : (e.addServer options allocator table).servers.length = e.servers.length + 1 := by
    simp [Engine.addServer]
  intro k hk
  rw [hlength] at hk
  have hsame : (e.addServer options allocator table).holders k = e.holders k := rfl
  rw [server_addServer, hsame]
  split
  · rename_i hnew
    have hnone : e.holders k = 0 := by
      apply List.countP_eq_zero.2
      intro m hm hholds
      have hbound := htally.server m (List.mem_range.1 hm)
      have hown : (e.submission m).server = k := by
        unfold holds at hholds
        simpa using (Bool.and_eq_true_iff.1 hholds).1
      omega
    rw [hnone]
    rfl
  · exact h k (by omega)

theorem Balanced.enroll (h : e.Balanced) (server callback : Nat) (request : PreparedRequest) :
    ((e.countIn server).enroll server request callback).Balanced := by
  have hcounted : (e.countIn server).Balanced := h.modifyServer ⟨rfl, rfl⟩
  have hlength : ((e.countIn server).enroll server request callback).submissions.length =
      e.submissions.length + 1 := by simp [Engine.enroll, countIn, Engine.modifyServer]
  have hsubmission := submission_enroll (e.countIn server) server callback request
  intro k hk
  have hsame : ((e.countIn server).enroll server request callback).holders k =
      (e.countIn server).holders k := by
    unfold holders
    rw [hlength, List.range_succ, List.countP_append, List.countP_singleton]
    have hbelow : (List.range e.submissions.length).countP
        (((e.countIn server).enroll server request callback).holds k) =
          (List.range e.submissions.length).countP ((e.countIn server).holds k) := by
      apply countP_range_congr
      intro m hm
      unfold holds
      rw [(hsubmission m).trans (if_neg (Nat.ne_of_lt hm))]
    have hself : ((e.countIn server).enroll server request callback).holds k
        e.submissions.length = false :=
      holds_of_phase (congrArg Submission.phase ((hsubmission _).trans (if_pos rfl))) rfl k
    rw [hbelow, hself]
    rfl
  rw [hsame]
  exact hcounted k hk

/-!
# Taking a slot
-/

theorem takeSlot?_takes {k : Nat} (h : e.takeSlot? k = some e') :
    exists free : Nat, (e.server k).freeSlots = free + 1 ∧
      e' = e.modifyServer k fun s => { s with freeSlots := free } := by
  unfold takeSlot? at h
  split at h
  · cases h
  · rename_i free hfree
    exact ⟨free, hfree, (Option.some.inj h).symm⟩

theorem holders_setPhase_granted (hn : (e.submission n).phase = .accepted) (k : Nat) :
    (e.setPhase n .granted).holders k =
      e.holders k + if (e.submission n).server = k then 1 else 0 := by
  have hlt : n < e.submissions.length := lt_of_phase (by rw [hn]; rfl)
  have hlength : (e.setPhase n .granted).submissions.length = e.submissions.length := by
    simp [Engine.setPhase]
  have hother : forall m : Nat, m ≠ n -> (e.setPhase n .granted).holds k m = e.holds k m := by
    intro m hm
    unfold holds
    rw [submission_setPhase, if_neg fun hboth => hm hboth.1]
  have hself : (e.setPhase n .granted).holds k n = decide ((e.submission n).server = k) := by
    unfold holds
    rw [phase_setPhase_self hlt, server_of_submission_setPhase]
    exact Bool.and_true _
  have hfresh : e.holds k n = false := holds_of_phase hn rfl k
  unfold holders
  rw [hlength]
  split
  · rename_i hown
    exact countP_range_remove hlt (by rw [hself]; exact decide_eq_true hown) hfresh
      fun m _ hm => hother m hm
  · rename_i hown
    apply countP_range_congr
    intro m _
    by_cases hm : m = n
    · rw [hm, hself, hfresh]
      exact decide_eq_false hown
    · exact hother m hm

theorem Balanced.takeSlot (h : e.Balanced) (hn : (e.submission n).phase = .accepted) {free : Nat}
    (hfree : (e.server (e.submission n).server).freeSlots = free + 1) :
    ((e.modifyServer (e.submission n).server fun s =>
      { s with freeSlots := free }).setPhase n .granted).Balanced := by
  have hholders := holders_setPhase_granted (e := e.modifyServer (e.submission n).server fun s =>
    { s with freeSlots := free }) hn
  intro k hk
  have hlt : k < e.servers.length := by
    simpa [Engine.setPhase, Engine.modifyServer] using hk
  have hbefore := h k hlt
  have hserver : ((e.modifyServer (e.submission n).server fun s =>
      { s with freeSlots := free }).setPhase n .granted).server k =
        if k = (e.submission n).server ∧ (e.submission n).server < e.servers.length then
          { e.server (e.submission n).server with freeSlots := free }
        else e.server k := server_modifyServer e _ k _
  have hsame : (e.modifyServer (e.submission n).server fun s =>
      { s with freeSlots := free }).holders k = e.holders k := rfl
  have hown : ((e.modifyServer (e.submission n).server fun s =>
      { s with freeSlots := free }).submission n).server = (e.submission n).server := rfl
  rw [hholders, hserver, hsame, hown]
  by_cases hk' : k = (e.submission n).server
  · rw [if_pos ⟨hk', hk' ▸ hlt⟩, if_pos hk'.symm]
    rw [hk', hfree] at hbefore
    rw [hk']
    show free + _ = (e.server (e.submission n).server).options.executionSlots
    omega
  · rw [if_neg fun hboth => hk' hboth.1, if_neg (Ne.symm hk')]
    exact hbefore

/-!
# Giving a slot back

With its answer a request ceases to hold anything.
-/

/-- After a slot has been given back, the first one that has waited for it holds it. -/
theorem holds_releaseSlot (h : e.Lined) (j k m : Nat) :
    (e.releaseSlot j).holds k m =
      (e.holds k m || (decide (j = k) && decide ((e.server j).waiting.head? = some m))) := by
  have hserver : ((e.releaseSlot j).submission m).server = (e.submission m).server := by
    rw [(spares_releaseSlot e j).submission m]
  unfold holds
  rw [hserver, phase_releaseSlot]
  by_cases hhead : (e.server j).waiting.head? = some m
  · rcases (h j).2 m (List.mem_of_mem_head? hhead) with ⟨hown, hwaits⟩
    have hlt : m < e.submissions.length := lt_of_phase (by rw [hwaits]; rfl)
    rw [if_pos ⟨hhead, hlt⟩, hown, hwaits]
    simp [hhead, Phase.holdsSlot]
  · rw [if_neg fun hboth => hhead hboth.1]
    simp [hhead]

theorem holders_of_holds {k : Nat} (h : e.holds k n = true) :
    e.holders k = e.otherHolders n k + 1 := by
  have hlt : n < e.submissions.length := by
    unfold holds at h
    exact lt_of_phase (Phase.isOpen_of_holdsSlot (Bool.and_eq_true_iff.1 h).2)
  exact countP_range_remove hlt h (by simp) fun m _ hm => by simp [hm]

theorem otherHolders_of_not_holds {k : Nat} (h : e.holds k n = false) :
    e.otherHolders n k = e.holders k := by
  apply countP_range_congr
  intro m _
  by_cases hm : m = n
  · rw [hm, h]
    simp
  · simp [hm]

theorem otherHolders_releaseSlot (h : e.Lined) (hn : (e.submission n).phase ≠ .waiting)
    (j k : Nat) :
    (e.releaseSlot j).otherHolders n k =
      e.otherHolders n k + if j = k ∧ (e.server j).waiting ≠ [] then 1 else 0 := by
  unfold otherHolders
  rw [(spares_releaseSlot e j).submissions]
  split
  · rename_i hboth
    cases hwaiting : (e.server j).waiting with
    | nil => exact absurd hwaiting hboth.2
    | cons first rest =>
        have hhead : (e.server j).waiting.head? = some first := by
          rw [hwaiting]
          rfl
        have hwaits := ((h j).2 first (List.mem_of_mem_head? hhead)).2
        have hne : first ≠ n := h.ne_head hn hhead
        apply countP_range_remove (lt_of_phase (by rw [hwaits]; rfl))
        · rw [holds_releaseSlot h, hhead]
          simp [hne, hboth.1]
        · rw [holds_of_phase hwaits rfl, Bool.and_false]
        · intro m _ hm
          rw [holds_releaseSlot h, hhead]
          simp [Ne.symm hm]
  · rename_i hnot
    apply countP_range_congr
    intro m _
    rw [holds_releaseSlot h]
    by_cases hj : j = k
    · have hnone : (e.server j).waiting = [] := by
        by_contra hsome
        exact hnot ⟨hj, hsome⟩
      rw [hnone]
      simp
    · simp [hj]

theorem Balanced.releaseSlot (h : e.Balanced) (hlined : e.Lined)
    (hn : (e.submission n).phase.holdsSlot = true) :
    (e.releaseSlot (e.submission n).server).Released n := by
  have hnot : (e.submission n).phase ≠ .waiting := by
    intro hwaits
    rw [hwaits] at hn
    cases hn
  have hspares := spares_releaseSlot e (e.submission n).server
  intro k hk
  rw [hspares.servers] at hk
  have hbefore := h k hk
  have hoptions : ((e.releaseSlot (e.submission n).server).server k).options =
      (e.server k).options := by
    rw [hspares.server k]
  rw [hoptions, freeSlots_releaseSlot, otherHolders_releaseSlot hlined hnot]
  by_cases hown : k = (e.submission n).server
  · have hself : e.holds k n = true := by
      unfold holds
      rw [hn, hown]
      simp
    rw [holders_of_holds hself] at hbefore
    by_cases hnone : (e.server (e.submission n).server).waiting = []
    · rw [if_pos ⟨⟨hown, hown ▸ hk⟩, hnone⟩, if_neg fun hboth => hboth.2 hnone]
      omega
    · rw [if_neg fun hboth => hnone hboth.2, if_pos ⟨hown.symm, hnone⟩]
      omega
  · have hother : e.holds k n = false := by
      unfold holds
      rw [decide_eq_false (Ne.symm hown), Bool.false_and]
    rw [if_neg fun hboth => hown hboth.1.1, if_neg fun hboth => hown hboth.1.symm,
      otherHolders_of_not_holds hother]
    exact hbefore

theorem Balanced.withdraw (h : e.Balanced) (hlined : e.Lined) (n : Nat) :
    (e.withdraw n).Released n := by
  simp only [Engine.withdraw]
  split
  · rename_i hholds
    exact h.releaseSlot hlined hholds
  · rename_i hholds
    have hmodified : (e.modifyServer (e.submission n).server fun server =>
        { server with waiting := server.waiting.filter (· != n) }).Balanced :=
      h.modifyServer ⟨rfl, rfl⟩
    intro k hk
    have hnone : (e.modifyServer (e.submission n).server fun server =>
        { server with waiting := server.waiting.filter (· != n) }).holds k n = false :=
      holds_of_phase rfl (Bool.eq_false_iff.2 hholds) k
    rw [otherHolders_of_not_holds hnone]
    exact hmodified k hk

theorem Released.callBack (h : e.Released n) (taken? : Option Nat) (response : Response) :
    (e.callBack n taken? response).Balanced := by
  have hspares := spares_callBack e n taken? response
  intro k hk
  rw [hspares.servers] at hk
  have hcount : (e.callBack n taken? response).holders k = e.otherHolders n k := by
    unfold holders otherHolders
    rw [hspares.submissions]
    apply countP_range_congr
    intro m hm
    have hserver : ((e.callBack n taken? response).submission m).server =
        (e.submission m).server := by
      rw [hspares.submission m]
    unfold holds
    rw [hserver, phase_callBack]
    by_cases hself : m = n
    · have hreceived : (e.received n response).holdsSlot = false := by
        unfold received
        split <;> rfl
      rw [if_pos ⟨hself, hself ▸ hm⟩, hreceived, hself]
      simp
    · rw [if_neg fun hboth => hself hboth.1]
      simp [hself]
  rw [server_callBack, hcount]
  exact h k hk

/-!
# Moves

Wherever a callback is called, each slot is free or held by another request.
-/

/-- A callback is called: before that the slot of its request has been given back. -/
def Calls (e e' : Engine) : Prop :=
  exists (middle : Engine) (n : Nat) (taken? : Option Nat) (response : Response),
    e' = middle.callBack n taken? response ∧ middle.Released n ∧
      middle.completions = e.completions

theorem Calls.balanced (h : e.Calls e') : e'.Balanced := by
  rcases h with ⟨middle, n, taken?, response, rfl, hreleased, _⟩
  exact hreleased.callBack taken? response

theorem calls_respond (h : e.Balanced) (hlined : e.Lined)
    (hn : (e.submission n).phase.holdsSlot = true)
    (result : Except Failure (List (String × OutputStorage))) : e.Calls (e.respond n result) := by
  have hnoted : (e.noteResult n result).Balanced := by
    cases result <;> exact h
  have hsame : (e.noteResult n result).submission n = e.submission n := by
    cases result <;> rfl
  have hreleased := hnoted.releaseSlot (lined_noteResult hlined n result) (by rw [hsame]; exact hn)
  rw [hsame] at hreleased
  refine ⟨_, n, some e.readings.computeTime,
    e.responseTo n e.readings.computeTime result, rfl, hreleased, ?_⟩
  unfold Engine.releaseSlot
  cases result <;> split <;> rfl

theorem calls_giveUp (h : e.Balanced) (hlined : e.Lined) (n : Nat) : e.Calls (e.giveUp n) := by
  have hreleased : ((e.withdraw n).report
      [.requestDropped (e.submission n).request.id]).Released n := h.withdraw hlined n
  refine ⟨_, n, none, e.responseTo n 0 (.error .cancelled), rfl, hreleased, ?_⟩
  show (e.withdraw n).completions = e.completions
  simp only [Engine.withdraw, Engine.releaseSlot]
  split
  · split <;> rfl
  · rfl

/-- A move leaves each slot free or held, and if it calls a callback it has given the slot of the
request back before. -/
theorem Move.slots {deed : Deed} (h : Move deed e e') (hlined : e.Lined) (htally : e.Tally)
    (k : e.Balanced) : e'.Balanced ∧ e'.completions = e.completions ∨ e.Calls e' := by
  cases h with
  | schedule | close | directory | stops | create | addStats | addAllocator | useAllocator =>
      exact .inl ⟨k, rfl⟩
  | addServer _ options allocator table hallocator htable =>
      exact .inl ⟨k.addServer htally options allocator table, rfl⟩
  | server _ j s hs =>
      exact .inl ⟨k.modifyServer (f := fun _ => s) ⟨hs.freeSlots, hs.options⟩, rfl⟩
  | enroll _ server callback provider request hstate hprepare =>
      exact .inl ⟨k.enroll server callback request, rfl⟩
  | awaitSlot _ n hn =>
      have hqueued : (e.modifyServer (e.submission n).server fun s =>
          { s with waiting := s.waiting ++ [n] }).Balanced := k.modifyServer ⟨rfl, rfl⟩
      have hsame : ((e.modifyServer (e.submission n).server fun s =>
          { s with waiting := s.waiting ++ [n] }).submission n).phase = .accepted := hn
      exact .inl ⟨hqueued.setPhase (by rw [hsame]; rfl), rfl⟩
  | takeSlot _ e' n hn htake =>
      rcases takeSlot?_takes htake with ⟨free, hfree, rfl⟩
      exact .inl ⟨k.takeSlot hn hfree, rfl⟩
  | gatherFails _ n failure hn hgather => exact .inr (calls_respond k hlined (by rw [hn]; rfl) _)
  | allocateFails _ n failure a events hn hallocate =>
      have hsame : Balanced ((e.setMemory (e.submission n).server ⟨a, e.directory⟩).report
          events) := k
      have hphase : (((e.setMemory (e.submission n).server ⟨a, e.directory⟩).report
          events).submission n).phase = .granted := hn
      exact .inr (calls_respond hsame hlined (by rw [hphase]; rfl) (.error failure))
  | unwind _ n slots a events hn hallocate =>
      have hsame : Balanced (e.forfeit n slots a events) := k
      have hqueues : (e.forfeit n slots a events).Lined := hlined
      exact .inr (calls_giveUp hsame hqueues n)
  | enter _ n inputs slots a events hn hgather hallocate =>
      have hsame : Balanced ((e.setMemory (e.submission n).server ⟨a, e.directory⟩).report
          events) := k
      have hrecorded : Balanced (((e.setMemory (e.submission n).server ⟨a, e.directory⟩).report
          events).record (.execute n ⟨(e.submission n).request.model.config,
            (e.submission n).request.model.version, (e.submission n).request.batchSize, inputs,
            slots⟩)) := hsame
      have hphase : (e.submission n).phase.holdsSlot = true := by rw [hn]; rfl
      exact .inl ⟨hrecorded.setPhase hphase.symm, rfl⟩
  | turn _ n p hn =>
      have hp : p.holdsSlot = (e.submission n).phase.holdsSlot := by
        generalize (e.submission n).phase = old at hn
        cases hn <;> rfl
      exact .inl ⟨k.setPhase hp, rfl⟩
  | leave _ n held next result slots hn hnext =>
      have hsame : (e.takeSlots n result slots).Balanced := k
      have hphase : ((e.takeSlots n result slots).submission n).phase.holdsSlot = true := by
        show (e.submission n).phase.holdsSlot = true
        rw [hn]
        rfl
      exact .inr (calls_respond hsame hlined hphase _)
  | cancel _ n hn => exact .inr (calls_giveUp k hlined n)
  | comeBack _ n hn =>
      refine .inl ⟨?_, completions_comeBack e n⟩
      refine k.of_holds (spares_comeBack e n).servers ?_ (spares_comeBack e n).submissions ?_
      · intro j
        rw [server_comeBack]
        split
        · exact ⟨rfl, rfl⟩
        · exact ⟨rfl, rfl⟩
      · intro j m
        unfold holds
        rw [submission_of_submissions (submissions_comeBack e n)]
  | dropResponse _ n response hn =>
      have hreleased : (e.releaseResponse response).Balanced := k
      have hphase : ((e.releaseResponse response).submission n).phase = .answered response := hn
      exact .inl ⟨hreleased.setPhase (by rw [hphase]; rfl), rfl⟩
  | ignore _ n =>
      refine .inl ⟨?_, rfl⟩
      refine k.of_holds rfl (fun _ => ⟨rfl, rfl⟩) (spares_ignore e n).submissions ?_
      intro j m
      have hserver : ((e.ignore n).submission m).server = (e.submission m).server := by
        rw [(spares_ignore e n).submission m]
      unfold holds
      rw [hserver, phase_ignore]

theorem Move.balanced {deed : Deed} (h : Move deed e e') (hlined : e.Lined) (htally : e.Tally)
    (k : e.Balanced) : e'.Balanced := by
  rcases h.slots hlined htally k with ⟨hbalanced, _⟩ | hcalls
  · exact hbalanced
  · exact hcalls.balanced

theorem Reachable.balanced (h : e.Reachable) : e.Balanced := by
  apply Reachable.induct balanced_empty _ h
  intro deed e e' hreachable hmove hbalanced
  exact hmove.balanced hreachable.lined hreachable.tally hbalanced

theorem Reachable.calls {deed : Deed} (h : e.Reachable) (k : Move deed e e')
    (hcalled : e'.completions ≠ e.completions) : e.Calls e' := by
  rcases k.slots h.lined h.tally h.balanced with ⟨_, hsame⟩ | hcalls
  · exact absurd hsame hcalled
  · exact hcalls

theorem Reachable.holds_of_mem_calling (h : e.Reachable) (hn : n ∈ e.calling) (k : Nat) :
    e.holds k n = false := by
  have hclosed := (h.tally.closed n hn).2
  apply holds_of_phase rfl
  apply Bool.eq_false_iff.2
  intro hholds
  rw [Phase.isOpen_of_holdsSlot hholds] at hclosed
  cases hclosed

end Engine

end InferenceEngine
