import InferenceEngine.Proofs.Execution.Deliveries
import InferenceEngine.Proofs.Execution.Starts
import InferenceEngine.Proofs.Requests.Acceptance

/-!
# What responses give out

A response is made once, when the execution has ended, and is not touched from then on.  So every
good response, however long it is held and wherever it has gone, gives out what the backend left
in the slots of the request when it ended.
-/

namespace InferenceEngine

namespace Engine

/-- Whether a response is held for a request or has been given to its callback. -/
def Gave (e : Engine) (n : Nat) (r : Response) : Prop :=
  e.response? n = some r ∨
    exists c : Completion, c ∈ e.completions ∧ c.submission = n ∧ c.response = r

/-- Whether a response to a request, if it is a good one, has been made of the slots that the
backend has left. -/
def Answers (e : Engine) (n : Nat) (r : Response) : Prop :=
  r.isOk = true -> exists slots : List OutputSlot,
    (⟨n, .ok (), slots⟩ : Ending) ∈ e.endings ∧
      Execution.checkSlots (e.submission n).request.model.config slots
        (e.submission n).request.outputs = .ok () ∧
      r.outputs = List.zipWith OutputSlot.stored slots
        ((e.submission n).request.outputs.map PreparedOutput.range?)

def Answered (e : Engine) : Prop :=
  forall (n : Nat) (r : Response), e.Gave n r -> n < e.submissions.length ∧ e.Answers n r

theorem answered_empty : empty.Answered := by
  rintro n r (hheld | ⟨c, hc, _⟩)
  · cases hheld
  · cases hc

theorem answers_of_error {e : Engine} {n : Nat} {r : Response} (h : r.isOk = false) :
    e.Answers n r := by
  intro hok
  rw [h] at hok
  cases hok

theorem Answered.of_gave {e e' : Engine} (h : e.Answered)
    (hlasts : e.KeepsRequests e')
    (hendings : forall x : Ending, x ∈ e.endings -> x ∈ e'.endings)
    (hgave : forall (m : Nat) (r : Response), e'.Gave m r ->
      e.Gave m r ∨ m < e.submissions.length ∧ e'.Answers m r) : e'.Answered := by
  intro m r hr
  rcases hgave m r hr with hold | ⟨hlt, hnew⟩
  · rcases h m r hold with ⟨hlt, hanswers⟩
    rcases hlasts m hlt with ⟨hlt', hsame⟩
    constructor
    · exact hlt'
    · intro hok
      rcases hanswers hok with ⟨slots, hending, hchecked, houtputs⟩
      have hrequest : (e'.submission m).request = (e.submission m).request := by
        rw [hsame]
      rw [hrequest]
      exact ⟨slots, hendings _ hending, hchecked, houtputs⟩
  · exact ⟨(hlasts m hlt).1, hnew⟩

theorem answered_of_response? {e : Engine} {n : Nat} {r : Response}
    (h : e.response? n = some r) : (e.submission n).phase = .answered r := by
  unfold response? at h
  cases hphase : (e.submission n).phase with
  | answered response =>
      rw [hphase] at h
      rw [show response = r from Option.some.inj h]
  | _ =>
      rw [hphase] at h
      cases h

theorem response?_of_answered {e : Engine} {n : Nat} {r : Response}
    (h : (e.submission n).phase = .answered r) : e.response? n = some r := by
  unfold response?
  rw [h]
  rfl

theorem gave_of_phase {e e' : Engine} {n : Nat} {r : Response}
    (hphase : (e'.submission n).phase = .answered r -> (e.submission n).phase = .answered r)
    (hcompletions : e'.completions = e.completions) (h : e'.Gave n r) : e.Gave n r := by
  rcases h with hheld | hgiven
  · exact .inl (response?_of_answered (hphase (answered_of_response? hheld)))
  · rw [hcompletions] at hgiven
    exact .inr hgiven

theorem answered_of_setPhase {e : Engine} {n m : Nat} {p : Phase} {r : Response}
    (hp : p.response? = none) (h : ((e.setPhase n p).submission m).phase = .answered r) :
    (e.submission m).phase = .answered r := by
  rw [submission_setPhase] at h
  split at h
  · have hp' : p = .answered r := h
    rw [hp'] at hp
    cases hp
  · exact h

theorem answered_of_enterBackend {e : Engine} {n m : Nat} {batch : ExecutionBatch} {r : Response}
    (h : ((e.enterBackend n batch).submission m).phase = .answered r) :
    (e.submission m).phase = .answered r :=
  answered_of_setPhase (e := e.record (.execute n batch)) rfl h

/-!
# Responses that are made

What is answered when a backend has ended is made of what it has left.
-/

theorem gave_callBack {e : Engine} {n m : Nat} {taken? : Option Nat} {given r : Response}
    (h : (e.callBack n taken? given).Gave m r) :
    e.Gave m r ∨ m = n ∧ r = given := by
  rcases h with hheld | ⟨c, hc, hm, hr⟩
  · have hphase := answered_of_response? hheld
    rw [phase_callBack] at hphase
    split at hphase
    · rename_i hboth
      exact .inr ⟨hboth.1, eq_of_received hphase⟩
    · exact .inl (.inl (response?_of_answered hphase))
  · rw [completions_callBack] at hc
    rcases List.mem_append.1 hc with hold | hnew
    · exact .inl (.inr ⟨c, hold, hm, hr⟩)
    · rw [List.mem_singleton.1 hnew] at hm hr
      exact .inr ⟨hm.symm, hr.symm⟩

theorem gave_releaseSlot {e : Engine} (h : e.Lined) {k m : Nat} {r : Response}
    (hr : (e.releaseSlot k).Gave m r) : e.Gave m r :=
  gave_of_phase (answered_of_stays (stays_releaseSlot h k m)) (agrees_releaseSlot h k).completions
    hr

theorem gave_respond {e : Engine} (h : e.Lined) {n m : Nat} {r : Response}
    {result : Except Failure (List (String × OutputStorage))}
    (hr : (e.respond n result).Gave m r) :
    e.Gave m r ∨ m = n ∧ r = e.responseTo n e.readings.computeTime result := by
  rcases gave_callBack hr with hbefore | hnow
  · have hnoted := gave_releaseSlot (lined_noteResult h n result) hbefore
    refine .inl (gave_of_phase ?_ (agrees_noteResult e n result).completions hnoted)
    rw [phase_noteResult]
    exact fun hphase => hphase
  · exact .inr hnow

theorem gave_giveUp {e : Engine} (h : e.Lined) {n m : Nat} {r : Response}
    (hr : (e.giveUp n).Gave m r) :
    e.Gave m r ∨ m = n ∧ r = e.responseTo n 0 (.error .cancelled) := by
  rcases gave_callBack hr with hbefore | hnow
  · have hwithdrawn : (e.withdraw n).Gave m r := hbefore
    simp only [withdraw] at hwithdrawn
    split at hwithdrawn
    · exact .inl (gave_releaseSlot h hwithdrawn)
    · exact .inl hwithdrawn
  · exact .inr hnow

theorem answers_leaveBackend (e : Engine) (n : Nat) (result : Except Failure Unit)
    (slots : List OutputSlot) :
    (e.leaveBackend n result slots).Answers n ((e.takeSlots n result slots).responseTo n
      e.readings.computeTime (e.outcome n result slots).1) := by
  have hspares := spares_respond (e.takeSlots n result slots) n (e.outcome n result slots).1
  have hrequest : ((e.leaveBackend n result slots).submission n).request =
      (e.submission n).request := by
    show (((e.takeSlots n result slots).respond n _).submission n).request = _
    rw [hspares.submission n]
    rfl
  have hendings : (e.leaveBackend n result slots).endings = e.endings ++ [⟨n, result, slots⟩] :=
    hspares.endings
  rcases houtcome : e.outcome n result slots with ⟨given, memory, events⟩
  cases given with
  | error failure => exact answers_of_error rfl
  | ok results =>
      intro _
      rcases Execution.conclude_eq_ok houtcome with ⟨hresult, hchecked, hresults⟩
      rw [hrequest, hendings]
      refine ⟨slots, ?_, hchecked, hresults⟩
      rw [hresult]
      exact List.mem_append_right _ (List.mem_singleton_self _)

theorem Answered.of_phase {e e' : Engine} (h : e.Answered)
    (hlasts : e.KeepsRequests e')
    (hendings : e'.endings = e.endings) (hcompletions : e'.completions = e.completions)
    (hphase : forall (m : Nat) (r : Response), (e'.submission m).phase = .answered r ->
      (e.submission m).phase = .answered r) : e'.Answered := by
  apply h.of_gave hlasts
  · rw [hendings]
    exact fun _ hx => hx
  · intro m r hr
    exact .inl (gave_of_phase (hphase m r) hcompletions hr)

theorem Answered.of_given {e e' : Engine} (h : e.Answered)
    (hlasts : e.KeepsRequests e')
    (hendings : forall x : Ending, x ∈ e.endings -> x ∈ e'.endings) {n : Nat} {given : Response}
    (hn : n < e.submissions.length)
    (hgave : forall (m : Nat) (r : Response), e'.Gave m r ->
      e.Gave m r ∨ m = n ∧ r = given)
    (hgiven : e'.Answers n given) : e'.Answered := by
  apply h.of_gave hlasts hendings
  intro m r hr
  rcases hgave m r hr with hold | ⟨rfl, rfl⟩
  · exact .inl hold
  · exact .inr ⟨hn, hgiven⟩

theorem Answered.of_failure {e e' : Engine} (h : e.Answered)
    (hlasts : e.KeepsRequests e')
    (hendings : e'.endings = e.endings) {n : Nat} {given : Response}
    (hn : n < e.submissions.length)
    (hgave : forall (m : Nat) (r : Response), e'.Gave m r ->
      e.Gave m r ∨ m = n ∧ r = given)
    (hfailed : given.isOk = false) : e'.Answered := by
  apply h.of_given hlasts _ hn hgave (answers_of_error hfailed)
  rw [hendings]
  exact fun _ hx => hx

theorem Move.answered {deed : Deed} {e e' : Engine} (h : Move deed e e') (hlined : e.Lined)
    (k : e.Answered) : e'.Answered := by
  have hlasts := h.keepsRequests
  cases h with
  | schedule | close | directory | stops | create | addStats | addServer | server | addAllocator
  | useAllocator => exact k.of_phase hlasts rfl rfl fun _ _ hm => hm
  | enroll _ server callback provider request hstate hprepare =>
      apply k.of_phase hlasts rfl rfl
      intro m r hm
      rw [submission_enroll] at hm
      split at hm
      · cases hm
      · exact hm
  | awaitSlot _ n hn =>
      apply k.of_phase hlasts rfl rfl
      intro m r hm
      exact answered_of_setPhase (e := e.modifyServer _ _) rfl hm
  | takeSlot _ e' n hn htake =>
      rcases takeSlot?_eq_some htake with ⟨free, rfl⟩
      apply k.of_phase hlasts rfl rfl
      intro m r hm
      exact answered_of_setPhase (e := e.modifyServer _ _) rfl hm
  | gatherFails _ n failure hn hgather =>
      have hlt : n < e.submissions.length := lt_of_phase (by rw [hn]; rfl)
      exact k.of_failure hlasts (spares_respond e n _).endings hlt
        (fun _ _ => gave_respond hlined) rfl
  | allocateFails _ n failure a events hn hallocate =>
      have hlt : n < e.submissions.length := lt_of_phase (by rw [hn]; rfl)
      have hqueues : ((e.setMemory (e.submission n).server ⟨a, e.directory⟩).report
          events).Lined := hlined.of_parts rfl rfl
      exact k.of_failure hlasts (spares_respond _ n _).endings hlt
        (fun _ _ => gave_respond hqueues) rfl
  | unwind _ n slots a events hn hallocate =>
      have hlt : n < e.submissions.length := lt_of_phase (by rw [hn]; rfl)
      have hqueues : (e.forfeit n slots a events).Lined := hlined.of_parts rfl rfl
      exact k.of_failure hlasts (spares_giveUp (e.forfeit n slots a events) n).endings hlt
        (fun _ _ => gave_giveUp hqueues) rfl
  | enter _ n inputs slots a events hn hgather hallocate =>
      apply k.of_phase hlasts rfl rfl
      intro m r hm
      exact answered_of_enterBackend hm
  | turn _ n p hn =>
      apply k.of_phase hlasts rfl rfl
      intro m r hm
      exact answered_of_setPhase hn.response?_eq hm
  | leave _ n held next result slots hn hnext =>
      have hlt : n < e.submissions.length := lt_of_phase (by rw [hn]; rfl)
      have hqueues : (e.takeSlots n result slots).Lined := hlined.of_parts rfl rfl
      have hendings : (e.leaveBackend n result slots).endings =
          e.endings ++ [⟨n, result, slots⟩] :=
        (spares_respond (e.takeSlots n result slots) n _).endings
      refine k.of_given hlasts ?_ hlt (fun _ _ => gave_respond hqueues)
        (answers_leaveBackend e n result slots)
      rw [hendings]
      exact fun _ hx => List.mem_append_left _ hx
  | cancel _ n hn =>
      exact k.of_failure hlasts (spares_giveUp e n).endings (lt_of_phase hn)
        (fun _ _ => gave_giveUp hlined) rfl
  | comeBack _ n hn =>
      apply k.of_phase hlasts (spares_comeBack e n).endings (completions_comeBack e n)
      intro m r hm
      unfold submission at hm
      rw [submissions_comeBack] at hm
      exact hm
  | dropResponse _ n response hn =>
      apply k.of_phase hlasts rfl rfl
      intro m r hm
      exact answered_of_setPhase (e := e.releaseResponse response) rfl hm
  | ignore _ n =>
      apply k.of_phase hlasts rfl rfl
      intro m r hm
      rw [phase_ignore] at hm
      exact hm

theorem Reachable.answered {e : Engine} (h : e.Reachable) : e.Answered := by
  apply Reachable.induct answered_empty _ h
  intro deed e e' hreachable hmove hanswered
  exact hmove.answered hreachable.lined hanswered

/-!
# Once only

The callback of a request is called once.
-/

theorem filter_eq_singleton {α : Type} {p : α -> Bool} {xs : List α} {x : α}
    (h : xs.countP p ≤ 1) (hx : x ∈ xs) (hp : p x = true) : xs.filter p = [x] := by
  have hmem : x ∈ xs.filter p := List.mem_filter.2 ⟨hx, hp⟩
  rw [List.countP_eq_length_filter] at h
  cases hfiltered : xs.filter p with
  | nil =>
      rw [hfiltered] at hmem
      cases hmem
  | cons first rest =>
      rw [hfiltered] at hmem h
      have hshort := Nat.le_of_succ_le_succ h
      have hrest : rest = [] := List.eq_nil_of_length_eq_zero (Nat.le_zero.1 hshort)
      rw [hrest] at hmem ⊢
      rw [List.mem_singleton.1 hmem]

theorem Reachable.entered_once {e : Engine} (h : e.Reachable) {n : Nat} {batch : ExecutionBatch}
    (hentered : (n, batch) ∈ e.entries) : e.entries.filter (fun x => x.1 = n) = [(n, batch)] :=
  filter_eq_singleton (h.carried.enteredOnce n) hentered (decide_eq_true rfl)

theorem Reachable.ended_once {e : Engine} (h : e.Reachable) {x : Ending} (hx : x ∈ e.endings) :
    e.endings.filter (fun y => y.submission = x.submission) = [x] :=
  filter_eq_singleton (h.carried.endedOnce x.submission) hx (decide_eq_true rfl)

theorem Reachable.eq_of_called {e : Engine} (h : e.Reachable) {c c' : Completion}
    (hc : c ∈ e.completions) (hc' : c' ∈ e.completions)
    (hsame : c'.submission = c.submission) : c' = c := by
  have hcalled := h.tally.called c.submission (h.tally.known c hc).1
  unfold timesCalled at hcalled
  have honce := filter_eq_singleton (p := fun x => x.submission = c.submission)
    (by
      rw [hcalled]
      split <;> omega) hc (decide_eq_true rfl)
  have hmem : c' ∈ e.completions.filter fun x => x.submission = c.submission :=
    List.mem_filter.2 ⟨hc', decide_eq_true hsame⟩
  rw [honce] at hmem
  exact List.mem_singleton.1 hmem

/-!
# From the provider to the response

A good response to a request tells what its provider has bound.
-/

theorem Reachable.response_ok {e : Engine} (h : e.Reachable) {n : Nat} {p : Provider}
    {registry : Registry} (hfits : p.outline.Fits)
    (hprepare : PreparedRequest.prepare registry p = .ok (e.submission n).request)
    {r : Response} (hr : e.Gave n r) (hok : r.isOk = true) :
    exists (batch : ExecutionBatch) (slots : List OutputSlot),
      (n, batch) ∈ e.entries ∧
      e.endings.filter (fun x => x.submission = n) = [⟨n, .ok (), slots⟩] ∧
      p.model.backend.CanEnd p.model.config.name n batch (.ok ()) slots ∧
      slots.map (fun slot => slot.spec.name) = p.outputs.map (fun b => b.spec.name) ∧
      r.outputNames = p.outputs.map (fun b => b.spec.name) ∧
      forall slot, slot ∈ slots -> forall b, b ∈ p.outputs -> b.spec.name = slot.spec.name ->
        match b.destination with
        | none => r.outputData slot.spec.name = .ok slot.buffer.bytes
        | some range => r.outputRange slot.spec.name = .ok range := by
  rcases (h.answered n r hr).2 hok with ⟨slots, hending, hchecked, houtputs⟩
  rcases h.carried.ended _ hending with ⟨_, batch, hentered, hcan⟩
  rcases PreparedRequest.prepare_eq_ok hprepare with ⟨_, _, hmapped, hmodel, _⟩
  have hranges : (e.submission n).request.outputs.map PreparedOutput.range? =
      p.outputs.map OutputBinding.destination := by
    apply map_of_mapM hmapped
    intro b output houtput
    exact (PreparedOutput.eq_of_prepare houtput).2.2
  have hprepared : (e.submission n).request.outputs.map (fun output => output.spec.name) =
      p.outputs.map fun b => b.spec.name := by
    apply map_of_mapM hmapped
    intro b output houtput
    rw [(PreparedOutput.eq_of_prepare houtput).1]
  have hnames := (Execution.names_of_checkSlots hchecked).trans hprepared
  have hdistinct : (p.outputs.map fun b => b.spec.name).Nodup := by
    have houtlined := hfits.distinct
    unfold Provider.outline at houtlined
    rw [List.map_map] at houtlined
    exact houtlined
  rw [hranges] at houtputs
  rw [hmodel] at hcan
  rcases Response.gives_of_stored hok hnames hdistinct houtputs with ⟨hall, hgives⟩
  exact ⟨batch, slots, hentered, h.ended_once hending, hcan, hnames, hall, hgives⟩

/-- A provider that was made at some time and changed since is accepted.  Whatever happens from
then on, in whatever order: if a batch is handed over for it, it is the only one, and has been put
together at one moment since, each declared input with what the changes since the last reset come
to at that moment and each output that is asked for with a slot of its own.  Any good response to
it, as long as it is held and wherever it has gone, has the outputs that are asked for in their
order, and gives out for each what the backend, given this batch, has left in its slot, or the
range that it was bound to. -/
theorem batch_and_outputs {earlier before e : Engine} (hearlier : earlier.Reachable)
    (hbefore : before.Reachable) {owner server callback n : Nat} {model : String}
    {choice : VersionChoice} {header : RequestHeader} {made : Provider}
    (hmade : earlier.provider owner model choice header = .ok made)
    (changes : List Provider.Edit)
    (haccepted : (before.submit server (made.edited changes) callback).1 = .ok n)
    (he : Moves (fun _ => True) (before.submit server (made.edited changes) callback).2 e) :
    (forall batch : ExecutionBatch, (n, batch) ∈ e.entries ->
      e.entries.filter (fun x => x.1 = n) = [(n, batch)] ∧
      exists start : Engine,
        Moves (fun _ => True) (before.submit server (made.edited changes) callback).2 start ∧
        Moves (fun _ => True) start e ∧ start.Starts n batch ∧
        batch.IsFor made.model header (Provider.sinceReset (made.made changes))
          (before.server server).registry start.directory
          (start.allocator (start.server server).allocator).kind.isRegular) ∧
      forall r : Response, e.Gave n r -> r.isOk = true ->
        exists (batch : ExecutionBatch) (slots : List OutputSlot),
          (n, batch) ∈ e.entries ∧
          e.endings.filter (fun x => x.submission = n) = [⟨n, .ok (), slots⟩] ∧
          made.model.backend.CanEnd made.model.config.name n batch (.ok ()) slots ∧
          slots.map (fun slot => slot.spec.name) =
            Provider.requested made.model.config header ∧
          r.outputNames = Provider.requested made.model.config header ∧
          forall slot, slot ∈ slots ->
            forall b, b ∈ (made.edited changes).outputs -> b.spec.name = slot.spec.name ->
              match b.destination with
              | none => r.outputData slot.spec.name = .ok slot.buffer.bytes
              | some range => r.outputRange slot.spec.name = .ok range := by
  rcases Provider.fits_of_new (hearlier.sound.tables owner) hmade with ⟨hfits, _, hheader⟩
  have hremembers := (Provider.remembers_of_new hmade).edited changes
  have houtline := made.outline_edited changes
  have hedited := Provider.fits_edited hfits changes
  generalize made.edited changes = p at houtline hedited hremembers haccepted he ⊢
  have hmodel : p.model = made.model := congrArg Provider.Outline.model houtline
  have hsame : p.header = header := (congrArg Provider.Outline.header houtline).trans hheader
  rcases submit_enrolled hbefore haccepted with ⟨hlt, hprepare, hserver, hfresh⟩
  have hsubmitted : Moves (fun _ => True) before (before.submit server p callback).2 :=
    moves_submit before server callback p trivial fun _ _ => trivial
  have hreachable : e.Reachable := (hbefore.moves hsubmitted).moves he
  constructor
  · intro batch hentered
    constructor
    · exact hreachable.entered_once hentered
    · rcases he.starts (hfresh batch) hentered with ⟨start, hstart, hrest, hstarts⟩
      have hlasts := (hstart.keepsRequests n hlt).2
      have hrequest : PreparedRequest.prepare (before.server server).registry p =
          .ok (start.submission n).request := by
        rw [hlasts]
        exact hprepare
      have hown : (start.submission n).server = server := by
        rw [hlasts]
        exact hserver
      have hfor := hstarts.isFor hedited hremembers hrequest
      rw [hmodel, hsame, hown] at hfor
      exact ⟨start, hstart, hrest, hstarts, hfor⟩
  · intro r hr hok
    have hrequest : PreparedRequest.prepare (before.server server).registry p =
        .ok (e.submission n).request := by
      rw [(he.keepsRequests n hlt).2]
      exact hprepare
    have hrequested : p.outputs.map (fun b => b.spec.name) =
        Provider.requested made.model.config header := by
      have houtlined := hedited.requested
      unfold Provider.outline at houtlined
      rw [List.map_map, hmodel, hsame] at houtlined
      exact houtlined
    have hall := hreachable.response_ok hedited hrequest hr hok
    rw [hmodel, hrequested] at hall
    exact hall

theorem outputs_of_answeredRun : (reached copyRun).Reachable ∧
    (reached copyRun).provider 0 "copy" .latest (.new 1) = .ok copyProvider ∧
    ((reached copyRun).submit 0
      (copyProvider.edited [.append "in" [1], .append "in" [2]]) 7).1 = .ok 0 ∧
    Moves (fun _ => True) ((reached copyRun).submit 0
      (copyProvider.edited [.append "in" [1], .append "in" [2]]) 7).2 (reached answeredRun) ∧
    exists (batch : ExecutionBatch) (r : Response),
      (reached answeredRun).entries.filter (fun x => x.1 = 0) = [(0, batch)] ∧
      (reached answeredRun).response? 0 = some r ∧
      r.outputNames = ["out"] ∧ r.outputData "out" = .ok [1, 2] := by
  have hreachable := reachable_reached copyRun
  have haccepted : ((reached copyRun).submit 0
      (copyProvider.edited [.append "in" [1], .append "in" [2]]) 7).1 = .ok 0 := rfl
  have hmoves : Moves (fun _ => True) ((reached copyRun).submit 0
      (copyProvider.edited [.append "in" [1], .append "in" [2]]) 7).2 (reached answeredRun) :=
    moves_runAt _ 0 (fun _ => trivial) fun _ => trivial
  have hall := batch_and_outputs hreachable hreachable provider_copyRun
    [.append "in" [1], .append "in" [2]] haccepted hmoves
  refine ⟨hreachable, provider_copyRun, haccepted, hmoves, ?_⟩
  cases hheld : (reached answeredRun).response? 0 with
  | none => cases hheld
  | some r =>
      have hok : r.isOk = true := by
        cases hheld
        rfl
      have hdata : r.outputData "out" = .ok [1, 2] := by
        cases hheld
        rfl
      rcases hall.2 r (.inl hheld) hok with ⟨batch, _, hentered, _, _, _, hnames, _⟩
      exact ⟨batch, r, (hall.1 batch hentered).1, rfl, hnames, hdata⟩

end Engine

end InferenceEngine
