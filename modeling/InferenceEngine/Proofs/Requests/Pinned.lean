import InferenceEngine.Proofs.Execution.Courses
import InferenceEngine.Proofs.Servers.Polls

/-!
# Pinned providers and detached requests

A provider keeps the model that it was made for, and an accepted request keeps what its provider
and the registered handles were when it was accepted.  What becomes of the models, the handles and
the provider afterwards does not matter: two runs that treat the request alike answer it alike.
-/

namespace InferenceEngine

namespace Engine

variable {also : Deed -> Prop} {e e' accepted : Engine} {d : Detached}

/-!
# A request that has just been accepted

Where no jobs are run, a request is given up as soon as it is accepted.
-/

/-- Whether a request has been accepted as it was detached and has not begun to execute. -/
structure Fresh (e : Engine) (d : Detached) : Prop where
  reachable : e.Reachable
  has : e.Has d
  sound : d.request.IsSound
  accounted : e.Accounted d
  notBegun : ¬ e.Begun d.number

theorem completions_launch (e : Engine) (server callback : Nat) (request : PreparedRequest)
    {c : Completion} (hc : c ∈ (e.launch server request callback).completions) :
    c ∈ e.completions ∨ (c.isExecuted = false ∧
      c.response = .ofResult request (e.server server).allocator 0 (.error .cancelled)) := by
  have hlaunched : ((e.enroll server request callback).report
      [.requestAccepted request.id request.model.config.name]).submission e.submissions.length =
        ⟨server, request, callback, .accepted, true⟩ :=
    (submission_enroll e server callback request _).trans (if_pos rfl)
  simp only [launch] at hc
  split at hc
  · exact .inl hc
  · unfold cancel at hc
    split at hc
    · rw [completions_comeBack] at hc
      rcases completions_giveUp ((e.enroll server request callback).report
        [.requestAccepted request.id request.model.config.name]) e.submissions.length with
        ⟨live, ready, hcompletions⟩
      rw [hcompletions] at hc
      rcases List.mem_append.1 hc with hold | hnew
      · exact .inl hold
      · rw [List.mem_singleton.1 hnew]
        refine .inr ⟨rfl, ?_⟩
        unfold responseTo
        rw [hlaunched]
        rfl
    · exact .inl hc

theorem fresh_of_submit (he : e.Reachable) {k callback n : Nat} {p : Provider}
    (hregistry : (e.server k).registry.IsSound) (h : (e.submit k p callback).1 = .ok n) :
    exists request : PreparedRequest,
      PreparedRequest.prepare (e.server k).registry p = .ok request ∧
      (e.submit k p callback).2.Fresh ⟨n, k, (e.server k).allocator, request⟩ := by
  have hmoves : Moves (fun _ => True) e (e.submit k p callback).2 :=
    moves_submit e k callback p trivial fun _ _ => trivial
  have hk : k < e.servers.length := by
    apply lt_of_state
    intro hstate
    rcases submit_of_not_serving (by rw [hstate]; decide) p callback with ⟨failure, hrefused⟩
    rw [hrefused] at h
    cases h
  rcases submit_enrolled he h with ⟨hlt, hprepare, hserver, hfresh⟩
  rcases Moves.keepsAllocator hmoves hk with ⟨hhome, hallocator⟩
  have hcompletions : forall c : Completion, c ∈ (e.submit k p callback).2.completions ->
      c.submission = n -> c.isExecuted = false ∧ c.response = .ofResult
        ((e.submit k p callback).2.submission n).request (e.server k).allocator 0
          (.error .cancelled) := by
    intro c hc hn
    rcases submit_eq_ok h with ⟨request, hrequest, hnumber, hsubmit⟩
    have hsame : ((e.submit k p callback).2.submission n).request = request :=
      Except.ok.inj (hprepare.symm.trans hrequest)
    rw [hsame]
    rw [hsubmit] at hc
    rcases completions_launch (e.countIn k) k callback request hc with hold | ⟨hgiven, hresponse⟩
    · have hknown := (he.tally.known c hold).1
      omega
    · rw [hresponse, show ((e.countIn k).server k).allocator = (e.server k).allocator from
        allocator_modifyServer rfl k]
      exact ⟨hgiven, rfl⟩
  refine ⟨_, hprepare, ⟨he.moves hmoves, ⟨hlt, hhome, hserver, rfl, hallocator⟩, ?_, ?_, ?_⟩⟩
  · exact PreparedRequest.isSound_of_prepare hregistry hprepare
  · constructor
    · intro c hc hn _
      exact (hcompletions c hc hn).2
    · intro c hc hn hexecuted
      rw [(hcompletions c hc hn).1] at hexecuted
      cases hexecuted
  · rintro (⟨batch, hbatch⟩ | ⟨c, hc, hn, hexecuted⟩)
    · exact hfresh batch hbatch
    · rw [(hcompletions c hc hn).1] at hexecuted
      cases hexecuted

/-!
# The way of an accepted request
-/

/-- A run after the acceptance of a request, told apart by the moment at which the request begins
to execute. -/
structure Course (d : Detached) (accepted start next later : Engine) : Prop where
  before : Moves (fun _ => True) accepted start
  begins : Begins d start next
  rest : Moves (fun _ => True) next later

variable {start next later start' next' later' : Engine}

theorem Course.moves (h : Course d accepted start next later) :
    Moves (fun _ => True) accepted later := by
  rcases h.begins.move with ⟨deed, hmove⟩
  exact h.before.trans ((Moves.of_also trivial hmove).trans h.rest)

/-- Which batch the backend of a request has been given is told by the moment at which the request
has begun to execute. -/
theorem Course.entries (h : Course d accepted start next later) (hfresh : accepted.Fresh d) :
    later.entries.filter (fun x => x.1 = d.number) =
      match d.slots start with
      | .made slots => [(d.number, d.request.batch start.directory slots)]
      | _ => [] := by
  have hstart : start.Reachable := hfresh.reachable.moves h.before
  have hlater : later.Reachable := hfresh.reachable.moves h.moves
  have hkept : start.Has d := h.before.has hfresh.has
  have hnone : (forall slots : List OutputSlot, d.slots start ≠ .made slots) ->
      later.entries.filter (fun x => x.1 = d.number) = [] := by
    intro hnot
    apply List.filter_eq_nil_iff.2
    intro x hx hn
    have hentered : (d.number, x.2) ∈ later.entries := by
      rw [← of_decide_eq_true hn]
      exact hx
    rcases h.begins.batch hstart hkept h.rest hentered with ⟨slots, hmade, _⟩
    exact hnot slots hmade
  cases hslots : d.slots start with
  | made slots =>
      exact hlater.entered_once (h.rest.records.entries _ (h.begins.entered slots hslots).1)
  | failed | panicked => exact hnone fun slots hmade => by cases hslots.symm.trans hmade

/-- What an accepted request does in a later run. -/
structure Follows (d : Detached) (accepted later : Engine) : Prop where
  has : later.Has d
  /-- Once it has begun to execute there has been the moment at which it did. -/
  course : later.Begun d.number ->
    exists start next : Engine, Course d accepted start next later
  /-- Its backend ends at some moment, at which its outputs are written. -/
  ended : forall x : Ending, x ∈ later.endings -> x.submission = d.number ->
    exists before after : Engine, Moves (fun _ => True) accepted before ∧ Ends d x before after ∧
      Moves (fun _ => True) after later
  /-- That end is one to which the backend of its model can come with the batch it was given. -/
  backend : forall x : Ending, x ∈ later.endings -> x.submission = d.number ->
    exists batch : ExecutionBatch, (d.number, batch) ∈ later.entries ∧
      d.request.model.backend.CanEnd d.request.model.config.name d.number batch x.result x.slots
  /-- If it is given up it is answered so. -/
  dropped : forall c : Completion, c ∈ later.completions -> c.submission = d.number ->
    c.isExecuted = false -> c.response = d.response 0 (.error .cancelled)

theorem Fresh.notEnded (h : e.Fresh d) {x : Ending} (hn : x.submission = d.number) :
    x ∉ e.endings := by
  intro hx
  rcases h.reachable.carried.ended x hx with ⟨_, batch, hbatch, _⟩
  rw [hn] at hbatch
  exact h.notBegun (.inl ⟨batch, hbatch⟩)

theorem Fresh.follows (h : accepted.Fresh d) (hlater : Moves (fun _ => True) accepted later) :
    Follows d accepted later := by
  have hkept := hlater.has h.has
  refine ⟨hkept, ?_, ?_, ?_, ?_⟩
  · intro hbegun
    rcases hlater.begins h.reachable h.has h.sound h.notBegun hbegun with
      ⟨start, next, hstart, hbegins, hrest⟩
    exact ⟨start, next, hstart, hbegins, hrest⟩
  · intro x hx hn
    exact hlater.ends h.has h.sound hn (h.notEnded hn) hx
  · intro x hx hn
    rcases (h.reachable.moves hlater).carried.ended x hx with ⟨_, batch, hbatch, hcan⟩
    rw [hn, hkept.request] at hcan
    rw [hn] at hbatch
    exact ⟨batch, hbatch, hcan⟩
  · exact (hlater.accounted h.reachable h.has h.sound h.accounted).dropped

/-!
# Two ways of one request

A request begins to execute in the turn in which it takes a slot.
-/

/-- Whether a request finds the same bytes in the ranges of its inputs and gets the same slots. -/
structure SameStart (d : Detached) (start start' : Engine) : Prop where
  bytes : forall (input : PreparedInput) (range : ResolvedRange), input ∈ d.request.inputs ->
    input.payload = .shared range -> forall i : Nat, i < range.range.size ->
      range.handle.byte start.directory (range.range.offset + i) =
        range.handle.byte start'.directory (range.range.offset + i)
  slots : d.slots start = d.slots start'

/-- Whether the backend of a request leaves the same in two runs, if it ends in both. -/
def SameEnds (n : Nat) (later later' : Engine) : Prop :=
  forall x x' : Ending, x ∈ later.endings -> x' ∈ later'.endings -> x.submission = n ->
    x'.submission = n -> x = x'

theorem SameStart.tensor (h : SameStart d start start') {input : PreparedInput}
    (hinput : input ∈ d.request.inputs) :
    input.tensor start.directory = input.tensor start'.directory := by
  unfold PreparedInput.tensor
  cases hpayload : input.payload with
  | buffers bs => rfl
  | shared range =>
      have hbytes := h.bytes input range hinput hpayload
      congr 1
      apply List.map_congr_left
      intro i hi
      exact hbytes i (List.mem_range.1 hi)

theorem SameStart.batch (h : SameStart d start start') (slots : List OutputSlot) :
    d.request.batch start.directory slots = d.request.batch start'.directory slots := by
  have hinputs : d.request.inputs.map (PreparedInput.tensor start.directory) =
      d.request.inputs.map (PreparedInput.tensor start'.directory) :=
    List.map_congr_left fun _ hinput => h.tensor hinput
  unfold PreparedRequest.batch
  rw [hinputs]

/-- What a request does in two runs that treat it alike. -/
structure GoesAlike (d : Detached) (later later' : Engine) : Prop where
  /-- Its backend is given the same batch, if any. -/
  entries : later.entries.filter (fun x => x.1 = d.number) =
    later'.entries.filter fun x => x.1 = d.number
  /-- It is answered with the same result if its backend ends alike; the responses differ at most
  in the time that they tell for the execution. -/
  responses : SameEnds d.number later later' -> forall c c' : Completion,
    c ∈ later.completions -> c' ∈ later'.completions -> c.submission = d.number ->
      c'.submission = d.number -> c.isExecuted = true -> c'.isExecuted = true ->
        exists result : Except Failure (List (String × OutputStorage)),
          c.response = d.response c.computeTime result ∧
            c'.response = d.response c'.computeTime result

variable {accepted' : Engine}

theorem Course.goesAlike (h : Course d accepted start next later)
    (h' : Course d accepted' start' next' later') (hfresh : accepted.Fresh d)
    (hfresh' : accepted'.Fresh d) (hsame : SameStart d start start') :
    GoesAlike d later later' := by
  have hstart : start.Reachable := hfresh.reachable.moves h.before
  have hstart' : start'.Reachable := hfresh'.reachable.moves h'.before
  constructor
  · rw [h.entries hfresh, h'.entries hfresh', hsame.slots]
    cases d.slots start' with
    | made slots =>
        show [(d.number, d.request.batch start.directory slots)] = _
        rw [hsame.batch slots]
    | failed | panicked => rfl
  · intro hends c c' hc hc' hn hn' hexecuted hexecuted'
    have haccounted := h.moves.accounted hfresh.reachable hfresh.has hfresh.sound hfresh.accounted
    have haccounted' :=
      h'.moves.accounted hfresh'.reachable hfresh'.has hfresh'.sound hfresh'.accounted
    have hslots := hsame.slots
    rcases h.begins.response hstart h.rest haccounted hc hn hexecuted with
      ⟨failure, hrefused, hresponse⟩ | ⟨slots, hgranted, x, hx, hown, hresponse⟩
    · rcases h'.begins.response hstart' h'.rest haccounted' hc' hn' hexecuted' with
        ⟨failure', hrefused', hresponse'⟩ | ⟨slots', hgranted', _⟩
      · rw [hrefused, hrefused'] at hslots
        rw [← Execution.Allotment.failed.inj hslots] at hresponse'
        exact ⟨_, hresponse, hresponse'⟩
      · rw [hrefused, hgranted'] at hslots
        cases hslots
    · rcases h'.begins.response hstart' h'.rest haccounted' hc' hn' hexecuted' with
        ⟨failure', hrefused', _⟩ | ⟨slots', hgranted', x', hx', hown', hresponse'⟩
      · rw [hgranted, hrefused'] at hslots
        cases hslots
      · rw [← hends x x' hx hx' hown hown'] at hresponse'
        exact ⟨_, hresponse, hresponse'⟩

theorem Has.course_execute (hd : e.Has d) (hsound : d.request.IsSound)
    (hbefore : Moves (fun _ => True) accepted e)
    (hgranted : (e.submission d.number).phase = .granted) :
    exists next : Engine, Course d accepted
      (e.report [.requestExecuting d.request.id d.request.model.config.name
        d.request.model.version d.request.batchSize]) next (e.execute d.number) := by
  have hreported : Moves (fun _ => True) e (e.report [.requestExecuting d.request.id
      d.request.model.config.name d.request.model.version d.request.batchSize]) :=
    moves_report e _
  rcases (hreported.has hd).begins_carryOut hsound hgranted with ⟨next, hbegins, hrest⟩
  refine ⟨next, hbefore.trans hreported, hbegins, ?_⟩
  simp only [execute]
  rw [hd.request]
  exact hrest

theorem takeSlot?_of_pos {k : Nat} (h : 0 < (e.server k).freeSlots) :
    e.takeSlot? k = some (e.modifyServer k fun s =>
      { s with freeSlots := (e.server k).freeSlots - 1 }) := by
  obtain ⟨free, hfree⟩ := Nat.exists_eq_add_of_lt h
  simp only [takeSlot?]
  rw [hfree, Nat.zero_add]
  rfl

theorem Has.course_runRequest (hd : e.Has d) (hsound : d.request.IsSound)
    (hbefore : Moves (fun _ => True) accepted e)
    (hphase : (e.submission d.number).phase = .accepted)
    (hslot : 0 < (e.server d.server).freeSlots) :
    exists start next : Engine, Course d accepted start next (e.runRequest d.number) ∧
      start.directory = e.directory ∧ start.allocators = e.allocators := by
  have htake := takeSlot?_of_pos hslot
  rw [← hd.server] at htake
  have hgrant := Move.takeSlot e _ d.number hphase htake
  have hgranted := (hgrant.has hd).course_execute hsound
    (hbefore.trans (Moves.one hgrant)) (phase_setPhase_self hd.lt)
  rcases hgranted with ⟨next, hcourse⟩
  simp only [runRequest]
  rw [hphase, htake]
  exact ⟨_, next, hcourse, rfl, rfl⟩

theorem Has.course_runAt (hd : e.Has d) (hsound : d.request.IsSound)
    (hbefore : Moves (fun _ => True) accepted e) {position : Nat}
    (hjob : e.queue[position]? = some (.request d.number))
    (hphase : (e.submission d.number).phase = .accepted)
    (hslot : 0 < (e.server d.server).freeSlots) :
    exists start next : Engine, Course d accepted start next (e.runAt position) ∧
      start.directory = e.directory ∧ start.allocators = e.allocators := by
  have hdequeue : Moves (fun _ => True) e (e.dequeue position) := moves_dequeue e position
  have hkept := hdequeue.has hd
  have hmoves := hbefore.trans hdequeue
  have hrun : e.runAt position = (e.dequeue position).runRequest d.number := by
    simp only [runAt]
    rw [hjob]
    rfl
  rw [hrun]
  rcases dequeue_eq e position with ⟨woken, started, hsame⟩
  rw [hsame] at hkept hmoves ⊢
  exact hkept.course_runRequest hsound hmoves hphase hslot

/-!
# Providers and requests in two runs
-/

/-- Whether all requests have gone the same way in two engines. -/
structure SameHistory (e e' : Engine) : Prop where
  submissions : e.submissions = e'.submissions
  entries : e.entries = e'.entries
  endings : e.endings = e'.endings
  directory : e.directory = e'.directory
  allocators : e.allocators = e'.allocators
  completions : e.completions.map (fun c => (c.submission, c.isExecuted, c.response)) =
    e'.completions.map fun c => (c.submission, c.isExecuted, c.response)

theorem Alike.sameHistory {k : Nat} (h : Alike k e e') : SameHistory e e' where
  submissions := h.submissions
  entries := h.entries
  endings := h.endings
  directory := h.directory
  allocators := h.allocators
  completions := by
    have hmasked := congrArg
      (List.map fun c : Completion => (c.submission, c.isExecuted, c.response)) h.completions
    rw [List.map_map, List.map_map] at hmasked
    exact hmasked

/-- In two runs that differ, since a provider was made, only in polls of its server that do not stop
the server, the provider is accepted or refused alike.  What is accepted is the same detached
request in both: it has the model that was meant when the provider was made, and the handles of the
ranges that are registered when it is accepted.  If the runs go on to differ in polls only, all
requests go the same way.  However they go on, and whatever becomes of the models, the handles and
the provider: when the request begins to execute and finds the same bytes in its ranges and is
given the same slots in both runs, its backend is given the same batch; what the backend leaves is
written to the same ranges; and if it ends alike, the response is the same, but for the time that it
tells for the execution. -/
theorem pinned_and_detached (earlier ops ops' : List Operation) {k : Nat} {model : String}
    {choice : VersionChoice} {header : RequestHeader} {made : Provider}
    (hmade : (reached earlier).provider k model choice header = .ok made)
    (hops : withoutPolls k ops = withoutPolls k ops')
    (hspare : (reached earlier).PollsSpare k ops) (hspare' : (reached earlier).PollsSpare k ops')
    (changes : List Provider.Edit) (callback : Nat) :
    let before := reached (earlier ++ ops)
    let before' := reached (earlier ++ ops')
    let accepted := (before.submit k (made.edited changes) callback).2
    let accepted' := (before'.submit k (made.edited changes) callback).2
    (before.submit k (made.edited changes) callback).1 =
        (before'.submit k (made.edited changes) callback).1 ∧
      (forall more more' : List Operation, withoutPolls k more = withoutPolls k more' ->
        accepted.PollsSpare k more -> accepted'.PollsSpare k more' ->
          SameHistory (accepted.after more) (accepted'.after more')) ∧
      forall n : Nat, (before.submit k (made.edited changes) callback).1 = .ok n ->
        exists d : Detached, d.number = n ∧ d.server = k ∧
          ModelTable.resolve ((reached earlier).server k).table model choice =
            .ok d.request.model ∧
          PreparedRequest.prepare (before.server k).registry (made.edited changes) =
            .ok d.request ∧
          forall later later' : Engine, Moves (fun _ => True) accepted later ->
            Moves (fun _ => True) accepted' later' ->
              Follows d accepted later ∧ Follows d accepted' later' ∧
              forall start next start' next' : Engine, Course d accepted start next later ->
                Course d accepted' start' next' later' -> SameStart d start start' ->
                  GoesAlike d later later' := by
  intro before before' accepted accepted'
  have halike : Alike k before before' := by
    unfold before before' reached
    rw [after_append, after_append]
    exact alike_of_withoutPolls (Alike.refl _) hops hspare hspare'
  rcases halike.submit k (made.edited changes) callback with ⟨hresult, haccepted⟩
  refine ⟨hresult, ?_, ?_⟩
  · intro more more' hmore hkeep hkeep'
    exact (alike_of_withoutPolls haccepted hmore hkeep hkeep').sameHistory
  · intro n hn
    have hn' : (before'.submit k (made.edited changes) callback).1 = .ok n :=
      hresult.symm.trans hn
    have hbefore : before.Reachable := reachable_reached (earlier ++ ops)
    have hbefore' : before'.Reachable := reachable_reached (earlier ++ ops')
    have hinside : (before.server k).registry.IsSound := (tends_reached (earlier ++ ops)).isSound k
    -- The handles and the allocator of the server are the same in both runs.
    have hregistry : (before.server k).registry = (before'.server k).registry := halike.registry k
    have hallocator : (before.server k).allocator = (before'.server k).allocator :=
      halike.serverAllocator k
    rcases fresh_of_submit hbefore hinside hn with ⟨request, hprepare, hfresh⟩
    rcases fresh_of_submit hbefore' (hregistry ▸ hinside) hn' with ⟨request', hprepare', hfresh'⟩
    rw [← hregistry, hprepare] at hprepare'
    rw [← hallocator, ← Except.ok.inj hprepare'] at hfresh'
    refine ⟨⟨n, k, (before.server k).allocator, request⟩, rfl, rfl, ?_, hprepare, ?_⟩
    · rw [Provider.resolve_of_new hmade]
      have hpinned : request.model = (made.edited changes).model :=
        (PreparedRequest.prepare_eq_ok hprepare).2.2.2.1
      have hmodel : (made.edited changes).model = made.model :=
        congrArg Provider.Outline.model (made.outline_edited changes)
      rw [hpinned, hmodel]
    · intro later later' hlater hlater'
      refine ⟨hfresh.follows hlater, hfresh'.follows hlater', ?_⟩
      intro start next start' next' hcourse hcourse' hsame
      exact hcourse.goesAlike hcourse' hfresh hfresh' hsame

/-- Two regions, the first of which begins with two bytes that are not zero.  A request is to copy
them inside the region, by way of a handle that means the other region when it executes. -/
def twoRegions : Directory :=
  ((Directory.empty.addFile "first" 4).addFile "second" 4).modifyFile 0 fun f => f.write 0 [5, 6]

def regionRun : List Operation :=
  copyRun ++ [.setDirectory twoRegions, .register 0 "handle" "first" 0 4]

def regionChanges : List Provider.Edit :=
  [.bindInput "in" ⟨"handle", 0, 2⟩, .bindOutput "out" ⟨"handle", 2, 2⟩]

def removal : List Operation := [.poll 0 (.ok []) none]

def rebinding : List Operation :=
  [.unregister 0 "handle", .register 0 "handle" "second" 0 4]

def acceptedAfter (ops : List Operation) : Engine :=
  ((reached (regionRun ++ ops)).submit 0 (copyProvider.edited regionChanges) 7).2

theorem pinned_of_regionRun :
    (reached regionRun).provider 0 "copy" .latest (.new 1) = .ok copyProvider ∧
    (reached (regionRun ++ removal)).provider 0 "copy" .latest (.new 1) =
      .error (.unknownModel "copy") ∧
    exists c c' : Completion,
      c ∈ ((acceptedAfter []).after [.runAt 0]).completions ∧
      c' ∈ (((acceptedAfter removal).after rebinding).runAt 0).completions ∧
      c.response = c'.response ∧ c.response.status = .ok () ∧
      ((((acceptedAfter removal).after rebinding).runAt 0).directory.file 0).read 0 4 =
        [5, 6, 5, 6] := by
  have hmade : (reached regionRun).provider 0 "copy" .latest (.new 1) = .ok copyProvider := rfl
  rcases (pinned_and_detached regionRun [] removal hmade rfl trivial ⟨fun _ _ => rfl, trivial⟩
    regionChanges 7).2.2 0 rfl with ⟨d, hn, hk, _, hprepare, hall⟩
  have hsound : d.request.IsSound :=
    PreparedRequest.isSound_of_prepare ((tends_reached _).isSound 0) hprepare
  have hrebound : Moves (fun _ => True) (acceptedAfter removal)
      ((acceptedAfter removal).after rebinding) := by
    have hsubmitted : Moves (fun _ => True) (reached (regionRun ++ removal))
        (acceptedAfter removal) := moves_submit _ 0 7 _ trivial fun _ _ => trivial
    have haccepted := (reachable_reached (regionRun ++ removal)).moves hsubmitted
    exact haccepted.sound.moves_after rebinding
  have hrun := hrebound.trans (moves_runAt _ 0 (fun _ => trivial) fun _ => trivial)
  rcases hall _ _ (Moves.refl _) hrebound with ⟨hfirst, hsecond, _⟩
  rcases hfirst.has.course_runAt hsound (Moves.refl _)
    (show (acceptedAfter []).queue[0]? = _ by rw [hn]; rfl) (by rw [hn]; rfl) (by rw [hk]; decide)
    with ⟨start, next, hcourse, hdirectory, hallocators⟩
  rcases hsecond.has.course_runAt hsound hrebound
    (show ((acceptedAfter removal).after rebinding).queue[0]? = _ by rw [hn]; rfl)
    (by rw [hn]; rfl) (by rw [hk]; decide)
    with ⟨start', next', hcourse', hdirectory', hallocators'⟩
  have hsame : SameStart d start start' := by
    constructor
    · intro input range _ _ i _
      rw [hdirectory, hdirectory']
      rfl
    · unfold Detached.slots allocator
      rw [hallocators, hallocators']
      rfl
  have halike := (hall _ _ hcourse.moves hrun).2.2 start next start' next' hcourse hcourse' hsame
  have hends : SameEnds d.number ((acceptedAfter []).runAt 0)
      (((acceptedAfter removal).after rebinding).runAt 0) := by
    have hended : ((acceptedAfter []).runAt 0).endings =
        [((acceptedAfter []).runAt 0).endings.headD default] := rfl
    have hended' : (((acceptedAfter removal).after rebinding).runAt 0).endings =
        [((acceptedAfter []).runAt 0).endings.headD default] := rfl
    intro x x' hx hx' _ _
    rw [hended] at hx
    rw [hended'] at hx'
    rw [List.mem_singleton.1 hx, List.mem_singleton.1 hx']
  have hcalled : ((acceptedAfter []).runAt 0).completions =
      [((acceptedAfter []).runAt 0).completions.headD default] := rfl
  have hcalled' : (((acceptedAfter removal).after rebinding).runAt 0).completions =
      [(((acceptedAfter removal).after rebinding).runAt 0).completions.headD default] := rfl
  have hmem := List.mem_singleton_self (((acceptedAfter []).runAt 0).completions.headD default)
  have hmem' := List.mem_singleton_self
    ((((acceptedAfter removal).after rebinding).runAt 0).completions.headD default)
  rw [← hcalled] at hmem
  rw [← hcalled'] at hmem'
  rcases halike.responses hends _ _ hmem hmem' (by rw [hn]; rfl) (by rw [hn]; rfl) rfl rfl with
    ⟨result, hresponse, hresponse'⟩
  exact ⟨hmade, rfl, _, _, hmem, hmem', hresponse.trans hresponse'.symm, rfl, rfl⟩

end Engine

end InferenceEngine
