import InferenceEngine.Proofs.Execution.Answers
import InferenceEngine.Proofs.Memory.Holders
import InferenceEngine.Proofs.Regions.Writes
import InferenceEngine.Proofs.Runs.Frames

/-!
# The course of an execution

An execution has two moments at which a request meets its surroundings.  When it begins, its inputs
are read and its slots are asked for; when it has ended, its slots are delivered.  What comes of
either moment is a function of the request itself and of what it finds there: names of handles and
models do not occur in it any more.
-/

namespace InferenceEngine

/-!
# Functions of a request

The inputs of a sound request can be read, whatever the files hold.
-/

/-- The tensor of an input with the bytes that its buffers or its range have. -/
def PreparedInput.tensor (d : Directory) (input : PreparedInput) : InputTensor where
  spec := input.spec
  data :=
    match input.payload with
    | .buffers bs => bs.flatten
    | .shared range =>
      (List.range range.range.size).map fun i => range.handle.byte d (range.range.offset + i)

namespace PreparedRequest

/-- What comes of it when a request asks an allocator for its slots. -/
def allocated (request : PreparedRequest) (a : Allocator) : Execution.Allotment :=
  (Execution.allocate request.model.config.placement a [] request.outputs).1

def batch (request : PreparedRequest) (d : Directory) (slots : List OutputSlot) :
    ExecutionBatch where
  model := request.model.config
  version := request.model.version
  batchSize := request.batchSize
  inputs := request.inputs.map (PreparedInput.tensor d)
  outputs := slots

def check (request : PreparedRequest) (x : Ending) : Except Failure Unit :=
  x.result >>= fun _ => Execution.checkSlots request.model.config x.slots request.outputs

def answer (request : PreparedRequest) (x : Ending) :
    Except Failure (List (String × OutputStorage)) :=
  (request.check x).map fun _ =>
    List.zipWith OutputSlot.stored x.slots (request.outputs.map PreparedOutput.range?)

/-- What is delivered to which output when the backend of a request has ended. -/
def deliveries (request : PreparedRequest) (x : Ending) : List (OutputSlot × PreparedOutput) :=
  match request.check x with
  | .ok () => x.slots.zip request.outputs
  | .error _ => []

end PreparedRequest

namespace Execution

theorem gather_of_isSound {request : PreparedRequest} (h : request.IsSound) (d : Directory) :
    gather d request = .ok (request.inputs.map (PreparedInput.tensor d)) := by
  apply mapM_of_forall
  intro input hinput
  unfold PreparedInput.gather PreparedInput.tensor
  cases hpayload : input.payload with
  | buffers bs => rfl
  | shared range =>
      simp only
      rw [(h.input input hinput range hpayload).read d]
      rfl

/-- What is answered and delivered in the end is told by the request and its backend. -/
theorem conclude_of_ending {request : PreparedRequest} (h : request.IsSound) (m : Memory)
    (x : Ending) :
    (conclude m request.model.config request.outputs x.result x.slots).1 = request.answer x ∧
      (conclude m request.model.config request.outputs x.result x.slots).2.1.directory =
        m.directory.receive (request.deliveries x) := by
  unfold conclude PreparedRequest.answer PreparedRequest.deliveries PreparedRequest.check
  split
  · rename_i hchecked
    rw [hchecked]
    rcases bind_eq_ok hchecked with ⟨_, _, hslots⟩
    have hall := deliverable_of_checkSlots hslots h.output
    rcases deliver_of_deliverable (m := m) hall with ⟨⟨results, hresults⟩, hdirectory⟩
    constructor
    · rw [hresults, deliver_eq_ok (Prod.ext hresults rfl)]
      rfl
    · exact hdirectory
  · rename_i failure hfailure
    rw [hfailure]
    exact ⟨rfl, rfl⟩

end Execution

/-- An accepted request with all that it has been given to execute. -/
structure Detached where
  number : Nat
  /-- The number of its server. -/
  server : Nat
  /-- The number of the allocator that it gets its slots from. -/
  allocator : Nat
  request : PreparedRequest

namespace Detached

/-- What comes of it when a request asks for its slots as things stand. -/
def slots (d : Detached) (e : Engine) : Execution.Allotment :=
  d.request.allocated (e.allocator d.allocator)

/-- The response to a request that has come to a result in some time. -/
def response (d : Detached) (computeTime : Nat)
    (result : Except Failure (List (String × OutputStorage))) : Response :=
  .ofResult d.request d.allocator computeTime result

end Detached

namespace Engine

variable {deed : Deed} {e e' : Engine} {d : Detached}

/-!
# What is kept

A server keeps its allocator.
-/

/-- Whether an engine keeps a request as it was detached. -/
structure Has (e : Engine) (d : Detached) : Prop where
  lt : d.number < e.submissions.length
  home : d.server < e.servers.length
  server : (e.submission d.number).server = d.server
  request : (e.submission d.number).request = d.request
  allocator : (e.server d.server).allocator = d.allocator

theorem Has.responseTo (h : e.Has d) (computeTime : Nat)
    (result : Except Failure (List (String × OutputStorage))) :
    e.responseTo d.number computeTime result = d.response computeTime result := by
  unfold Engine.responseTo Detached.response
  rw [h.request, h.server, h.allocator]

theorem Has.memory (h : e.Has d) :
    (e.memory (e.submission d.number).server).allocator = e.allocator d.allocator := by
  unfold Engine.memory
  rw [h.server, h.allocator]

theorem Has.setMemory (h : e.Has d) (k : Nat) (m : Execution.Memory) (events : List Event) :
    ((e.setMemory k m).report events).Has d :=
  ⟨h.lt, h.home, h.server, h.request, h.allocator⟩

theorem Move.keepsAllocator (h : Move deed e e') {k : Nat} (hk : k < e.servers.length) :
    k < e'.servers.length ∧ (e'.server k).allocator = (e.server k).allocator := by
  have hspares : forall e' : Engine, e.Spares e' ->
      k < e'.servers.length ∧ (e'.server k).allocator = (e.server k).allocator := by
    intro e' hspares
    constructor
    · rw [hspares.servers]
      exact hk
    · rw [hspares.server k]
  have hmodify : forall (n : Nat) (f : Server -> Server),
      (f (e.server n)).allocator = (e.server n).allocator ->
        k < (e.modifyServer n f).servers.length ∧
          ((e.modifyServer n f).server k).allocator = (e.server k).allocator := by
    intro n f hf
    constructor
    · simpa [modifyServer] using hk
    · exact allocator_modifyServer hf k
  cases h with
  | schedule | close | directory | stops | create | addStats | addAllocator | useAllocator | enter
  | turn | dropResponse | ignore => exact ⟨hk, rfl⟩
  | addServer _ options allocator table hallocator htable =>
      constructor
      · simp only [Engine.addServer, List.length_append, List.length_singleton]
        omega
      · rw [server_addServer, if_neg (Nat.ne_of_lt hk)]
  | server _ n s hs => exact hmodify n _ hs.allocator
  | enroll _ server callback provider request hstate hprepare => exact hmodify server _ rfl
  | awaitSlot _ n hn => exact hmodify _ _ rfl
  | takeSlot _ e' n hn htake =>
      rcases takeSlot?_eq_some htake with ⟨free, rfl⟩
      exact hmodify _ _ rfl
  | gatherFails _ n failure hn hgather => exact hspares _ (spares_respond e n _)
  | allocateFails _ n failure a events hn hallocate =>
      have hset : e.Spares
          ((e.setMemory (e.submission n).server ⟨a, e.directory⟩).report events) :=
        Spares.of_parts rfl rfl rfl rfl rfl rfl rfl
      exact hspares _ (hset.trans (spares_respond _ n _))
  | leave _ n held next result slots hn hnext =>
      have hspared := spares_respond (e.takeSlots n result slots) n (e.outcome n result slots).1
      have hserver := hspared.server k
      constructor
      · show k < ((e.takeSlots n result slots).respond n _).servers.length
        rw [hspared.servers]
        exact hk
      · show (((e.takeSlots n result slots).respond n _).server k).allocator = _
        rw [hserver]
        rfl
  | unwind _ n slots a events hn hallocate =>
      have hgiven := spares_giveUp (e.forfeit n slots a events) n
      constructor
      · rw [hgiven.servers]
        exact hk
      · rw [hgiven.server k]
        rfl
  | cancel _ n hn => exact hspares _ (spares_giveUp e n)
  | comeBack _ n hn => exact hspares _ (spares_comeBack e n)

theorem Moves.keepsAllocator {also : Deed -> Prop} (h : Moves also e e') {k : Nat}
    (hk : k < e.servers.length) :
    k < e'.servers.length ∧ (e'.server k).allocator = (e.server k).allocator := by
  refine h.induct (P := fun e' => k < e'.servers.length ∧
    (e'.server k).allocator = (e.server k).allocator) ?_ ⟨hk, rfl⟩
  intro deed middle last _ hmove hmiddle
  rcases hmove.keepsAllocator hmiddle.1 with ⟨hlast, hallocator⟩
  exact ⟨hlast, hallocator.trans hmiddle.2⟩

theorem Move.has (h : Move deed e e') (k : e.Has d) : e'.Has d := by
  rcases h.keepsRequests d.number k.lt with ⟨hlt, hlasts⟩
  rcases h.keepsAllocator k.home with ⟨hhome, hallocator⟩
  refine ⟨hlt, hhome, ?_, ?_, hallocator.trans k.allocator⟩
  · rw [hlasts]
    exact k.server
  · rw [hlasts]
    exact k.request

theorem Moves.has {also : Deed -> Prop} (h : Moves also e e') (k : e.Has d) : e'.Has d :=
  h.induct (fun _ _ _ _ hmove hhas => hmove.has hhas) k

/-!
# The beginning

A request that has begun to execute in the meantime has begun at some moment.
-/

/-- Whether a request begins to execute as things stand.  It asks for its slots; if they are refused
it is answered with the failure, if the allocator panics it is given up, and else the backend of its
model gets its batch. -/
structure Begins (d : Detached) (start next : Engine) : Prop where
  granted : (start.submission d.number).phase = .granted
  move : exists deed : Deed, Move deed start next
  refused : forall failure : Failure, d.slots start = .failed failure ->
    exists c : Completion, c ∈ next.completions ∧ c.submission = d.number ∧
      c.isExecuted = true ∧ c.response = d.response c.computeTime (.error failure)
  panicked : forall slots : List OutputSlot, d.slots start = .panicked slots ->
    exists c : Completion, c ∈ next.completions ∧ c.submission = d.number ∧
      c.isExecuted = false ∧ c.response = d.response 0 (.error .cancelled)
  entered : forall slots : List OutputSlot, d.slots start = .made slots ->
    (d.number, d.request.batch start.directory slots) ∈ next.entries ∧
      (next.submission d.number).phase = .inBackend slots
        (d.request.model.backend.run d.number (d.request.batch start.directory slots))

def Begun (e : Engine) (n : Nat) : Prop :=
  (exists batch : ExecutionBatch, (n, batch) ∈ e.entries) ∨
    exists c : Completion, c ∈ e.completions ∧ c.submission = n ∧ c.isExecuted = true

theorem Begun.of_same {n : Nat} (h : e'.Begun n) (hentries : e'.entries = e.entries)
    (hcompletions : e'.completions = e.completions) : e.Begun n := by
  unfold Begun at h ⊢
  rw [← hentries, ← hcompletions]
  exact h

theorem Begun.of_other {n : Nat} (h : e'.Begun n) (hentries : e'.entries = e.entries)
    {c : Completion} (hcompletions : e'.completions = e.completions ++ [c])
    (hc : c.submission = n -> c.isExecuted = false) : e.Begun n := by
  rcases h with ⟨batch, hbatch⟩ | ⟨made, hmade, hn, hexecuted⟩
  · rw [hentries] at hbatch
    exact .inl ⟨batch, hbatch⟩
  · rw [hcompletions] at hmade
    rcases List.mem_append.1 hmade with hold | hnew
    · exact .inr ⟨made, hold, hn, hexecuted⟩
    · rw [List.mem_singleton.1 hnew] at hn hexecuted
      rw [hc hn] at hexecuted
      cases hexecuted

theorem Has.slots (h : e.Has d) : d.slots e =
    (Execution.allocate (e.submission d.number).request.model.config.placement
      (e.memory (e.submission d.number).server).allocator []
      (e.submission d.number).request.outputs).1 := by
  rw [h.memory, h.request]
  rfl

theorem Has.begins_refused (h : e.Has d) (hgranted : (e.submission d.number).phase = .granted)
    {failure : Failure} {a : Allocator} {events : List Event}
    (hallocate : Execution.allocate (e.submission d.number).request.model.config.placement
      (e.memory (e.submission d.number).server).allocator []
      (e.submission d.number).request.outputs = (.failed failure, a, events)) :
    Begins d e (((e.setMemory (e.submission d.number).server ⟨a, e.directory⟩).report
      events).respond d.number (.error failure)) := by
  have hslots := h.slots
  rw [hallocate] at hslots
  refine ⟨hgranted, ⟨_, .allocateFails e d.number failure a events hgranted hallocate⟩, ?_, ?_, ?_⟩
  · intro other hother
    rw [hslots] at hother
    cases hother
    rcases completions_respond
      ((e.setMemory (e.submission d.number).server ⟨a, e.directory⟩).report events) d.number
      (.error failure) with ⟨live, ready, hcompletions⟩
    have hset := h.setMemory (e.submission d.number).server ⟨a, e.directory⟩ events
    rw [hcompletions]
    exact ⟨_, List.mem_append_right _ (List.mem_singleton_self _), rfl, rfl,
      hset.responseTo _ (.error failure)⟩
  · intro slots hother
    rw [hslots] at hother
    cases hother
  · intro slots hother
    rw [hslots] at hother
    cases hother

theorem Has.begins_panicked (h : e.Has d) (hgranted : (e.submission d.number).phase = .granted)
    {slots : List OutputSlot} {a : Allocator} {events : List Event}
    (hallocate : Execution.allocate (e.submission d.number).request.model.config.placement
      (e.memory (e.submission d.number).server).allocator []
      (e.submission d.number).request.outputs = (.panicked slots, a, events)) :
    Begins d e ((e.forfeit d.number slots a events).giveUp d.number) := by
  have hslots := h.slots
  rw [hallocate] at hslots
  refine ⟨hgranted, ⟨_, .unwind e d.number slots a events hgranted hallocate⟩, ?_, ?_, ?_⟩
  · intro failure hother
    rw [hslots] at hother
    cases hother
  · intro other hother
    rcases completions_giveUp (e.forfeit d.number slots a events) d.number with
      ⟨live, ready, hcompletions⟩
    have hset : (e.forfeit d.number slots a events).Has d :=
      ⟨h.lt, h.home, h.server, h.request, h.allocator⟩
    rw [hcompletions]
    exact ⟨_, List.mem_append_right _ (List.mem_singleton_self _), rfl, rfl,
      hset.responseTo 0 (.error .cancelled)⟩
  · intro other hother
    rw [hslots] at hother
    cases hother

theorem Has.begins_entered (h : e.Has d) (hsound : d.request.IsSound)
    (hgranted : (e.submission d.number).phase = .granted) {inputs : List InputTensor}
    {slots : List OutputSlot} {a : Allocator} {events : List Event}
    (hgather : Execution.gather e.directory (e.submission d.number).request = .ok inputs)
    (hallocate : Execution.allocate (e.submission d.number).request.model.config.placement
      (e.memory (e.submission d.number).server).allocator []
      (e.submission d.number).request.outputs = (.made slots, a, events)) :
    Begins d e (((e.setMemory (e.submission d.number).server ⟨a, e.directory⟩).report
      events).enterBackend d.number ⟨(e.submission d.number).request.model.config,
        (e.submission d.number).request.model.version,
        (e.submission d.number).request.batchSize, inputs, slots⟩) := by
  have hslots := h.slots
  rw [hallocate] at hslots
  have hmove := Move.enter e d.number inputs slots a events hgranted hgather hallocate
  rw [h.request, Execution.gather_of_isSound hsound] at hgather
  cases hgather
  refine ⟨hgranted, ⟨_, hmove⟩, ?_, ?_, ?_⟩
  · intro failure hother
    rw [hslots] at hother
    cases hother
  · intro other hother
    rw [hslots] at hother
    cases hother
  · intro other hother
    rw [hslots] at hother
    cases hother
    have hset := h.setMemory (e.submission d.number).server ⟨a, e.directory⟩ events
    rw [entries_enterBackend, phase_enterBackend hset.lt, if_pos rfl, hset.request, h.request]
    exact ⟨List.mem_append_right _ (List.mem_singleton_self _), rfl⟩

theorem Has.begins_carryOut {also : Deed -> Prop} (h : e.Has d) (hsound : d.request.IsSound)
    (hgranted : (e.submission d.number).phase = .granted) :
    exists next : Engine, Begins d e next ∧ Moves also next (e.carryOut d.number) := by
  have hgather := Execution.gather_of_isSound hsound e.directory
  rw [← h.request] at hgather
  rcases hallocate : Execution.allocate (e.submission d.number).request.model.config.placement
    (e.memory (e.submission d.number).server).allocator []
    (e.submission d.number).request.outputs with ⟨result, a, events⟩
  simp only [carryOut]
  rw [hgather, hallocate]
  cases result with
  | failed failure =>
      exact ⟨_, h.begins_refused hgranted hallocate,
        Moves.one (.comeBack _ d.number (mem_calling_respond _ d.number _))⟩
  | panicked slots =>
      exact ⟨_, h.begins_panicked hgranted hallocate,
        Moves.one (.comeBack _ d.number (mem_calling_giveUp _ d.number))⟩
  | made slots =>
      exact ⟨_, h.begins_entered hsound hgranted hgather hallocate,
        moves_proceed _ d.number slots _ (phase_setPhase_self h.lt)⟩

theorem Move.begins (h : Move deed e e') (he : e.Reachable) (hd : e.Has d)
    (hsound : d.request.IsSound) (hbegun : e'.Begun d.number) :
    e.Begun d.number ∨ Begins d e e' := by
  cases h with
  | schedule | close | directory | stops | addStats | addServer | server | addAllocator
  | useAllocator | enroll | awaitSlot | turn | dropResponse | ignore => exact .inl hbegun
  | create _ config version polled =>
      have hentries : (e.record (.create config version polled)).entries = e.entries := by
        simp [entries, record]
      exact .inl (hbegun.of_same hentries rfl)
  | takeSlot _ e' n hn htake =>
      rcases takeSlot?_eq_some htake with ⟨free, rfl⟩
      exact .inl hbegun
  | gatherFails _ n failure hn hgather =>
      rcases completions_respond e n (.error failure) with ⟨live, ready, hcompletions⟩
      have hentries := entries_of_calls (spares_respond e n (.error failure)).calls
      refine .inl (hbegun.of_other hentries hcompletions ?_)
      intro hsame
      rw [show n = d.number from hsame, hd.request, Execution.gather_of_isSound hsound] at hgather
      cases hgather
  | allocateFails _ n failure a events hn hallocate =>
      by_cases hsame : n = d.number
      · rw [hsame] at hn hallocate ⊢
        exact .inr (hd.begins_refused hn hallocate)
      · rcases completions_respond
          ((e.setMemory (e.submission n).server ⟨a, e.directory⟩).report events) n
          (.error failure) with ⟨live, ready, hcompletions⟩
        have hentries := entries_of_calls (spares_respond
          ((e.setMemory (e.submission n).server ⟨a, e.directory⟩).report events) n
          (.error failure)).calls
        exact .inl (Begun.of_other hbegun hentries hcompletions fun hn => absurd hn hsame)
  | unwind _ n slots a events hn hallocate =>
      rcases completions_giveUp (e.forfeit n slots a events) n with ⟨live, ready, hcompletions⟩
      have hentries := entries_of_calls (spares_giveUp (e.forfeit n slots a events) n).calls
      exact .inl (Begun.of_other hbegun hentries hcompletions fun _ => rfl)
  | enter _ n inputs slots a events hn hgather hallocate =>
      by_cases hsame : n = d.number
      · rw [hsame] at hn hgather hallocate ⊢
        exact .inr (hd.begins_entered hsound hn hgather hallocate)
      · rcases hbegun with ⟨batch, hbatch⟩ | hcalled
        · rw [entries_enterBackend] at hbatch
          rcases List.mem_append.1 hbatch with hold | hnew
          · exact .inl (.inl ⟨batch, hold⟩)
          · cases List.mem_singleton.1 hnew
            exact absurd rfl hsame
        · exact .inl (.inr hcalled)
  | leave _ n held next result slots hn hnext =>
      rcases completions_respond (e.takeSlots n result slots) n (e.outcome n result slots).1 with
        ⟨live, ready, hcompletions⟩
      have hentries := entries_of_calls
        (spares_respond (e.takeSlots n result slots) n (e.outcome n result slots).1).calls
      by_cases hsame : n = d.number
      · rcases he.carried.inside n (by rw [hn]; rfl) with ⟨batch, hbatch, _⟩
        rw [hsame] at hbatch
        exact .inl (.inl ⟨batch, hbatch⟩)
      · exact .inl (Begun.of_other hbegun hentries hcompletions fun hn => absurd hn hsame)
  | cancel _ n hn =>
      rcases completions_giveUp e n with ⟨live, ready, hcompletions⟩
      have hentries := entries_of_calls (spares_giveUp e n).calls
      exact .inl (hbegun.of_other hentries hcompletions fun _ => rfl)
  | comeBack _ n hn =>
      have hentries := entries_of_calls (spares_comeBack e n).calls
      exact .inl (hbegun.of_same hentries (completions_comeBack e n))

variable {also : Deed -> Prop}

theorem Moves.begins (h : Moves also e e') (he : e.Reachable) (hd : e.Has d)
    (hsound : d.request.IsSound) (hnot : ¬ e.Begun d.number) (hbegun : e'.Begun d.number) :
    exists start next : Engine, Moves also e start ∧ Begins d start next ∧ Moves also next e' := by
  induction h with
  | refl => exact absurd hbegun hnot
  | tail hmoves hlast ih =>
      rename_i middle last
      have hone : Moves also middle last := Relation.ReflTransGen.single hlast
      rcases hlast with ⟨deed, _, hmove⟩
      rcases hmove.begins (he.moves hmoves) (Moves.has hmoves hd) hsound hbegun with
        hbefore | hnow
      · rcases ih hbefore with ⟨start, next, hstart, hbegins, hrest⟩
        exact ⟨start, next, hstart, hbegins, hrest.trans hone⟩
      · exact ⟨middle, last, hmoves, hnow, Moves.refl last⟩

/-!
# The end

Leaving a backend is one of the ways in which callbacks come to be called.
-/

/-- Whether the backend of a request ends now: what it leaves is delivered, and the request is
answered. -/
structure Ends (d : Detached) (x : Ending) (before after : Engine) : Prop where
  move : exists deed : Deed, Move deed before after
  ended : after.endings = before.endings ++ [x]
  written : after.directory = before.directory.receive (d.request.deliveries x)
  answered : exists c : Completion, c ∈ after.completions ∧ c.submission = d.number ∧
    c.isExecuted = true ∧ c.response = d.response c.computeTime (d.request.answer x)

theorem Has.completions_leaveBackend (h : e.Has d) (hsound : d.request.IsSound)
    (result : Except Failure Unit) (slots : List OutputSlot) : exists c : Completion,
      (e.leaveBackend d.number result slots).completions = e.completions ++ [c] ∧
      c.submission = d.number ∧ c.isExecuted = true ∧
      c.response = d.response c.computeTime (d.request.answer ⟨d.number, result, slots⟩) := by
  have htaken : (e.takeSlots d.number result slots).Has d :=
    ⟨h.lt, h.home, h.server, h.request, h.allocator⟩
  have hanswer : (e.outcome d.number result slots).1 =
      d.request.answer ⟨d.number, result, slots⟩ := by
    simp only [outcome]
    rw [h.request]
    exact (Execution.conclude_of_ending hsound _ ⟨d.number, result, slots⟩).1
  rcases completions_respond (e.takeSlots d.number result slots) d.number
    (e.outcome d.number result slots).1 with ⟨live, ready, hcompletions⟩
  refine ⟨_, hcompletions, rfl, rfl, ?_⟩
  rw [← hanswer]
  exact htaken.responseTo _ _

theorem Has.ends (h : e.Has d) (hsound : d.request.IsSound) {held : List OutputSlot}
    {next : Behaviour} {result : Except Failure Unit} {slots : List OutputSlot}
    (hinside : (e.submission d.number).phase = .inBackend held next)
    (hnext : next.EndsWith (e.submission d.number).request.model.config.name result slots) :
    Ends d ⟨d.number, result, slots⟩ e (e.leaveBackend d.number result slots) := by
  have hspares := spares_respond (e.takeSlots d.number result slots) d.number
    (e.outcome d.number result slots).1
  have hreplies := replies_respond (e.takeSlots d.number result slots) d.number
    (e.outcome d.number result slots).1
  refine ⟨⟨_, .leave e d.number held next result slots hinside hnext⟩, hspares.endings, ?_, ?_⟩
  · refine hreplies.directory.trans ?_
    show (e.outcome d.number result slots).2.1.directory = _
    simp only [outcome]
    rw [h.request]
    exact (Execution.conclude_of_ending hsound _ ⟨d.number, result, slots⟩).2
  · rcases h.completions_leaveBackend hsound result slots with ⟨c, hcompletions, hc⟩
    rw [hcompletions]
    exact ⟨c, List.mem_append_right _ (List.mem_singleton_self _), hc⟩

theorem Move.ends (h : Move deed e e') (hd : e.Has d) (hsound : d.request.IsSound) {x : Ending}
    (hn : x.submission = d.number) (hx : x ∈ e'.endings) : x ∈ e.endings ∨ Ends d x e e' := by
  cases h with
  | schedule | close | directory | stops | create | addStats | addServer | server | addAllocator
  | useAllocator | enroll | awaitSlot | enter | turn | dropResponse | ignore => exact .inl hx
  | takeSlot _ e' n _ htake =>
      rcases takeSlot?_eq_some htake with ⟨free, rfl⟩
      exact .inl hx
  | gatherFails _ n failure _ _ =>
      rw [(spares_respond e n _).endings] at hx
      exact .inl hx
  | allocateFails _ n failure a events _ _ =>
      rw [(spares_respond _ n _).endings] at hx
      exact .inl hx
  | leave _ n held next result slots hinside hnext =>
      have hendings : (e.leaveBackend n result slots).endings = e.endings ++ [⟨n, result, slots⟩] :=
        (spares_respond (e.takeSlots n result slots) n (e.outcome n result slots).1).endings
      rw [hendings] at hx
      rcases List.mem_append.1 hx with hold | hnew
      · exact .inl hold
      · rw [List.mem_singleton.1 hnew] at hn ⊢
        simp only at hn
        rw [hn] at hinside hnext ⊢
        exact .inr (hd.ends hsound hinside hnext)
  | unwind _ n slots a events _ _ =>
      rw [(spares_giveUp (e.forfeit n slots a events) n).endings] at hx
      exact .inl hx
  | cancel _ n _ =>
      rw [(spares_giveUp e n).endings] at hx
      exact .inl hx
  | comeBack _ n _ =>
      rw [(spares_comeBack e n).endings] at hx
      exact .inl hx

theorem Moves.ends (h : Moves also e e') (hd : e.Has d) (hsound : d.request.IsSound) {x : Ending}
    (hn : x.submission = d.number) (hnot : x ∉ e.endings) (hx : x ∈ e'.endings) :
    exists before after : Engine, Moves also e before ∧ Ends d x before after ∧
      Moves also after e' := by
  induction h with
  | refl => exact absurd hx hnot
  | tail hmoves hlast ih =>
      rename_i middle last
      have hone : Moves also middle last := Relation.ReflTransGen.single hlast
      rcases hlast with ⟨deed, _, hmove⟩
      rcases hmove.ends (Moves.has hmoves hd) hsound hn hx with hbefore | hnow
      · rcases ih hbefore with ⟨before, after, hbefore, hends, hrest⟩
        exact ⟨before, after, hbefore, hends, hrest.trans hone⟩
      · exact ⟨middle, last, hmoves, hnow, Moves.refl last⟩

/-!
# What is on record
-/

structure Records (e e' : Engine) : Prop where
  entries : forall x, x ∈ e.entries -> x ∈ e'.entries
  endings : forall x, x ∈ e.endings -> x ∈ e'.endings
  completions : forall c, c ∈ e.completions -> c ∈ e'.completions

theorem Move.records (h : Move deed e e') : e.Records e' := by
  have hcompletions : forall c, c ∈ e.completions -> c ∈ e'.completions := by
    intro c hc
    rcases h.completions with hsame | ⟨made, _, hmade, _⟩
    · rw [hsame]
      exact hc
    · rw [hmade]
      exact List.mem_append_left _ hc
  have hspares : e.Spares e' -> e.Records e' := by
    intro hspares
    refine ⟨?_, ?_, hcompletions⟩
    · intro x hx
      rw [entries_of_calls hspares.calls]
      exact hx
    · intro x hx
      rw [hspares.endings]
      exact hx
  cases h with
  | schedule | close | directory | stops | addStats | addServer | server | addAllocator
  | useAllocator | enroll | awaitSlot | turn | dropResponse | ignore =>
      exact ⟨fun _ hx => hx, fun _ hx => hx, hcompletions⟩
  | create _ config version polled =>
      refine ⟨?_, fun _ hx => hx, hcompletions⟩
      intro x hx
      simpa [entries, record] using hx
  | takeSlot _ e' n _ htake =>
      rcases takeSlot?_eq_some htake with ⟨free, rfl⟩
      exact ⟨fun _ hx => hx, fun _ hx => hx, hcompletions⟩
  | gatherFails _ n failure _ _ => exact hspares (spares_respond e n _)
  | allocateFails _ n failure a events _ _ =>
      have hset : e.Spares
          ((e.setMemory (e.submission n).server ⟨a, e.directory⟩).report events) :=
        Spares.of_parts rfl rfl rfl rfl rfl rfl rfl
      exact hspares (hset.trans (spares_respond _ n _))
  | enter _ n inputs slots a events _ _ _ =>
      refine ⟨?_, fun _ hx => hx, hcompletions⟩
      intro x hx
      rw [entries_enterBackend]
      exact List.mem_append_left _ hx
  | leave _ n held next result slots _ _ =>
      have hspared := spares_respond (e.takeSlots n result slots) n (e.outcome n result slots).1
      refine ⟨?_, ?_, hcompletions⟩
      · intro x hx
        show x ∈ ((e.takeSlots n result slots).respond n _).entries
        rw [entries_of_calls hspared.calls]
        exact hx
      · intro x hx
        show x ∈ ((e.takeSlots n result slots).respond n _).endings
        rw [hspared.endings]
        exact List.mem_append_left _ hx
  | unwind _ n slots a events _ _ =>
      have hgiven := spares_giveUp (e.forfeit n slots a events) n
      refine ⟨?_, ?_, hcompletions⟩
      · intro x hx
        rw [entries_of_calls hgiven.calls]
        exact hx
      · intro x hx
        rw [hgiven.endings]
        exact hx
  | cancel _ n _ => exact hspares (spares_giveUp e n)
  | comeBack _ n _ => exact hspares (spares_comeBack e n)

theorem Moves.records (h : Moves also e e') : e.Records e' := by
  refine h.induct (P := e.Records) ?_ ⟨fun _ hx => hx, fun _ hx => hx, fun _ hx => hx⟩
  intro deed middle last _ hmove hmiddle
  have hlast := hmove.records
  exact ⟨fun x hx => hlast.entries x (hmiddle.entries x hx),
    fun x hx => hlast.endings x (hmiddle.endings x hx),
    fun x hx => hlast.completions x (hmiddle.completions x hx)⟩

/-!
# What has come of it

The batch of a request is told by the moment at which it begins to execute.
-/

theorem Reachable.closed_of_called (h : e.Reachable) {c : Completion} (hc : c ∈ e.completions) :
    (e.submission c.submission).phase.isOpen = false := by
  have hcalled := h.tally.called c.submission (h.tally.known c hc).1
  by_contra hopen
  rw [Bool.not_eq_false] at hopen
  rw [hopen, if_pos rfl] at hcalled
  have hnone := List.countP_eq_zero.1 hcalled c hc
  exact hnone (decide_eq_true rfl)

theorem Moves.not_entered (h : Moves also e e') (he : e.Reachable) {c : Completion}
    (hc : c ∈ e.completions) {batch : ExecutionBatch} (hnot : (c.submission, batch) ∉ e.entries) :
    (c.submission, batch) ∉ e'.entries := by
  intro hentered
  rcases h.starts hnot hentered with ⟨start, hstart, _, hstarts⟩
  have hclosed := (he.moves hstart).closed_of_called (hstart.records.completions c hc)
  rw [hstarts.granted] at hclosed
  cases hclosed

/-- Whether the callback of a request has been called, if it has, because it was given up, or with
what its backend has left; or else its backend has not been called. -/
structure Accounted (e : Engine) (d : Detached) : Prop where
  dropped : forall c : Completion, c ∈ e.completions -> c.submission = d.number ->
    c.isExecuted = false -> c.response = d.response 0 (.error .cancelled)
  executed : forall c : Completion, c ∈ e.completions -> c.submission = d.number ->
    c.isExecuted = true -> (forall batch : ExecutionBatch, (d.number, batch) ∉ e.entries) ∨
      exists x : Ending, x ∈ e.endings ∧ x.submission = d.number ∧
        c.response = d.response c.computeTime (d.request.answer x)

theorem Move.answers (h : Move deed e e') (he : e.Reachable) (hd : e.Has d)
    (hsound : d.request.IsSound) {c : Completion} (hc : c ∈ e'.completions)
    (hn : c.submission = d.number) :
    c ∈ e.completions ∨
      (c.isExecuted = false ∧ c.response = d.response 0 (.error .cancelled)) ∨
      (c.isExecuted = true ∧ forall batch : ExecutionBatch, (d.number, batch) ∉ e'.entries) ∨
      (c.isExecuted = true ∧ exists x : Ending, x ∈ e'.endings ∧ x.submission = d.number ∧
        c.response = d.response c.computeTime (d.request.answer x)) := by
  -- A request that only holds a slot has not been handed over.
  have hfresh : forall (e' : Engine) (n : Nat), (e.submission n).phase = .granted ->
      e'.entries = e.entries -> n = d.number ->
      forall batch : ExecutionBatch, (d.number, batch) ∉ e'.entries := by
    intro e' n hgranted hentries hsame batch hentered
    rw [hentries] at hentered
    have hbefore := (he.carried.entered _ batch hentered).2
    rw [← hsame, hgranted] at hbefore
    cases hbefore
  have hold : e'.completions = e.completions -> c ∈ e.completions := by
    intro hsame
    rw [← hsame]
    exact hc
  cases h with
  | schedule | close | directory | stops | create | addStats | addServer | server | addAllocator
  | useAllocator | enroll | awaitSlot | enter | turn | dropResponse | ignore => exact .inl hc
  | takeSlot _ e' n _ htake =>
      rcases takeSlot?_eq_some htake with ⟨free, rfl⟩
      exact .inl hc
  | gatherFails _ n failure hgranted _ =>
      rcases completions_respond e n (.error failure) with ⟨live, ready, hcompletions⟩
      rw [hcompletions] at hc
      rcases List.mem_append.1 hc with hc | hc
      · exact .inl hc
      · rw [List.mem_singleton.1 hc] at hn ⊢
        exact .inr (.inr (.inl ⟨rfl, hfresh _ n hgranted
          (entries_of_calls (spares_respond e n _).calls) hn⟩))
  | allocateFails _ n failure a events hgranted _ =>
      rcases completions_respond
        ((e.setMemory (e.submission n).server ⟨a, e.directory⟩).report events) n (.error failure)
        with ⟨live, ready, hcompletions⟩
      rw [hcompletions] at hc
      rcases List.mem_append.1 hc with hc | hc
      · exact .inl hc
      · rw [List.mem_singleton.1 hc] at hn ⊢
        exact .inr (.inr (.inl ⟨rfl, hfresh _ n hgranted
          (entries_of_calls (spares_respond _ n _).calls) hn⟩))
  | leave _ n held next result slots hinside hnext =>
      by_cases hsame : n = d.number
      · rw [hsame] at hinside hnext hc ⊢
        rcases hd.completions_leaveBackend hsound result slots with
          ⟨made, hcompletions, hmade, hexecuted, hresponse⟩
        rw [hcompletions] at hc
        rcases List.mem_append.1 hc with hc | hc
        · exact .inl hc
        · rw [List.mem_singleton.1 hc]
          refine .inr (.inr (.inr ⟨hexecuted, ⟨d.number, result, slots⟩, ?_, rfl, hresponse⟩))
          rw [(hd.ends hsound hinside hnext).ended]
          exact List.mem_append_right _ (List.mem_singleton_self _)
      · rcases completions_respond (e.takeSlots n result slots) n (e.outcome n result slots).1 with
          ⟨live, ready, hcompletions⟩
        have hall : (e.leaveBackend n result slots).completions = _ := hcompletions
        rw [hall] at hc
        rcases List.mem_append.1 hc with hc | hc
        · exact .inl hc
        · rw [List.mem_singleton.1 hc] at hn
          exact absurd hn hsame
  | cancel _ n hn' =>
      rcases completions_giveUp e n with ⟨live, ready, hcompletions⟩
      rw [hcompletions] at hc
      rcases List.mem_append.1 hc with hc | hc
      · exact .inl hc
      · rw [List.mem_singleton.1 hc] at hn ⊢
        simp only at hn
        rw [hn]
        exact .inr (.inl ⟨rfl, hd.responseTo 0 (.error .cancelled)⟩)
  | unwind _ n slots a events hgranted _ =>
      rcases completions_giveUp (e.forfeit n slots a events) n with ⟨live, ready, hcompletions⟩
      have hset : (e.forfeit n slots a events).Has d :=
        ⟨hd.lt, hd.home, hd.server, hd.request, hd.allocator⟩
      rw [hcompletions] at hc
      rcases List.mem_append.1 hc with hc | hc
      · exact .inl hc
      · rw [List.mem_singleton.1 hc] at hn ⊢
        simp only at hn
        rw [hn]
        rw [hn] at hset
        exact .inr (.inl ⟨rfl, hset.responseTo 0 (.error .cancelled)⟩)
  | comeBack _ n _ => exact .inl (hold (completions_comeBack e n))

theorem Move.accounted (h : Move deed e e') (he : e.Reachable) (hd : e.Has d)
    (hsound : d.request.IsSound) (k : e.Accounted d) : e'.Accounted d := by
  have hone : Moves (fun _ => True) e e' := Moves.of_also trivial h
  constructor
  · intro c hc hn hexecuted
    rcases h.answers he hd hsound hc hn with
      hold | ⟨_, hresponse⟩ | ⟨hother, _⟩ | ⟨hother, _⟩
    · exact k.dropped c hold hn hexecuted
    · exact hresponse
    · rw [hexecuted] at hother
      cases hother
    · rw [hexecuted] at hother
      cases hother
  · intro c hc hn hexecuted
    rcases h.answers he hd hsound hc hn with
      hold | ⟨hother, _⟩ | ⟨_, hnone⟩ | ⟨_, hended⟩
    · rcases k.executed c hold hn hexecuted with hnone | ⟨x, hx, hended⟩
      · left
        intro batch
        rw [← hn]
        exact hone.not_entered he hold (by rw [hn]; exact hnone batch)
      · exact .inr ⟨x, h.records.endings x hx, hended⟩
    · rw [hexecuted] at hother
      cases hother
    · exact .inl hnone
    · exact .inr hended

theorem Moves.accounted (h : Moves also e e') (he : e.Reachable) (hd : e.Has d)
    (hsound : d.request.IsSound) (k : e.Accounted d) : e'.Accounted d := by
  have hall : e'.Has d ∧ e'.Accounted d := by
    refine h.induct_of_reachable (P := fun e => e.Has d ∧ e.Accounted d) ?_ he ⟨hd, k⟩
    intro deed middle last _ hreachable hmove hmiddle
    exact ⟨hmove.has hmiddle.1, hmove.accounted hreachable hmiddle.1 hsound hmiddle.2⟩
  exact hall.2

theorem Begins.batch {start next : Engine} (h : Begins d start next) (hstart : start.Reachable)
    (hd : start.Has d) (hrest : Moves also next e) {batch : ExecutionBatch}
    (hentered : (d.number, batch) ∈ e.entries) : exists slots : List OutputSlot,
      d.slots start = .made slots ∧ batch = d.request.batch start.directory slots := by
  rcases h.move with ⟨deed, hmove⟩
  have hnext : next.Reachable := hstart.moves (@Moves.of_also (fun _ => True) _ _ _ trivial hmove)
  -- A request whose callback has been called at once is not handed over any more.
  have hnever : forall c : Completion, c ∈ next.completions -> c.submission = d.number ->
      (forall slots : List OutputSlot, d.slots start ≠ .made slots) -> False := by
    intro c hc hn hnone
    have hnot : (c.submission, batch) ∉ next.entries := by
      rw [hn]
      intro hearly
      rcases hmove.starts hearly with hbefore | hstarts
      · have hentered := (hstart.carried.entered _ batch hbefore).2
        rw [h.granted] at hentered
        cases hentered
      · rcases hstarts.allocated with ⟨a, events, hallocated⟩
        apply hnone batch.outputs
        rw [hd.slots, hallocated]
    rw [← hn] at hentered
    exact hrest.not_entered hnext hc hnot hentered
  cases hslots : d.slots start with
  | made slots =>
      have hnow := hrest.records.entries _ (h.entered slots hslots).1
      have honce := (hnext.moves hrest).entered_once hnow
      have hmem : (d.number, batch) ∈ e.entries.filter fun x => x.1 = d.number :=
        List.mem_filter.2 ⟨hentered, decide_eq_true rfl⟩
      rw [honce] at hmem
      cases List.mem_singleton.1 hmem
      exact ⟨slots, rfl, rfl⟩
  | failed failure =>
      rcases h.refused failure hslots with ⟨c, hc, hn, _⟩
      exact (hnever c hc hn fun slots hmade => by cases hslots.symm.trans hmade).elim
  | panicked slots =>
      rcases h.panicked slots hslots with ⟨c, hc, hn, _⟩
      exact (hnever c hc hn fun slots hmade => by cases hslots.symm.trans hmade).elim

/-- The response to a request is told by the moment at which it begins to execute and by what its
backend has left. -/
theorem Begins.response {start next : Engine} (h : Begins d start next) (hstart : start.Reachable)
    (hrest : Moves also next e) (k : e.Accounted d) {c : Completion} (hc : c ∈ e.completions)
    (hn : c.submission = d.number) (hexecuted : c.isExecuted = true) :
    (exists failure : Failure, d.slots start = .failed failure ∧
      c.response = d.response c.computeTime (.error failure)) ∨
    exists slots : List OutputSlot, d.slots start = .made slots ∧
      exists x : Ending, x ∈ e.endings ∧ x.submission = d.number ∧
        c.response = d.response c.computeTime (d.request.answer x) := by
  rcases h.move with ⟨deed, hmove⟩
  have hnext : next.Reachable := hstart.moves (@Moves.of_also (fun _ => True) _ _ _ trivial hmove)
  cases hslots : d.slots start with
  | made slots =>
      rcases k.executed c hc hn hexecuted with hnone | hended
      · exact absurd (hrest.records.entries _ (h.entered slots hslots).1) (hnone _)
      · exact .inr ⟨slots, rfl, hended⟩
  | panicked slots =>
      rcases h.panicked slots hslots with ⟨made, hmade, hown, hgiven, _⟩
      have hsame := (hnext.moves hrest).eq_of_called (hrest.records.completions made hmade) hc
        (hn.trans hown.symm)
      rw [hsame, hgiven] at hexecuted
      cases hexecuted
  | failed failure =>
      rcases h.refused failure hslots with ⟨made, hmade, hown, _, hresponse⟩
      have hsame := (hnext.moves hrest).eq_of_called (hrest.records.completions made hmade) hc
        (hn.trans hown.symm)
      rw [hsame]
      exact .inl ⟨failure, rfl, hresponse⟩

end Engine

end InferenceEngine
