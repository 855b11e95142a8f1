import InferenceEngine.Proofs.Requests.Pinned

/-!
# Why an execution fails

The ranges of an accepted request lie inside their handles and these inside their regions, and both
keep their sizes; so the inputs can be read and the outputs can be written at any time, whatever has
become of the handles and the files.  An execution that fails has been refused its slots, or its
backend has failed, has panicked or has left a slot in the place of another.
-/

namespace InferenceEngine

namespace Execution

/-!
# Slots that are refused
-/

/-- How the slots for some outputs can fail to be had from an allocator: it refuses one of them, or
hands out a buffer of another size. -/
inductive Refuses (placement : Placement) :
    Allocator -> List PreparedOutput -> Failure -> Prop where
  | refused (a : Allocator) (output : PreparedOutput) (rest : List PreparedOutput)
      (failure : Failure)
      (h : (a.allocate placement.domain placement.region output.size).1 = .refused failure) :
      Refuses placement a (output :: rest) failure
  | otherSize (a a' : Allocator) (output : PreparedOutput) (rest : List PreparedOutput)
      (buffer : Buffer)
      (h : a.allocate placement.domain placement.region output.size = (.made buffer, a'))
      (hsize : buffer.size ≠ output.size) :
      Refuses placement a (output :: rest)
        (.allocatedLength buffer.size output.spec.name output.size)
  | later (a a' : Allocator) (output : PreparedOutput) (rest : List PreparedOutput)
      (buffer : Buffer) (failure : Failure)
      (h : a.allocate placement.domain placement.region output.size = (.made buffer, a'))
      (hsize : buffer.size = output.size) (hrest : Refuses placement a' rest failure) :
      Refuses placement a (output :: rest) failure

theorem refuses_of_allocate {placement : Placement} {a : Allocator} {slots : List OutputSlot}
    {outputs : List PreparedOutput} {failure : Failure}
    (h : (allocate placement a slots outputs).1 = .failed failure) :
    Refuses placement a outputs failure := by
  induction outputs generalizing a slots with
  | nil => cases h
  | cons output rest ih =>
      unfold allocate at h
      split at h
      · rename_i cause next hrefused
        cases h
        exact .refused a output rest failure (congrArg Prod.fst hrefused)
      · cases h
      · rename_i buffer next hbuffer
        by_cases hsize : buffer.size = output.size
        · simp only [if_pos hsize] at h
          exact .later a next output rest buffer failure hbuffer hsize (ih h)
        · simp only [if_neg hsize] at h
          cases h
          exact .otherSize a next output rest buffer hbuffer hsize

/-!
# Slots that are not in their places

A backend cannot lose a slot, so that one that fails the check has been moved.
-/

theorem checkPairs_eq_error {config : ModelConfig} {pairs : List (OutputSlot × PreparedOutput)}
    {failure : Failure} (h : checkPairs config pairs = .error failure) :
    exists (slot : OutputSlot) (output : PreparedOutput), (slot, output) ∈ pairs ∧
      isInPlace config.placement slot output = false ∧
      failure = .outputMoved config.name output.spec.name slot.spec.name slot.buffer := by
  induction pairs with
  | nil => cases h
  | cons pair rest ih =>
      unfold checkPairs at h
      split at h
      · rcases ih h with ⟨slot, output, hmem, hmoved⟩
        exact ⟨slot, output, List.mem_cons_of_mem _ hmem, hmoved⟩
      · rename_i hmoved
        cases h
        exact ⟨pair.1, pair.2, List.mem_cons_self, Bool.eq_false_iff.2 hmoved, rfl⟩

theorem checkSlots_eq_error {config : ModelConfig} {slots : List OutputSlot}
    {outputs : List PreparedOutput} {failure : Failure} (hlength : slots.length = outputs.length)
    (h : checkSlots config slots outputs = .error failure) :
    exists (slot : OutputSlot) (output : PreparedOutput), (slot, output) ∈ slots.zip outputs ∧
      isInPlace config.placement slot output = false ∧
      failure = .outputMoved config.name output.spec.name slot.spec.name slot.buffer := by
  unfold checkSlots at h
  rw [if_neg (not_not_intro hlength)] at h
  exact checkPairs_eq_error h

end Execution

/-!
# Ranges that hold
-/

/-- The ranges of an accepted request: those of its inputs and those of its outputs. -/
def PreparedRequest.ranges (request : PreparedRequest) : List ResolvedRange :=
  (request.inputs.filterMap fun input =>
    match input.payload with
    | .buffers _ => none
    | .shared range => some range) ++ request.outputs.filterMap PreparedOutput.destination

theorem PreparedRequest.IsSound.isInside {request : PreparedRequest} (h : request.IsSound)
    {range : ResolvedRange} (hrange : range ∈ request.ranges) : range.IsInside := by
  rcases List.mem_append.1 hrange with hinput | houtput
  · rcases List.mem_filterMap.1 hinput with ⟨input, hmem, hpayload⟩
    cases hsource : input.payload with
    | buffers bs =>
        rw [hsource] at hpayload
        cases hpayload
    | shared other =>
        rw [hsource] at hpayload
        cases hpayload
        exact h.input input hmem _ hsource
  · rcases List.mem_filterMap.1 houtput with ⟨output, hmem, hdestination⟩
    exact (h.output output hmem range hdestination).1

/-- Whether reading and delivering work for a request, whatever the files hold. -/
structure PreparedRequest.Works (request : PreparedRequest) : Prop where
  /-- No sum of offsets goes beyond the size of a region. -/
  inside : forall range : ResolvedRange, range ∈ request.ranges ->
    range.range.offset + range.range.size ≤ range.handle.size ∧
    range.handle.offset + range.range.offset + range.range.size ≤ range.handle.mapping.region.size
  read : forall (input : PreparedInput) (range : ResolvedRange), input ∈ request.inputs ->
    input.payload = .shared range -> forall d : Directory,
      exists data : Bytes, range.read d = .ok data ∧ data.length = range.range.size
  gather : forall d : Directory, exists inputs : List InputTensor,
    Execution.gather d request = .ok inputs
  write : forall slots : List OutputSlot,
    Execution.checkSlots request.model.config slots request.outputs = .ok () ->
      forall (slot : OutputSlot) (output : PreparedOutput) (range : ResolvedRange),
        (slot, output) ∈ slots.zip request.outputs -> output.destination = some range ->
          forall d : Directory, exists d' : Directory, range.write d slot.buffer.bytes = .ok d'
  deliver : forall slots : List OutputSlot,
    Execution.checkSlots request.model.config slots request.outputs = .ok () ->
      forall m : Execution.Memory, exists results : List (String × OutputStorage),
        (Execution.deliver m slots request.outputs).1 = .ok results

theorem PreparedRequest.IsSound.works {request : PreparedRequest} (h : request.IsSound) :
    request.Works where
  inside range hrange := by
    have hinside := h.isInside hrange
    have hhandle : range.handle.offset + range.handle.size ≤ range.handle.mapping.region.size :=
      hinside.handle
    have hbound := hinside.range
    exact ⟨hbound, by omega⟩
  read input range hinput hpayload d :=
    ⟨_, (h.input input hinput range hpayload).read d, by rw [List.length_map, List.length_range]⟩
  gather d := ⟨_, Execution.gather_of_isSound h d⟩
  write slots hslots slot output range hpair hrange d := by
    rcases Execution.deliverable_of_checkSlots hslots h.output (slot, output) hpair range hrange
      with ⟨hinside, hlength⟩
    exact ⟨_, hinside.write d hlength⟩
  deliver slots hslots m :=
    (Execution.deliver_of_deliverable
      (Execution.deliverable_of_checkSlots hslots h.output)).1

namespace Engine

/-!
# The causes of a failure

A backend that has ended with a failure has come to it or has panicked.
-/

/-- Why a request that has been executed is answered with a failure.  It has asked for its slots at
some moment, and its backend has ended by now if they were given to it. -/
inductive FailsBy (d : Detached) (start later : Engine) : Failure -> Prop where
  /-- The allocator refuses a slot or hands out one of another size. -/
  | slots (failure : Failure) (h : Execution.Refuses d.request.model.config.placement
      (start.allocator d.allocator) d.request.outputs failure) : FailsBy d start later failure
  /-- The backend ends with the failure. -/
  | backend (failure : Failure) (slots : List OutputSlot) (batch : ExecutionBatch)
      (hended : (⟨d.number, .error failure, slots⟩ : Ending) ∈ later.endings)
      (hentered : (d.number, batch) ∈ later.entries)
      (hleads : (d.request.model.backend.run d.number batch).Leads
        (.finish (.error failure) slots)) : FailsBy d start later failure
  /-- The backend panics. -/
  | panic (slots : List OutputSlot) (batch : ExecutionBatch)
      (hended : (⟨d.number, .error (.backendPanicked d.request.model.config.name), slots⟩ :
        Ending) ∈ later.endings)
      (hentered : (d.number, batch) ∈ later.entries)
      (hleads : (d.request.model.backend.run d.number batch).Leads (.panic slots)) :
      FailsBy d start later (.backendPanicked d.request.model.config.name)
  /-- The backend ends well but has moved a slot. -/
  | moved (slots : List OutputSlot) (slot : OutputSlot) (output : PreparedOutput)
      (hended : (⟨d.number, .ok (), slots⟩ : Ending) ∈ later.endings)
      (hpair : (slot, output) ∈ slots.zip d.request.outputs)
      (hmoved : Execution.isInPlace d.request.model.config.placement slot output = false) :
      FailsBy d start later (.outputMoved d.request.model.config.name output.spec.name
        slot.spec.name slot.buffer)

variable {d : Detached} {accepted start next later : Engine} {failure : Failure}

theorem Course.length_slots (h : Course d accepted start next later) (hfresh : accepted.Fresh d)
    {x : Ending} (hx : x ∈ later.endings) (hn : x.submission = d.number) :
    x.slots.length = d.request.outputs.length := by
  have hfollows := hfresh.follows h.moves
  have hstart := hfresh.reachable.moves h.before
  have hhas := h.before.has hfresh.has
  rcases hfollows.backend x hx hn with ⟨batch, hentered, hcan⟩
  rcases h.begins.batch hstart hhas h.rest hentered with ⟨slots, hslots, rfl⟩
  have hgiven : x.slots.length = slots.length := by
    have hlength := List.Perm.length_eq hcan.rearranged
    rwa [List.length_map, List.length_map] at hlength
  unfold Detached.slots PreparedRequest.allocated at hslots
  rcases hall : Execution.allocate d.request.model.config.placement (start.allocator d.allocator)
    [] d.request.outputs with ⟨result, a, events⟩
  rw [hall] at hslots
  have hresult : result = .made slots := hslots
  rw [hresult] at hall
  rcases Execution.allocate_eq_made hall with ⟨given, rfl, hmatches⟩
  rw [hgiven]
  exact hmatches.length_eq

theorem Course.failsBy_ending (h : Course d accepted start next later)
    (hfresh : accepted.Fresh d) {x : Ending} (hx : x ∈ later.endings)
    (hn : x.submission = d.number) (hfailure : d.request.check x = .error failure) :
    FailsBy d start later failure := by
  rcases (hfresh.follows h.moves).backend x hx hn with ⟨batch, hentered, last, hleads, hends⟩
  have hlength := h.length_slots hfresh hx hn
  rcases x with ⟨n, result, slots⟩
  simp only at hn hends hlength
  rw [hn] at hx
  unfold PreparedRequest.check at hfailure
  cases result with
  | error cause =>
      cases hfailure
      cases hends with
      | finish => exact .backend failure slots batch hx hentered hleads
      | panic => exact .panic slots batch hx hentered hleads
  | ok =>
      rcases Execution.checkSlots_eq_error hlength hfailure with
        ⟨slot, output, hpair, hmoved, rfl⟩
      exact .moved slots slot output hx hpair hmoved

theorem Course.failsBy (h : Course d accepted start next later) (hfresh : accepted.Fresh d)
    {c : Completion} (hc : c ∈ later.completions) (hn : c.submission = d.number)
    (hexecuted : c.isExecuted = true) (hfailure : c.response.status = .error failure) :
    FailsBy d start later failure := by
  have hstart := hfresh.reachable.moves h.before
  have haccounted := h.moves.accounted hfresh.reachable hfresh.has hfresh.sound hfresh.accounted
  rcases h.begins.response hstart h.rest haccounted hc hn hexecuted with
    ⟨cause, hslots, hresponse⟩ | ⟨slots, _, x, hx, hown, hresponse⟩
  · rw [hresponse] at hfailure
    cases hfailure
    exact .slots failure (Execution.refuses_of_allocate hslots)
  · apply h.failsBy_ending hfresh hx hown
    rw [hresponse] at hfailure
    unfold PreparedRequest.answer at hfailure
    cases hcheck : d.request.check x with
    | ok =>
        rw [hcheck] at hfailure
        cases hfailure
    | error cause =>
        rw [hcheck] at hfailure
        cases hfailure
        rfl

/-- A request that is accepted in a run has ranges that hold: its inputs can be read and its outputs
can be written whatever becomes of handles, files, models and other requests.  When it has been
executed and is answered with a failure, that is one of its allocator or of its backend. -/
theorem failures_of_accepted_requests (ops : List Operation) {k callback n : Nat} {p : Provider}
    (h : ((reached ops).submit k p callback).1 = .ok n) :
    exists d : Detached, d.number = n ∧ d.server = k ∧
      d.allocator = ((reached ops).server k).allocator ∧
      PreparedRequest.prepare ((reached ops).server k).registry p = .ok d.request ∧
      d.request.Works ∧
      forall later : Engine, Moves (fun _ => True) ((reached ops).submit k p callback).2 later ->
        (later.submission n).request = d.request ∧
        forall c : Completion, c ∈ later.completions -> c.submission = n -> c.isExecuted = true ->
          forall failure : Failure, c.response.status = .error failure ->
            exists start next : Engine,
              Course d ((reached ops).submit k p callback).2 start next later ∧
                FailsBy d start later failure := by
  have hsound := (tends_reached ops).isSound k
  rcases fresh_of_submit (reachable_reached ops) hsound h with ⟨request, hprepare, hfresh⟩
  refine ⟨⟨n, k, ((reached ops).server k).allocator, request⟩, rfl, rfl, rfl, hprepare,
    hfresh.sound.works, ?_⟩
  intro later hlater
  have hfollows := hfresh.follows hlater
  refine ⟨hfollows.has.request, ?_⟩
  intro c hc hn hexecuted failure hfailure
  rcases hfollows.course (.inr ⟨c, hc, hn, hexecuted⟩) with ⟨start, next, hcourse⟩
  exact ⟨start, next, hcourse, hcourse.failsBy hfresh hc hn hexecuted hfailure⟩

/-- The server of the copies of two bytes in two regions may use one byte of memory only. -/
def tightRun : List Operation :=
  .build { ServerOptions.default with executionSlots := 1, memory := ⟨some 1, []⟩ } none
    (.ok [⟨copyModel, [1]⟩]) (some fun _ _ => ⟨false, .ok Identity.backend⟩) true ::
      regionRun.tail

def tightlyAccepted : Engine :=
  ((reached tightRun).submit 0 (copyProvider.edited regionChanges) 7).2

/-- The handle comes to mean another region, the model is unloaded and the files are replaced,
before the request runs. -/
def disturbance : List Operation :=
  rebinding ++ removal ++ [.setDirectory Directory.empty, .runAt 0]

theorem failures_of_tightRun :
    ((reached tightRun).submit 0 (copyProvider.edited regionChanges) 7).1 = .ok 0 ∧
    exists (d : Detached) (start : Engine) (failure : Failure), d.request.Works ∧
      d.request.ranges.length = 2 ∧ failure.code = .unavailable ∧
      FailsBy d start (tightlyAccepted.after disturbance) failure := by
  have hsubmitted : ((reached tightRun).submit 0 (copyProvider.edited regionChanges) 7).1 =
      .ok 0 := rfl
  rcases failures_of_accepted_requests tightRun hsubmitted with
    ⟨d, _, _, _, hprepare, hworks, hlater⟩
  have haccepted : Moves (fun _ => True) (reached tightRun) tightlyAccepted :=
    moves_submit _ 0 7 _ trivial fun _ _ => trivial
  have hmoves : Moves (fun _ => True) tightlyAccepted (tightlyAccepted.after disturbance) :=
    ((reachable_reached tightRun).moves haccepted).sound.moves_after disturbance
  have hcalled : (tightlyAccepted.after disturbance).completions =
      [(tightlyAccepted.after disturbance).completions.headD default] := rfl
  have hmem := List.mem_singleton_self
    ((tightlyAccepted.after disturbance).completions.headD default)
  rw [← hcalled] at hmem
  rcases (hlater _ hmoves).2 _ hmem rfl rfl (.poolExhausted .host 0 2 0 1) rfl with
    ⟨start, _, _, hfails⟩
  have hranges : (PreparedRequest.prepare ((reached tightRun).server 0).registry
      (copyProvider.edited regionChanges)).map (fun request => request.ranges.length) =
        .ok 2 := rfl
  rw [hprepare] at hranges
  exact ⟨hsubmitted, d, start, _, hworks, Except.ok.inj hranges, rfl, hfails⟩

end Engine

end InferenceEngine
