import InferenceEngine.Proofs.Requests.Making

/-!
# When a request is accepted

A submission makes its checks one after the other.  It is accepted if all of them hold; else the
first one that does not hold is the failure that it reports, and the engine is left as it was.
-/

namespace InferenceEngine

inductive SubmissionCheck where
  /-- The provider was made for the server. -/
  | ownServer
  /-- The server is serving. -/
  | serving
  /-- An input has been given as many bytes as it takes. -/
  | inputSize (name : String) (binding : InputBinding)
  /-- The range of an output is as long as the output. -/
  | outputSize (binding : OutputBinding) (range : HandleRange)
  /-- The handle of a range is registered. -/
  | registered (range : HandleRange)
  /-- The range of a tensor lies inside its handle. -/
  | inside (tensor : String) (range : HandleRange)

namespace SubmissionCheck

variable (e : Engine) (server : Nat) (p : Provider)

def holds : SubmissionCheck -> Bool
  | ownServer => p.server = server
  | serving => (e.server server).state = .serving
  | inputSize _ binding => binding.source.size = binding.expected
  | outputSize binding range => range.size = binding.expected
  | registered range => (e.server server).registry.handles.contains range.handle
  | inside _ range =>
      match (e.server server).registry.handles.get? range.handle with
      | some handle => range.offset + range.size ≤ handle.size
      | none => true

def failure : SubmissionCheck -> Failure
  | ownServer => .foreignProvider
  | serving => .notAccepting (e.server server).id
  | inputSize name binding =>
      .inputSize name binding.expected p.header.batchSize binding.source.size
  | outputSize binding range =>
      .outputSize binding.spec.name binding.expected p.header.batchSize range.handle range.size
  | registered range => .missingHandle range.handle
  | inside tensor range =>
      .rangeBeyondHandle tensor range.offset range.size range.handle
        (((e.server server).registry.handles.get? range.handle).map Handle.size |>.getD 0)

def code : SubmissionCheck -> FailureCode
  | serving => .unavailable
  | registered _ => .notFound
  | _ => .invalidArg

theorem code_failure (c : SubmissionCheck) : (c.failure e server p).code = c.code := by
  cases c <;> rfl

def condition (c : SubmissionCheck) : Bool × Failure :=
  (c.holds e server p, c.failure e server p)

theorem firstFailure_conditions (checks : List SubmissionCheck) :
    firstFailure (checks.map (condition e server p)) =
      match checks.find? fun c => !c.holds e server p with
      | none => .ok ()
      | some c => .error (c.failure e server p) := by
  induction checks with
  | nil => rfl
  | cons c rest ih =>
      rw [List.map_cons, List.find?_cons]
      unfold condition at ih ⊢
      rw [firstFailure_cons, ih]
      cases c.holds e server p <;> rfl

end SubmissionCheck

namespace Provider

/-- The checks of the sizes: of all inputs in the order of their names, and then of the ranges of
the outputs in the order in which they are asked for. -/
def sizeChecks (p : Provider) : List SubmissionCheck :=
  p.inputs.toList.map (fun e => .inputSize e.1 e.2) ++
    p.outputs.flatMap fun b => b.destination.toList.map fun range => .outputSize b range

def rangeChecks (tensor : String) (range : HandleRange) : List SubmissionCheck :=
  [.registered range, .inside tensor range]

def inputRange? (b : InputBinding) : Option HandleRange :=
  match b.source with
  | .buffers _ => none
  | .shared range => some range

def referenceChecks (p : Provider) : List SubmissionCheck :=
  (p.inputs.values.flatMap fun b => (inputRange? b).toList.flatMap (rangeChecks b.spec.name)) ++
    p.outputs.flatMap fun b => b.destination.toList.flatMap (rangeChecks b.spec.name)

def checks (p : Provider) : List SubmissionCheck :=
  [.ownServer, .serving] ++ (p.sizeChecks ++ p.referenceChecks)

/-!
# Preparing as a sequence of checks
-/

variable (e : Engine) (server : Nat) (p : Provider)

theorem validate_eq_firstFailure :
    p.validate = firstFailure (p.sizeChecks.map (SubmissionCheck.condition e server p)) := by
  unfold validate sizeChecks
  rw [List.map_append, firstFailure_append]
  have hinputs : p.inputs.toList.forM (fun x => checkInput p.header.batchSize x.1 x.2) =
      firstFailure ((p.inputs.toList.map fun x => SubmissionCheck.inputSize x.1 x.2).map
        (SubmissionCheck.condition e server p)) := by
    rw [forM_eq_firstFailure
      (g := fun x => [SubmissionCheck.condition e server p (.inputSize x.1 x.2)]) ?_]
    · rw [List.map_map, ← List.flatMap_pure_eq_map]
      rfl
    · intro x
      unfold checkInput SubmissionCheck.condition
      rw [firstFailure_cons]
      simp [SubmissionCheck.holds, SubmissionCheck.failure]
  have houtputs : p.outputs.forM (checkOutput p.header.batchSize) =
      firstFailure ((p.outputs.flatMap fun b =>
        b.destination.toList.map fun range => SubmissionCheck.outputSize b range).map
          (SubmissionCheck.condition e server p)) := by
    rw [List.map_flatMap]
    apply forM_eq_firstFailure
    intro b
    unfold checkOutput
    cases b.destination with
    | none => rfl
    | some range =>
        simp only [Option.toList, List.map_cons, List.map_nil, SubmissionCheck.condition]
        rw [firstFailure_cons]
        simp [SubmissionCheck.holds, SubmissionCheck.failure]
  rw [hinputs, houtputs]

theorem verdict_resolve (tensor : String) (range : HandleRange) :
    verdict (ResolvedRange.resolve (e.server server).registry tensor range) =
      firstFailure ((rangeChecks tensor range).map (SubmissionCheck.condition e server p)) := by
  unfold rangeChecks
  simp only [List.map_cons, List.map_nil, SubmissionCheck.condition]
  rw [firstFailure_cons, firstFailure_cons]
  cases hhandle : (e.server server).registry.handles.get? range.handle with
  | none =>
      simp [ResolvedRange.resolve, Registry.get, SubmissionCheck.holds, SubmissionCheck.failure,
        OrderedMap.contains, hhandle, verdict, bind, Except.bind, Except.map]
  | some handle =>
      by_cases hinside : range.offset + range.size ≤ handle.size
      · simp [ResolvedRange.resolve, Registry.get, SubmissionCheck.holds,
          OrderedMap.contains, hhandle, hinside, verdict, bind, Except.bind, Except.map]
      · simp [ResolvedRange.resolve, Registry.get, SubmissionCheck.holds, SubmissionCheck.failure,
          OrderedMap.contains, hhandle, hinside, verdict, bind, Except.bind, Except.map]

theorem verdict_prepareInput (b : InputBinding) :
    verdict (PreparedInput.prepare (e.server server).registry b) =
      firstFailure (((inputRange? b).toList.flatMap (rangeChecks b.spec.name)).map
        (SubmissionCheck.condition e server p)) := by
  unfold PreparedInput.prepare inputRange?
  cases b.source with
  | buffers bs => rfl
  | shared range =>
      simp only [Option.toList, List.flatMap_cons, List.flatMap_nil, List.append_nil]
      rw [← verdict_resolve e server p]
      cases ResolvedRange.resolve (e.server server).registry b.spec.name range <;> rfl

theorem verdict_prepareOutput (b : OutputBinding) :
    verdict (PreparedOutput.prepare (e.server server).registry b) =
      firstFailure ((b.destination.toList.flatMap (rangeChecks b.spec.name)).map
        (SubmissionCheck.condition e server p)) := by
  unfold PreparedOutput.prepare
  cases b.destination with
  | none => rfl
  | some range =>
      simp only [Option.toList, List.flatMap_cons, List.flatMap_nil, List.append_nil]
      rw [← verdict_resolve e server p]
      cases ResolvedRange.resolve (e.server server).registry b.spec.name range <;> rfl

theorem verdict_prepare :
    verdict (PreparedRequest.prepare (e.server server).registry p) =
      firstFailure
        ((p.sizeChecks ++ p.referenceChecks).map (SubmissionCheck.condition e server p)) := by
  unfold PreparedRequest.prepare
  rw [List.map_append, firstFailure_append, ← validate_eq_firstFailure e server p]
  unfold referenceChecks
  rw [List.map_append, firstFailure_append, List.map_flatMap, List.map_flatMap,
    ← verdict_mapM (verdict_prepareInput e server p),
    ← verdict_mapM (verdict_prepareOutput e server p)]
  refine (verdict_bind ?_).trans (by rw [verdict_unit])
  intro _ _
  apply verdict_bind
  intro inputs _
  cases p.outputs.mapM (PreparedOutput.prepare (e.server server).registry) <;> rfl

end Provider

namespace Engine

/-!
# What comes of a submission

While a server takes requests, no call waits for it.
-/

theorem Sound.not_draining {e : Engine} (h : e.Sound) {n : Nat}
    (hstate : (e.server (e.stopCall n).server).state = .serving) :
    (e.stopCall n).deadline? = none := by
  rcases Nat.lt_or_ge n e.stops.length with hlt | hge
  · have hmem : e.stopCall n ∈ e.stops := by
      unfold stopCall
      rw [List.getD_eq_getElem?_getD, List.getElem?_eq_getElem hlt]
      exact List.getElem_mem hlt
    cases hdeadline : (e.stopCall n).deadline? with
    | none => rfl
    | some deadline =>
        have hdraining := h.draining _ hmem (by rw [hdeadline]; rfl)
        exact absurd hstate hdraining.2
  · have hdefault : e.stopCall n = default := by
      simp [stopCall, hge]
    rw [hdefault]
    rfl

/-- A request that is refused leaves no trace, since nobody waits for the count to fall. -/
theorem Sound.countOut_countIn {e : Engine} (h : e.Sound) {server : Nat}
    (hstate : (e.server server).state = .serving) : (e.countIn server).countOut server = e := by
  have hsilent : forall jobs : List Nat, jobs.filterMap (fun n =>
      if (e.stopCall n).server = server && (e.stopCall n).deadline?.isSome then some (Job.stop n)
      else none) = [] := by
    intro jobs
    apply List.filterMap_eq_nil_iff.2
    intro n _
    rw [if_neg]
    intro hwaits
    rw [Bool.and_eq_true, decide_eq_true_eq] at hwaits
    rw [← hwaits.1] at hstate
    rw [h.not_draining hstate] at hwaits
    cases hwaits.2
  have hwoken : ((e.countIn server).countOut server).woken = e.woken := by
    simp only [countOut]
    split
    · exact (congrArg (e.woken ++ ·) (hsilent _)).trans (List.append_nil _)
    · rfl
  rw [Engine.countOut_countIn, hwoken]

theorem submit_eq {e : Engine} (h : e.Sound) (server callback : Nat) (p : Provider) :
    match p.checks.find? fun c => !c.holds e server p with
    | none => exists request : PreparedRequest,
        PreparedRequest.prepare (e.server server).registry p = .ok request ∧
        e.submit server p callback =
          (.ok e.submissions.length, (e.countIn server).launch server request callback)
    | some c => e.submit server p callback = (.error (c.failure e server p), e) := by
  unfold Provider.checks submit
  rw [List.cons_append, List.find?_cons]
  by_cases hown : p.server = server
  · have hfirst : SubmissionCheck.ownServer.holds e server p = true := decide_eq_true hown
    rw [hfirst, Bool.not_true, if_neg (not_not_intro hown)]
    simp only
    rw [List.singleton_append, List.find?_cons]
    by_cases hstate : (e.server server).state = .serving
    · have hsecond : SubmissionCheck.serving.holds e server p = true := decide_eq_true hstate
      rw [hsecond, Bool.not_true, if_neg (not_not_intro hstate)]
      simp only
      have hverdict := p.verdict_prepare e server
      rw [SubmissionCheck.firstFailure_conditions] at hverdict
      cases hfind : (p.sizeChecks ++ p.referenceChecks).find? fun c => !c.holds e server p with
      | none =>
          rw [hfind] at hverdict
          rcases verdict_eq_ok hverdict with ⟨request, hrequest⟩
          rw [hrequest]
          exact ⟨request, rfl, rfl⟩
      | some c =>
          rw [hfind] at hverdict
          rw [verdict_eq_error hverdict, h.countOut_countIn hstate]
    · have hsecond : SubmissionCheck.serving.holds e server p = false := decide_eq_false hstate
      rw [hsecond, Bool.not_false, if_pos hstate]
      rfl
  · have hfirst : SubmissionCheck.ownServer.holds e server p = false := decide_eq_false hown
    rw [hfirst, Bool.not_false, if_pos hown]
    rfl

end Engine

/-!
# What the checks amount to
-/

namespace Provider

/-- Whether a provider takes an input from a range or delivers an output to it. -/
def Refers (p : Provider) (range : HandleRange) : Prop :=
  (exists b, b ∈ p.inputs.values ∧ b.source = .shared range) ∨
    exists b, b ∈ p.outputs ∧ b.destination = some range

theorem appendedSize_of_get? {p : Provider} {name : String} {binding : InputBinding}
    (h : p.inputs.get? name = some binding) :
    p.appendedSize name = .ok binding.source.size ∧ p.expectedSize name = .ok binding.expected := by
  unfold appendedSize expectedSize input
  rw [h]
  exact ⟨rfl, rfl⟩

variable (e : Engine) (server : Nat)

theorem inputs_hold_iff {p : Provider} (h : p.outline.Fits) :
    (forall x, x ∈ p.inputs.toList ->
      (SubmissionCheck.inputSize x.1 x.2).holds e server p = true) ↔
    forall spec, spec ∈ p.model.config.inputs -> exists size : Nat,
      p.appendedSize spec.name = .ok size ∧ p.expectedSize spec.name = .ok size := by
  constructor
  · intro hall spec hspec
    rcases h.input hspec with ⟨binding, hbinding, _, _⟩
    rcases appendedSize_of_get? hbinding with ⟨happended, hexpected⟩
    have hsize : binding.source.size = binding.expected :=
      of_decide_eq_true (hall (spec.name, binding) (OrderedMap.get?_eq_some_iff.1 hbinding))
    exact ⟨binding.expected, by rw [happended, hsize], hexpected⟩
  · intro hall x hx
    have hmem : (x.1, x.2.spec, x.2.expected) ∈ p.outline.inputs := List.mem_map_of_mem hx
    have hdeclared : x.2.spec ∈ p.model.config.inputs :=
      h.declared.mem_iff.1 (List.mem_map_of_mem hmem)
    have hget : p.inputs.get? x.2.spec.name = some x.2 := by
      apply OrderedMap.get?_eq_some_iff.2
      rw [h.named _ hmem]
      exact hx
    rcases appendedSize_of_get? hget with ⟨happended, hexpected⟩
    rcases hall _ hdeclared with ⟨size, hsize, hsize'⟩
    rw [happended] at hsize
    rw [hexpected] at hsize'
    apply decide_eq_true
    rw [Except.ok.inj hsize, Except.ok.inj hsize']

theorem outputs_hold_iff {p : Provider} (h : p.outline.Fits) :
    (forall b, b ∈ p.outputs -> forall range, b.destination = some range ->
      (SubmissionCheck.outputSize b range).holds e server p = true) ↔
    forall b, b ∈ p.outputs -> forall range, b.destination = some range ->
      b.spec.batchByteSize p.header.batchSize = .ok range.size := by
  have hsize : forall b, b ∈ p.outputs ->
      b.spec.batchByteSize p.header.batchSize = .ok b.expected := fun b hb =>
    h.outputSize (b.spec, b.expected) (List.mem_map_of_mem hb)
  constructor
  · intro hall b hb range hrange
    rw [hsize b hb, ← show range.size = b.expected from of_decide_eq_true (hall b hb range hrange)]
  · intro hall b hb range hrange
    have hboth := (hsize b hb).symm.trans (hall b hb range hrange)
    exact decide_eq_true (Except.ok.inj hboth).symm

theorem range_holds_iff {p : Provider} (tensor : String) (range : HandleRange) :
    (forall c, c ∈ rangeChecks tensor range -> c.holds e server p = true) ↔
      exists handle : Handle,
        (e.server server).registry.handles.get? range.handle = some handle ∧
          range.offset + range.size ≤ handle.size := by
  unfold rangeChecks
  simp only [List.forall_mem_cons, List.not_mem_nil, false_imp_iff, implies_true, and_true,
    SubmissionCheck.holds, OrderedMap.contains]
  cases hhandle : (e.server server).registry.handles.get? range.handle with
  | none => simp
  | some handle => simp

theorem references_hold_iff {p : Provider} :
    (forall c, c ∈ p.referenceChecks -> c.holds e server p = true) ↔
      forall range, p.Refers range -> exists handle : Handle,
        (e.server server).registry.handles.get? range.handle = some handle ∧
          range.offset + range.size ≤ handle.size := by
  unfold referenceChecks
  constructor
  · intro hall range hrefers
    rcases hrefers with ⟨b, hb, hsource⟩ | ⟨b, hb, hdestination⟩
    · apply (range_holds_iff e server b.spec.name range).1
      intro c hc
      refine hall c (List.mem_append_left _ (List.mem_flatMap.2 ⟨b, hb, ?_⟩))
      simpa [inputRange?, hsource] using hc
    · apply (range_holds_iff e server b.spec.name range).1
      intro c hc
      refine hall c (List.mem_append_right _ (List.mem_flatMap.2 ⟨b, hb, ?_⟩))
      simpa [hdestination] using hc
  · intro hall c hc
    rcases List.mem_append.1 hc with hc | hc
    · rcases List.mem_flatMap.1 hc with ⟨b, hb, hc⟩
      rcases List.mem_flatMap.1 hc with ⟨range, hrange, hc⟩
      have hsource : b.source = .shared range := by
        unfold inputRange? at hrange
        cases hsource : b.source with
        | buffers bs => simp [hsource] at hrange
        | shared other =>
            simp only [hsource, Option.mem_toList, Option.some.injEq] at hrange
            rw [hrange]
      exact (range_holds_iff e server b.spec.name range).2 (hall range (.inl ⟨b, hb, hsource⟩)) c hc
    · rcases List.mem_flatMap.1 hc with ⟨b, hb, hc⟩
      rcases List.mem_flatMap.1 hc with ⟨range, hrange, hc⟩
      have hdestination : b.destination = some range := by simpa using hrange
      exact (range_holds_iff e server b.spec.name range).2
        (hall range (.inr ⟨b, hb, hdestination⟩)) c hc

theorem checks_hold_iff {p : Provider} :
    (forall c, c ∈ p.checks -> c.holds e server p = true) ↔
      p.server = server ∧ (e.server server).state = .serving ∧
        (forall x, x ∈ p.inputs.toList ->
          (SubmissionCheck.inputSize x.1 x.2).holds e server p = true) ∧
        (forall b, b ∈ p.outputs -> forall range, b.destination = some range ->
          (SubmissionCheck.outputSize b range).holds e server p = true) ∧
        forall c, c ∈ p.referenceChecks -> c.holds e server p = true := by
  unfold checks sizeChecks
  simp only [List.forall_mem_append, List.forall_mem_cons, List.forall_mem_map,
    List.not_mem_nil, false_imp_iff, implies_true, and_true, List.forall_mem_flatMap,
    Option.mem_toList]
  simp only [SubmissionCheck.holds, decide_eq_true_eq, and_assoc]

end Provider

namespace Engine

/-- A provider that was made for some server at some time and changed since is accepted if and
only if it was made for this server, the server is serving, each declared input has been given as
many bytes as its batch takes, each range of an output is as long as the batch of that output, and
each range lies inside a handle that is registered now.  Else the first check that fails, in the
order of the checks, is reported, and nothing at all has changed. -/
theorem submit_accepted_iff {earlier e : Engine} (hearlier : earlier.Reachable)
    (he : e.Reachable) {owner : Nat} {model : String} {choice : VersionChoice}
    {header : RequestHeader} {made : Provider}
    (hmade : earlier.provider owner model choice header = .ok made)
    (changes : List Provider.Edit) (server callback : Nat) :
    ((exists n : Nat, (e.submit server (made.edited changes) callback).1 = .ok n) ↔
      owner = server ∧ (e.server server).state = .serving ∧
        (forall spec, spec ∈ made.model.config.inputs -> exists size : Nat,
          (made.edited changes).appendedSize spec.name = .ok size ∧
            (made.edited changes).expectedSize spec.name = .ok size) ∧
        (forall b, b ∈ (made.edited changes).outputs -> forall range, b.destination = some range ->
          b.spec.batchByteSize header.batchSize = .ok range.size) ∧
        forall range, (made.edited changes).Refers range -> exists handle : Handle,
          (e.server server).registry.handles.get? range.handle = some handle ∧
            range.offset + range.size ≤ handle.size) ∧
      forall failure : Failure,
        (e.submit server (made.edited changes) callback).1 = .error failure ->
          (e.submit server (made.edited changes) callback).2 = e ∧
            exists c : SubmissionCheck,
              (made.edited changes).checks.find?
                (fun c => !c.holds e server (made.edited changes)) = some c ∧
              failure = c.failure e server (made.edited changes) ∧ failure.code = c.code := by
  rcases Provider.fits_of_new (hearlier.sound.tables owner) hmade with ⟨hfits, howner, hheader⟩
  have houtline := made.outline_edited changes
  have hedited := Provider.fits_edited hfits changes
  generalize made.edited changes = p at houtline hedited ⊢
  have hserver : p.server = owner := (congrArg Provider.Outline.server houtline).trans howner
  have hmodel : p.model = made.model := congrArg Provider.Outline.model houtline
  have hbatch : p.header = header := (congrArg Provider.Outline.header houtline).trans hheader
  have hsubmit := submit_eq he.sound server callback p
  have hchecks := p.checks_hold_iff e server
  rw [p.inputs_hold_iff e server hedited, p.outputs_hold_iff e server hedited,
    p.references_hold_iff e server, hserver, hmodel, hbatch] at hchecks
  rw [← hchecks]
  cases hfind : p.checks.find? fun c => !c.holds e server p with
  | none =>
      rw [hfind] at hsubmit
      rcases hsubmit with ⟨request, _, hsubmit⟩
      rw [hsubmit]
      constructor
      · constructor
        · intro _ c hc
          have hholds := List.find?_eq_none.1 hfind c hc
          simpa using hholds
        · intro _
          exact ⟨_, rfl⟩
      · intro failure hfailure
        cases hfailure
  | some c =>
      rw [hfind] at hsubmit
      simp only at hsubmit
      rw [hsubmit]
      constructor
      · constructor
        · rintro ⟨n, hn⟩
          cases hn
        · intro hall
          have hfails := List.find?_some hfind
          rw [hall c (List.mem_of_find?_eq_some hfind)] at hfails
          cases hfails
      · intro failure hfailure
        have hsame : failure = c.failure e server p := (Except.error.inj hfailure).symm
        refine ⟨rfl, c, rfl, hsame, ?_⟩
        rw [hsame]
        exact SubmissionCheck.code_failure e server p c

def copyModel : ModelConfig :=
  ((ModelConfig.new "copy" 0).addInput ⟨"in", .uint8, [2]⟩).addOutput ⟨"out", .uint8, [2]⟩

def copyRun : List Operation :=
  [.build { ServerOptions.default with executionSlots := 1 } none (.ok [⟨copyModel, [1]⟩])
    (some fun _ _ => ⟨false, .ok Identity.backend⟩) true]

def copyProvider : Provider where
  server := 0
  model := ⟨0, copyModel, 1, Identity.backend⟩
  header := .new 1
  inputs := .ofList [("in", ⟨⟨"in", .uint8, [2]⟩, 2, .buffers []⟩)]
  outputs := [⟨⟨"out", .uint8, [2]⟩, 2, none⟩]

/-- A request for a copy of two bytes is executed, and its response is held. -/
def answeredRun : List Operation :=
  copyRun ++ [.submit 0 (copyProvider.edited [.append "in" [1], .append "in" [2]]) 7, .runAt 0]

theorem provider_copyRun :
    (reached copyRun).provider 0 "copy" .latest (.new 1) = .ok copyProvider := rfl

theorem submit_of_copyRun : (reached copyRun).Reachable ∧
    (reached copyRun).provider 0 "copy" .latest (.new 1) = .ok copyProvider ∧
    exists n : Nat, ((reached copyRun).submit 0
      (copyProvider.edited [.append "in" [1], .append "in" [2]]) 7).1 = .ok n := by
  have hreachable := reachable_reached copyRun
  refine ⟨hreachable, provider_copyRun, ?_⟩
  apply (submit_accepted_iff hreachable hreachable provider_copyRun
    [.append "in" [1], .append "in" [2]] 0 7).1.2
  refine ⟨rfl, rfl, ?_, ?_, ?_⟩
  · intro spec hspec
    have hin : spec = ⟨"in", .uint8, [2]⟩ := List.mem_singleton.1 hspec
    rw [hin]
    exact ⟨2, rfl, rfl⟩
  · intro b hb range hrange
    have hout : b.destination = none := by
      rw [List.mem_singleton.1 hb]
    rw [hout] at hrange
    cases hrange
  · rintro range (⟨b, hb, hsource⟩ | ⟨b, hb, hdestination⟩)
    · rw [List.mem_singleton.1 hb] at hsource
      cases hsource
    · rw [List.mem_singleton.1 hb] at hdestination
      cases hdestination

end Engine

end InferenceEngine
