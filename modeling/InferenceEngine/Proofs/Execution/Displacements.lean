import InferenceEngine.Memory.Skewed
import InferenceEngine.Proofs.Execution.Causes
import InferenceEngine.Proofs.Execution.SlotOrder
import InferenceEngine.Proofs.Memory.Returns

/-!
# Slots that are not in their places

A backend may leave its slots in any order.  Since no two of them have the same name, the check at
the end finds the first place that another slot has come to, or whose slot lies in the wrong memory,
and then nothing comes of the execution but this failure.
-/

namespace InferenceEngine

/-!
# Places
-/

/-- Whether a slot lies in the memory where a model wants its outputs. -/
def OutputSlot.IsLocated (slot : OutputSlot) (placement : Placement) : Prop :=
  slot.buffer.domain = placement.domain ∧ slot.buffer.region = placement.region

/-- Whether slots are in their places: at each place there is the slot that was made for it, in the
memory where the model wants it. -/
structure SlotsInPlace (placement : Placement) (given slots : List OutputSlot) : Prop where
  labels : slots.map OutputSlot.label = given.map OutputSlot.label
  located : forall original : OutputSlot, original ∈ given -> original.IsLocated placement

/-- Whether a slot is at the first place that is not in order, where another one was given. -/
def FirstDisplaced (placement : Placement) (given slots : List OutputSlot)
    (original slot : OutputSlot) : Prop :=
  exists before after others rest : List OutputSlot,
    given = before ++ original :: after ∧ slots = others ++ slot :: rest ∧
      SlotsInPlace placement before others ∧
      (slot.label ≠ original.label ∨ ¬ original.IsLocated placement)

variable {placement : Placement} {given slots : List OutputSlot} {original slot : OutputSlot}

theorem slotsInPlace_nil : SlotsInPlace placement [] [] := ⟨rfl, fun _ h => by cases h⟩

theorem SlotsInPlace.cons (h : SlotsInPlace placement given slots)
    (hlabel : slot.label = original.label) (hlocated : original.IsLocated placement) :
    SlotsInPlace placement (original :: given) (slot :: slots) where
  labels := by rw [List.map_cons, List.map_cons, hlabel, h.labels]
  located other hother := by
    rcases List.mem_cons.1 hother with rfl | hrest
    · exact hlocated
    · exact h.located other hrest

theorem firstDisplaced_head {original slot : OutputSlot} (given slots : List OutputSlot)
    (h : slot.label ≠ original.label ∨ ¬ original.IsLocated placement) :
    FirstDisplaced placement (original :: given) (slot :: slots) original slot :=
  ⟨[], given, [], slots, rfl, rfl, slotsInPlace_nil, h⟩

theorem FirstDisplaced.cons {first other : OutputSlot}
    (h : FirstDisplaced placement given slots original slot) (hlabel : other.label = first.label)
    (hlocated : first.IsLocated placement) :
    FirstDisplaced placement (first :: given) (other :: slots) original slot := by
  rcases h with ⟨before, after, others, rest, rfl, rfl, hplaces, hmoved⟩
  exact ⟨first :: before, after, other :: others, rest, rfl, rfl, hplaces.cons hlabel hlocated,
    hmoved⟩

theorem FirstDisplaced.not_slotsInPlace
    (h : FirstDisplaced placement given slots original slot) :
    ¬ SlotsInPlace placement given slots := by
  rcases h with ⟨before, after, others, rest, rfl, rfl, hplaces, hmoved⟩
  intro hall
  have hlength : (others.map OutputSlot.label).length = (before.map OutputSlot.label).length :=
    congrArg List.length hplaces.labels
  have hlabels := hall.labels
  rw [List.map_append, List.map_append] at hlabels
  have hrest := (List.append_inj hlabels hlength).2
  rcases hmoved with hlabel | hlocated
  · exact hlabel (List.cons.inj hrest).1
  · exact hlocated (hall.located original (List.mem_append_right _ List.mem_cons_self))

/-!
# The check

Slots that are rearranged are told by their names if no two have the same.
-/

theorem OutputSlot.eq_of_label (h : slot.label = original.label) :
    slot.spec = original.spec ∧ slot.size = original.size ∧
      slot.buffer.domain = original.buffer.domain ∧
      slot.buffer.region = original.buffer.region := by
  have htriple := congrArg (fun l => l.2.triple) h
  exact ⟨congrArg Prod.fst h, congrArg BufferTriple.size htriple,
    congrArg BufferTriple.domain htriple, congrArg BufferTriple.region htriple⟩

theorem Allocator.located_allocate {a a' : Allocator} {spec : TensorSpec} {size : Nat} {b : Buffer}
    (hregular : a.kind.isRegular = true)
    (h : a.allocate placement.domain placement.region size = (.made b, a')) :
    (OutputSlot.mk spec b).IsLocated placement := by
  rcases allocate_eq_cases h with
    ⟨failure, hrefused, _⟩ | ⟨inner, hmade, hkind, _⟩ | ⟨hpanicked, _⟩
  · cases hrefused
  · rw [AllocatorKind.eq_zeroed hregular hkind] at hmade
    cases hmade
    exact ⟨rfl, rfl⟩
  · cases hpanicked

theorem Rearranged.label_of_name (h : Rearranged given slots)
    (hdistinct : (given.map fun slot => slot.spec.name).Nodup) (hslot : slot ∈ slots)
    (horiginal : original ∈ given) (hname : slot.spec.name = original.spec.name) :
    slot.label = original.label := by
  have hlabel : slot.label ∈ given.map OutputSlot.label :=
    h.mem_iff.1 (List.mem_map_of_mem hslot)
  rcases List.mem_map.1 hlabel with ⟨made, hmade, hsame⟩
  have hnames : made.spec.name = original.spec.name :=
    (congrArg TensorSpec.name (OutputSlot.eq_of_label hsame).1).trans hname
  rw [← hsame, List.inj_on_of_nodup_map hdistinct hmade horiginal hnames]

namespace Execution

theorem isInPlace_iff (placement : Placement) {isRegular : Bool} {output : PreparedOutput}
    (hfresh : original.IsFresh isRegular output)
    (hnamed : slot.spec.name = original.spec.name -> slot.label = original.label) :
    isInPlace placement slot output = true ↔
      slot.label = original.label ∧ original.IsLocated placement := by
  unfold isInPlace
  simp only [Bool.and_eq_true, decide_eq_true_eq]
  constructor
  · rintro ⟨⟨⟨hname, _⟩, hdomain⟩, hregion⟩
    have hlabel := hnamed (hname.trans (congrArg TensorSpec.name hfresh.spec).symm)
    rcases OutputSlot.eq_of_label hlabel with ⟨_, _, hsame, hsame'⟩
    exact ⟨hlabel, hsame.symm.trans hdomain, hsame'.symm.trans hregion⟩
  · rintro ⟨hlabel, hdomain, hregion⟩
    rcases OutputSlot.eq_of_label hlabel with ⟨hspec, hsize, hsame, hsame'⟩
    refine ⟨⟨⟨?_, hsize.trans hfresh.size⟩, hsame.trans hdomain⟩, hsame'.trans hregion⟩
    rw [hspec, hfresh.spec]

/-- The check of slots that were rearranged passes if they are in their places, and else it finds
the first one that is not. -/
theorem checkPairs_of_fresh (config : ModelConfig) {isRegular : Bool}
    {outputs : List PreparedOutput}
    (hfresh : List.Forall₂ (OutputSlot.IsFresh isRegular) given outputs)
    (hlength : slots.length = given.length)
    (hnamed : forall slot, slot ∈ slots -> forall original, original ∈ given ->
      slot.spec.name = original.spec.name -> slot.label = original.label) :
    (SlotsInPlace config.placement given slots ∧ checkPairs config (slots.zip outputs) = .ok ()) ∨
      exists original slot : OutputSlot,
        FirstDisplaced config.placement given slots original slot ∧
        checkPairs config (slots.zip outputs) = .error
          (.outputMoved config.name original.spec.name slot.spec.name slot.buffer) := by
  induction hfresh generalizing slots with
  | nil =>
      have hnone : slots = [] := List.eq_nil_of_length_eq_zero hlength
      rw [hnone]
      exact .inl ⟨slotsInPlace_nil, rfl⟩
  | cons hfirst _ ih =>
      rename_i original output given outputs _
      cases slots with
      | nil => cases hlength
      | cons slot rest =>
          have hplace := isInPlace_iff config.placement hfirst
            (hnamed slot List.mem_cons_self original List.mem_cons_self)
          rw [List.zip_cons_cons]
          unfold checkPairs
          by_cases hin : isInPlace config.placement slot output = true
          · rw [if_pos hin]
            rcases hplace.1 hin with ⟨hlabel, hlocated⟩
            rcases ih (Nat.succ.inj hlength) (fun s hs o ho =>
              hnamed s (List.mem_cons_of_mem _ hs) o (List.mem_cons_of_mem _ ho)) with
              ⟨hplaces, hok⟩ | ⟨original', slot', hdisplaced, herror⟩
            · exact .inl ⟨hplaces.cons hlabel hlocated, hok⟩
            · exact .inr ⟨original', slot', hdisplaced.cons hlabel hlocated, herror⟩
          · rw [if_neg hin, hfirst.spec.symm]
            refine .inr ⟨original, slot, firstDisplaced_head given rest ?_, rfl⟩
            rw [hplace, not_and_or] at hin
            exact hin

theorem located_of_allocate {a a' : Allocator} {all : List OutputSlot}
    {outputs : List PreparedOutput} {events : List Event} (hregular : a.kind.isRegular = true)
    (h : allocate placement a slots outputs = (.made all, a', events))
    (hslots : forall slot, slot ∈ slots -> slot.IsLocated placement) :
    forall slot, slot ∈ all -> slot.IsLocated placement := by
  induction outputs generalizing a slots events with
  | nil =>
      cases h
      exact hslots
  | cons output rest ih =>
      unfold allocate at h
      split at h
      · cases h
      · cases h
      · rename_i buffer next hbuffer
        by_cases hsize : buffer.size = output.size
        · simp only [hsize, if_true] at h
          cases hrest : allocate placement next (slots ++ [⟨output.spec, buffer⟩]) rest with
          | mk result more =>
              rw [hrest] at h
              cases h
              apply ih ((Allocator.isRegular_of_allocate hbuffer).trans hregular) hrest
              intro slot hslot
              rcases List.mem_append.1 hslot with hold | hnew
              · exact hslots slot hold
              · rw [List.mem_singleton.1 hnew]
                exact Allocator.located_allocate hregular hbuffer
        · simp only [hsize, if_false] at h
          cases h

end Execution

namespace Engine

variable {deed : Deed} {e e' : Engine}

/-!
# The end of an execution

If the check finds a displaced slot, nothing else comes of the execution.
-/

theorem Move.leaves (h : Move deed e e') {x : Ending} (hended : e'.endings = e.endings ++ [x]) :
    e' = e.leaveBackend x.submission x.result x.slots := by
  have hsame : e'.endings = e.endings -> False := by
    intro hsame
    have hlength := congrArg List.length (hsame.symm.trans hended)
    rw [List.length_append, List.length_singleton] at hlength
    omega
  cases h with
  | schedule | close | directory | stops | create | addStats | addServer | server | addAllocator
  | useAllocator | enroll | awaitSlot | enter | turn | dropResponse | ignore =>
      exact absurd rfl hsame
  | takeSlot _ e' n _ htake =>
      rcases takeSlot?_eq_some htake with ⟨free, rfl⟩
      exact absurd rfl hsame
  | gatherFails _ n failure _ _ => exact absurd (spares_respond e n _).endings hsame
  | allocateFails _ n failure a events _ _ => exact absurd (spares_respond _ n _).endings hsame
  | unwind _ n slots a events _ _ =>
      exact absurd (spares_giveUp (e.forfeit n slots a events) n).endings hsame
  | cancel _ n _ => exact absurd (spares_giveUp e n).endings hsame
  | comeBack _ n _ => exact absurd (spares_comeBack e n).endings hsame
  | leave _ n held next result slots _ _ =>
      have hleft : (e.leaveBackend n result slots).endings = e.endings ++ [⟨n, result, slots⟩] :=
        (spares_respond (e.takeSlots n result slots) n _).endings
      have hown := List.append_cancel_left (hleft.symm.trans hended)
      rw [← (List.cons.inj hown).1]

/-- What comes of an execution whose backend has ended well and left slots in the place of those
that it was given. -/
structure Concludes (d : Detached) (given slots : List OutputSlot) (before after : Engine)
    (response : Response) : Prop where
  okay : response.isOk = true ↔ SlotsInPlace d.request.model.config.placement given slots
  outputs : response.isOk = true -> response.outputs =
    List.zipWith OutputSlot.stored slots (d.request.outputs.map PreparedOutput.range?)
  /-- If it fails, the failure names the first output that is not in its place. -/
  moved : response.isOk = false -> exists (original slot : OutputSlot) (failure : Failure),
    FirstDisplaced d.request.model.config.placement given slots original slot ∧
      response.status = .error failure ∧ failure.code = .internal ∧
      failure = .outputMoved d.request.model.config.name original.spec.name slot.spec.name
        slot.buffer
  /-- If it fails, there is no output, inline or in a file. -/
  nothing : response.isOk = false -> response.outputs = [] ∧ after.directory = before.directory
  /-- If it fails, each buffer goes back with its own triple. -/
  returned : response.isOk = false ->
    (after.allocator d.allocator).ledger.handedOut =
        (before.allocator d.allocator).ledger.handedOut ∧
      (after.allocator d.allocator).ledger.returned.Perm
        ((before.allocator d.allocator).ledger.returned ++ slotTags slots)

variable {d : Detached} {x : Ending} {before after : Engine}

theorem Ends.allocator_of_error (h : Ends d x before after) (hbefore : before.Reachable)
    (hd : before.Has d) (hn : x.submission = d.number) {failure : Failure}
    (hcheck : d.request.check x = .error failure) :
    after.allocator d.allocator =
      ((before.allocator d.allocator).releaseAll (x.slots.map OutputSlot.named)).1 := by
  rcases h.move with ⟨deed, hmove⟩
  have hafter := hmove.leaves h.ended
  rw [hn] at hafter
  have hexists : (before.server (before.submission d.number).server).allocator <
      before.allocators.length := by
    rw [hd.server]
    exact hbefore.homes.allocator d.server hd.home
  rcases houtcome : before.outcome d.number x.result x.slots with ⟨result, memory, events⟩
  have hconclude : Execution.conclude (before.memory (before.submission d.number).server)
      d.request.model.config d.request.outputs x.result x.slots = (result, memory, events) := by
    rw [← houtcome, ← hd.request]
    rfl
  unfold Execution.conclude at hconclude
  unfold PreparedRequest.check at hcheck
  rw [hcheck] at hconclude
  cases hconclude
  have hleft := allocator_leaveBackend_error houtcome hexists
  rw [← hafter, hd.server, hd.allocator] at hleft
  rw [hleft]
  unfold memory
  rw [hd.allocator]

theorem concludes_of_inPlace {given : List OutputSlot} (computeTime : Nat)
    (hplaces : SlotsInPlace d.request.model.config.placement given x.slots)
    (hcheck : d.request.check x = .ok ()) :
    Concludes d given x.slots before after (d.response computeTime (d.request.answer x)) := by
  have hanswer : d.request.answer x = .ok (List.zipWith OutputSlot.stored x.slots
      (d.request.outputs.map PreparedOutput.range?)) := by
    rw [PreparedRequest.answer, hcheck]
    rfl
  rw [hanswer]
  have hokay : (d.response computeTime (.ok (List.zipWith OutputSlot.stored x.slots
      (d.request.outputs.map PreparedOutput.range?)))).isOk ≠ false := Bool.noConfusion
  constructor
  · exact ⟨fun _ => hplaces, fun _ => rfl⟩
  · exact fun _ => rfl
  · exact fun hfailed => absurd hfailed hokay
  · exact fun hfailed => absurd hfailed hokay
  · exact fun hfailed => absurd hfailed hokay

theorem Ends.concludes_of_displaced (h : Ends d x before after) (hbefore : before.Reachable)
    (hd : before.Has d) (hn : x.submission = d.number) (computeTime : Nat)
    {given : List OutputSlot} {original slot : OutputSlot}
    (hdisplaced : FirstDisplaced d.request.model.config.placement given x.slots original slot)
    (hcheck : d.request.check x = .error (.outputMoved d.request.model.config.name
      original.spec.name slot.spec.name slot.buffer)) :
    Concludes d given x.slots before after (d.response computeTime (d.request.answer x)) := by
  have hanswer : d.request.answer x = .error (.outputMoved d.request.model.config.name
      original.spec.name slot.spec.name slot.buffer) := by
    rw [PreparedRequest.answer, hcheck]
    rfl
  have hdirectory : after.directory = before.directory := by
    rw [h.written, PreparedRequest.deliveries, hcheck]
    rfl
  have hreturned := (before.allocator d.allocator).returned_releaseAll
    (x.slots.map OutputSlot.named)
  rw [← h.allocator_of_error hbefore hd hn hcheck, tags_named] at hreturned
  rw [hanswer]
  constructor
  · exact ⟨fun hok => absurd hok Bool.false_ne_true,
      fun hplaces => absurd hplaces hdisplaced.not_slotsInPlace⟩
  · exact fun hok => absurd hok Bool.false_ne_true
  · exact fun _ => ⟨original, slot, _, hdisplaced, rfl, rfl, rfl⟩
  · exact fun _ => ⟨rfl, hdirectory⟩
  · exact fun _ => hreturned

theorem Ends.concludes (h : Ends d x before after) (hbefore : before.Reachable)
    (hd : before.Has d) (hn : x.submission = d.number) (hresult : x.result = .ok ())
    (computeTime : Nat) {given : List OutputSlot} {isRegular : Bool}
    (hfresh : List.Forall₂ (OutputSlot.IsFresh isRegular) given d.request.outputs)
    (hdistinct : (given.map fun slot => slot.spec.name).Nodup)
    (hrearranged : Rearranged given x.slots) :
    Concludes d given x.slots before after (d.response computeTime (d.request.answer x)) := by
  have hlength : x.slots.length = given.length := by
    have hcount := List.Perm.length_eq hrearranged
    rwa [List.length_map, List.length_map] at hcount
  -- A backend cannot change the number of slots, so only the pairs are left to check.
  have hcheck : d.request.check x =
      Execution.checkPairs d.request.model.config (x.slots.zip d.request.outputs) := by
    unfold PreparedRequest.check
    rw [hresult]
    show Execution.checkSlots _ _ _ = _
    unfold Execution.checkSlots
    rw [if_neg (not_not_intro (hlength.trans hfresh.length_eq))]
  rcases Execution.checkPairs_of_fresh d.request.model.config hfresh hlength
    (fun _ hslot _ horiginal => hrearranged.label_of_name hdistinct hslot horiginal) with
    ⟨hplaces, hok⟩ | ⟨original, slot, hdisplaced, herror⟩
  · exact concludes_of_inPlace computeTime hplaces (hcheck.trans hok)
  · exact h.concludes_of_displaced hbefore hd hn computeTime hdisplaced (hcheck.trans herror)

/-- The slots that a request has been given are those of its outputs, without a name that occurs
twice; a regular allocator places them where the model wants them. -/
theorem Starts.fresh_outputs {start : Engine} (hd : start.Has d) {batch : ExecutionBatch}
    (h : start.Starts d.number batch) :
    List.Forall₂ (OutputSlot.IsFresh (start.allocator d.allocator).kind.isRegular) batch.outputs
        d.request.outputs ∧
      ((start.allocator d.allocator).kind.isRegular = true ->
        forall slot : OutputSlot, slot ∈ batch.outputs ->
          slot.IsLocated d.request.model.config.placement) := by
  rcases h.allocated with ⟨a, events, hallocate⟩
  rw [hd.memory, hd.request] at hallocate
  rcases Execution.allocate_eq_made hallocate with ⟨fresh, hall, hfresh⟩
  rw [List.nil_append] at hall
  rw [hall]
  refine ⟨hfresh, ?_⟩
  intro hregular
  rw [← hall]
  exact Execution.located_of_allocate hregular hallocate fun slot hslot => by cases hslot

/-- A provider that was made at some time and changed since is accepted, and its backend, which has
been given its slots once, ends well and leaves them in whatever order.  Then the response is good
if and only if each slot is in its place; with a regular allocator that is where it was given, and
with any other one its buffer has to lie where the model wants it as well.  Else the failure names
the first output whose slot is displaced, there is no output, no file has changed and each buffer
has gone back with its own triple. -/
theorem displaced_slots_come_to_nothing (ops : List Operation) {earlier : Engine}
    (hearlier : earlier.Reachable) {owner k callback n : Nat} {model : String}
    {choice : VersionChoice} {header : RequestHeader} {made : Provider}
    (hmade : earlier.provider owner model choice header = .ok made)
    (changes : List Provider.Edit)
    (haccepted : ((reached ops).submit k (made.edited changes) callback).1 = .ok n)
    {later : Engine}
    (hlater : Moves (fun _ => True) ((reached ops).submit k (made.edited changes) callback).2 later)
    {x : Ending} (hx : x ∈ later.endings) (hn : x.submission = n) (hresult : x.result = .ok ()) :
    exists (d : Detached) (batch : ExecutionBatch) (start before after : Engine) (c : Completion),
      (d.number = n ∧ d.server = k ∧ d.allocator = ((reached ops).server k).allocator ∧
        PreparedRequest.prepare ((reached ops).server k).registry (made.edited changes) =
          .ok d.request ∧ d.request.model = made.model) ∧
      (later.entries.filter (fun y => y.1 = n) = [(n, batch)] ∧
        Moves (fun _ => True) ((reached ops).submit k (made.edited changes) callback).2 start ∧
        start.Starts n batch ∧ Moves (fun _ => True) start later ∧
        Rearranged batch.outputs x.slots) ∧
      (Moves (fun _ => True) ((reached ops).submit k (made.edited changes) callback).2 before ∧
        Ends d x before after ∧ Moves (fun _ => True) after later) ∧
      (c ∈ later.completions ∧ c.submission = n ∧
        forall c' : Completion, c' ∈ later.completions -> c'.submission = n -> c' = c) ∧
      Concludes d batch.outputs x.slots before after c.response ∧
      ((start.allocator d.allocator).kind.isRegular = true ->
        (c.response.isOk = true ↔
          x.slots.map OutputSlot.label = batch.outputs.map OutputSlot.label)) := by
  have hreachable := reachable_reached ops
  rcases fresh_of_submit hreachable ((tends_reached ops).isSound k) haccepted with
    ⟨request, hprepare, hfresh⟩
  rcases hearlier.edited hmade changes with ⟨hfits, hmodel, _, _⟩
  have hfollows := hfresh.follows hlater
  rcases hfollows.backend x hx hn with ⟨batch, hentered, hcan⟩
  rcases hlater.handedOver hreachable haccepted hentered with
    ⟨start, hstart, hrest, hstarts, hprepared, _⟩
  rcases hfollows.ended x hx hn with ⟨before, after, hbefore, hends, hafter⟩
  rcases hends.answered with ⟨c, hc, hown, _, hresponse⟩
  have hcalled := hafter.records.completions c hc
  rcases hstarts.fresh_outputs (hstart.has hfresh.has) with ⟨hslots, hlocated⟩
  have hdistinct := hfits.nodup_outputSpecs
  rw [← hstarts.outputSpecs hprepared, List.map_map] at hdistinct
  have hconcludes := hends.concludes (hfresh.reachable.moves hbefore) (hbefore.has hfresh.has) hn
    hresult c.computeTime hslots hdistinct hcan.rearranged
  rw [← hresponse] at hconcludes
  have hend := hfresh.reachable.moves hlater
  refine ⟨_, batch, start, before, after, c,
    ⟨rfl, rfl, rfl, hprepare, (PreparedRequest.prepare_eq_ok hprepare).2.2.2.1.trans hmodel⟩,
    ⟨hend.entered_once hentered, hstart, hstarts, hrest, hcan.rearranged⟩,
    ⟨hbefore, hends, hafter⟩, ⟨hcalled, hown, ?_⟩, hconcludes, ?_⟩
  · intro c' hc' hn'
    exact hend.eq_of_called hcalled hc' (hn'.trans hown.symm)
  · intro hregular
    rw [hconcludes.okay]
    exact ⟨fun hplaces => hplaces.labels, fun hlabels => ⟨hlabels, hlocated hregular⟩⟩

/-- A backend that ends well and leaves its slots the other way round. -/
def reversing : Backend where
  run _ batch := .finish (.ok ()) batch.outputs.reverse
  keeps _ batch := (List.reverse_perm batch.outputs).map OutputSlot.label

/-- A server is built with a model of two outputs and this backend. -/
def reversingRun : List Operation :=
  [.build { ServerOptions.default with executionSlots := 1 } none (.ok [⟨crossedModel, [1]⟩])
    (some fun _ _ => ⟨false, .ok reversing⟩) true]

def reversingProvider : Provider :=
  { crossedProvider [] with model := ⟨0, crossedModel, 1, reversing⟩ }

def reversingAnswer : List Operation :=
  reversingRun ++ [.submit 0 (reversingProvider.edited crossedChanges) 7, .runAt 0]

theorem reversed_slots_come_to_nothing : (reached reversingRun).Reachable ∧
    (reached reversingRun).provider 0 "crossed" .latest (.new 1) = .ok reversingProvider ∧
    ((reached reversingRun).submit 0 (reversingProvider.edited crossedChanges) 7).1 = .ok 0 ∧
    Moves (fun _ => True)
      ((reached reversingRun).submit 0 (reversingProvider.edited crossedChanges) 7).2
      (reached reversingAnswer) ∧
    exists (x : Ending) (c : Completion), x ∈ (reached reversingAnswer).endings ∧
      x.submission = 0 ∧ x.result = .ok () ∧
      c ∈ (reached reversingAnswer).completions ∧ c.response.isOk = false ∧
      c.response.outputs = [] := by
  have hreachable := reachable_reached reversingRun
  have hmade : (reached reversingRun).provider 0 "crossed" .latest (.new 1) =
      .ok reversingProvider := rfl
  have haccepted : ((reached reversingRun).submit 0
      (reversingProvider.edited crossedChanges) 7).1 = .ok 0 := rfl
  have hmoves : Moves (fun _ => True)
      ((reached reversingRun).submit 0 (reversingProvider.edited crossedChanges) 7).2
      (reached reversingAnswer) := moves_runAt _ 0 (fun _ => trivial) fun _ => trivial
  refine ⟨hreachable, hmade, haccepted, hmoves, ?_⟩
  cases hendings : (reached reversingAnswer).endings with
  | nil => cases hendings
  | cons x rest =>
      have hn : x.submission = 0 := by
        cases hendings
        rfl
      have hresult : x.result = .ok () := by
        cases hendings
        rfl
      have hx : x ∈ (reached reversingAnswer).endings := by
        rw [hendings]
        exact List.mem_cons_self
      rcases displaced_slots_come_to_nothing reversingRun hreachable hmade crossedChanges haccepted
        hmoves hx hn hresult with ⟨_, _, _, _, _, c, _, _, _, ⟨hc, _, _⟩, hconcludes, _⟩
      have hfailed : c.response.isOk = false := by
        have hcompletions : (reached reversingAnswer).completions =
            [(reached reversingAnswer).completions.headD default] := rfl
        rw [hcompletions] at hc
        rw [List.mem_singleton.1 hc]
        rfl
      refine ⟨x, c, ?_, hn, hresult, hc, hfailed, (hconcludes.nothing hfailed).1⟩
      rw [← hendings]
      exact hx

/-- A server is built with an allocator that hands out buffers of another region than it is asked
for. -/
def elsewhereRun : List Operation :=
  [.addAllocator (.caller (SkewedAllocator.new 0 3 false).allocator),
    .build { ServerOptions.default with executionSlots := 1 } (some 0)
      (.ok [⟨crossedModel, [1]⟩]) (some fun _ _ => ⟨false, .ok Identity.backend⟩) true,
    .submit 0 ((crossedProvider []).edited crossedChanges) 7, .runAt 0]

/-- The identity leaves its slots where they were, and the response is a failure nevertheless. -/
theorem unmoved_slots_refused : (reached elsewhereRun).Reachable ∧
    exists (batch : ExecutionBatch) (x : Ending) (c : Completion),
      (0, batch) ∈ (reached elsewhereRun).entries ∧ x ∈ (reached elsewhereRun).endings ∧
      x.submission = 0 ∧ x.result = .ok () ∧
      x.slots.map OutputSlot.label = batch.outputs.map OutputSlot.label ∧
      c ∈ (reached elsewhereRun).completions ∧ c.submission = 0 ∧ c.response.isOk = false := by
  refine ⟨reachable_reached _, ?_⟩
  cases hentries : (reached elsewhereRun).entries with
  | nil => cases hentries
  | cons entry others =>
      cases hendings : (reached elsewhereRun).endings with
      | nil => cases hendings
      | cons x more =>
          cases hcompletions : (reached elsewhereRun).completions with
          | nil => cases hcompletions
          | cons c rest =>
              cases hentries
              cases hendings
              cases hcompletions
              exact ⟨_, _, _, List.mem_cons_self, List.mem_cons_self, rfl, rfl, rfl,
                List.mem_cons_self, rfl, rfl⟩

end Engine

end InferenceEngine
