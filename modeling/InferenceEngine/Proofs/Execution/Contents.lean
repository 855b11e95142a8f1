import InferenceEngine.Proofs.Execution.Handovers
import InferenceEngine.Proofs.Json.RoundTrips
import InferenceEngine.Proofs.Regions.Results

/-!
# What a response tells

The header of a response is a document that is written when the response is made; the outputs are
kept beside it and are found by their names.  Both come from the same list, and that list comes from
the bindings of the provider, so what the header tells is what the outputs are.
-/

namespace InferenceEngine

/-!
# Outputs and their bindings

An output takes the exact size of its batch, and that is a word.
-/

namespace OutputBinding

def announced (b : OutputBinding) (batch : Nat) : OutputHeader where
  name := b.spec.name
  size := b.spec.batchSize batch
  handle := b.destination.map HandleRange.handle

/-- Whether an output is held as it was asked for: inline, or in the range that it was bound to, and
with all of its bytes in either case. -/
def Holds (b : OutputBinding) : OutputStorage -> Prop
  | .inline buffer => b.destination = none ∧ buffer.size = b.expected
  | .delivered range => b.destination = some range ∧ range.size = b.expected

theorem Holds.header_eq {b : OutputBinding} {storage : OutputStorage} (h : b.Holds storage) :
    storage.header b.spec.name =
      ⟨b.spec.name, b.expected, b.destination.map HandleRange.handle⟩ := by
  cases storage with
  | inline buffer =>
      rcases h with ⟨hdestination, hsize⟩
      rw [hdestination, ← hsize]
      rfl
  | delivered range =>
      rcases h with ⟨hdestination, hsize⟩
      rw [hdestination, ← hsize]
      rfl

end OutputBinding

/-- Slots that pass their checks have the names and the sizes of the outputs, in their order. -/
theorem Execution.measures_of_checkSlots {config : ModelConfig} {slots : List OutputSlot}
    {outputs : List PreparedOutput} (h : checkSlots config slots outputs = .ok ()) :
    slots.map (fun slot => (slot.spec.name, slot.size)) =
      outputs.map fun output => (output.spec.name, output.size) := by
  have hlength := length_of_checkSlots h
  unfold checkSlots at h
  rw [if_neg fun hne => hne hlength] at h
  induction slots generalizing outputs with
  | nil =>
      cases outputs with
      | nil => rfl
      | cons output rest => cases hlength
  | cons slot more ih =>
      cases outputs with
      | nil => cases hlength
      | cons output rest =>
          rw [List.zip_cons_cons] at h
          unfold checkPairs at h
          split at h
          · rename_i hplace
            simp only [isInPlace, Bool.and_eq_true, decide_eq_true_eq] at hplace
            rw [List.map_cons, List.map_cons, hplace.1.1.1, hplace.1.1.2,
              ih h (Nat.succ.inj hlength)]
          · cases h

theorem holds_of_stored {slots : List OutputSlot} {bindings : List OutputBinding}
    (hsame : slots.map (fun slot => (slot.spec.name, slot.size)) =
      bindings.map fun b => (b.spec.name, b.expected))
    (hranges : forall b, b ∈ bindings -> forall range, b.destination = some range ->
      range.size = b.expected) :
    List.Forall₂ (fun b o => o.1 = b.spec.name ∧ b.Holds o.2) bindings
      (List.zipWith OutputSlot.stored slots (bindings.map OutputBinding.destination)) := by
  induction bindings generalizing slots with
  | nil =>
      rw [List.map_nil, List.zipWith_nil_right]
      exact .nil
  | cons b rest ih =>
      cases slots with
      | nil => cases hsame
      | cons slot more =>
          rw [List.map_cons, List.map_cons] at hsame
          rcases List.cons.inj hsame with ⟨hfirst, hmore⟩
          rcases Prod.mk.inj hfirst with ⟨hname, hsize⟩
          rw [List.map_cons, List.zipWith_cons_cons]
          refine .cons ⟨(slot.stored_fst _).trans hname, ?_⟩
            (ih hmore fun other hother => hranges other (List.mem_cons_of_mem _ hother))
          cases hdestination : b.destination with
          | none => exact ⟨hdestination, hsize⟩
          | some range => exact ⟨hdestination, hranges b List.mem_cons_self range hdestination⟩

theorem exists_of_forall₂ {α β : Type} {R : α -> β -> Prop} {xs : List α} {ys : List β}
    (h : List.Forall₂ R xs ys) {x : α} (hx : x ∈ xs) : exists y : β, y ∈ ys ∧ R x y := by
  induction h with
  | nil => cases hx
  | cons hfirst _ ih =>
      rcases List.mem_cons.1 hx with rfl | hrest
      · exact ⟨_, List.mem_cons_self, hfirst⟩
      · rcases ih hrest with ⟨y, hy, hrelated⟩
        exact ⟨y, List.mem_cons_of_mem _ hy, hrelated⟩

theorem PreparedRequest.id_of_prepare {registry : Registry} {p : Provider}
    {request : PreparedRequest} (h : prepare registry p = .ok request) :
    request.id = p.header.id := by
  unfold prepare at h
  rcases bind_eq_ok h with ⟨_, _, h⟩
  rcases bind_eq_ok h with ⟨inputs, _, h⟩
  rcases bind_eq_ok h with ⟨outputs, _, hrequest⟩
  cases hrequest
  rfl

namespace Provider.Outline.Fits

variable {p : Provider} (h : p.outline.Fits)

include h

theorem outputNames :
    p.outputs.map (fun b => b.spec.name) = Provider.requested p.model.config p.header := by
  have hrequested := h.requested
  unfold Provider.outline at hrequested
  rw [List.map_map] at hrequested
  exact hrequested

theorem nodup_outputNames : (p.outputs.map fun b => b.spec.name).Nodup := by
  have hdistinct := h.distinct
  unfold Provider.outline at hdistinct
  rw [List.map_map] at hdistinct
  exact hdistinct

theorem sized {b : OutputBinding} (hb : b ∈ p.outputs) :
    b.spec.batchByteSize p.header.batchSize = .ok b.expected :=
  h.outputSize (b.spec, b.expected) (List.mem_map_of_mem hb)

theorem expected_eq {b : OutputBinding} (hb : b ∈ p.outputs) :
    b.expected = b.spec.batchSize p.header.batchSize ∧
      b.spec.batchSize p.header.batchSize < Text.wordBound :=
  ⟨TensorSpec.batchByteSize_eq_ok (h.sized hb),
    (TensorSpec.isSized_of_batchByteSize (h.sized hb)).batch⟩

end Provider.Outline.Fits

/-!
# What a response is made of
-/

namespace Response

/-- Whether a response is made for the request of a provider. -/
structure IsTo (r : Response) (p : Provider) : Prop where
  batchSize : r.batchSize = p.header.batchSize
  header : exists computeTime : Nat, computeTime < Text.wordBound ∧
    r.header = .ofJson (ResponseHeader.toJson ⟨p.header.id, p.model.config.name,
      p.model.version, p.header.batchSize, r.outputs.map fun o => o.2.header o.1, computeTime⟩)
  failed : forall failure, r.status = .error failure -> r.IsBare failure
  good : r.status = .ok () ->
    List.Forall₂ (fun b o => o.1 = b.spec.name ∧ b.Holds o.2) p.outputs r.outputs

/-- What a response and its header tell about the request of a provider.  The header is told by
the request, by the model that it was pinned to and, if it went well, by the outputs that were asked
for; and what can be had of an output is what the header tells of it. -/
structure Tells (r : Response) (told : ResponseHeader) (header : RequestHeader)
    (model : LoadedModel) (bindings : List OutputBinding) : Prop where
  id : told.id = header.id
  batchSize : told.batchSize = header.batchSize
  modelName : told.model = model.config.name
  modelVersion : told.version = model.version
  failed : forall failure, r.status = .error failure ->
    told.outputs = [] ∧ forall name : String, r.outputData name = .error failure ∧
      (forall index : Nat, r.outputElement name index = .error failure) ∧
      r.outputRange name = .error failure
  outputs : r.status = .ok () ->
    told.outputs = bindings.map (fun b => b.announced header.batchSize) ∧
      told.outputs.map OutputHeader.name = Provider.requested model.config header ∧
      (told.outputs.map OutputHeader.name).Nodup
  inline : r.status = .ok () -> forall b, b ∈ bindings -> b.destination = none ->
    (exists data : Bytes, r.outputData b.spec.name = .ok data ∧
      data.length = b.spec.batchSize header.batchSize) ∧
    exists failure : Failure, r.outputRange b.spec.name = .error failure ∧
      failure.code = .invalidArg
  delivered : r.status = .ok () -> forall b, b ∈ bindings -> forall range,
    b.destination = some range ->
      r.outputRange b.spec.name = .ok range ∧
      (exists failure : Failure, r.outputData b.spec.name = .error failure ∧
        (forall index : Nat, r.outputElement b.spec.name index = .error failure) ∧
        failure.code = .invalidArg)
  others : r.status = .ok () -> forall name : String,
    name ∉ told.outputs.map OutputHeader.name ->
      exists failure : Failure, failure.code = .notFound ∧ r.outputData name = .error failure ∧
        (forall index : Nat, r.outputElement name index = .error failure) ∧
        r.outputRange name = .error failure

/-!
# Asking for outputs

The header of a response can be read, and it and the outputs tell the request.
-/

theorem outputElement_of_error {r : Response} {name : String} {failure : Failure}
    (h : r.outputData name = .error failure) (index : Nat) :
    r.outputElement name index = .error failure := by
  unfold outputElement
  rw [h]
  rfl

theorem outputRange_of_inline {r : Response} {name : String} {buffer : Buffer}
    (h : r.storage name = .ok (.inline buffer)) :
    r.outputRange name = .error (.notDelivered name) := by
  unfold outputRange
  rw [h]
  rfl

theorem outputData_of_delivered {r : Response} {name : String} {range : HandleRange}
    (h : r.storage name = .ok (.delivered range)) :
    r.outputData name = .error (.deliveredElsewhere name range.handle) := by
  unfold outputData
  rw [h]
  rfl

theorem storage_of_missing {r : Response} (hok : r.status = .ok ()) {name : String}
    (h : name ∉ r.outputNames) : r.storage name = .error (.missingOutput name) := by
  have hnone : r.outputs.find? (fun o => o.1 = name) = none := by
    apply List.find?_eq_none.2
    intro o ho hsame
    exact h (of_decide_eq_true hsame ▸ List.mem_map_of_mem ho)
  unfold storage
  simp only [hok, bind, Except.bind, hnone]

theorem access_of_missing {r : Response} {name : String} {failure : Failure}
    (h : r.storage name = .error failure) :
    r.outputData name = .error failure ∧ r.outputRange name = .error failure := by
  unfold outputData outputRange
  rw [h]
  exact ⟨rfl, rfl⟩

namespace IsTo

variable {r : Response} {p : Provider} (h : r.IsTo p) (hok : r.status = .ok ())

include h hok

theorem outputNames : r.outputNames = p.outputs.map fun b => b.spec.name := by
  unfold Response.outputNames
  have hall := h.good hok
  generalize p.outputs = bindings at hall ⊢
  generalize r.outputs = outputs at hall ⊢
  induction hall with
  | nil => rfl
  | cons hfirst _ ih => rw [List.map_cons, List.map_cons, hfirst.1, ih]

theorem storage (hfits : p.outline.Fits) {b : OutputBinding} (hb : b ∈ p.outputs) :
    exists storage : OutputStorage, r.storage b.spec.name = .ok storage ∧ b.Holds storage := by
  have hdistinct : r.outputNames.Nodup := by
    rw [h.outputNames hok]
    exact hfits.nodup_outputNames
  rcases exists_of_forall₂ (h.good hok) hb with ⟨o, ho, hname, hholds⟩
  refine ⟨o.2, ?_, hholds⟩
  rw [← hname]
  exact storage_eq_ok (Engine.isOk_of_status hok) hdistinct ho

theorem announced (hfits : p.outline.Fits) :
    r.outputs.map (fun o => o.2.header o.1) =
      p.outputs.map fun b => b.announced p.header.batchSize := by
  have hall := h.good hok
  have hsizes : forall b, b ∈ p.outputs -> b.expected = b.spec.batchSize p.header.batchSize :=
    fun b hb => (hfits.expected_eq hb).1
  generalize p.outputs = bindings at hall hsizes ⊢
  generalize r.outputs = outputs at hall ⊢
  induction hall with
  | nil => rfl
  | @cons b o rest others hfirst _ ih =>
      rw [List.map_cons, List.map_cons, hfirst.1, hfirst.2.header_eq,
        hsizes b List.mem_cons_self,
        ih fun other hother => hsizes other (List.mem_cons_of_mem _ hother)]
      rfl

theorem listed (hfits : p.outline.Fits) :
    (r.outputs.map fun o => o.2.header o.1).map OutputHeader.name =
      p.outputs.map fun b => b.spec.name := by
  rw [h.announced hok hfits, List.map_map]
  rfl

end IsTo

theorem IsTo.tells {r : Response} {p : Provider} (h : r.IsTo p) (hfits : p.outline.Fits)
    (hrange : p.header.IsInRange) (hversion : Text.fitsSigned p.model.version = true) :
    exists told : ResponseHeader, r.header.decode ResponseHeader.ofJson? = .ok told ∧
      r.Tells told p.header p.model p.outputs := by
  rcases h.header with ⟨computeTime, htime, hheader⟩
  refine ⟨⟨p.header.id, p.model.config.name, p.model.version, p.header.batchSize,
    r.outputs.map fun o => o.2.header o.1, computeTime⟩, ?_, ?_⟩
  · rw [hheader]
    refine (ResponseHeader.IsInRange.keeps ?_).restores.decoded
    refine ⟨hrange.id, hversion, hrange.batchSize, ?_, htime⟩
    intro output houtput
    cases hstatus : r.status with
    | error failure =>
        rw [(h.failed failure hstatus).outputs] at houtput
        cases houtput
    | ok _ =>
        rw [h.announced hstatus hfits] at houtput
        rcases List.mem_map.1 houtput with ⟨b, hb, rfl⟩
        exact (hfits.expected_eq hb).2
  · constructor
    case id | batchSize | modelName | modelVersion => rfl
    case failed =>
      intro failure hstatus
      have hbare := h.failed failure hstatus
      constructor
      · exact congrArg (List.map fun o => o.2.header o.1) hbare.outputs
      · intro name
        exact ⟨hbare.outputData name, hbare.outputElement name, hbare.outputRange name⟩
    case outputs =>
      intro hok
      refine ⟨h.announced hok hfits, (h.listed hok hfits).trans hfits.outputNames, ?_⟩
      rw [h.listed hok hfits]
      exact hfits.nodup_outputNames
    case inline =>
      intro hok b hb hnone
      rcases h.storage hok hfits hb with ⟨storage, hstorage, hholds⟩
      cases storage with
      | inline buffer =>
          constructor
          · exact ⟨buffer.bytes, outputData_of_inline hstorage,
              hholds.2.trans (hfits.expected_eq hb).1⟩
          · exact ⟨_, outputRange_of_inline hstorage, rfl⟩
      | delivered range =>
          rw [hholds.1] at hnone
          cases hnone
    case delivered =>
      intro hok b hb range hsome
      rcases h.storage hok hfits hb with ⟨storage, hstorage, hholds⟩
      cases storage with
      | inline buffer =>
          rw [hholds.1] at hsome
          cases hsome
      | delivered other =>
          rw [hholds.1] at hsome
          cases hsome
          have hdata := outputData_of_delivered hstorage
          exact ⟨outputRange_of_delivered hstorage, _, hdata, outputElement_of_error hdata, rfl⟩
    case others =>
      intro hok name hname
      have hmissing : name ∉ r.outputNames := by
        rw [h.outputNames hok, ← h.listed hok hfits]
        exact hname
      rcases access_of_missing (storage_of_missing hok hmissing) with ⟨hdata, hdelivered⟩
      exact ⟨_, rfl, hdata, outputElement_of_error hdata, hdelivered⟩

end Response

namespace Engine

/-!
# Responses to requests
-/

theorem Reachable.isTo {e : Engine} (h : e.Reachable) {registry : Registry} {p : Provider}
    {c : Completion} (hc : c ∈ e.completions)
    (hprepare : PreparedRequest.prepare registry p = .ok (e.submission c.submission).request) :
    c.response.IsTo p := by
  rcases PreparedRequest.prepare_eq_ok hprepare with ⟨hvalidate, _, hmapped, hmodel, hbatch⟩
  have hid := PreparedRequest.id_of_prepare hprepare
  rcases h.responded c hc with ⟨htime, allocator, result, hresponse⟩
  constructor
  case batchSize =>
    rw [hresponse, ← hbatch]
    cases result <;> rfl
  case header =>
    refine ⟨c.computeTime, htime, ?_⟩
    rw [hresponse, ← hid, ← hmodel, ← hbatch]
    cases result <;> rfl
  case failed =>
    intro failure hstatus
    rw [hresponse] at hstatus ⊢
    exact Response.isBare_of_ofResult hstatus
  case good =>
    intro hok
    rcases (h.answered c.submission c.response (.inr ⟨c, hc, rfl, rfl⟩)).2 (isOk_of_status hok) with
      ⟨slots, _, hchecked, houtputs⟩
    have hranges : (e.submission c.submission).request.outputs.map PreparedOutput.range? =
        p.outputs.map OutputBinding.destination := by
      apply map_of_mapM hmapped
      intro b output houtput
      exact (PreparedOutput.eq_of_prepare houtput).2.2
    have hmeasures : (e.submission c.submission).request.outputs.map
        (fun output => (output.spec.name, output.size)) =
        p.outputs.map fun b => (b.spec.name, b.expected) := by
      apply map_of_mapM hmapped
      intro b output houtput
      rcases PreparedOutput.eq_of_prepare houtput with ⟨hspec, hsize, _⟩
      rw [hspec, hsize]
    rw [houtputs, hranges]
    exact holds_of_stored ((Execution.measures_of_checkSlots hchecked).trans hmeasures)
      fun b hb range hrange => Provider.outputSize_of_validate hvalidate hb hrange

/-- The request of a provider stays the same, so all that it is answered with is an answer to the
provider. -/
theorem Moves.isTo {before e : Engine} (hbefore : before.Reachable) {server callback n : Nat}
    {p : Provider} (haccepted : (before.submit server p callback).1 = .ok n)
    (he : Moves (fun _ => True) (before.submit server p callback).2 e) {c : Completion}
    (hc : c ∈ e.completions) (hn : c.submission = n) : c.response.IsTo p := by
  rcases submit_enrolled hbefore haccepted with ⟨hlt, hprepare, _, _⟩
  have hsubmitted : Moves (fun _ => True) before (before.submit server p callback).2 :=
    moves_submit before server callback p trivial fun _ _ => trivial
  apply ((hbefore.moves hsubmitted).moves he).isTo hc
  rw [hn, (he.keepsRequests n hlt).2]
  exact hprepare

/-- A provider that was made at some time and changed since is accepted.  Whatever its callback is
called with, be it good, a failure, or what is answered when the work on the request is dropped: the
header can be read, and it tells the request, the model that it was pinned to and, if it went well,
the outputs that were asked for; and what can be had of each output is what the header tells of
it. -/
theorem headers_tell_outputs {earlier before e : Engine} (hearlier : earlier.Reachable)
    (hbefore : before.Reachable) {owner server callback n : Nat} {model : String}
    {choice : VersionChoice} {header : RequestHeader} {made : Provider}
    (hmade : earlier.provider owner model choice header = .ok made)
    (changes : List Provider.Edit)
    (haccepted : (before.submit server (made.edited changes) callback).1 = .ok n)
    (he : Moves (fun _ => True) (before.submit server (made.edited changes) callback).2 e)
    (hrange : header.IsInRange) (hversion : Text.fitsSigned made.model.version = true)
    {c : Completion} (hc : c ∈ e.completions) (hn : c.submission = n) :
    exists told : ResponseHeader,
      c.response.header.decode ResponseHeader.ofJson? = .ok told ∧
        c.response.Tells told header made.model (made.edited changes).outputs := by
  rcases hearlier.edited hmade changes with ⟨hfits, hmodel, hheader, _⟩
  have hto := Moves.isTo hbefore haccepted he hc hn
  rw [← hheader] at hrange
  rw [← hmodel] at hversion
  rw [← hheader, ← hmodel]
  exact hto.tells hfits hrange hversion

theorem moves_answeredRun : Moves (fun _ => True) ((reached copyRun).submit 0
    (copyProvider.edited [.append "in" [1], .append "in" [2]]) 7).2 (reached answeredRun) :=
  moves_runAt _ 0 (fun _ => trivial) fun _ => trivial

theorem mem_completions_answeredRun :
    (reached answeredRun).completions.headD default ∈ (reached answeredRun).completions := by
  have hall : (reached answeredRun).completions =
      [(reached answeredRun).completions.headD default] := rfl
  rw [hall]
  exact List.mem_singleton_self _

theorem header_of_answeredRun : exists (c : Completion) (told : ResponseHeader),
    c ∈ (reached answeredRun).completions ∧ c.response.status = .ok () ∧
    c.response.header.decode ResponseHeader.ofJson? = .ok told ∧
    told.id = 0 ∧ told.batchSize = 1 ∧ told.model = "copy" ∧ told.version = 1 ∧
    told.outputs = [⟨"out", 2, none⟩] ∧ c.response.outputData "out" = .ok [1, 2] ∧
    exists failure : Failure, failure.code = .notFound ∧
      c.response.outputData "in" = .error failure := by
  have hreachable := reachable_reached copyRun
  have haccepted : ((reached copyRun).submit 0
      (copyProvider.edited [.append "in" [1], .append "in" [2]]) 7).1 = .ok 0 := rfl
  have hstatus : ((reached answeredRun).completions.headD default).response.status = .ok () := rfl
  rcases headers_tell_outputs hreachable hreachable provider_copyRun
    [.append "in" [1], .append "in" [2]] haccepted moves_answeredRun ⟨by decide, by decide⟩
    (by decide) mem_completions_answeredRun rfl with ⟨told, hdecoded, htells⟩
  have houtputs : told.outputs = [⟨"out", 2, none⟩] := (htells.outputs hstatus).1
  rcases htells.others hstatus "in" (by rw [houtputs]; decide) with ⟨failure, hcode, hdata, _⟩
  exact ⟨_, told, mem_completions_answeredRun, hstatus, hdecoded, htells.id, htells.batchSize,
    htells.modelName, htells.modelVersion, houtputs, rfl, failure, hcode, hdata⟩

end Engine

end InferenceEngine
