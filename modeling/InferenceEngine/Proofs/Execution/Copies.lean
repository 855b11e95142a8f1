import Mathlib.Data.List.Zip
import InferenceEngine.Proofs.Execution.Answers
import InferenceEngine.Proofs.Execution.SlotOrder

/-!
# What the identity copies where

The identity pairs tensors and slots by their places.  The tensors come in the order of the names of
the inputs and the slots in the order in which the outputs are asked for.  So the bytes of an input
end up in the output that is declared at its place if, at the place of this output, there is an
input with the same bytes.
-/

namespace InferenceEngine

def OutputSlot.entry (slot : OutputSlot) : String × Bytes := (slot.spec.name, slot.buffer.bytes)

theorem Behaviour.Leads.eq_finish {result : Except Failure Unit} {slots : List OutputSlot}
    {b : Behaviour} (h : (Behaviour.finish result slots).Leads b) : b = .finish result slots := by
  induction h with
  | refl => rfl
  | resume _ _ ih => cases ih

namespace Identity

/-!
# Copying place by place
-/

theorem entries_copy {inputs : List InputTensor} {slots left : List OutputSlot}
    (hlength : slots.length ≤ inputs.length) (h : copy inputs slots = (.ok (), left)) :
    left.map OutputSlot.entry =
      (slots.map fun slot => slot.spec.name).zip (inputs.map InputTensor.data) := by
  induction inputs generalizing slots left with
  | nil =>
      have hnone : slots = [] := List.eq_nil_of_length_eq_zero (Nat.le_zero.1 hlength)
      rw [hnone] at h ⊢
      cases h
      rfl
  | cons input rest ih =>
      cases slots with
      | nil =>
          cases h
          rfl
      | cons slot more =>
          unfold copy at h
          split at h
          · rcases hcopy : copy rest more with ⟨result, others⟩
            rw [hcopy] at h
            cases h
            have hrest := ih (Nat.le_of_succ_le_succ hlength) hcopy
            rw [List.map_cons, hrest]
            rfl
          · cases h

/-- If the identity ends well, each slot holds the bytes of the tensor at its place. -/
theorem entries_run {batch : ExecutionBatch} {slots : List OutputSlot}
    (h : run batch = (.ok (), slots)) :
    slots.map OutputSlot.entry =
      (batch.outputs.map fun slot => slot.spec.name).zip (batch.inputs.map InputTensor.data) := by
  unfold run at h
  split at h
  · cases h
  · rename_i hlength
    exact entries_copy (Nat.le_of_not_lt hlength) h

theorem run_of_canEnd {model : String} {n : Nat} {batch : ExecutionBatch}
    {result : Except Failure Unit} {slots : List OutputSlot}
    (h : backend.CanEnd model n batch result slots) : run batch = (result, slots) := by
  rcases h with ⟨last, hleads, hends⟩
  have hlast : last = .finish (run batch).1 (run batch).2 := hleads.eq_finish
  rw [hlast] at hends
  cases hends
  rfl

end Identity

/-!
# Tensors and outputs at the same place

Under a name that occurs once there is one value.
-/

/-- Whether each output holds what was supplied for the input that is declared at its place. -/
def CopiesAsDeclared (config : ModelConfig) (batch : ExecutionBatch) (slots : List OutputSlot) :
    Prop :=
  forall a b : TensorSpec, (a, b) ∈ config.inputs.zip config.outputs ->
    forall t : InputTensor, t ∈ batch.inputs -> t.spec = a ->
      exists slot : OutputSlot, slot ∈ slots ∧ slot.spec.name = b.name ∧ slot.buffer.bytes = t.data

/-- Whether the tensor at the place of each output has the bytes of the input that is declared at
the place of this output. -/
def PairsAsDeclared (config : ModelConfig) (header : RequestHeader) (batch : ExecutionBatch) :
    Prop :=
  forall a b : TensorSpec, (a, b) ∈ config.inputs.zip config.outputs ->
    forall t : InputTensor, t ∈ batch.inputs -> t.spec = a ->
      forall other : InputTensor,
        (b.name, other) ∈ (Provider.requested config header).zip batch.inputs ->
          other.data = t.data

theorem eq_of_mem_zip {α : Type} {names : List String} {values : List α} (h : names.Nodup)
    {name : String} {a b : α} (ha : (name, a) ∈ names.zip values)
    (hb : (name, b) ∈ names.zip values) : a = b := by
  induction names generalizing values with
  | nil => cases ha
  | cons first rest ih =>
      cases values with
      | nil => cases ha
      | cons value more =>
          rw [List.nodup_cons] at h
          have hfresh : forall c : α, (first, c) ∉ rest.zip more :=
            fun c hc => h.1 (List.of_mem_zip hc).1
          rw [List.zip_cons_cons] at ha hb
          rcases List.mem_cons.1 ha with hfirst | hrest
          · cases hfirst
            rcases List.mem_cons.1 hb with hsame | hlater
            · cases hsame
              rfl
            · exact absurd hlater (hfresh b)
          · rcases List.mem_cons.1 hb with hfirst | hlater
            · cases hfirst
              exact absurd hrest (hfresh a)
            · exact ih h.2 hrest hlater

theorem copiesAsDeclared_iff {config : ModelConfig} {header : RequestHeader}
    {batch : ExecutionBatch} {slots : List OutputSlot}
    (hdistinct : (Provider.requested config header).Nodup)
    (hall : forall spec : TensorSpec, spec ∈ config.outputs ->
      spec.name ∈ Provider.requested config header)
    (hnames : slots.map (fun slot => slot.spec.name) = Provider.requested config header)
    (hentries : slots.map OutputSlot.entry =
      (Provider.requested config header).zip (batch.inputs.map InputTensor.data)) :
    CopiesAsDeclared config batch slots ↔ PairsAsDeclared config header batch := by
  constructor
  · intro hcopies a b hab t ht hspec other hother
    rcases hcopies a b hab t ht hspec with ⟨slot, hslot, hname, hbytes⟩
    have hentry : slot.entry ∈ slots.map OutputSlot.entry := List.mem_map_of_mem hslot
    rw [hentries, OutputSlot.entry, hname, hbytes] at hentry
    refine eq_of_mem_zip hdistinct ?_ hentry
    rw [List.zip_map_right]
    exact List.mem_map.2 ⟨_, hother, rfl⟩
  · intro hpairs a b hab t ht hspec
    have hasked := hall b (List.of_mem_zip hab).2
    rw [← hnames] at hasked
    rcases List.mem_map.1 hasked with ⟨slot, hslot, hname⟩
    have hentry : slot.entry ∈ slots.map OutputSlot.entry := List.mem_map_of_mem hslot
    rw [hentries, List.zip_map_right] at hentry
    rcases List.mem_map.1 hentry with ⟨⟨name, other⟩, hother, hsame⟩
    rcases Prod.mk.inj hsame with ⟨hown, hdata⟩
    rw [show name = b.name from hown.trans hname] at hother
    exact ⟨slot, hslot, hname, hdata.symm.trans (hpairs a b hab t ht hspec other hother)⟩

/-!
# Places by name

What is placed as declared is paired as declared, whatever the bytes are.
-/

def ModelConfig.inputsByName (config : ModelConfig) : List TensorSpec :=
  config.inputs.mergeSort fun a b => decide (a.name ≤ b.name)

theorem ModelConfig.inputsByName_perm (config : ModelConfig) :
    config.inputsByName.Perm config.inputs :=
  List.mergeSort_perm _ _

theorem ModelConfig.pairwise_inputsByName (config : ModelConfig) :
    config.inputsByName.Pairwise fun a b => a.name ≤ b.name := by
  refine List.Pairwise.imp of_decide_eq_true (List.pairwise_mergeSort ?_ ?_ config.inputs)
  · intro a b c hab hbc
    rw [decide_eq_true_eq] at hab hbc ⊢
    exact String.le_trans hab hbc
  · intro a b
    rw [Bool.or_eq_true, decide_eq_true_eq, decide_eq_true_eq]
    exact String.le_total a.name b.name

theorem ModelConfig.eq_inputsByName {config : ModelConfig} {specs : List TensorSpec}
    (hdeclared : specs.Perm config.inputs)
    (hascending : (specs.map TensorSpec.name).Pairwise (· < ·)) :
    specs = config.inputsByName := by
  have hordered : specs.Pairwise fun a b => a.name ≤ b.name :=
    (List.pairwise_map.1 hascending).imp fun hlt => String.not_lt.1 (String.lt_asymm hlt)
  have hperm : specs.Perm config.inputsByName := hdeclared.trans config.inputsByName_perm.symm
  refine List.Perm.eq_of_pairwise ?_ hordered config.pairwise_inputsByName hperm
  intro a b ha hb hab hba
  exact List.inj_on_of_nodup_map hascending.nodup ha (hperm.mem_iff.2 hb)
    (String.le_antisymm hab hba)

/-- Whether each output is asked for at the place that the input declared at its place has in the
order of the names. -/
def PlacedAsDeclared (config : ModelConfig) (header : RequestHeader) : Prop :=
  forall a b : TensorSpec, (a, b) ∈ config.inputs.zip config.outputs ->
    (b.name, a) ∈ (Provider.requested config header).zip config.inputsByName

/-- Whoever declares the inputs in the order of their names and asks for the outputs as they are
declared has them at the same places. -/
theorem placedAsDeclared_of_ordered {config : ModelConfig} {header : RequestHeader}
    (hinputs : (config.inputs.map TensorSpec.name).Pairwise (· < ·))
    (houtputs : Provider.requested config header = config.outputs.map TensorSpec.name) :
    PlacedAsDeclared config header := by
  intro a b hab
  rw [← ModelConfig.eq_inputsByName (List.Perm.refl _) hinputs, houtputs, List.zip_map_left,
    ← List.zip_swap, List.map_map]
  exact List.mem_map.2 ⟨(a, b), hab, rfl⟩

section Places

variable {config : ModelConfig} {header : RequestHeader} {batch : ExecutionBatch}
  (hspecs : batch.inputs.map InputTensor.spec = config.inputsByName)

include hspecs

theorem PlacedAsDeclared.pairs (h : PlacedAsDeclared config header)
    (hdistinct : (Provider.requested config header).Nodup)
    (hascending : (batch.inputs.map fun t => t.spec.name).Pairwise (· < ·)) :
    PairsAsDeclared config header batch := by
  intro a b hab t ht hspec other hother
  have hplaced : (b.name, other.spec) ∈
      (Provider.requested config header).zip config.inputsByName := by
    rw [← hspecs, List.zip_map_right]
    exact List.mem_map.2 ⟨(b.name, other), hother, rfl⟩
  have hown : other.spec = a := eq_of_mem_zip hdistinct hplaced (h a b hab)
  have hsame : other = t := List.inj_on_of_nodup_map hascending.nodup
    (List.of_mem_zip hother).2 ht (congrArg TensorSpec.name (hown.trans hspec.symm))
  rw [hsame]

theorem PairsAsDeclared.placed (h : PairsAsDeclared config header batch)
    (hall : forall spec : TensorSpec, spec ∈ config.outputs ->
      spec.name ∈ Provider.requested config header)
    (hlength : (Provider.requested config header).length ≤ batch.inputs.length)
    (hdata : (batch.inputs.map InputTensor.data).Nodup) : PlacedAsDeclared config header := by
  intro a b hab
  have hinput : a ∈ batch.inputs.map InputTensor.spec := by
    rw [hspecs]
    exact config.inputsByName_perm.mem_iff.2 (List.of_mem_zip hab).1
  rcases List.mem_map.1 hinput with ⟨t, ht, hspec⟩
  have hasked := hall b (List.of_mem_zip hab).2
  rw [← List.map_fst_zip hlength] at hasked
  rcases List.mem_map.1 hasked with ⟨⟨name, other⟩, hother, hname⟩
  rw [show name = b.name from hname] at hother
  have hsame : other = t := List.inj_on_of_nodup_map hdata (List.of_mem_zip hother).2 ht
    (h a b hab t ht hspec other hother)
  rw [← hspecs, List.zip_map_right]
  refine List.mem_map.2 ⟨(b.name, other), hother, ?_⟩
  rw [hsame]
  exact congrArg (Prod.mk b.name) hspec

end Places

namespace Engine

/-!
# Responses of the identity
-/

/-- A provider of a model that the identity serves was made at some time, changed since and
accepted, and asks for all outputs.  Whatever happens from then on, a good response to it is made of
the slots that the identity has left, and each of them holds the bytes of the tensor at its place:
the tensors stand in the order of their names, with what the changes since the last reset come to,
and the slots in the order in which they are asked for.  So each output holds what was supplied for
the input declared at its place if and only if the tensor that comes at its place has the same
bytes.  Whatever the bytes are, this is so if each output is asked for at the place that this input
has in the order of the names, and only then if no two inputs have the same bytes. -/
theorem identity_copies_as_declared_iff {earlier before e : Engine} (hearlier : earlier.Reachable)
    (hbefore : before.Reachable) {owner server callback n : Nat} {model : String}
    {choice : VersionChoice} {header : RequestHeader} {made : Provider}
    (hmade : earlier.provider owner model choice header = .ok made)
    (hidentity : made.model.backend = Identity.backend)
    (hall : forall spec : TensorSpec, spec ∈ made.model.config.outputs ->
      spec.name ∈ Provider.requested made.model.config header)
    (changes : List Provider.Edit)
    (haccepted : (before.submit server (made.edited changes) callback).1 = .ok n)
    (he : Moves (fun _ => True) (before.submit server (made.edited changes) callback).2 e)
    {r : Response} (hr : e.Gave n r) (hok : r.isOk = true) :
    exists (batch : ExecutionBatch) (slots : List OutputSlot),
      e.entries.filter (fun x => x.1 = n) = [(n, batch)] ∧
      (exists start : Engine,
        Moves (fun _ => True) (before.submit server (made.edited changes) callback).2 start ∧
        Moves (fun _ => True) start e ∧ start.Starts n batch ∧
        batch.IsFor made.model header (Provider.sinceReset (made.made changes))
          (before.server server).registry start.directory
          (start.allocator (start.server server).allocator).kind.isRegular) ∧
      (batch.inputs.map fun t => t.spec.name).Pairwise (· < ·) ∧
      e.endings.filter (fun x => x.submission = n) = [⟨n, .ok (), slots⟩] ∧
      (forall slot, slot ∈ slots ->
        forall b, b ∈ (made.edited changes).outputs -> b.spec.name = slot.spec.name ->
          match b.destination with
          | none => r.outputData slot.spec.name = .ok slot.buffer.bytes
          | some range => r.outputRange slot.spec.name = .ok range) ∧
      slots.map OutputSlot.entry =
        (Provider.requested made.model.config header).zip (batch.inputs.map InputTensor.data) ∧
      (CopiesAsDeclared made.model.config batch slots ↔
        PairsAsDeclared made.model.config header batch) ∧
      (PlacedAsDeclared made.model.config header ->
        CopiesAsDeclared made.model.config batch slots) ∧
      ((batch.inputs.map InputTensor.data).Nodup ->
        CopiesAsDeclared made.model.config batch slots ->
        PlacedAsDeclared made.model.config header) := by
  rcases hearlier.edited hmade changes with ⟨hfits, hmodel, hheader, hremembers⟩
  have hsubmitted : Moves (fun _ => True) before
      (before.submit server (made.edited changes) callback).2 :=
    moves_submit before server callback _ trivial fun _ _ => trivial
  have hreachable : e.Reachable := (hbefore.moves hsubmitted).moves he
  have hprepared : PreparedRequest.prepare (before.server server).registry (made.edited changes) =
      .ok (e.submission n).request := by
    rcases submit_enrolled hbefore haccepted with ⟨hlt, hprepare, _, _⟩
    rw [(he.keepsRequests n hlt).2]
    exact hprepare
  rcases hreachable.response_ok hfits hprepared hr hok with
    ⟨batch, slots, hentered, hended, hcan, hslots, _, hgives⟩
  rcases he.handedOver hbefore haccepted hentered with
    ⟨start, hstart, hrest, hstarts, hprepare, hserver⟩
  have hfor := hstarts.isFor hfits hremembers hprepare
  rw [hmodel, hheader, hserver] at hfor
  have hascending := hfits.ascending_inputSpecs
  rw [← hstarts.inputSpecs hprepare, List.map_map] at hascending
  have hnames := hfits.names_outputSpecs
  rw [hmodel, hheader, Provider.outputSpecs, List.map_map] at hnames
  have hdistinct := hfits.nodup_outputSpecs
  rw [Provider.outputSpecs, List.map_map, hnames] at hdistinct
  rw [hmodel, hidentity] at hcan
  have hentries := Identity.entries_run (Identity.run_of_canEnd hcan)
  rw [hfor.requested] at hentries
  have hspecs : batch.inputs.map InputTensor.spec = made.model.config.inputsByName := by
    apply ModelConfig.eq_inputsByName hfor.declared
    rw [List.map_map]
    exact hascending
  have hcopies := copiesAsDeclared_iff hdistinct hall (hslots.trans hnames) hentries
  refine ⟨batch, slots, hreachable.entered_once hentered,
    ⟨start, hstart, hrest, hstarts, hfor⟩, hascending, hended, hgives, hentries, hcopies, ?_, ?_⟩
  · exact fun hplaced => hcopies.2 (hplaced.pairs hspecs hdistinct hascending)
  · intro hdata hdeclared
    have hlength := congrArg List.length hentries
    rw [List.length_map, List.length_zip, List.length_map,
      ← List.length_map fun slot : OutputSlot => slot.spec.name, hslots.trans hnames] at hlength
    exact (hcopies.1 hdeclared).placed hspecs hall (by omega) hdata

/-- The inputs are not declared in the order of their names, and neither are the outputs asked for
as they are declared; so each output holds what was supplied for the input declared at its place. -/
theorem copied_in_crossedAnswer : (reached crossedRun).Reachable ∧
    (reached crossedRun).provider 0 "crossed" .latest ⟨0, 1, ["y", "x"]⟩ =
      .ok (crossedProvider ["y", "x"]) ∧
    (crossedProvider ["y", "x"]).model.backend = Identity.backend ∧
    (forall spec : TensorSpec, spec ∈ crossedModel.outputs ->
      spec.name ∈ Provider.requested crossedModel ⟨0, 1, ["y", "x"]⟩) ∧
    ((reached crossedRun).submit 0
      ((crossedProvider ["y", "x"]).edited crossedChanges) 7).1 = .ok 0 ∧
    Moves (fun _ => True)
      ((reached crossedRun).submit 0 ((crossedProvider ["y", "x"]).edited crossedChanges) 7).2
      (reached (crossedAnswer ["y", "x"])) ∧
    exists (r : Response) (batch : ExecutionBatch) (slots : List OutputSlot),
      (reached (crossedAnswer ["y", "x"])).Gave 0 r ∧ r.isOk = true ∧
      (reached (crossedAnswer ["y", "x"])).entries.filter (fun x => x.1 = 0) = [(0, batch)] ∧
      CopiesAsDeclared crossedModel batch slots ∧
      r.outputData "x" = .ok [1] ∧ r.outputData "y" = .ok [2] := by
  have hreachable := reachable_reached crossedRun
  have hmade : (reached crossedRun).provider 0 "crossed" .latest ⟨0, 1, ["y", "x"]⟩ =
      .ok (crossedProvider ["y", "x"]) := rfl
  have hall : forall spec : TensorSpec, spec ∈ crossedModel.outputs ->
      spec.name ∈ Provider.requested crossedModel ⟨0, 1, ["y", "x"]⟩ := by decide
  have haccepted : ((reached crossedRun).submit 0
      ((crossedProvider ["y", "x"]).edited crossedChanges) 7).1 = .ok 0 := rfl
  have hmoves : Moves (fun _ => True)
      ((reached crossedRun).submit 0 ((crossedProvider ["y", "x"]).edited crossedChanges) 7).2
      (reached (crossedAnswer ["y", "x"])) := moves_runAt _ 0 (fun _ => trivial) fun _ => trivial
  refine ⟨hreachable, hmade, rfl, hall, haccepted, hmoves, ?_⟩
  cases hheld : (reached (crossedAnswer ["y", "x"])).response? 0 with
  | none => cases hheld
  | some r =>
      have hok : r.isOk = true := by
        cases hheld
        rfl
      have hdata : r.outputData "x" = .ok [1] ∧ r.outputData "y" = .ok [2] := by
        cases hheld
        exact ⟨rfl, rfl⟩
      have hplaced : PlacedAsDeclared crossedModel ⟨0, 1, ["y", "x"]⟩ := by
        have hnames : crossedModel.inputsByName = crossedModel.inputs.reverse :=
          (ModelConfig.eq_inputsByName (List.reverse_perm _) (by decide)).symm
        unfold PlacedAsDeclared
        rw [hnames]
        intro a b hab
        rcases List.mem_cons.1 hab with hfirst | hrest
        · cases hfirst
          decide
        · cases List.mem_singleton.1 hrest
          decide
      rcases identity_copies_as_declared_iff hreachable hreachable hmade rfl hall crossedChanges
        haccepted hmoves (.inl hheld) hok with
        ⟨batch, slots, hentered, _, _, _, _, _, _, hcopies, _⟩
      exact ⟨r, batch, slots, .inl hheld, hok, hentered, hcopies hplaced, hdata⟩

/-- The first output that a model declares holds what was supplied for the second input, whose name
comes first. -/
theorem crossed_output_holds_second_input : (reached (crossedAnswer [])).Reachable ∧
    (reached crossedRun).provider 0 "crossed" .latest ⟨0, 1, []⟩ = .ok (crossedProvider []) ∧
    ((reached crossedRun).submit 0 ((crossedProvider []).edited crossedChanges) 7).1 = .ok 0 ∧
    (forall a b : TensorSpec, (a, b) ∈ crossedModel.inputs.zip crossedModel.outputs ->
      a.batchByteSize 1 = b.batchByteSize 1) ∧
    crossedModel.inputs.head?.map TensorSpec.name = some "b" ∧
    crossedModel.outputs.head?.map TensorSpec.name = some "x" ∧
    Provider.sourceOf "b" (Provider.sinceReset ((crossedProvider []).made crossedChanges)) =
      .buffers [[1]] ∧
    exists r : Response, (reached (crossedAnswer [])).response? 0 = some r ∧ r.isOk = true ∧
      r.outputData "x" = .ok [2] := by
  refine ⟨reachable_reached _, rfl, rfl, ?_, rfl, rfl, rfl, ?_⟩
  · intro a b hab
    rcases List.mem_cons.1 hab with hfirst | hrest
    · cases hfirst
      rfl
    · cases List.mem_singleton.1 hrest
      rfl
  · cases hheld : (reached (crossedAnswer [])).response? 0 with
    | none => cases hheld
    | some r =>
        cases hheld
        exact ⟨_, rfl, rfl, rfl⟩

end Engine

end InferenceEngine
