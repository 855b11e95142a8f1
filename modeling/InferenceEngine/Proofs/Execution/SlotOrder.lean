import InferenceEngine.Proofs.Execution.Handovers
import InferenceEngine.Proofs.Requests.Acceptance

/-!
# The order of slots

A backend gets its slots in the order in which the outputs are asked for.  That is the order in
which the model declares them only if the names in the header of the request are in this order as
well.
-/

namespace InferenceEngine

/-!
# Tensors by name

Tensors of a list without a name that occurs twice are told by their names.
-/

theorem TensorSpec.eq_of_names {declared specs others : List TensorSpec}
    (hdistinct : (declared.map TensorSpec.name).Nodup)
    (hspecs : forall spec, spec ∈ specs -> spec ∈ declared)
    (hothers : forall spec, spec ∈ others -> spec ∈ declared)
    (hnames : specs.map TensorSpec.name = others.map TensorSpec.name) : specs = others := by
  induction specs generalizing others with
  | nil =>
      cases others with
      | nil => rfl
      | cons other rest => cases hnames
  | cons spec more ih =>
      cases others with
      | nil => cases hnames
      | cons other rest =>
          rcases List.cons.inj hnames with ⟨hfirst, hmore⟩
          have hsame : spec = other := List.inj_on_of_nodup_map hdistinct
            (hspecs spec List.mem_cons_self) (hothers other List.mem_cons_self) hfirst
          rw [hsame, ih (fun s hs => hspecs s (List.mem_cons_of_mem _ hs))
            (fun s hs => hothers s (List.mem_cons_of_mem _ hs)) hmore]

theorem TensorSpec.sublist_of_names {declared specs : List TensorSpec}
    (hdistinct : (declared.map TensorSpec.name).Nodup)
    (hspecs : forall spec, spec ∈ specs -> spec ∈ declared)
    (hnames : (specs.map TensorSpec.name).Sublist (declared.map TensorSpec.name)) :
    specs.Sublist declared := by
  rcases List.sublist_map_iff.1 hnames with ⟨others, hsublist, hsame⟩
  rw [eq_of_names hdistinct hspecs (fun _ hspec => hsublist.subset hspec) hsame]
  exact hsublist

theorem Provider.requested_sublist_iff {config : ModelConfig} {header : RequestHeader} :
    (requested config header).Sublist (config.outputs.map TensorSpec.name) ↔
      header.outputs.Sublist (config.outputs.map TensorSpec.name) := by
  unfold requested
  split
  · rename_i hall
    rw [List.isEmpty_iff.1 hall]
    exact ⟨fun _ => List.nil_sublist _, fun _ => List.Sublist.refl _⟩
  · exact Iff.rfl

namespace Engine

/-!
# Slots of accepted requests
-/

/-- Whether slots stand in the order in which a model declares its outputs. -/
def InDeclaredOrder (config : ModelConfig) (slots : List OutputSlot) : Prop :=
  (slots.map OutputSlot.spec).Sublist config.outputs

/-- A provider that was made at some time and changed since is accepted.  Whatever happens from
then on, the slots of the batch that is handed over for it are those of the outputs that its header
asks for, in the order of the header; so they stand in the order in which the model declares them if
and only if the header names them in this order, or names none and so asks for all. -/
theorem slots_in_declared_order_iff {earlier before e : Engine} (hearlier : earlier.Reachable)
    (hbefore : before.Reachable) {owner server callback n : Nat} {model : String}
    {choice : VersionChoice} {header : RequestHeader} {made : Provider}
    (hmade : earlier.provider owner model choice header = .ok made)
    (changes : List Provider.Edit)
    (haccepted : (before.submit server (made.edited changes) callback).1 = .ok n)
    (he : Moves (fun _ => True) (before.submit server (made.edited changes) callback).2 e)
    {batch : ExecutionBatch} (hentered : (n, batch) ∈ e.entries) :
    batch.outputs.map (fun slot => slot.spec.name) = Provider.requested made.model.config header ∧
      (forall slot : OutputSlot, slot ∈ batch.outputs -> slot.spec ∈ made.model.config.outputs) ∧
      (InDeclaredOrder made.model.config batch.outputs ↔
        header.outputs.Sublist (made.model.config.outputs.map TensorSpec.name)) := by
  rcases hearlier.edited hmade changes with ⟨hfits, hmodel, hheader, _⟩
  rcases he.handedOver hbefore haccepted hentered with ⟨start, _, _, hstarts, hprepare, _⟩
  have hspecs := hstarts.outputSpecs hprepare
  have hdistinct := hfits.valid.distinct_outputs
  have hnames := hfits.names_outputSpecs
  have hdeclared : forall spec : TensorSpec, spec ∈ (made.edited changes).outputSpecs ->
      spec ∈ (made.edited changes).model.config.outputs := fun _ => hfits.mem_outputSpecs
  rw [show (made.edited changes).outline.model = made.model from hmodel] at hdistinct
  rw [hmodel, hheader] at hnames
  rw [hmodel] at hdeclared
  refine ⟨?_, ?_, ?_⟩
  · rw [← hnames, ← hspecs, List.map_map]
    rfl
  · intro slot hslot
    apply hdeclared
    rw [← hspecs]
    exact List.mem_map_of_mem hslot
  · unfold InDeclaredOrder
    rw [hspecs, ← Provider.requested_sublist_iff, ← hnames]
    constructor
    · exact fun hsublist => hsublist.map TensorSpec.name
    · exact TensorSpec.sublist_of_names hdistinct hdeclared

/-- A model with two inputs and two outputs; its inputs are not declared in the order of their
names. -/
def crossedModel : ModelConfig :=
  ((((ModelConfig.new "crossed" 0).addInput ⟨"b", .uint8, [1]⟩).addInput
    ⟨"a", .uint8, [1]⟩).addOutput ⟨"x", .uint8, [1]⟩).addOutput ⟨"y", .uint8, [1]⟩

def crossedRun : List Operation :=
  [.build { ServerOptions.default with executionSlots := 1 } none (.ok [⟨crossedModel, [1]⟩])
    (some fun _ _ => ⟨false, .ok Identity.backend⟩) true]

/-- The provider that this server makes for a header with no number. -/
def crossedProvider (outputs : List String) : Provider where
  server := 0
  model := ⟨0, crossedModel, 1, Identity.backend⟩
  header := ⟨0, 1, outputs⟩
  inputs := .ofList [("b", ⟨⟨"b", .uint8, [1]⟩, 1, .buffers []⟩),
    ("a", ⟨⟨"a", .uint8, [1]⟩, 1, .buffers []⟩)]
  outputs := (Provider.requested crossedModel ⟨0, 1, outputs⟩).map fun name =>
    ⟨⟨name, .uint8, [1]⟩, 1, none⟩

def crossedChanges : List Provider.Edit := [.append "b" [1], .append "a" [2]]

def crossedAnswer (outputs : List String) : List Operation :=
  crossedRun ++ [.submit 0 ((crossedProvider outputs).edited crossedChanges) 7, .runAt 0]

theorem crossed_slot_in_order : (reached crossedRun).Reachable ∧
    (reached crossedRun).provider 0 "crossed" .latest ⟨0, 1, ["y"]⟩ =
      .ok (crossedProvider ["y"]) ∧
    ((reached crossedRun).submit 0 ((crossedProvider ["y"]).edited crossedChanges) 7).1 = .ok 0 ∧
    Moves (fun _ => True)
      ((reached crossedRun).submit 0 ((crossedProvider ["y"]).edited crossedChanges) 7).2
      (reached (crossedAnswer ["y"])) ∧
    exists batch : ExecutionBatch, (0, batch) ∈ (reached (crossedAnswer ["y"])).entries ∧
      InDeclaredOrder crossedModel batch.outputs := by
  have hreachable := reachable_reached crossedRun
  have hmade : (reached crossedRun).provider 0 "crossed" .latest ⟨0, 1, ["y"]⟩ =
      .ok (crossedProvider ["y"]) := rfl
  have haccepted : ((reached crossedRun).submit 0
      ((crossedProvider ["y"]).edited crossedChanges) 7).1 = .ok 0 := rfl
  have hmoves : Moves (fun _ => True)
      ((reached crossedRun).submit 0 ((crossedProvider ["y"]).edited crossedChanges) 7).2
      (reached (crossedAnswer ["y"])) := moves_runAt _ 0 (fun _ => trivial) fun _ => trivial
  refine ⟨hreachable, hmade, haccepted, hmoves, ?_⟩
  cases hentries : (reached (crossedAnswer ["y"])).entries with
  | nil => cases hentries
  | cons entry rest =>
      have hnumber : entry.1 = 0 := by
        cases hentries
        rfl
      have hentered : (0, entry.2) ∈ (reached (crossedAnswer ["y"])).entries := by
        rw [hentries, ← hnumber]
        exact List.mem_cons_self
      have horder := (slots_in_declared_order_iff hreachable hreachable hmade crossedChanges
        haccepted hmoves hentered).2.2
      refine ⟨entry.2, ?_, horder.2 (by decide)⟩
      rw [← hentries]
      exact hentered

/-- The outputs are asked for in another order than the model declares them, and the backend gets
the slots in this order. -/
theorem crossed_slots_as_asked : (reached (crossedAnswer ["y", "x"])).Reachable ∧
    (reached crossedRun).provider 0 "crossed" .latest ⟨0, 1, ["y", "x"]⟩ =
      .ok (crossedProvider ["y", "x"]) ∧
    ((reached crossedRun).submit 0
      ((crossedProvider ["y", "x"]).edited crossedChanges) 7).1 = .ok 0 ∧
    exists batch : ExecutionBatch, (0, batch) ∈ (reached (crossedAnswer ["y", "x"])).entries ∧
      batch.outputs.map (fun slot => slot.spec.name) = ["y", "x"] ∧
      ¬ InDeclaredOrder crossedModel batch.outputs := by
  refine ⟨reachable_reached _, rfl, rfl, ?_⟩
  cases hentries : (reached (crossedAnswer ["y", "x"])).entries with
  | nil => cases hentries
  | cons entry rest =>
      cases hentries
      refine ⟨_, List.mem_cons_self, rfl, ?_⟩
      intro horder
      have hnames := horder.map TensorSpec.name
      exact absurd hnames (by decide)

end Engine

end InferenceEngine
