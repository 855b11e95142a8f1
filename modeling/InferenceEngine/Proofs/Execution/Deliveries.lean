import InferenceEngine.Proofs.Execution.Batches

/-!
# What is delivered

If all goes well, each output is held as its slot was left: inline with the bytes of the slot, or
in the range that it was bound to.  The slots are then still in the order of the outputs, so that
under the name of an output there is what was left in its slot.
-/

namespace InferenceEngine

def OutputSlot.stored (slot : OutputSlot) (destination : Option HandleRange) :
    String × OutputStorage :=
  match destination with
  | none => (slot.spec.name, .inline slot.buffer)
  | some range => (slot.spec.name, .delivered range)

@[simp] theorem OutputSlot.stored_fst (slot : OutputSlot) (destination : Option HandleRange) :
    (slot.stored destination).1 = slot.spec.name := by
  cases destination <;> rfl

namespace Execution

theorem outputs_deliverSlot (s : Delivery) (slot : OutputSlot) (output : PreparedOutput) :
    (deliverSlot s slot output).outputs =
      s.outputs ++ [slot.stored output.range?] := by
  unfold deliverSlot PreparedOutput.range?
  cases output.destination <;> rfl

theorem outputs_deliverSlots (pairs : List (OutputSlot × PreparedOutput)) (s : Delivery) :
    (pairs.foldl (fun s pair => deliverSlot s pair.1 pair.2) s).outputs =
      s.outputs ++ pairs.map fun pair => pair.1.stored pair.2.range? := by
  induction pairs generalizing s with
  | nil => exact (List.append_nil _).symm
  | cons pair rest ih =>
      rw [List.foldl_cons, ih, outputs_deliverSlot, List.append_assoc, List.map_cons]
      rfl

theorem deliver_eq_ok {m m' : Memory} {slots : List OutputSlot} {outputs : List PreparedOutput}
    {results : List (String × OutputStorage)} {events : List Event}
    (h : deliver m slots outputs = (.ok results, m', events)) :
    results = List.zipWith OutputSlot.stored slots (outputs.map PreparedOutput.range?) := by
  simp only [deliver] at h
  split at h
  · cases h
    rw [outputs_deliverSlots, List.nil_append, List.zip, List.map_zipWith, List.zipWith_map_right]
  · cases h

/-- An execution succeeds only if its backend does and leaves the slots in their places. -/
theorem conclude_eq_ok {m m' : Memory} {config : ModelConfig} {outputs : List PreparedOutput}
    {left : Except Failure Unit} {slots : List OutputSlot}
    {results : List (String × OutputStorage)} {events : List Event}
    (h : conclude m config outputs left slots = (.ok results, m', events)) :
    left = .ok () ∧ checkSlots config slots outputs = .ok () ∧
      results = List.zipWith OutputSlot.stored slots (outputs.map PreparedOutput.range?) := by
  unfold conclude at h
  split at h
  · rename_i hchecked
    rcases bind_eq_ok hchecked with ⟨_, hleft, hslots⟩
    exact ⟨hleft, hslots, deliver_eq_ok h⟩
  · cases h

/-!
# Slots in their places
-/

theorem names_of_checkPairs {config : ModelConfig} {slots : List OutputSlot}
    {outputs : List PreparedOutput} (hlength : slots.length = outputs.length)
    (h : checkPairs config (slots.zip outputs) = .ok ()) :
    slots.map (fun slot => slot.spec.name) = outputs.map fun output => output.spec.name := by
  induction slots generalizing outputs with
  | nil =>
      cases outputs with
      | nil => rfl
      | cons output rest => cases hlength
  | cons slot more ih =>
      cases outputs with
      | nil => cases hlength
      | cons output rest =>
          rw [List.zip_cons_cons] at h
          unfold checkPairs at h
          split at h
          · rename_i hplace
            simp only [isInPlace, Bool.and_eq_true, decide_eq_true_eq] at hplace
            rw [List.map_cons, List.map_cons, hplace.1.1.1, ih (Nat.succ.inj hlength) h]
          · cases h

theorem names_of_checkSlots {config : ModelConfig} {slots : List OutputSlot}
    {outputs : List PreparedOutput} (h : checkSlots config slots outputs = .ok ()) :
    slots.map (fun slot => slot.spec.name) = outputs.map fun output => output.spec.name := by
  have hlength := length_of_checkSlots h
  unfold checkSlots at h
  rw [if_neg fun hne => hne hlength] at h
  exact names_of_checkPairs hlength h

end Execution

/-!
# Outputs by name

Under a name that occurs once there is what is held under it.
-/

theorem names_of_stored {slots : List OutputSlot} {destinations : List (Option HandleRange)}
    (h : slots.length = destinations.length) :
    (List.zipWith OutputSlot.stored slots destinations).map Prod.fst =
      slots.map fun slot => slot.spec.name := by
  induction slots generalizing destinations with
  | nil => rfl
  | cons slot more ih =>
      cases destinations with
      | nil => cases h
      | cons destination rest =>
          rw [List.zipWith_cons_cons, List.map_cons, List.map_cons, OutputSlot.stored_fst,
            ih (Nat.succ.inj h)]

/-- If slots have the names of outputs, in their order and without a name that occurs twice, then
an output is held as the slot of its name was left. -/
theorem stored_mem {slots : List OutputSlot} {bindings : List OutputBinding}
    (hnames : slots.map (fun slot => slot.spec.name) = bindings.map fun b => b.spec.name)
    (hdistinct : (bindings.map fun b => b.spec.name).Nodup) {slot : OutputSlot}
    (hslot : slot ∈ slots) {b : OutputBinding} (hb : b ∈ bindings)
    (hname : b.spec.name = slot.spec.name) :
    slot.stored b.destination ∈
      List.zipWith OutputSlot.stored slots (bindings.map OutputBinding.destination) := by
  induction slots generalizing bindings with
  | nil => cases hslot
  | cons first more ih =>
      cases bindings with
      | nil => cases hb
      | cons other rest =>
          rw [List.map_cons, List.map_cons] at hnames
          rw [List.map_cons, List.zipWith_cons_cons]
          rw [List.map_cons, List.nodup_cons] at hdistinct
          rcases List.cons.inj hnames with ⟨hfirst, hmore⟩
          rcases List.mem_cons.1 hslot with rfl | hslot
          · rcases List.mem_cons.1 hb with rfl | hb
            · exact List.mem_cons_self
            · have hagain : b.spec.name ∈ rest.map fun b => b.spec.name := List.mem_map_of_mem hb
              rw [hname, hfirst] at hagain
              exact absurd hagain hdistinct.1
          · rcases List.mem_cons.1 hb with rfl | hb
            · have hagain : slot.spec.name ∈ more.map fun slot => slot.spec.name :=
                List.mem_map_of_mem hslot
              rw [hmore, ← hname] at hagain
              exact absurd hagain hdistinct.1
            · exact List.mem_cons_of_mem _ (ih hmore hdistinct.2 hslot hb)

theorem find?_of_nodup {outputs : List (String × OutputStorage)}
    (hdistinct : (outputs.map Prod.fst).Nodup) {o : String × OutputStorage} (ho : o ∈ outputs) :
    outputs.find? (fun x => x.1 = o.1) = some o := by
  induction outputs with
  | nil => cases ho
  | cons first rest ih =>
      rw [List.map_cons, List.nodup_cons] at hdistinct
      rcases List.mem_cons.1 ho with rfl | ho
      · simp
      · have hne : first.1 ≠ o.1 := by
          intro hsame
          apply hdistinct.1
          rw [hsame]
          exact List.mem_map_of_mem ho
        rw [List.find?_cons_of_neg (by simpa using hne)]
        exact ih hdistinct.2 ho

namespace Response

theorem storage_eq_ok {r : Response} (hok : r.isOk = true) (hdistinct : r.outputNames.Nodup)
    {o : String × OutputStorage} (ho : o ∈ r.outputs) : r.storage o.1 = .ok o.2 := by
  unfold storage
  unfold isOk at hok
  split at hok
  · rename_i hstatus
    simp only [hstatus, bind, Except.bind, find?_of_nodup hdistinct ho]
  · cases hok

theorem outputData_of_inline {r : Response} {name : String} {buffer : Buffer}
    (h : r.storage name = .ok (.inline buffer)) : r.outputData name = .ok buffer.bytes := by
  unfold outputData
  rw [h]
  rfl

theorem outputRange_of_delivered {r : Response} {name : String} {range : HandleRange}
    (h : r.storage name = .ok (.delivered range)) : r.outputRange name = .ok range := by
  unfold outputRange
  rw [h]
  rfl

/-- A good response gives out what slots were left with, under the names of the outputs, or the
ranges that these were bound to. -/
theorem gives_of_stored {r : Response} (hok : r.isOk = true) {slots : List OutputSlot}
    {bindings : List OutputBinding}
    (hnames : slots.map (fun slot => slot.spec.name) = bindings.map fun b => b.spec.name)
    (hdistinct : (bindings.map fun b => b.spec.name).Nodup)
    (h : r.outputs =
      List.zipWith OutputSlot.stored slots (bindings.map OutputBinding.destination)) :
    r.outputNames = bindings.map (fun b => b.spec.name) ∧
      forall slot, slot ∈ slots -> forall b, b ∈ bindings -> b.spec.name = slot.spec.name ->
        match b.destination with
        | none => r.outputData slot.spec.name = .ok slot.buffer.bytes
        | some range => r.outputRange slot.spec.name = .ok range := by
  have hlength : slots.length = (bindings.map OutputBinding.destination).length := by
    have hcount := congrArg List.length hnames
    simpa using hcount
  have hall : r.outputNames = bindings.map fun b => b.spec.name := by
    unfold outputNames
    rw [h, names_of_stored hlength, hnames]
  constructor
  · exact hall
  · intro slot hslot b hb hname
    have hstored := stored_mem hnames hdistinct hslot hb hname
    rw [← h] at hstored
    rw [← hall] at hdistinct
    have hstorage := storage_eq_ok hok hdistinct hstored
    cases hdestination : b.destination with
    | none =>
        rw [hdestination] at hstorage
        exact outputData_of_inline hstorage
    | some range =>
        rw [hdestination] at hstorage
        exact outputRange_of_delivered hstorage

end Response

end InferenceEngine
