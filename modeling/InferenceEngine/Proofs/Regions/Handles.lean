import InferenceEngine.Proofs.Execution.Batches

/-!
# Ranges of handles

A handle is registered only if its range lies inside the region that was mapped for it, and a
request is accepted only if its ranges lie inside handles.  A region keeps the size that it was
mapped with, so that neither check can fail when the request is executed.
-/

namespace InferenceEngine

def Handle.IsInside (h : Handle) : Prop := h.offset + h.size ≤ h.mapping.region.size

def Registry.IsSound (r : Registry) : Prop :=
  forall h : Handle, h ∈ r.handles.values -> h.IsInside

theorem checkRange_eq_ok {owner : RangeOwner} {offset size available : Nat} :
    checkRange owner offset size available = .ok () ↔ offset + size ≤ available := by
  unfold checkRange
  split
  · rename_i h
    exact ⟨fun _ => h, fun _ => rfl⟩
  · rename_i h
    constructor
    · intro hok
      cases hok
    · intro hle
      exact absurd hle h

namespace Registry

theorem isSound_empty : empty.IsSound := by
  intro h hh
  cases hh

theorem register_eq (r : Registry) (d : Directory) (elsewhere : Nat -> Bool) (name key : String)
    (offset size : Nat) : r.register d elsewhere name key offset size =
      if name = "" then (.error .unnamedHandle, r, [])
      else if r.handles.contains name then (.error (.handleExists name), r, [])
      else
        match r.mapKey d elsewhere key with
        | (.error failure, r, events) => (.error failure, r, events)
        | (.ok mapping, r, events) =>
          match checkRange (.keyedRegion key) offset size mapping.region.size with
          | .error failure => (.error failure, r, events)
          | .ok () =>
            (.ok (), { r with handles := r.handles.insert name ⟨name, mapping, offset, size⟩ },
              events ++ [.handleRegistered name key offset size]) := rfl

theorem handles_mapKey (r : Registry) (d : Directory) (elsewhere : Nat -> Bool) (key : String) :
    (r.mapKey d elsewhere key).2.1.handles = r.handles := by
  simp only [mapKey, mapKeyBy]
  split
  · rfl
  · split
    · split <;> rfl
    · split
      · rfl
      · split <;> rfl

theorem IsSound.register {r : Registry} (hr : r.IsSound) (d : Directory)
    (elsewhere : Nat -> Bool) (name key : String) (offset size : Nat) :
    (r.register d elsewhere name key offset size).2.1.IsSound := by
  rw [register_eq]
  split
  · exact hr
  · split
    · exact hr
    · have hhandles := r.handles_mapKey d elsewhere key
      split
      · rename_i r' events hmap
        rw [hmap] at hhandles
        intro h hh
        rw [hhandles] at hh
        exact hr h hh
      · rename_i mapping r' events hmap
        rw [hmap] at hhandles
        split
        · intro h hh
          rw [hhandles] at hh
          exact hr h hh
        · rename_i hrange
          intro h hh
          rcases OrderedMap.mem_values_insert hh with rfl | hold
          · exact checkRange_eq_ok.1 hrange
          · rw [hhandles] at hold
            exact hr h hold

theorem IsSound.unregister {r r' : Registry} (hr : r.IsSound) {name : String}
    (h : r.unregister name = .ok r') : r'.IsSound := by
  unfold Registry.unregister at h
  split at h
  · cases h
    intro handle hhandle
    exact hr handle (OrderedMap.mem_values_erase hhandle)
  · cases h

theorem isSound_unregisterAll (r : Registry) : r.unregisterAll.1.IsSound := by
  intro h hh
  cases hh

end Registry

/-!
# Ranges of requests

What lies inside can be read and written, whatever the files hold.
-/

/-- Whether a range lies inside its handle, and that inside its region. -/
structure ResolvedRange.IsInside (r : ResolvedRange) : Prop where
  range : r.range.offset + r.range.size ≤ r.handle.size
  handle : r.handle.IsInside

/-- Whether the ranges of a request lie inside their regions, and those of outputs are as long as
these. -/
structure PreparedRequest.IsSound (request : PreparedRequest) : Prop where
  input : forall input, input ∈ request.inputs -> forall range,
    input.payload = .shared range -> range.IsInside
  output : forall output, output ∈ request.outputs -> forall range,
    output.destination = some range -> range.IsInside ∧ range.range.size = output.size

theorem ResolvedRange.resolve_eq_ok {registry : Registry} {tensor : String} {range : HandleRange}
    {r : ResolvedRange} (h : resolve registry tensor range = .ok r) :
    registry.handles.get? range.handle = some r.handle ∧ r.range = range ∧
      range.offset + range.size ≤ r.handle.size := by
  unfold resolve at h
  rcases bind_eq_ok h with ⟨handle, hhandle, hinside⟩
  split at hinside
  · rename_i hbound
    cases hinside
    unfold Registry.get at hhandle
    split at hhandle
    · rename_i hget
      cases hhandle
      exact ⟨hget, rfl, hbound⟩
    · cases hhandle
  · cases hinside

theorem ResolvedRange.isInside_of_resolve {registry : Registry} (hregistry : registry.IsSound)
    {tensor : String} {range : HandleRange} {r : ResolvedRange}
    (h : resolve registry tensor range = .ok r) : r.IsInside := by
  rcases resolve_eq_ok h with ⟨hget, hrange, hbound⟩
  constructor
  · rw [hrange]
    exact hbound
  · exact hregistry r.handle (OrderedMap.mem_values_of_get? hget)

theorem Provider.outputSize_of_validate {p : Provider} (h : p.validate = .ok ())
    {b : OutputBinding} (hb : b ∈ p.outputs) {range : HandleRange}
    (hrange : b.destination = some range) : range.size = b.expected := by
  unfold Provider.validate at h
  rcases bind_eq_ok h with ⟨_, _, houtputs⟩
  have hchecked := forM_eq_ok houtputs b hb
  unfold checkOutput at hchecked
  rw [hrange] at hchecked
  simp only at hchecked
  split at hchecked
  · assumption
  · cases hchecked

theorem PreparedRequest.isSound_of_prepare {registry : Registry} (hregistry : registry.IsSound)
    {p : Provider} {request : PreparedRequest} (h : prepare registry p = .ok request) :
    request.IsSound := by
  rcases prepare_eq_ok h with ⟨hvalidate, hinputs, houtputs, _, _⟩
  constructor
  · intro input hinput range hrange
    rcases mem_of_mapM hinputs hinput with ⟨b, _, hprepared⟩
    unfold PreparedInput.prepare at hprepared
    split at hprepared
    · cases hprepared
      cases hrange
    · rcases bind_eq_ok hprepared with ⟨resolved, hresolved, hmade⟩
      cases hmade
      cases hrange
      exact ResolvedRange.isInside_of_resolve hregistry hresolved
  · intro output houtput range hrange
    rcases mem_of_mapM houtputs houtput with ⟨b, hb, hprepared⟩
    unfold PreparedOutput.prepare at hprepared
    split at hprepared
    · cases hprepared
      cases hrange
    · rename_i bound hbound
      rcases bind_eq_ok hprepared with ⟨resolved, hresolved, hmade⟩
      cases hmade
      cases hrange
      constructor
      · exact ResolvedRange.isInside_of_resolve hregistry hresolved
      · rw [(ResolvedRange.resolve_eq_ok hresolved).2.1]
        exact Provider.outputSize_of_validate hvalidate hb hbound

/-- The ranges that a request is to fill have been taken from handles that were registered. -/
theorem PreparedRequest.registered_of_prepare {registry : Registry} {p : Provider}
    {request : PreparedRequest} (h : prepare registry p = .ok request) {output : PreparedOutput}
    (houtput : output ∈ request.outputs) {range : ResolvedRange}
    (hrange : output.destination = some range) :
    exists name : String, registry.handles.get? name = some range.handle := by
  rcases prepare_eq_ok h with ⟨_, _, houtputs, _, _⟩
  rcases mem_of_mapM houtputs houtput with ⟨b, _, hprepared⟩
  unfold PreparedOutput.prepare at hprepared
  split at hprepared
  · cases hprepared
    cases hrange
  · rcases bind_eq_ok hprepared with ⟨resolved, hresolved, hmade⟩
    cases hmade
    cases hrange
    exact ⟨_, (ResolvedRange.resolve_eq_ok hresolved).1⟩

theorem ResolvedRange.IsInside.read {r : ResolvedRange} (h : r.IsInside) (d : Directory) :
    r.read d = .ok ((List.range r.range.size).map fun i =>
      r.handle.byte d (r.range.offset + i)) := by
  have hregion :
      r.handle.offset + r.range.offset + r.range.size ≤ r.handle.mapping.region.size := by
    have hrange := h.range
    have hhandle : r.handle.offset + r.handle.size ≤ r.handle.mapping.region.size := h.handle
    omega
  have hread : r.read d =
      .ok ((d.file r.handle.mapping.region.file).read (r.handle.offset + r.range.offset)
        r.range.size) := by
    unfold ResolvedRange.read Handle.read Region.read
    rw [checkRange_eq_ok.2 h.range, checkRange_eq_ok.2 hregion]
    rfl
  rw [hread]
  congr 1
  exact Handle.read_eq_ok (h := r.handle) hread

theorem ResolvedRange.IsInside.write {r : ResolvedRange} (h : r.IsInside) (d : Directory)
    {data : Bytes} (hdata : data.length = r.range.size) :
    r.write d data = .ok (d.modifyFile r.handle.mapping.region.file fun f =>
      f.write (r.handle.offset + r.range.offset) data) := by
  have hrange : r.range.offset + data.length ≤ r.handle.size := by
    rw [hdata]
    exact h.range
  have hregion : r.handle.offset + r.range.offset + data.length ≤
      r.handle.mapping.region.size := by
    have hhandle : r.handle.offset + r.handle.size ≤ r.handle.mapping.region.size := h.handle
    omega
  unfold ResolvedRange.write Handle.write Region.write
  rw [checkRange_eq_ok.2 hrange, checkRange_eq_ok.2 hregion]
  rfl

end InferenceEngine
