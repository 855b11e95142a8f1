import InferenceEngine.Proofs.Regions.Managers
import InferenceEngine.Proofs.Text.ByteOrder

/-!
# What registrations come to

To those who call a registry it is a map from names to ranges: which files have been mapped, and how
often, does not show.  So a call that fails, even one that has replaced the last mapping under a
file name before it failed, leaves nothing behind that a later call could tell.
-/

namespace InferenceEngine

theorem fileName?_of_length {key : String} (hslash : '/' ∉ key.toList)
    (hlength : 2 < key.toList.length) : fileName? key = .ok key := by
  unfold fileName?
  simp only
  split
  · rename_i rest hchars
    rw [hchars] at hslash
    exact absurd List.mem_cons_self hslash
  · rw [if_neg, String.ofList_toList]
    rintro (h | h | h | h)
    · rw [h] at hlength
      cases hlength
    · exact hslash h
    · rw [h] at hlength
      exact absurd hlength (by decide)
    · rw [h] at hlength
      exact absurd hlength (by decide)

def Handle.bare (h : Handle) : Handle := { h with mapping := ⟨0, h.mapping.region⟩ }

namespace Manager

/-!
# Managers that cannot be told apart

Registering is answered alike, and adds handles over one region if it adds any.
-/

/-- Whether two managers differ in nothing but the numbers of mappings and the mappings that are
remembered. -/
structure Alike (m n : Manager) : Prop where
  directory : m.directory = n.directory
  handles : m.registry.handles.map Handle.bare = n.registry.handles.map Handle.bare
  held : m.held.map Handle.bare = n.held.map Handle.bare

namespace Alike

variable {m n : Manager}

theorem symm (h : m.Alike n) : n.Alike m := ⟨h.directory.symm, h.handles.symm, h.held.symm⟩

theorem contains_eq (h : m.Alike n) (name : String) :
    m.registry.handles.contains name = n.registry.handles.contains name := by
  have hget := congrArg (fun handles => (handles.get? name).isSome) h.handles
  simp only [OrderedMap.get?_map, Option.isSome_map] at hget
  exact hget

theorem held_eq (h : m.Alike n) (label : String) :
    (m.held.get? label).map Handle.bare = (n.held.get? label).map Handle.bare := by
  rw [← OrderedMap.get?_map, ← OrderedMap.get?_map, h.held]

theorem registered_eq (h : m.Alike n) (name : String) :
    (m.registry.handles.get? name).map Handle.bare =
      (n.registry.handles.get? name).map Handle.bare := by
  rw [← OrderedMap.get?_map, ← OrderedMap.get?_map, h.handles]

theorem live (h : m.Alike n) {handle : Handle} (hlive : m.IsLive handle) :
    exists other : Handle, n.IsLive other ∧ other.bare = handle.bare := by
  have hsame : forall {handles others : OrderedMap String Handle},
      handles.map Handle.bare = others.map Handle.bare -> handle ∈ handles.values ->
      exists other : Handle, other ∈ others.values ∧ other.bare = handle.bare := by
    intro handles others heq hmem
    have hbare := congrArg OrderedMap.values heq
    rw [OrderedMap.values_map, OrderedMap.values_map] at hbare
    exact List.mem_map.1 (hbare ▸ List.mem_map_of_mem hmem)
  rcases hlive with hregistered | hheld
  · obtain ⟨other, hother, hbare⟩ := hsame h.handles hregistered
    exact ⟨other, .inl hother, hbare⟩
  · obtain ⟨other, hother, hbare⟩ := hsame h.held hheld
    exact ⟨other, .inr hother, hbare⟩

theorem admission_eq (h : m.Alike n) (name key : String) (offset size : Nat) :
    m.admission name key offset size = n.admission name key offset size := by
  unfold admission
  rw [h.contains_eq, h.directory]

theorem region_eq (h : m.Alike n) (hn : n.IsSound) {region : Region} {mapping other : Mapping}
    (hm : m.Serves region mapping) (hother : n.Serves region other) :
    mapping.region = other.region := by
  rcases hm with ⟨handle, hlive, rfl, hfile⟩ | ⟨hregion, hfree⟩
  · obtain ⟨same, hsame, hbare⟩ := h.live hlive
    have hregion : same.mapping.region = handle.mapping.region :=
      congrArg (fun handle => handle.mapping.region) hbare
    rcases hother with ⟨holder, hholder, rfl, hfile'⟩ | ⟨_, hfree⟩
    · have hshared := (hn.admits holder hholder).shared same hsame
        (by rw [hregion, hfile, hfile'])
      rw [← hregion, hshared]
    · exact absurd (by rw [hregion, hfile]) (hfree same hsame)
  · rcases hother with ⟨holder, hholder, rfl, hfile⟩ | ⟨hregion', _⟩
    · obtain ⟨same, hsame, hbare⟩ := h.symm.live hholder
      have hregion' : same.mapping.region = holder.mapping.region :=
        congrArg (fun handle => handle.mapping.region) hbare
      exact absurd (by rw [hregion', hfile]) (hfree same hsame)
    · rw [hregion, hregion']

theorem step_register (h : m.Alike n) (hm : m.IsSound) (hn : n.IsSound) (name key : String)
    (offset size : Nat) :
    (m.step (.register name key offset size)).1 = (n.step (.register name key offset size)).1 ∧
      (m.step (.register name key offset size)).2.Alike
        (n.step (.register name key offset size)).2 := by
  have hadmission := h.admission_eq name key offset size
  rcases hm.step_register name key offset size with
    ⟨failure, r, hrefused, hstep, hhandles, _⟩ |
    ⟨region, mapping, r, hgranted, hstep, hopen, hserves, _, hhandles, _⟩
  · rcases hn.step_register name key offset size with
      ⟨failure', r', hrefused', hstep', hhandles', _⟩ | ⟨_, _, _, hgranted', _, _, _, _, _, _⟩
    · rw [hstep, hstep']
      rw [hrefused, hrefused'] at hadmission
      cases hadmission
      exact ⟨rfl, h.directory, by rw [hhandles, hhandles', h.handles], h.held⟩
    · rw [hrefused, hgranted'] at hadmission
      cases hadmission
  · rcases hn.step_register name key offset size with
      ⟨failure', r', hrefused', hstep', hhandles', _⟩ |
      ⟨region', mapping', r', _, hstep', hopen', hserves', _, hhandles', _⟩
    · rw [hgranted, hrefused'] at hadmission
      cases hadmission
    · rw [hstep, hstep']
      rw [← h.directory, hopen] at hopen'
      cases hopen'
      have hregion := h.region_eq hn hserves hserves'
      have hbare : Handle.bare ⟨name, mapping, offset, size⟩ =
          Handle.bare ⟨name, mapping', offset, size⟩ := by
        unfold Handle.bare
        rw [hregion]
      refine ⟨rfl, h.directory, ?_, h.held⟩
      rw [hhandles, hhandles', OrderedMap.map_insert, OrderedMap.map_insert, h.handles, hbare]

theorem bare_cases {found other : Option Handle}
    (h : found.map Handle.bare = other.map Handle.bare) :
    (found = none ∧ other = none) ∨
    (exists handle handle' : Handle, found = some handle ∧ other = some handle' ∧
      handle.bare = handle'.bare) := by
  cases found with
  | none =>
      cases other with
      | none => exact .inl ⟨rfl, rfl⟩
      | some _ => cases h
  | some handle =>
      cases other with
      | none => cases h
      | some handle' => exact .inr ⟨handle, handle', rfl, rfl, Option.some.inj h⟩

theorem read_eq {handle handle' : Handle} (h : handle.bare = handle'.bare) (d : Directory)
    (offset size : Nat) : handle.read d offset size = handle'.read d offset size :=
  congrArg (fun handle => handle.read d offset size) h

theorem write_eq {handle handle' : Handle} (h : handle.bare = handle'.bare) (d : Directory)
    (offset : Nat) (data : Bytes) : handle.write d offset data = handle'.write d offset data :=
  congrArg (fun handle => handle.write d offset data) h

theorem status_eq (h : m.Alike n) : m.registry.status = n.registry.status := by
  have hstatus : forall r : Registry,
      r.status = (r.handles.map Handle.bare).values.map Handle.status := by
    intro r
    rw [OrderedMap.values_map, List.map_map]
    rfl
  rw [hstatus, hstatus, h.handles]

theorem step (h : m.Alike n) (hm : m.IsSound) (hn : n.IsSound) (call : Call) :
    (m.step call).1 = (n.step call).1 ∧ (m.step call).2.Alike (n.step call).2 := by
  cases call with
  | create key size =>
      unfold Manager.step
      simp only [h.directory]
      exact ⟨trivial, rfl, h.handles, h.held⟩
  | unlink key =>
      unfold Manager.step
      simp only [h.directory]
      split
      · exact ⟨rfl, rfl, h.handles, h.held⟩
      · exact ⟨rfl, h⟩
  | register name key offset size => exact h.step_register hm hn name key offset size
  | unregister name =>
      unfold Manager.step Registry.unregister
      simp only [h.contains_eq]
      by_cases hcontains : n.registry.handles.contains name = true
      · simp only [if_pos hcontains]
        refine ⟨trivial, h.directory, ?_, h.held⟩
        simp only [OrderedMap.map_erase, h.handles]
      · simp only [if_neg hcontains]
        exact ⟨trivial, h⟩
  | unregisterAll => exact ⟨rfl, h.directory, rfl, h.held⟩
  | status => exact ⟨congrArg Answer.listed h.status_eq, h⟩
  | hold name label =>
      unfold Manager.step Registry.get
      rcases bare_cases (h.registered_eq name) with ⟨hfound, hother⟩ |
        ⟨handle, handle', hfound, hother, hbare⟩
      · simp only [hfound, hother]
        exact ⟨trivial, h⟩
      · simp only [hfound, hother]
        refine ⟨congrArg (fun handle => Answer.found handle.status) hbare, h.directory,
          h.handles, ?_⟩
        simp only [OrderedMap.map_insert, h.held, hbare]
  | letGo label =>
      refine ⟨rfl, h.directory, h.handles, ?_⟩
      unfold Manager.step
      simp only [OrderedMap.map_erase, h.held]
  | read label offset size =>
      unfold Manager.step
      rcases bare_cases (h.held_eq label) with ⟨hfound, hother⟩ |
        ⟨handle, handle', hfound, hother, hbare⟩
      · simp only [hfound, hother]
        exact ⟨trivial, h⟩
      · simp only [hfound, hother, h.directory, read_eq hbare]
        split
        · exact ⟨rfl, h⟩
        · exact ⟨rfl, h⟩
  | write label offset data =>
      unfold Manager.step
      rcases bare_cases (h.held_eq label) with ⟨hfound, hother⟩ |
        ⟨handle, handle', hfound, hother, hbare⟩
      · simp only [hfound, hother]
        exact ⟨trivial, h⟩
      · simp only [hfound, hother, h.directory, write_eq hbare]
        split
        · exact ⟨rfl, rfl, h.handles, h.held⟩
        · exact ⟨rfl, h⟩
  | arrive file offset data =>
      unfold Manager.step
      simp only [h.directory]
      exact ⟨trivial, rfl, h.handles, h.held⟩

theorem answers_eq (h : m.Alike n) (hm : m.IsSound) (hn : n.IsSound) (calls : List Call) :
    m.answers calls = n.answers calls := by
  induction calls generalizing m n with
  | nil => rfl
  | cons call rest ih =>
      rcases h.step hm hn call with ⟨hanswer, halike⟩
      unfold answers
      rw [hanswer, ih halike (hm.step call) (hn.step call)]

end Alike

/-!
# Failed calls

A call that fails leaves nothing that a later call could tell.
-/

/-- Whether a region is to be created that is larger than a file can be.  Of such a call a file
without bytes stays behind. -/
def Call.IsOversized : Call -> Prop
  | .create _ size => Text.signedBound ≤ size
  | _ => False

theorem IsSound.step_of_failed {m : Manager} (hm : m.IsSound) {call : Call}
    (hsize : ¬ call.IsOversized) {failure : Failure} (hfailed : (m.step call).1 = .failed failure) :
    (m.step call).2.registry.handles = m.registry.handles ∧
      (m.step call).2.held = m.held ∧ (m.step call).2.directory = m.directory := by
  cases call with
  | create key size =>
      have hlt : size < Text.signedBound := Nat.lt_of_not_le hsize
      refine ⟨rfl, rfl, ?_⟩
      unfold Manager.step Region.create at hfailed ⊢
      simp only at hfailed ⊢
      split
      · rfl
      · rename_i name hchecked
        rw [hchecked] at hfailed
        simp only [if_pos hlt] at hfailed
        cases hfailed
  | unlink key =>
      unfold Manager.step at hfailed ⊢
      simp only at hfailed ⊢
      split
      · rename_i d hunlink
        rw [hunlink] at hfailed
        cases hfailed
      · exact ⟨rfl, rfl, rfl⟩
  | register name key offset size =>
      rcases hm.step_register name key offset size with
        ⟨failure', r, _, hstep, hhandles, _⟩ | ⟨region, mapping, r, _, hstep, _⟩
      · rw [hstep]
        exact ⟨hhandles, rfl, rfl⟩
      · rw [hstep] at hfailed
        cases hfailed
  | unregister name =>
      unfold Manager.step at hfailed ⊢
      simp only at hfailed ⊢
      split
      · rename_i r hunregister
        rw [hunregister] at hfailed
        cases hfailed
      · exact ⟨rfl, rfl, rfl⟩
  | unregisterAll => cases hfailed
  | status => cases hfailed
  | hold name label =>
      unfold Manager.step at hfailed ⊢
      simp only at hfailed ⊢
      split
      · rename_i h hget
        rw [hget] at hfailed
        cases hfailed
      · exact ⟨rfl, rfl, rfl⟩
  | letGo label => cases hfailed
  | read label offset size =>
      unfold Manager.step
      simp only
      split
      · exact ⟨rfl, rfl, rfl⟩
      · split <;> exact ⟨rfl, rfl, rfl⟩
  | write label offset data =>
      unfold Manager.step at hfailed ⊢
      simp only at hfailed ⊢
      split
      · exact ⟨rfl, rfl, rfl⟩
      · rename_i h hget
        rw [hget] at hfailed
        simp only at hfailed
        split
        · rename_i d hwrite
          rw [hwrite] at hfailed
          cases hfailed
        · exact ⟨rfl, rfl, rfl⟩
  | arrive file offset data => cases hfailed

theorem IsSound.answers_of_failed {m : Manager} (hm : m.IsSound) {call : Call}
    (hsize : ¬ call.IsOversized) {failure : Failure} (hfailed : (m.step call).1 = .failed failure)
    (later : List Call) : (m.step call).2.answers later = m.answers later := by
  rcases hm.step_of_failed hsize hfailed with ⟨hhandles, hheld, hdirectory⟩
  have halike : (m.step call).2.Alike m := ⟨hdirectory, by rw [hhandles], by rw [hheld]⟩
  exact halike.answers_eq (hm.step call) hm later

/-!
# The codes of refused registrations

A registration is refused with this code, or it is made.
-/

/-- The code with which a registration is refused, if it is.  The checks are made in this order; a
bad key is one that means no file name, or a name with a zero character. -/
def refusal? (m : Manager) (name key : String) (offset size : Nat) : Option FailureCode :=
  if name = "" then some .invalidArg
  else if m.registry.handles.contains name then some .alreadyExists
  else
    match fileName? key with
    | .error _ => some .invalidArg
    | .ok file =>
        if '\x00' ∈ file.toList then some .invalidArg
        else if 255 < file.utf8ByteSize then some .internal
        else
          match m.directory.names.get? file with
          | none => some .notFound
          | some number =>
              if (m.directory.file number).size = 0 then some .invalidArg
              else if (m.directory.file number).size < offset + size then some .invalidArg
              else none

theorem code_of_fileName? {key : String} {failure : Failure} (h : fileName? key = .error failure) :
    failure.code = .invalidArg := by
  unfold fileName? at h
  simp only at h
  split at h <;> split at h
  · cases h
    rfl
  · cases h
  · cases h
    rfl
  · cases h

theorem code?_admission (m : Manager) (name key : String) (offset size : Nat) :
    (Answer.ofExcept (m.admission name key offset size)).code? =
      m.refusal? name key offset size := by
  unfold admission refusal?
  split
  · rfl
  split
  · rfl
  unfold Region.openKey checkName
  cases hname : fileName? key with
  | error failure => exact congrArg some (code_of_fileName? hname)
  | ok file =>
      simp only [bind, Except.bind]
      by_cases hzero : '\x00' ∈ file.toList
      · simp only [if_pos hzero]
        rfl
      simp only [if_neg hzero]
      by_cases hlong : 255 < file.utf8ByteSize
      · simp only [if_pos hlong]
        rfl
      simp only [if_neg hlong]
      cases hfile : m.directory.names.get? file with
      | none => rfl
      | some number =>
          simp only
          by_cases hempty : (m.directory.file number).size = 0
          · simp only [if_pos hempty]
            rfl
          simp only [if_neg hempty]
          unfold checkRange
          by_cases hrange : offset + size ≤ (m.directory.file number).size
          · simp only [if_pos hrange, if_neg (Nat.not_lt.2 hrange)]
            rfl
          · simp only [if_neg hrange, if_pos (Nat.lt_of_not_le hrange)]
            rfl

theorem IsSound.register_answer {m : Manager} (hm : m.IsSound) (name key : String)
    (offset size : Nat) :
    (m.step (.register name key offset size)).1.code? = m.refusal? name key offset size ∧
      ((m.step (.register name key offset size)).1 = .done ↔
        m.refusal? name key offset size = none) := by
  rw [← code?_admission]
  rcases hm.step_register name key offset size with
    ⟨failure, r, hadmission, hstep, _⟩ | ⟨region, mapping, r, hadmission, hstep, _⟩
  · rw [hstep, hadmission]
    refine ⟨rfl, ?_, ?_⟩
    · intro h
      cases h
    · intro h
      cases h
  · rw [hstep, hadmission]
    exact ⟨rfl, fun _ => rfl, fun _ => rfl⟩

theorem unregister_answer (m : Manager) (name : String) :
    (m.step (.unregister name)).1.code? =
        (if m.registry.handles.contains name then none else some .notFound) ∧
      ((m.step (.unregister name)).1 = .done ↔ m.registry.handles.contains name = true) := by
  unfold step Registry.unregister
  by_cases hname : m.registry.handles.contains name = true
  · simp only [if_pos hname]
    exact ⟨rfl, fun _ => hname, fun _ => trivial⟩
  · simp only [if_neg hname]
    refine ⟨rfl, ?_, fun h => absurd h hname⟩
    intro h
    cases h

/-!
# Statuses

The status of each handle is listed, and that of nothing else.
-/

theorem IsSound.mem_status_iff {m : Manager} (hm : m.IsSound) {status : HandleStatus} :
    status ∈ m.registry.status ↔
      exists h : Handle, m.registry.handles.get? status.name = some h ∧ h.status = status := by
  unfold Registry.status OrderedMap.values
  rw [List.map_map, List.mem_map]
  constructor
  · rintro ⟨⟨name, h⟩, hmem, rfl⟩
    have hget := OrderedMap.get?_eq_some_iff.2 hmem
    have hname : h.name = name := (hm.named name h hget).2
    refine ⟨h, ?_, rfl⟩
    show m.registry.handles.get? h.name = some h
    rw [hname]
    exact hget
  · rintro ⟨h, hget, hstatus⟩
    exact ⟨(status.name, h), OrderedMap.get?_eq_some_iff.1 hget, hstatus⟩

theorem IsSound.map_name_status {m : Manager} (hm : m.IsSound) :
    m.registry.status.map HandleStatus.name = m.registry.handles.keys := by
  unfold Registry.status OrderedMap.values OrderedMap.keys
  rw [List.map_map, List.map_map]
  apply List.map_congr_left
  rintro ⟨name, h⟩ hmem
  exact (hm.named name h (OrderedMap.get?_eq_some_iff.2 hmem)).2

/-- A name that has been given up is registered again with any range that its region has. -/
theorem IsSound.reregister {m : Manager} (hm : m.IsSound) {name key : String} {region : Region}
    (hname : m.registry.handles.contains name = true)
    (hopen : Region.openKey m.directory key = .ok region) {offset size : Nat}
    (hrange : offset + size ≤ region.size) :
    m.answers [.unregister name, .register name key offset size] = [.done, .done] ∧
      exists h : Handle,
        (m.after [.unregister name, .register name key offset size]).registry.handles.get? name =
          some h ∧ h.name = name ∧ h.offset = offset ∧ h.size = size := by
  have hunregister : m.step (.unregister name) =
      (.done, { m with registry := { m.registry with
        handles := m.registry.handles.erase name } }) := by
    unfold Manager.step Registry.unregister
    simp only [if_pos hname]
  have hsound := hm.step (.unregister name)
  rw [hunregister] at hsound
  have hne : name ≠ "" := by
    obtain ⟨h, hget⟩ := Option.isSome_iff_exists.1 hname
    exact (hm.named name h hget).1
  have hfree : (m.registry.handles.erase name).contains name = false := by
    unfold OrderedMap.contains
    rw [OrderedMap.get?_erase_self]
    rfl
  rw [after_cons, after_cons, after_nil]
  unfold answers answers answers
  rw [hunregister]
  rcases hsound.step_register name key offset size with
    ⟨failure, r, hrefused, _⟩ | ⟨_, mapping, r, _, hstep, _, _, _, hhandles, _⟩
  · unfold admission at hrefused
    rw [if_neg hne] at hrefused
    simp only [hfree, Bool.false_eq_true, if_false, hopen, bind, Except.bind,
      checkRange_eq_ok.2 hrange] at hrefused
    cases hrefused
  · rw [hstep]
    refine ⟨rfl, ⟨name, mapping, offset, size⟩, ?_, rfl, rfl, rfl⟩
    simp only [hhandles]
    exact OrderedMap.get?_insert_self ..

/-!
# The registry as a map
-/

/-- Whatever has been called, the registry is a map from names to ranges inside their regions:
registrations are checked against this map and against the files as they are, failed calls leave no
trace, names can be used again, and the status lists the map. -/
theorem registry_is_map_of_ranges (calls : List Call) :
    (forall (name : String) (h : Handle),
      (reached calls).registry.handles.get? name = some h ->
      name ≠ "" ∧ h.name = name ∧ h.offset + h.size ≤ h.mapping.region.size ∧
        h.mapping.region.size =
          ((reached calls).directory.file h.mapping.region.file).size ∧
        h.mapping.region.size < Text.wordBound) ∧
    (forall (name key : String) (offset size : Nat),
      ((reached calls).step (.register name key offset size)).1.code? =
        (reached calls).refusal? name key offset size ∧
      (((reached calls).step (.register name key offset size)).1 = .done ↔
        (reached calls).refusal? name key offset size = none)) ∧
    (forall (call : Call) (failure : Failure), ¬ call.IsOversized ->
      ((reached calls).step call).1 = .failed failure ->
      (reached (calls ++ [call])).registry.handles = (reached calls).registry.handles ∧
        (reached (calls ++ [call])).held = (reached calls).held ∧
        (reached (calls ++ [call])).directory = (reached calls).directory ∧
        forall later : List Call,
          (reached (calls ++ [call])).answers later = (reached calls).answers later) ∧
    (forall name : String,
      ((reached calls).step (.unregister name)).1.code? =
        (if (reached calls).registry.handles.contains name then none else some .notFound) ∧
      (((reached calls).step (.unregister name)).1 = .done ↔
        (reached calls).registry.handles.contains name = true)) ∧
    (forall (name key : String) (region : Region) (offset size : Nat),
      (reached calls).registry.handles.contains name = true ->
      Region.openKey (reached calls).directory key = .ok region -> offset + size ≤ region.size ->
      (reached calls).answers [.unregister name, .register name key offset size] = [.done, .done] ∧
        exists status : HandleStatus,
          status.name = name ∧ status.offset = offset ∧ status.size = size ∧
          (forall label : String,
            ((reached (calls ++ [.unregister name, .register name key offset size])).step
              (.hold name label)).1 = .found status) ∧
          forall other : HandleStatus,
            other ∈ (reached (calls ++
              [.unregister name, .register name key offset size])).registry.status ->
            other.name = name -> other = status) ∧
    (forall status : HandleStatus, status ∈ (reached calls).registry.status ↔
      exists h : Handle, (reached calls).registry.handles.get? status.name = some h ∧
        h.status = status) ∧
    ((reached calls).registry.status.map HandleStatus.name).Pairwise
      fun name other => Text.bytes name < Text.bytes other := by
  have hm := isSound_reached calls
  have hsplit : forall later : List Call,
      reached (calls ++ later) = (reached calls).after later :=
    fun later => after_append empty calls later
  refine ⟨?_, ?_, ?_, ?_, ?_, ?_, ?_⟩
  · intro name h hget
    have hlive : (reached calls).IsLive h := .inl (OrderedMap.mem_values_of_get? hget)
    have hadmits := hm.admits h hlive
    have hsize := hm.directory.size_lt h.mapping.region.file
    rw [hadmits.size_eq] at hsize
    exact ⟨(hm.named name h hget).1, (hm.named name h hget).2, hm.inside h hlive,
      hadmits.size_eq.symm, Nat.lt_trans hsize (by decide)⟩
  · exact hm.register_answer
  · intro call failure hsize hfailed
    rw [hsplit, after_cons, after_nil]
    rcases hm.step_of_failed hsize hfailed with ⟨hhandles, hheld, hdirectory⟩
    exact ⟨hhandles, hheld, hdirectory, hm.answers_of_failed hsize hfailed⟩
  · exact (reached calls).unregister_answer
  · intro name key region offset size hname hopen hrange
    rcases hm.reregister hname hopen hrange with ⟨hanswers, h, hget, hhandle, hoffset, hsize⟩
    have hm' := hm.after [.unregister name, .register name key offset size]
    rw [hsplit]
    refine ⟨hanswers, h.status, hhandle, hoffset, hsize, ?_, ?_⟩
    · intro label
      unfold Manager.step Registry.get
      simp only [hget]
    · intro other hother hsame
      obtain ⟨h', hget', rfl⟩ := hm'.mem_status_iff.1 hother
      rw [hsame, hget] at hget'
      cases hget'
      rfl
  · exact fun status => hm.mem_status_iff
  · rw [hm.map_name_status]
    exact OrderedMap.pairwise_bytes_keys _

/-!
A key may mean a name that is too long for any file.  Such a key is not a bad one, and the failure
of the file system that it meets is not reported as a region that is missing.
-/

/-- A key of 256 characters, one more than the name of a file can have. -/
def overlongKey : String := String.ofList (List.replicate 256 'x')

theorem toList_overlongKey : overlongKey.toList = List.replicate 256 'x' := String.toList_ofList

theorem not_mem_overlongKey {c : Char} (h : c ≠ 'x') : c ∉ overlongKey.toList := by
  rw [toList_overlongKey]
  intro hmem
  exact h (List.eq_of_mem_replicate hmem)

theorem fileName?_overlongKey : fileName? overlongKey = .ok overlongKey := by
  apply fileName?_of_length (not_mem_overlongKey (by decide))
  rw [toList_overlongKey, List.length_replicate]
  decide

theorem utf8ByteSize_overlongKey : overlongKey.utf8ByteSize = 256 := by
  have hlength : forall n : Nat,
      ((List.replicate n 'x').flatMap String.utf8EncodeChar).length = n := by
    intro n
    induction n with
    | zero => rfl
    | succ n ih =>
        rw [List.replicate_succ, List.flatMap_cons, List.length_append, ih, Nat.add_comm]
        rfl
  rw [← Text.length_bytes, Text.bytes_eq_flatMap, toList_overlongKey, hlength]

theorem register_overlongKey :
    ((reached []).step (.register "h" overlongKey 0 1)).1.code? = some .internal ∧
      ¬ forall (calls : List Call) (name key file : String) (offset size : Nat), name ≠ "" ->
        (reached calls).registry.handles.contains name = false -> fileName? key = .ok file ->
        '\x00' ∉ file.toList -> (reached calls).directory.names.get? file = none ->
        ((reached calls).step (.register name key offset size)).1.code? = some .notFound := by
  have hzero : '\x00' ∉ overlongKey.toList := not_mem_overlongKey (by decide)
  have hcode : ((reached []).step (.register "h" overlongKey 0 1)).1.code? = some .internal := by
    rw [((isSound_reached []).register_answer ..).1]
    unfold refusal?
    rw [if_neg (by decide), if_neg (by decide), fileName?_overlongKey]
    simp only [if_neg hzero, utf8ByteSize_overlongKey]
    rfl
  refine ⟨hcode, fun h => ?_⟩
  have hmissing := h [] "h" overlongKey overlongKey 0 1 (by decide) rfl fileName?_overlongKey hzero
    rfl
  rw [hcode] at hmissing
  cases hmissing

/-- The calls by which a region is replaced under its key while a handle over the old one is
held. -/
def replacing : List Call :=
  [.create "/k" 16, .register "h" "k" 0 16, .hold "h" "b", .unlink "k", .create "k" 4]

theorem registry_is_map_when_replaced :
    ((reached replacing).step (.register "g" "/k" 0 5)).1 =
        .failed (.rangeExceeds 0 5 (.keyedRegion "/k") 4) ∧
      (forall later : List Call,
        (reached (replacing ++ [.register "g" "/k" 0 5])).answers later =
          (reached replacing).answers later) ∧
      (reached replacing).answers [.unregister "h", .register "h" "k" 1 3] = [.done, .done] := by
  obtain ⟨_, _, hfailed, _, hagain, _⟩ := registry_is_map_of_ranges replacing
  have hanswer : ((reached replacing).step (.register "g" "/k" 0 5)).1 =
      .failed (.rangeExceeds 0 5 (.keyedRegion "/k") 4) := by rfl
  exact ⟨hanswer, (hfailed _ _ id hanswer).2.2.2,
    (hagain "h" "k" ⟨"k", "k", 4, 1⟩ 1 3 rfl rfl (by decide)).1⟩

end Manager

end InferenceEngine
