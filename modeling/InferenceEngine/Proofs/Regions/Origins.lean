import InferenceEngine.Proofs.Regions.Histories

/-!
# Whose file a handle means

A handle means the file that its key named when it was registered.  It goes on meaning that file
for as long as it is registered or held, whether the file keeps its name or another file is created
under it.  Handles over one file share its mapping, though they were registered by different keys.
-/

namespace InferenceEngine

namespace Manager

/-- Whether a registration makes a handle, over the file that its key names at that moment. -/
structure Registers (m : Manager) (name key : String) (offset size : Nat) (h : Handle) : Prop
    extends m.registry.Registers m.directory m.isElsewhere name key offset size h where
  handle : h = ⟨name, h.mapping, offset, size⟩
  file : exists fileName : String, fileName? key = .ok fileName ∧
    m.directory.names.get? fileName = some h.mapping.region.file

/-- Whether a call takes the handle of a name out of the registry. -/
def Call.Releases (name : String) : Call -> Prop
  | .unregister other => other = name
  | .unregisterAll => True
  | _ => False

/-- Whether a call takes the handle under a label from those that are held. -/
def Call.Frees (label : String) : Call -> Prop
  | .hold _ other => other = label
  | .letGo other => other = label
  | _ => False

def edit (m : Manager) : Call -> Registry.Edit
  | .register name key offset size => .register m.directory m.isElsewhere name key offset size
  | .unregister name => .unregister name
  | .unregisterAll => .clear
  | _ => .keep

/-!
# What one call does

A registration that is made makes a handle.
-/

theorem Serves.file_eq {m : Manager} {region : Region} {mapping : Mapping}
    (h : m.Serves region mapping) : mapping.region.file = region.file := by
  rcases h with ⟨_, _, _, hfile⟩ | ⟨hregion, _⟩
  · exact hfile
  · rw [hregion]

/-- A registration makes its handle over a mapping that serves for the file of its key. -/
theorem IsSound.serves_of_made {m : Manager} (hm : m.IsSound) {name key : String}
    {offset size : Nat} {h : Handle}
    (hmade : m.registry.Registers m.directory m.isElsewhere name key offset size h) :
    exists region : Region, Region.openKey m.directory key = .ok region ∧
      m.Serves region h.mapping ∧ h = ⟨name, h.mapping, offset, size⟩ := by
  have hdone : (m.step (.register name key offset size)).1 = .done :=
    congrArg Answer.ofExcept hmade.done
  have hfound : (m.step (.register name key offset size)).2.registry.handles.get? name = some h :=
    hmade.found
  rcases hm.step_register name key offset size with
    ⟨failure, r, _, hstep, _⟩ | ⟨region, mapping, r, _, hstep, hopen, hserves, _, hhandles, _⟩
  · rw [hstep] at hdone
    cases hdone
  · rw [hstep] at hfound
    simp only [hhandles, OrderedMap.get?_insert_self] at hfound
    cases hfound
    exact ⟨region, hopen, hserves, rfl⟩

theorem IsSound.registers_of_made {m : Manager} (hm : m.IsSound) {name key : String}
    {offset size : Nat} {h : Handle}
    (hmade : m.registry.Registers m.directory m.isElsewhere name key offset size h) :
    m.Registers name key offset size h := by
  rcases hm.serves_of_made hmade with ⟨region, hopen, hserves, hfields⟩
  obtain ⟨hname, _, hnamed, _⟩ := Region.openKey_eq_ok hopen
  refine ⟨hmade, hfields, region.name, hname, ?_⟩
  rw [hnamed, hserves.file_eq]

theorem IsSound.registers {m : Manager} (hm : m.IsSound) {name key : String} {offset size : Nat}
    (hdone : (m.step (.register name key offset size)).1 = .done) :
    exists h : Handle, m.Registers name key offset size h := by
  rcases m.registry.registers_or_fails m.directory m.isElsewhere name key offset size with
    ⟨h, hmade⟩ | ⟨failure, hfailed⟩
  · exact ⟨h, hm.registers_of_made hmade⟩
  · rw [show (m.step (.register name key offset size)).1 = .ofExcept _ from rfl, hfailed] at hdone
    cases hdone

theorem handles_step (m : Manager) (call : Call) :
    (m.step call).2.registry.handles = m.registry.edited (m.edit call) := by
  cases call with
  | unregister name =>
      unfold Manager.step edit Registry.edited
      cases hresult : m.registry.unregister name with
      | ok r => simp only [hresult]
      | error failure => simp only [hresult]
  | unlink key | hold name label =>
      unfold Manager.step
      simp only
      split <;> rfl
  | read label offset size | write label offset data =>
      unfold Manager.step
      simp only
      split
      · rfl
      · split <;> rfl
  | _ => rfl

def keeper : Registry.Keeper Manager Call where
  step m call := (m.step call).2
  registry := registry
  edit := edit
  releases := Call.Releases
  isIntact _ := True
  intact _ _ _ := trivial
  handles m call _ := m.handles_step call
  releases_iff m call name _ := by cases call <;> exact Iff.rfl

theorem IsSound.makes_iff {m : Manager} (hm : m.IsSound) {call : Call} {name : String}
    {h : Handle} : m.registry.Makes (m.edit call) name h ↔
      exists (key : String) (offset size : Nat),
        call = .register name key offset size ∧ m.Registers name key offset size h := by
  constructor
  · rintro ⟨d, elsewhere, key, offset, size, hedit, hmade⟩
    cases call with
    | register other key' offset' size' =>
        cases hedit
        exact ⟨key, offset, size, rfl, hm.registers_of_made hmade⟩
    | _ => cases hedit
  · rintro ⟨key, offset, size, rfl, hmade⟩
    exact ⟨_, _, key, offset, size, rfl, hmade.toRegisters⟩

/-- A handle that is held after a call was held before, or it has just been looked up. -/
theorem IsSound.live_of_held {m : Manager} (hm : m.IsSound) {call : Call} {h : Handle}
    (hheld : h ∈ (m.step call).2.held.values) : m.IsLive h := by
  have hchange := hm.change call
  generalize (m.step call).2 = n at hchange hheld
  cases hchange with
  | held hget =>
      rcases OrderedMap.mem_values_insert hheld with rfl | hold
      · exact .inl (OrderedMap.mem_values_of_get? hget)
      · exact .inr hold
  | freed => exact .inr (OrderedMap.mem_values_erase hheld)
  | _ => exact .inr hheld

/-- A handle that is live after a call was live before, or has just been registered. -/
theorem IsSound.live_step {m : Manager} (hm : m.IsSound) {call : Call} {h : Handle}
    (hlive : (m.step call).2.IsLive h) :
    m.IsLive h ∨ exists (name key : String) (offset size : Nat),
      call = .register name key offset size ∧ m.Registers name key offset size h := by
  rcases hlive with hregistered | hheld
  · obtain ⟨name, hget⟩ := OrderedMap.mem_values_iff.1 hregistered
    rw [handles_step, Registry.get?_edited, hm.makes_iff] at hget
    rcases hget with ⟨hold, _⟩ | hmade
    · exact .inl (.inl (OrderedMap.mem_values_of_get? hold))
    · exact .inr ⟨name, hmade⟩
  · exact .inl (hm.live_of_held hheld)

theorem held_of_hold {m : Manager} {name : String} {h : Handle}
    (hget : m.registry.handles.get? name = some h) (label : String) :
    (m.step (.hold name label)).2.held.get? label = some h := by
  unfold Manager.step Registry.get
  simp only [hget, OrderedMap.get?_insert_self]

/-- The handle under a label stays, unless it is let go or another one takes its place. -/
theorem IsSound.held_step {m : Manager} (hm : m.IsSound) {call : Call} {label : String}
    {h : Handle} (hget : m.held.get? label = some h) (hcall : ¬ call.Frees label) :
    (m.step call).2.held.get? label = some h := by
  have hchange := hm.change call
  generalize (m.step call).2 = n at hchange
  cases hchange with
  | files => exact hget
  | refused => exact hget
  | registered => exact hget
  | unregistered => exact hget
  | cleared => exact hget
  | @held _ other _ _ =>
      have hne : label ≠ other := fun hsame => hcall hsame.symm
      exact (OrderedMap.get?_insert_of_ne hne ..).trans hget
  | @freed other =>
      have hne : label ≠ other := fun hsame => hcall hsame.symm
      exact (OrderedMap.get?_erase_of_ne hne _).trans hget

/-!
# What calls do

Whoever has looked a handle up holds it, whatever becomes of its name.
-/

theorem IsSound.grows_after {m : Manager} (hm : m.IsSound) (calls : List Call) :
    m.directory.Grows (m.after calls).directory := by
  induction calls generalizing m with
  | nil => exact .refl m.directory
  | cons call rest ih => exact (hm.change call).grows.trans (ih (hm.step call))

/-- A handle that is live after calls was live before them, or one of them has registered it. -/
theorem IsSound.live_after {m : Manager} (hm : m.IsSound) {calls : List Call} {h : Handle}
    (hlive : (m.after calls).IsLive h) :
    m.IsLive h ∨ exists (before later : List Call) (name key : String) (offset size : Nat),
      calls = before ++ .register name key offset size :: later ∧
        (m.after before).Registers name key offset size h := by
  induction calls generalizing m with
  | nil => exact .inl hlive
  | cons call rest ih =>
      rcases ih (hm.step call) hlive with
        hnow | ⟨before, later, name, key, offset, size, hsplit, hmade⟩
      · rcases hm.live_step hnow with hold | ⟨name, key, offset, size, rfl, hmade⟩
        · exact .inl hold
        · exact .inr ⟨[], rest, name, key, offset, size, rfl, hmade⟩
      · right
        refine ⟨call :: before, later, name, key, offset, size, ?_, hmade⟩
        rw [hsplit, List.cons_append]

/-- The handles that are registered after calls are those of before that no call has given up, and
those that a call has made and no later one has given up. -/
theorem IsSound.registered_after {m : Manager} (hm : m.IsSound) {calls : List Call} {name : String}
    {h : Handle} : (m.after calls).registry.handles.get? name = some h ↔
      (m.registry.handles.get? name = some h ∧
        forall call : Call, call ∈ calls -> ¬ call.Releases name) ∨
      exists (before later : List Call) (key : String) (offset size : Nat),
        calls = before ++ .register name key offset size :: later ∧
          (m.after before).Registers name key offset size h ∧
          forall call : Call, call ∈ later -> ¬ call.Releases name := by
  have hhistory := keeper.registered_after (s := m) trivial calls name h
  refine hhistory.trans (or_congr Iff.rfl ?_)
  constructor
  · rintro ⟨before, call, later, hsplit, hmakes, hlater⟩
    rcases (hm.after before).makes_iff.1 hmakes with ⟨key, offset, size, rfl, hmade⟩
    exact ⟨before, later, key, offset, size, hsplit, hmade, hlater⟩
  · rintro ⟨before, later, key, offset, size, hsplit, hmade, hlater⟩
    exact ⟨before, _, later, hsplit,
      (hm.after before).makes_iff.2 ⟨key, offset, size, rfl, hmade⟩, hlater⟩

theorem IsSound.held_after {m : Manager} (hm : m.IsSound) {calls : List Call} {label : String}
    {h : Handle} (hget : m.held.get? label = some h)
    (hcalls : forall call : Call, call ∈ calls -> ¬ call.Frees label) :
    (m.after calls).held.get? label = some h := by
  induction calls generalizing m with
  | nil => exact hget
  | cons call rest ih =>
      have hnow := hm.held_step hget (hcalls call List.mem_cons_self)
      exact ih (hm.step call) hnow fun other hother => hcalls other (List.mem_cons_of_mem _ hother)

namespace Registers

variable {m : Manager} {name key : String} {offset size : Nat} {h : Handle}

theorem stays (hmade : m.Registers name key offset size h) (hm : m.IsSound) {later : List Call}
    (hlater : forall call : Call, call ∈ later -> ¬ call.Releases name) :
    (m.after (.register name key offset size :: later)).registry.handles.get? name = some h :=
  hm.registered_after.2 (.inr ⟨[], later, key, offset, size, rfl, hmade, hlater⟩)

theorem stays_held (hmade : m.Registers name key offset size h) (hm : m.IsSound)
    {later : List Call} (hlater : forall call : Call, call ∈ later -> ¬ call.Releases name)
    {label : String} {rest : List Call}
    (hrest : forall call : Call, call ∈ rest -> ¬ call.Frees label) :
    (m.after (.register name key offset size :: later ++ .hold name label :: rest)).held.get?
      label = some h := by
  have hsound := hm.after (.register name key offset size :: later)
  rw [after_append, after_cons]
  exact (hsound.step (.hold name label)).held_after
    (held_of_hold (hmade.stays hm hlater) label) hrest

theorem file_lt (hmade : m.Registers name key offset size h) (hm : m.IsSound) :
    h.mapping.region.file < m.directory.files.length := by
  obtain ⟨_, _, hnamed⟩ := hmade.file
  exact hm.directory.file_lt _ _ hnamed

end Registers

/-!
# Handles and their files

A region that is created is a file that has not been there.
-/

/-- Whether a handle reads and writes its file, and nothing else. -/
structure Reaches (m : Manager) (h : Handle) : Prop where
  read : forall start size : Nat, start + size ≤ h.size ->
    h.read m.directory start size =
      .ok ((m.directory.file h.mapping.region.file).read (h.offset + start) size)
  write : forall (start : Nat) (data : Bytes), start + data.length ≤ h.size ->
    exists d : Directory, h.write m.directory start data = .ok d ∧ d.names = m.directory.names ∧
      d.file h.mapping.region.file =
        (m.directory.file h.mapping.region.file).write (h.offset + start) data ∧
      forall other : Nat, other ≠ h.mapping.region.file -> d.file other = m.directory.file other

theorem IsSound.reaches {m : Manager} (hm : m.IsSound) {h : Handle} (hlive : m.IsLive h) :
    m.Reaches h := by
  have hinside := hm.inside h hlive
  refine ⟨fun start size hrange => hinside.read m.directory hrange, ?_⟩
  intro start data hrange
  refine ⟨_, hinside.write m.directory hrange, rfl, ?_, ?_⟩
  · rw [Directory.file_modifyFile, if_pos ⟨rfl, (hm.admits h hlive).file_lt⟩]
  · intro other hother
    rw [Directory.file_modifyFile, if_neg fun hboth => hother hboth.1]

theorem file_of_create {m : Manager} {key name : String} {size file : Nat}
    (hdone : (m.step (.create key size)).1 = .done) (hname : fileName? key = .ok name)
    (hfile : (m.step (.create key size)).2.directory.names.get? name = some file) :
    file = m.directory.files.length := by
  unfold Manager.step Region.create at hdone hfile
  simp only at hdone hfile
  split at hdone
  · cases hdone
  · rename_i made hchecked
    rw [hchecked] at hfile
    have hsame : name = made := by
      rw [hname] at hchecked
      rcases bind_eq_ok hchecked with ⟨file, hfile, hsize⟩
      cases hfile
      split at hsize
      · cases hsize
      · rcases bind_eq_ok hsize with ⟨_, _, hexists⟩
        split at hexists
        · cases hexists
        · exact Except.ok.inj hexists
    split at hdone
    · rename_i hsize
      simp only [if_pos hsize] at hfile
      unfold Directory.addFile at hfile
      rw [hsame, OrderedMap.get?_insert_self] at hfile
      exact (Option.some.inj hfile).symm
    · cases hdone

/-- Every handle goes back to a registration, and means the file that its key named then: it stays
what it is while it is registered and while it is held, it reads and writes this file alone, which
is neither one that has come later nor one that had lost its name before; and live handles over one
file share one mapping. -/
theorem handles_stay_with_their_files (calls : List Call) :
    (forall (name key : String) (offset size : Nat),
      ((reached calls).step (.register name key offset size)).1 = .done ->
      exists h : Handle, (reached calls).Registers name key offset size h ∧
        forall later : List Call, (forall call : Call, call ∈ later -> ¬ call.Releases name) ->
          (reached (calls ++ .register name key offset size :: later)).registry.handles.get? name =
            some h ∧
          forall (label : String) (rest : List Call),
            (forall call : Call, call ∈ rest -> ¬ call.Frees label) ->
            (reached (calls ++ .register name key offset size :: later ++
              .hold name label :: rest)).held.get? label = some h) ∧
    (forall h : Handle, (reached calls).IsLive h ->
      (reached calls).Reaches h ∧
      exists (before later : List Call) (name key : String) (offset size : Nat),
        calls = before ++ .register name key offset size :: later ∧
        (reached before).Registers name key offset size h ∧
        (forall (middle rest : List Call) (newKey newName : String) (newSize file : Nat),
          later = middle ++ .create newKey newSize :: rest ->
          ((reached (before ++ .register name key offset size :: middle)).step
            (.create newKey newSize)).1 = .done ->
          fileName? newKey = .ok newName ->
          ((reached (before ++ .register name key offset size :: middle)).step
            (.create newKey newSize)).2.directory.names.get? newName = some file ->
          file ≠ h.mapping.region.file) ∧
        (forall file : Nat,
          (forall other : String, (reached before).directory.names.get? other ≠ some file) ->
          file ≠ h.mapping.region.file)) ∧
    (forall h other : Handle, (reached calls).IsLive h -> (reached calls).IsLive other ->
      h.mapping.region.file = other.mapping.region.file -> h.mapping = other.mapping) := by
  have hm := isSound_reached calls
  refine ⟨?_, ?_, ?_⟩
  · intro name key offset size hdone
    obtain ⟨h, hmade⟩ := hm.registers hdone
    refine ⟨h, hmade, fun later hlater => ⟨?_, fun label rest hrest => ?_⟩⟩
    · unfold reached
      rw [after_append]
      exact hmade.stays hm hlater
    · unfold reached
      rw [List.append_assoc, after_append]
      exact hmade.stays_held hm hlater hrest
  · intro h hlive
    refine ⟨hm.reaches hlive, ?_⟩
    rcases isSound_empty.live_after hlive with hempty |
      ⟨before, later, name, key, offset, size, hsplit, hmade⟩
    · rcases hempty with hempty | hempty <;> cases hempty
    refine ⟨before, later, name, key, offset, size, hsplit, hmade, ?_, ?_⟩
    · intro middle rest newKey newName newSize file _ hdone hname hfile
      have hlt := hmade.file_lt (isSound_reached before)
      have hle := ((isSound_reached before).grows_after
        (.register name key offset size :: middle)).length_le
      rw [file_of_create hdone hname hfile]
      unfold reached at hlt hle ⊢
      rw [after_append]
      omega
    · rintro file hunnamed rfl
      obtain ⟨fileName, _, hnamed⟩ := hmade.file
      exact hunnamed fileName hnamed
  · intro h other hh hother hfile
    exact (hm.admits other hother).shared h hh hfile

/-- The calls by which a region is created again, with another size and another spelling of its key,
while a handle over the old one is held. -/
def recreating : List Call :=
  [.hold "h" "b", .unlink "/k", .create "k" 8, .register "g" "/k" 0 8]

theorem handles_stay_with_their_files_when_recreated :
    exists h : Handle, (reached [.create "/k" 4]).Registers "h" "k" 1 2 h ∧
      (reached (.create "/k" 4 :: .register "h" "k" 1 2 :: recreating)).held.get? "b" = some h ∧
      (reached (.create "/k" 4 :: .register "h" "k" 1 2 :: recreating)).Reaches h := by
  obtain ⟨hstays, _⟩ := handles_stay_with_their_files [.create "/k" 4]
  obtain ⟨_, hlives, _⟩ := handles_stay_with_their_files
    (.create "/k" 4 :: .register "h" "k" 1 2 :: recreating)
  obtain ⟨h, hmade, hlater⟩ := hstays "h" "k" 1 2 (by rfl)
  have hheld := (hlater [] (by simp)).2 "b" [.unlink "/k", .create "k" 8, .register "g" "/k" 0 8]
    (by simp [Call.Frees])
  exact ⟨h, hmade, hheld, (hlives h (.inr (OrderedMap.mem_values_of_get? hheld))).1⟩

end Manager

end InferenceEngine
