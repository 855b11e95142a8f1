import InferenceEngine.Proofs.Regions.Origins

/-!
# What the status says of a registration

A record of the status belongs to one registration, the last one under its name.  Name, offset and
size are those that this registration has been given.  The key is that of the mapping, which
handles over one file share, and so it is spelled as it was when the file was mapped.  Both keys
mean one file, but they are the same only if all handles over this file were registered by it.
-/

namespace InferenceEngine

namespace Manager

/-!
# The key of a mapping

The key that a registration is given means the file name of the mapping.
-/

namespace Registers

variable {m : Manager} {name key : String} {offset size : Nat} {h : Handle}

/-- A registration finds its file mapped by a live handle, or maps it by the key that it is
given. -/
theorem mapping_cases (hmade : m.Registers name key offset size h) (hm : m.IsSound) :
    (exists other : Handle, m.IsLive other ∧ other.mapping = h.mapping) ∨
    (h.status.regionKey = key ∧
      forall other : Handle, m.IsLive other ->
        other.mapping.region.file ≠ h.mapping.region.file) := by
  rcases hm.serves_of_made hmade.toRegisters with ⟨region, hopen, hserves, _⟩
  rcases hserves with ⟨other, hother, hmapping, _⟩ | ⟨hregion, hfree⟩
  · exact .inl ⟨other, hother, hmapping⟩
  · refine .inr ⟨?_, fun other hother => ?_⟩
    · unfold Handle.status
      simp only [hregion]
      exact (Region.openKey_eq_ok hopen).2.2.2.2.2
    · rw [hregion]
      exact hfree other hother

theorem fileName?_key (hmade : m.Registers name key offset size h) (hm : m.IsSound) :
    fileName? key = .ok h.mapping.region.name := by
  obtain ⟨fileName, hname, hnamed⟩ := hmade.file
  have hadmits := (hm.step (.register name key offset size)).admits h
    (.inl (OrderedMap.mem_values_of_get? hmade.found))
  rw [hname, (hadmits.current fileName hnamed).1]

/-- A record shows the key that its registration has been given if and only if those of all live
handles over the file have shown it then. -/
theorem status_key_iff (hmade : m.Registers name key offset size h) (hm : m.IsSound) :
    h.status.regionKey = key ↔
      forall other : Handle, m.IsLive other ->
        other.mapping.region.file = h.mapping.region.file -> other.status.regionKey = key := by
  rcases hmade.mapping_cases hm with ⟨holder, hholder, hmapping⟩ | ⟨hkey, hfree⟩
  · have hshown : holder.status.regionKey = h.status.regionKey :=
      congrArg (fun mapping => mapping.region.key) hmapping
    constructor
    · intro hkey other hother hfile
      have hshared := (hm.admits holder hholder).shared other hother (by rw [hfile, hmapping])
      have hsame : other.status.regionKey = holder.status.regionKey :=
        congrArg (fun mapping => mapping.region.key) hshared
      rw [hsame, hshown, hkey]
    · intro hall
      rw [← hshown]
      exact hall holder hholder (by rw [hmapping])
  · exact ⟨fun _ other hother hfile => absurd hfile (hfree other hother), fun _ => hkey⟩

end Registers

/-- Whether a handle has been mapped by a key: a registration has been given this key, and its
handle has the same mapping. -/
def IsMappedBy (calls : List Call) (h : Handle) (key : String) : Prop :=
  exists (before later : List Call) (name : String) (offset size : Nat) (first : Handle),
    calls = before ++ .register name key offset size :: later ∧
      (reached before).Registers name key offset size first ∧ first.mapping = h.mapping

theorem IsMappedBy.append {calls : List Call} {h : Handle} {key : String}
    (hmapped : IsMappedBy calls h key) (rest : List Call) : IsMappedBy (calls ++ rest) h key := by
  obtain ⟨before, later, name, offset, size, first, rfl, hmade, hmapping⟩ := hmapped
  refine ⟨before, later ++ rest, name, offset, size, first, ?_, hmade, hmapping⟩
  rw [List.append_assoc, List.cons_append]

theorem isMappedBy_of_live {calls : List Call} {h : Handle} (hlive : (reached calls).IsLive h) :
    IsMappedBy calls h h.status.regionKey := by
  induction calls using List.reverseRecOn generalizing h with
  | nil => rcases hlive with hlive | hlive <;> cases hlive
  | append_singleton calls call ih =>
      have hm := isSound_reached calls
      unfold reached at hlive
      rw [after_append] at hlive
      rcases hm.live_step hlive with hold | ⟨name, key, offset, size, rfl, hmade⟩
      · exact (ih hold).append [call]
      · rcases hmade.mapping_cases hm with ⟨holder, hholder, hmapping⟩ | ⟨hkey, _⟩
        · have hshown : holder.status.regionKey = h.status.regionKey :=
            congrArg (fun mapping => mapping.region.key) hmapping
          obtain ⟨before, later, name', offset', size', first, hsplit, hfirst, hsame⟩ :=
            (ih hholder).append [.register name key offset size]
          rw [hshown] at hsplit hfirst
          exact ⟨before, later, name', offset', size', first, hsplit, hfirst, hsame.trans hmapping⟩
        · rw [hkey]
          exact ⟨calls, [], name, offset, size, h, rfl, hmade, rfl⟩

/-!
# Records
-/

/-- Whether a record of the status is that of a registration: the registration has made a handle
under its name, and nobody has released the name since. -/
structure Records (calls before later : List Call) (key : String) (h : Handle)
    (status : HandleStatus) : Prop where
  split : calls = before ++ .register status.name key status.offset status.size :: later
  made : (reached before).Registers status.name key status.offset status.size h
  kept : forall call : Call, call ∈ later -> ¬ call.Releases status.name
  status_eq : h.status = status

/-- Every record of the status is that of one registration, whose name, offset and size it states.
Its key is the one by which the file was mapped, and means the same file as the key that the
registration has been given.  It is this key if and only if the handles over the file that were
live at the registration have shown it. -/
theorem records_state_their_registrations (calls : List Call) (status : HandleStatus)
    (hstatus : status ∈ (reached calls).registry.status) :
    exists (before later : List Call) (key : String) (h : Handle),
      Records calls before later key h status ∧
      fileName? status.regionKey = fileName? key ∧
      IsMappedBy (before ++ [.register status.name key status.offset status.size]) h
        status.regionKey ∧
      (status.regionKey = key ↔
        forall other : Handle, (reached before).IsLive other ->
          other.mapping.region.file = h.mapping.region.file -> other.status.regionKey = key) := by
  have hm := isSound_reached calls
  unfold Registry.status at hstatus
  obtain ⟨h, hvalue, rfl⟩ := List.mem_map.1 hstatus
  obtain ⟨name, hget⟩ := OrderedMap.mem_values_iff.1 hvalue
  rcases isSound_empty.registered_after.1 hget with ⟨hempty, _⟩ |
    ⟨before, later, key, offset, size, hsplit, hmade, hlater⟩
  · cases hempty
  have hbefore := isSound_reached before
  have hfields : h.status = ⟨name, h.mapping.region.key, offset, size⟩ := by
    rw [hmade.handle]
    rfl
  have hmapped : IsMappedBy (before ++ [.register name key offset size]) h h.status.regionKey := by
    apply isMappedBy_of_live
    unfold reached
    rw [after_append]
    exact .inl (OrderedMap.mem_values_of_get? hmade.found)
  have hspelled := hmade.status_key_iff hbefore
  have hkeys : fileName? h.status.regionKey = fileName? key := by
    obtain ⟨first, _, _, _, _, _, _, hfirst, hmapping⟩ := hmapped
    rw [hfirst.fileName?_key (isSound_reached first), hmapping, hmade.fileName?_key hbefore]
  refine ⟨before, later, key, h, ?_, hkeys, ?_, hspelled⟩
  · constructor
    · rw [hsplit, hfields]
    · rw [hfields]
      exact hmade
    · rw [hfields]
      exact hlater
    · rfl
  · simp only [hfields] at hmapped ⊢
    exact hmapped

/-- The calls by which one region is registered with both spellings of its key. -/
def spelledTwice : List Call :=
  [.create "/data" 16, .register "slash" "/data" 0 8, .register "bare" "data" 8 8]

theorem bare_record_is_of_its_registration :
    (⟨"bare", "/data", 8, 8⟩ : HandleStatus) ∈ (reached spelledTwice).registry.status ∧
    exists (before later : List Call) (key : String) (h : Handle),
      Records spelledTwice before later key h ⟨"bare", "/data", 8, 8⟩ ∧
      fileName? "/data" = fileName? key ∧
      IsMappedBy (before ++ [.register "bare" key 8 8]) h "/data" ∧
      ("/data" = key ↔
        forall other : Handle, (reached before).IsLive other ->
          other.mapping.region.file = h.mapping.region.file -> other.status.regionKey = key) :=
  have hrecord : (⟨"bare", "/data", 8, 8⟩ : HandleStatus) ∈
      (reached spelledTwice).registry.status := by decide
  ⟨hrecord, records_state_their_registrations spelledTwice ⟨"bare", "/data", 8, 8⟩ hrecord⟩

/-- The second registration is given the key without the slash, and its record shows the one with
the slash. -/
theorem second_spelling_is_not_shown :
    ((reached (spelledTwice.take 2)).step (.register "bare" "data" 8 8)).1 = .done ∧
    (reached spelledTwice).registry.status =
      [⟨"bare", "/data", 8, 8⟩, ⟨"slash", "/data", 0, 8⟩] ∧
    (⟨"bare", "data", 8, 8⟩ : HandleStatus) ∉ (reached spelledTwice).registry.status := by
  refine ⟨by rfl, by decide, by decide⟩

end Manager

end InferenceEngine
