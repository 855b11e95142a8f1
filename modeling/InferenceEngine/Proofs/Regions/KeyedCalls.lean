import InferenceEngine.Proofs.Regions.Accesses
import InferenceEngine.Proofs.Regions.Keys
import InferenceEngine.Proofs.Regions.Outcomes
import InferenceEngine.Proofs.Regions.Statements

/-!
# Calls by a key

A region is created, opened and unlinked by a key, and so is a range of it registered.  All four
calls go by the file name that the key means, though a registration looks this name up twice, among
the mappings and among the files.  So no call gets out of the directory of shared memory, and two
keys come to the same file just if they mean the same name.
-/

namespace InferenceEngine

/-!
# Looking for a file

All calls fail alike where the name of a key cannot be found, and come to one file where it can.
-/

section Locating

variable {d : Directory} {key name : String} {size : Nat} {failure : Failure}

theorem Region.openKey_of_locate_error (h : locate key = .error failure) :
    openKey d key = .error failure := by
  rcases locate_eq_error h with hname | ⟨name, hname, hcheck⟩
  · rw [openKey, hname]
    rfl
  · rw [openKey, hname]
    simp only [hcheck, bind, Except.bind]

theorem Region.openKey_of_absent (h : locate key = .ok name) (hnone : d.names.get? name = none) :
    openKey d key = .error (.missingRegion key) := by
  rcases locate_eq_ok h with ⟨hname, hcheck⟩
  rw [openKey, hname]
  simp only [hcheck, hnone, bind, Except.bind]

theorem Region.openKey_of_present (h : locate key = .ok name) {file : Nat}
    (hfile : d.names.get? name = some file) :
    openKey d key =
      if (d.file file).size = 0 then .error (.emptyFile key)
      else .ok ⟨key, name, (d.file file).size, file⟩ := by
  rcases locate_eq_ok h with ⟨hname, hcheck⟩
  rw [openKey, hname]
  simp only [hcheck, hfile, bind, Except.bind]

theorem Directory.unlink_of_locate_error (h : locate key = .error failure) :
    d.unlink key = .error failure := by
  rcases locate_eq_error h with hname | ⟨name, hname, hcheck⟩
  · rw [unlink, hname]
    rfl
  · rw [unlink, hname]
    simp only [hcheck, bind, Except.bind]

theorem Directory.unlink_of_absent (h : locate key = .ok name) (hnone : d.names.get? name = none) :
    d.unlink key = .error (.missingRegion key) := by
  rcases locate_eq_ok h with ⟨hname, hcheck⟩
  rw [unlink, hname]
  simp only [hcheck, hnone, bind, Except.bind]

theorem Directory.unlink_of_present (h : locate key = .ok name) {file : Nat}
    (hfile : d.names.get? name = some file) :
    d.unlink key = .ok { d with names := d.names.erase name } := by
  rcases locate_eq_ok h with ⟨hname, hcheck⟩
  rw [unlink, hname]
  simp only [hcheck, hfile, bind, Except.bind]

theorem Refusals.vet_of_locate_error (r : Refusals) (h : locate key = .error failure)
    (hsize : size ≠ 0) : r.vet d key size = .error failure := by
  rcases locate_eq_error h with hname | ⟨name, hname, hcheck⟩
  · rw [vet, hname]
    rfl
  · rw [vet, hname]
    simp only [hcheck, bind, Except.bind, if_neg hsize]

theorem Refusals.usual_vet_of_absent (h : locate key = .ok name) (hsize : size ≠ 0)
    (hnone : d.names.get? name = none) : usual.vet d key size = .ok name := by
  rcases locate_eq_ok h with ⟨hname, hcheck⟩
  unfold vet OrderedMap.contains
  simp only [hname, hcheck, hnone, bind, Except.bind, if_neg hsize]
  rfl

theorem Refusals.vet_of_present (r : Refusals) (h : locate key = .ok name) (hsize : size ≠ 0)
    {file : Nat} (hfile : d.names.get? name = some file) :
    r.vet d key size = .error (.fileFault .alreadyExists "File exists (os error 17)") := by
  rcases locate_eq_ok h with ⟨hname, hcheck⟩
  unfold vet OrderedMap.contains
  simp only [hname, hcheck, hfile, bind, Except.bind, if_neg hsize]
  rfl

theorem Region.create_of_vet_error (h : Refusals.usual.vet d key size = .error failure) :
    create d key size = (.error failure, d) := by
  rw [create_eq_usual, Refusals.create, h]

/-- Where nothing has the name, a region is created by adding a file; if its size is refused, the
file is empty. -/
theorem Region.create_of_vet (h : Refusals.usual.vet d key size = .ok name) :
    create d key size =
      if size < Text.signedBound then
        (.ok ⟨key, name, size, d.files.length⟩, d.addFile name size)
      else
        (.error (.fileFault .invalidInput "number too large to fit in target type"),
          d.addFile name 0) := by
  rw [create_eq_usual, Refusals.create, h]
  simp only [Directory.resize_addFile]
  by_cases hsize : size < Text.signedBound
  · have hresize : Refusals.usual.resize size = none := if_pos hsize
    rw [hresize, if_pos hsize]
    rfl
  · have hresize : Refusals.usual.resize size =
        some (.fileFault .invalidInput "number too large to fit in target type") := if_neg hsize
    rw [hresize, if_neg hsize]

end Locating

namespace Manager

variable {m : Manager} {handle key : String} {offset size : Nat}

theorem IsSound.register_of_openKey_error (hm : m.IsSound) (hhandle : handle ≠ "")
    (hfree : m.registry.handles.contains handle = false) {failure : Failure}
    (hopen : Region.openKey m.directory key = .error failure) :
    m.step (.register handle key offset size) = (.failed failure, m) := by
  rcases hm.mapKey_cases key with ⟨other, hopen', hresult, hregistry⟩ |
    ⟨region, mapping, hopen', _⟩
  · rw [hopen] at hopen'
    cases hopen'
    unfold Manager.step
    simp only [Registry.register_eq, if_neg hhandle, hfree, Bool.false_eq_true, if_false]
    generalize m.registry.mapKey m.directory m.isElsewhere key = made at hresult hregistry
    rcases made with ⟨result, r, events⟩
    cases hresult
    cases hregistry
    rfl
  · rw [hopen] at hopen'
    cases hopen'

/-- A registration over a file that can be opened is answered by whether its range fits. -/
theorem IsSound.register_of_openKey (hm : m.IsSound) (hhandle : handle ≠ "")
    (hfree : m.registry.handles.contains handle = false) {region : Region}
    (hopen : Region.openKey m.directory key = .ok region) :
    (m.step (.register handle key offset size)).1 =
      .ofExcept (checkRange (.keyedRegion key) offset size region.size) := by
  rw [hm.answer_register]
  unfold admission
  rw [if_neg hhandle, hfree, if_neg Bool.false_ne_true, hopen]
  rfl

end Manager

/-!
# Calls by a key

Where a file can be neither opened nor unlinked, all that look for it fail.
-/

/-- Whether all files are as before, and all names but one mean what they meant. -/
structure Directory.KeepsBut (d d' : Directory) (name : String) : Prop where
  names : forall other : String, other ≠ name -> d'.names.get? other = d.names.get? other
  files : forall file : Nat, file < d.files.length -> d'.file file = d.file file

namespace Directory

theorem KeepsBut.refl (d : Directory) (name : String) : d.KeepsBut d name where
  names _ _ := rfl
  files _ _ := rfl

theorem keepsBut_addFile (d : Directory) (name : String) (size : Nat) :
    d.KeepsBut (d.addFile name size) name where
  names _ hother := OrderedMap.get?_insert_of_ne hother ..
  files file hfile := by rw [file_addFile, if_neg (Nat.ne_of_lt hfile)]

theorem keepsBut_erase (d : Directory) (name : String) :
    d.KeepsBut { d with names := d.names.erase name } name where
  names _ hother := OrderedMap.get?_erase_of_ne hother ..
  files _ _ := rfl

end Directory

namespace Sharing

/-- The calls that look for a file by a key: one opens it, one takes its name away, and one
registers a range of it under an unused name. -/
inductive Seeks (s : Sharing) (key : String) : Call -> Prop
  | openKey (label : String) : s.Seeks key (.openKey label key)
  | unlink : s.Seeks key (.manage (.unlink key))
  | register {handle : String} (offset size : Nat) (hhandle : handle ≠ "")
      (hfree : s.manager.registry.handles.contains handle = false) :
      s.Seeks key (.manage (.register handle key offset size))

/-- The calls by a key: those that look for its file, and the one that creates it. -/
inductive Tries (s : Sharing) (key : String) : Call -> Prop
  | create (label : String) {size : Nat} (hsize : size ≠ 0) : s.Tries key (.create label key size)
  | seeks {call : Call} (h : s.Seeks key call) : s.Tries key call

/-- Whether all calls by a key fail alike and change nothing. -/
def Rejects (s : Sharing) (key : String) (failure : Failure) : Prop :=
  forall call : Call, s.Tries key call -> s.step call = (.failed failure, s)

/-- What calls by a key do while no file has its name: only a creation finds what it needs, and it
adds a file under this name, an empty one if its size is refused. -/
structure FindsNone (s : Sharing) (key name : String) : Prop where
  seek : forall call : Call, s.Seeks key call -> s.step call = (.failed (.missingRegion key), s)
  create : forall (label : String) (size : Nat), size ≠ 0 -> s.step (.create label key size) =
    if size < Text.signedBound then
      (.done, { s.withDirectory (s.directory.addFile name size) with
        regions := s.regions.insert label ⟨key, name, size, s.directory.files.length⟩ })
    else
      (.failed (.fileFault .invalidInput "number too large to fit in target type"),
        s.withDirectory (s.directory.addFile name 0))

/-- What calls by a key do while a file has its name: all of them come to this file. -/
structure FindsFile (s : Sharing) (key name : String) (file : Nat) : Prop where
  create : forall (label : String) (size : Nat), size ≠ 0 -> s.step (.create label key size) =
    (.failed (.fileFault .alreadyExists "File exists (os error 17)"), s)
  unlink : s.step (.manage (.unlink key)) =
    (.done, s.withDirectory { s.directory with names := s.directory.names.erase name })
  openKey : forall label : String, s.step (.openKey label key) =
    if (s.directory.file file).size = 0 then (.failed (.emptyFile key), s)
    else
      (.done, { s with
        regions := s.regions.insert label ⟨key, name, (s.directory.file file).size, file⟩ })
  register : forall (handle : String) (offset size : Nat), handle ≠ "" ->
    s.manager.registry.handles.contains handle = false ->
    (s.step (.manage (.register handle key offset size))).1 =
      if (s.directory.file file).size = 0 then .failed (.emptyFile key)
      else .ofExcept (checkRange (.keyedRegion key) offset size (s.directory.file file).size)
  registered : forall (handle : String) (offset size : Nat),
    (s.step (.manage (.register handle key offset size))).1 = .done ->
    exists h : Handle, s.manager.Registers handle key offset size h ∧
      h.mapping.region.file = file

/-- Whether all calls by a key go by one name: they do what they do by the file that has this name,
if one has, and touch neither another name nor the bytes of a file. -/
structure Addresses (s : Sharing) (key name : String) : Prop where
  findsNone : s.directory.names.get? name = none -> s.FindsNone key name
  findsFile : forall file : Nat, s.directory.names.get? name = some file ->
    s.FindsFile key name file
  keeps : forall call : Call, s.Tries key call ->
    s.directory.KeepsBut (s.step call).2.directory name

variable {s : Sharing} {key name : String} {failure : Failure}

theorem step_manage {call : Manager.Call} {answer : Manager.Answer} {m : Manager}
    (h : s.manager.step call = (answer, m)) :
    s.step (.manage call) = (answer, { s with manager := m }) := by
  unfold Sharing.step
  simp only [h]

theorem IsSound.step_seeks (hs : s.IsSound)
    (hopen : Region.openKey s.directory key = .error failure)
    (hunlink : s.directory.unlink key = .error failure) {call : Call} (h : s.Seeks key call) :
    s.step call = (.failed failure, s) := by
  cases h with
  | openKey label =>
      unfold Sharing.step
      simp only [hopen]
  | unlink =>
      have hmanager : s.manager.directory.unlink key = .error failure := hunlink
      apply step_manage
      unfold Manager.step
      simp only [hmanager]
  | register offset size hhandle hfree =>
      exact step_manage (hs.manager.register_of_openKey_error hhandle hfree hopen)

theorem IsSound.rejects (hs : s.IsSound) (h : locate key = .error failure) :
    s.Rejects key failure := by
  intro call hcall
  cases hcall with
  | create label hsize =>
      unfold Sharing.step
      simp only [Region.create_of_vet_error (Refusals.usual.vet_of_locate_error h hsize)]
      rfl
  | seeks hseeks =>
      exact hs.step_seeks (Region.openKey_of_locate_error h) (Directory.unlink_of_locate_error h)
        hseeks

theorem IsSound.findsNone (hs : s.IsSound) (h : locate key = .ok name)
    (hnone : s.directory.names.get? name = none) : s.FindsNone key name where
  seek _ := hs.step_seeks (Region.openKey_of_absent h hnone) (Directory.unlink_of_absent h hnone)
  create label size hsize := by
    unfold Sharing.step
    simp only [Region.create_of_vet (Refusals.usual_vet_of_absent h hsize hnone)]
    by_cases hbound : size < Text.signedBound
    · simp only [if_pos hbound]
    · simp only [if_neg hbound]

theorem IsSound.findsFile (hs : s.IsSound) (h : locate key = .ok name) {file : Nat}
    (hfile : s.directory.names.get? name = some file) : s.FindsFile key name file where
  create label size hsize := by
    unfold Sharing.step
    simp only [Region.create_of_vet_error (Refusals.usual.vet_of_present h hsize hfile)]
    rfl
  unlink := by
    have hunlink : s.manager.directory.unlink key = _ := Directory.unlink_of_present h hfile
    apply step_manage
    unfold Manager.step
    simp only [hunlink]
    rfl
  openKey label := by
    unfold Sharing.step
    simp only [Region.openKey_of_present h hfile]
    by_cases hsize : (s.directory.file file).size = 0
    · simp only [if_pos hsize]
    · simp only [if_neg hsize]
  register handle offset size hhandle hfree := by
    by_cases hsize : (s.directory.file file).size = 0
    · have hopen : Region.openKey s.directory key = .error (.emptyFile key) := by
        rw [Region.openKey_of_present h hfile, if_pos hsize]
      rw [if_pos hsize]
      exact congrArg Prod.fst (hs.manager.register_of_openKey_error hhandle hfree hopen)
    · have hopen : Region.openKey s.directory key =
          .ok ⟨key, name, (s.directory.file file).size, file⟩ := by
        rw [Region.openKey_of_present h hfile, if_neg hsize]
      rw [if_neg hsize]
      exact hs.manager.register_of_openKey hhandle hfree hopen
  registered handle offset size hdone := by
    obtain ⟨made, hmade⟩ := hs.manager.registers hdone
    obtain ⟨other, hother, hnamed⟩ := hmade.file
    have hsame : other = name := Except.ok.inj (hother.symm.trans (locate_eq_ok h).1)
    rw [hsame] at hnamed
    exact ⟨made, hmade, Option.some.inj (hnamed.symm.trans hfile)⟩

theorem IsSound.keeps (hs : s.IsSound) (h : locate key = .ok name) {call : Call}
    (hcall : s.Tries key call) : s.directory.KeepsBut (s.step call).2.directory name := by
  cases hget : s.directory.names.get? name with
  | none =>
      have hfinds := hs.findsNone h hget
      cases hcall with
      | create label hsize =>
          rw [hfinds.create label _ hsize]
          split
          · exact s.directory.keepsBut_addFile name _
          · exact s.directory.keepsBut_addFile name 0
      | seeks hseeks =>
          rw [hfinds.seek _ hseeks]
          exact .refl s.directory name
  | some file =>
      have hfinds := hs.findsFile h hget
      cases hcall with
      | create label hsize =>
          rw [hfinds.create label _ hsize]
          exact .refl s.directory name
      | seeks hseeks =>
          cases hseeks with
          | openKey label =>
              rw [hfinds.openKey label]
              split <;> exact .refl s.directory name
          | unlink =>
              rw [hfinds.unlink]
              exact s.directory.keepsBut_erase name
          | register offset size hhandle hfree => exact .refl s.directory name

theorem IsSound.addresses (hs : s.IsSound) (h : locate key = .ok name) : s.Addresses key name where
  findsNone := hs.findsNone h
  findsFile _ := hs.findsFile h
  keeps _ := hs.keeps h

/-- There is but one name that calls by a key can go by: a region that is created shows it. -/
theorem Addresses.name_eq {other : String} (h : (reached []).Addresses key name)
    (h' : (reached []).Addresses key other) : name = other := by
  have hcreate := (h.findsNone rfl).create "" 1 (by decide)
  rw [(h'.findsNone rfl).create "" 1 (by decide)] at hcreate
  simp only [if_pos (show 1 < Text.signedBound by decide)] at hcreate
  have hregions := congrArg (fun made => made.2.regions.get? "") hcreate
  simp only [OrderedMap.get?_insert_self] at hregions
  exact (congrArg Region.name (Option.some.inj hregions)).symm

end Sharing

/-!
# Confinement

No call gets out of the directory.
-/

/-- Whether all names are those of files right in the directory. -/
def Directory.IsFlat (d : Directory) : Prop :=
  forall (name : String) (file : Nat), d.names.get? name = some file -> IsFileName name

namespace Directory.IsFlat

variable {d d' : Directory} (hd : d.IsFlat)

include hd

theorem addFile {name : String} (hname : IsFileName name) (size : Nat) :
    (d.addFile name size).IsFlat := by
  intro other file hfile
  by_cases hsame : other = name
  · rw [hsame]
    exact hname
  · rw [(d.keepsBut_addFile name size).names other hsame] at hfile
    exact hd other file hfile

theorem create (key : String) (size : Nat) : (Region.create d key size).2.IsFlat := by
  cases hvet : Refusals.usual.vet d key size with
  | error failure =>
      rw [Region.create_of_vet_error hvet]
      exact hd
  | ok name =>
      have hname : IsFileName name := (fileName?_eq_ok_iff.1 (Refusals.vet_eq_ok hvet).1).1
      rw [Region.create_of_vet hvet]
      split
      · exact hd.addFile hname size
      · exact hd.addFile hname 0

theorem unlink {key : String} (h : d.unlink key = .ok d') : d'.IsFlat := by
  unfold Directory.unlink at h
  rcases bind_eq_ok h with ⟨name, _, hrest⟩
  rcases bind_eq_ok hrest with ⟨_, _, hnames⟩
  split at hnames
  · cases hnames
  · cases hnames
    intro other file hfile
    by_cases hsame : other = name
    · rw [hsame, OrderedMap.get?_erase_self] at hfile
      cases hfile
    · rw [(d.keepsBut_erase name).names other hsame] at hfile
      exact hd other file hfile

end Directory.IsFlat

theorem Region.names_write {r : Region} {d d' : Directory} {offset : Nat} {data : Bytes}
    (h : r.write d offset data = .ok d') : d'.names = d.names := by
  unfold write at h
  rcases bind_eq_ok h with ⟨_, _, hmade⟩
  cases hmade
  rfl

theorem Handle.names_write {h : Handle} {d d' : Directory} {offset : Nat} {data : Bytes}
    (hwrite : h.write d offset data = .ok d') : d'.names = d.names := by
  unfold write at hwrite
  rcases bind_eq_ok hwrite with ⟨_, _, hregion⟩
  exact Region.names_write hregion

theorem Manager.isFlat_step {m : Manager} (h : m.directory.IsFlat) (call : Call) :
    (m.step call).2.directory.IsFlat := by
  cases call with
  | create key size => exact h.create key size
  | unlink key =>
      unfold step
      simp only
      split
      · rename_i d hunlink
        exact h.unlink hunlink
      · exact h
  | unregister name | hold name label =>
      unfold step
      simp only
      split <;> exact h
  | read label offset size =>
      unfold step
      simp only
      split
      · exact h
      · split <;> exact h
  | write label offset data =>
      unfold step
      simp only
      split
      · exact h
      · split
        · rename_i d hwrite
          intro name file hfile
          rw [Handle.names_write hwrite] at hfile
          exact h name file hfile
        · exact h
  | _ => exact h

def Region.IsNamed (r : Region) : Prop := fileName? r.key = .ok r.name

theorem Region.isNamed_of_openKey {d : Directory} {key : String} {region : Region}
    (h : openKey d key = .ok region) : region.IsNamed := by
  obtain ⟨hname, _, _, _, _, hkey⟩ := openKey_eq_ok h
  unfold IsNamed
  rw [hkey]
  exact hname

theorem Region.isNamed_of_create {d : Directory} {key : String} {size : Nat} {region : Region}
    (h : (create d key size).1 = .ok region) : region.IsNamed := by
  cases hvet : Refusals.usual.vet d key size with
  | error failure =>
      rw [create_of_vet_error hvet] at h
      cases h
  | ok name =>
      rw [create_of_vet hvet] at h
      split at h
      · cases h
        exact (Refusals.vet_eq_ok hvet).1
      · cases h

theorem Manager.Registers.isNamed {m : Manager} {name key : String} {offset size : Nat} {h : Handle}
    (hmade : m.Registers name key offset size h) (hm : m.IsSound)
    (hlive : forall other : Handle, m.IsLive other -> other.mapping.region.IsNamed) :
    h.mapping.region.IsNamed := by
  rcases hmade.mapping_cases hm with ⟨other, hother, hmapping⟩ | ⟨hkey, _⟩
  · rw [← hmapping]
    exact hlive other hother
  · have hname := hmade.fileName?_key hm
    rw [← hkey] at hname
    exact hname

namespace Sharing

variable {s : Sharing} {key name : String} {failure : Failure}

/-- Whether all names are those of files right in the directory, and whatever is mapped has the name
that its key means. -/
structure IsConfined (s : Sharing) : Prop where
  directory : s.directory.IsFlat
  region : forall r : Region, r ∈ s.regions.values -> r.IsNamed
  handle : forall h : Handle, s.manager.IsLive h -> h.mapping.region.IsNamed

theorem isConfined_empty : empty.IsConfined where
  directory name file h := by cases h
  region r h := by cases h
  handle h hlive := by rcases hlive with hlive | hlive <;> cases hlive

theorem IsConfined.insert (hc : s.IsConfined) {region : Region} (h : region.IsNamed)
    (label : String) : { s with regions := s.regions.insert label region }.IsConfined where
  directory := hc.directory
  region other hother := by
    rcases OrderedMap.mem_values_insert hother with rfl | hold
    · exact h
    · exact hc.region other hold
  handle := hc.handle

theorem IsConfined.withDirectory (hc : s.IsConfined) {d : Directory} (hd : d.IsFlat) :
    (s.withDirectory d).IsConfined where
  directory := hd
  region := hc.region
  handle := hc.handle

theorem IsConfined.step (hc : s.IsConfined) (hs : s.IsSound) (call : Call) :
    (s.step call).2.IsConfined := by
  cases call with
  | manage call =>
      refine ⟨Manager.isFlat_step hc.directory call, hc.region, fun h hlive => ?_⟩
      rcases hs.manager.live_step hlive with hold | ⟨_, _, _, _, _, hmade⟩
      · exact hc.handle h hold
      · exact hmade.isNamed hs.manager hc.handle
  | create label key size =>
      have hmade := hc.withDirectory (hc.directory.create key size)
      unfold Sharing.step
      simp only
      split
      · rename_i region hcreated
        exact hmade.insert (Region.isNamed_of_create hcreated) label
      · exact hmade
  | openKey label key =>
      unfold Sharing.step
      simp only
      split
      · rename_i region hopen
        exact hc.insert (Region.isNamed_of_openKey hopen) label
      · exact hc
  | drop label =>
      exact ⟨hc.directory, fun r hr => hc.region r (OrderedMap.mem_values_erase hr), hc.handle⟩
  | read label offset size =>
      unfold Sharing.step
      simp only
      split
      · exact hc
      · split <;> exact hc
  | write label offset data =>
      unfold Sharing.step
      simp only
      split
      · exact hc
      · split
        · rename_i d hwrite
          apply hc.withDirectory
          intro name file hfile
          rw [Region.names_write hwrite] at hfile
          exact hc.directory name file hfile
        · exact hc

theorem IsConfined.after (hc : s.IsConfined) (hs : s.IsSound) (calls : List Call) :
    (s.after calls).IsConfined := by
  induction calls generalizing s with
  | nil => exact hc
  | cons call rest ih => exact ih (hc.step hs call) (hs.step call)

/-!
# Keys in all runs

A key that goes by a name is not rejected, but for a file that is missing.
-/

/-- Whether all calls by a key fail alike with a code, whatever has been called before. -/
def RejectsAlways (key : String) (code : FailureCode) : Prop :=
  exists failure : Failure, failure.code = code ∧
    forall calls : List Call, (reached calls).Rejects key failure

theorem rejectsAlways_of_locate (h : locate key = .error failure) :
    RejectsAlways key failure.code :=
  ⟨failure, rfl, fun calls => (isSound_reached calls).rejects h⟩

theorem addresses_of_locate (h : locate key = .ok name) (calls : List Call) :
    (reached calls).Addresses key name := (isSound_reached calls).addresses h

theorem Addresses.not_rejectsAlways (h : (reached []).Addresses key name) {code : FailureCode}
    (hcode : code ≠ .notFound) : ¬ RejectsAlways key code := by
  rintro ⟨failure, hfailure, hrejects⟩
  have hopen := hrejects [] _ (.seeks (.openKey ""))
  rw [(h.findsNone rfl).seek _ (.openKey "")] at hopen
  cases hopen
  exact hcode hfailure.symm

theorem addresses_bareKey_or_rejectsAlways (key : String) :
    RejectsAlways key .invalidArg ∧
      (¬ IsFileName (bareKey key) ∨ '\x00' ∈ (bareKey key).toList) ∨
    RejectsAlways key .internal ∧
      (IsFileName (bareKey key) ∧ '\x00' ∉ (bareKey key).toList ∧
        255 < (bareKey key).utf8ByteSize) ∨
    (forall calls : List Call, (reached calls).Addresses key (bareKey key)) ∧
      IsFileName (bareKey key) ∧ '\x00' ∉ (bareKey key).toList ∧
      (bareKey key).utf8ByteSize ≤ 255 := by
  rcases locate_cases key with ⟨failure, hlocate, hcode, hbad⟩ | ⟨failure, hlocate, hcode, hlong⟩ |
    ⟨hlocate, hgood⟩
  · exact .inl ⟨hcode ▸ rejectsAlways_of_locate hlocate, hbad⟩
  · exact .inr (.inl ⟨hcode ▸ rejectsAlways_of_locate hlocate, hlong⟩)
  · exact .inr (.inr ⟨addresses_of_locate hlocate, hgood⟩)

theorem eq_bareKey_of_addresses (h : (reached []).Addresses key name) : name = bareKey key := by
  rcases addresses_bareKey_or_rejectsAlways key with ⟨hrejects, _⟩ | ⟨hrejects, _⟩ | ⟨haddresses, _⟩
  · exact absurd hrejects (h.not_rejectsAlways (by decide))
  · exact absurd hrejects (h.not_rejectsAlways (by decide))
  · exact h.name_eq (haddresses [])

/-- Whatever has been called: a key that means no file name, or one with a zero character, is
rejected as an invalid argument by all calls, and one that means too long a name as a failure of the
system.  By each other key, all calls come to the file of one name, right in the directory, and two
such keys go by one name if they differ in nothing but a slash in front.  A name that a key means
is the key of itself, and nothing outside of the directory is ever created or mapped. -/
theorem keys_go_by_file_names :
    (forall key : String,
      RejectsAlways key .invalidArg ∧
        (¬ IsFileName (bareKey key) ∨ '\x00' ∈ (bareKey key).toList) ∨
      RejectsAlways key .internal ∧
        IsFileName (bareKey key) ∧ '\x00' ∉ (bareKey key).toList ∧
        255 < (bareKey key).utf8ByteSize ∨
      (forall calls : List Call, (reached calls).Addresses key (bareKey key)) ∧
        IsFileName (bareKey key) ∧
        forall base : List String, Path.resolve base (bareKey key) = base ++ [bareKey key]) ∧
    (forall key other name otherName : String,
      (forall calls : List Call, (reached calls).Addresses key name) ->
      (forall calls : List Call, (reached calls).Addresses other otherName) ->
      (name = otherName ↔ bareKey key = bareKey other)) ∧
    (forall (calls : List Call) (key other : String) (file : Nat),
      (reached calls).directory.names.get? (bareKey key) = some file ->
      ((reached calls).directory.names.get? (bareKey other) = some file ↔
        bareKey key = bareKey other)) ∧
    (forall key name : String, fileName? key = .ok name -> fileName? name = .ok name) ∧
    forall calls : List Call, (reached calls).IsConfined := by
  refine ⟨?_, ?_, ?_, ?_, ?_⟩
  · intro key
    rcases addresses_bareKey_or_rejectsAlways key with hinvalid | hlong | ⟨haddresses, hname, _⟩
    · exact .inl hinvalid
    · exact .inr (.inl hlong)
    · exact .inr (.inr ⟨haddresses, hname, Path.isFileName_iff.1 hname⟩)
  · intro key other name otherName hkey hother
    rw [eq_bareKey_of_addresses (hkey []), eq_bareKey_of_addresses (hother [])]
  · intro calls key other file hfile
    constructor
    · intro hother
      exact (isSound_reached calls).manager.directory.distinct _ _ file hfile hother
    · intro hsame
      rw [← hsame]
      exact hfile
  · intro key name hname
    exact (fileName?_eq_ok_iff.1 hname).1.fileName?
  · intro calls
    exact isConfined_empty.after isSound_empty calls

def slashedRun : List Call := [.create "a" "/k" 8]

theorem openKey_in_slashedRun :
    (reached slashedRun).directory.names.get? (bareKey "k") = some 0 ∧
      (reached slashedRun).step (.openKey "b" "k") = (.done, { reached slashedRun with
        regions := (reached slashedRun).regions.insert "b" ⟨"k", "k", 8, 0⟩ }) ∧
      RejectsAlways "/.." .invalidArg := by
  have hnamed : (reached slashedRun).directory.names.get? (bareKey "k") = some 0 := rfl
  have hname : IsFileName "k" := ⟨by decide, by decide, by decide, by decide⟩
  refine ⟨hnamed, ?_, ?_⟩
  · rcases keys_go_by_file_names.1 "k" with ⟨_, hbad⟩ | ⟨_, _, _, hlong⟩ | ⟨haddresses, _⟩
    · rcases hbad with hnone | hzero
      · exact absurd hname hnone
      · exact absurd hzero (by decide)
    · exact absurd hlong (by decide)
    · exact ((haddresses slashedRun).findsFile 0 hnamed).openKey "b"
  · rcases keys_go_by_file_names.1 "/.." with ⟨hrejects, _⟩ | ⟨_, hnone, _⟩ | ⟨_, hnone, _⟩
    · exact hrejects
    · exact absurd rfl hnone.ne_dots
    · exact absurd rfl hnone.ne_dots

/-- The key is no bad one, but no file can have the name that it means. -/
theorem rejects_overlongKey :
    RejectsAlways Manager.overlongKey .internal ∧
      ¬ forall key : String, RejectsAlways key .invalidArg ∨
        exists name : String, forall calls : List Call, (reached calls).Addresses key name := by
  have hname := fileName?_eq_ok_iff.1 Manager.fileName?_overlongKey
  have hrejects : RejectsAlways Manager.overlongKey .internal := by
    rcases addresses_bareKey_or_rejectsAlways Manager.overlongKey with ⟨_, hbad⟩ | ⟨hrejects, _⟩ |
      ⟨_, _, _, hshort⟩
    · rw [hname.2] at hbad
      rcases hbad with hnone | hzero
      · exact absurd hname.1 hnone
      · exact absurd hzero (Manager.not_mem_overlongKey (by decide))
    · exact hrejects
    · rw [hname.2, Manager.utf8ByteSize_overlongKey] at hshort
      exact absurd hshort (by decide)
  refine ⟨hrejects, fun hall => ?_⟩
  rcases hall Manager.overlongKey with hinvalid | ⟨name, haddresses⟩
  · rcases hinvalid with ⟨failure, hcode, hinvalid⟩
    rcases hrejects with ⟨other, hother, hrejects⟩
    have hopen := hinvalid [] _ (.seeks (.openKey ""))
    rw [hrejects [] _ (.seeks (.openKey ""))] at hopen
    cases hopen
    rw [hcode] at hother
    cases hother
  · exact (haddresses []).not_rejectsAlways (by decide) hrejects

end Sharing

end InferenceEngine
