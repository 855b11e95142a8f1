import InferenceEngine.Proofs.Regions.Managers

/-!
# Creations that fail

A region is created in steps: its key and its size are checked, a file is made under its name, and
this file is given its size, looked at and mapped.  The system may refuse each step but the checks.
A step that is refused ends the creation and does not undo the steps before it, so that the file
stays once it has been made.  A region is opened in steps, too, and the system may refuse these to
whoever comes to the file later.
-/

namespace InferenceEngine

/-!
# Steps

A creation fails before there is a file, or with the file as it is then.
-/

/-- What the system refuses: to make a file under a name or to open the one that has the name, to
give a file its size, to look at one that is open or at a path, and to map one.  No file can be so
large that its size cannot be told. -/
structure Refusals where
  make : String -> Option Failure
  access : String -> Option Failure
  resize : Nat -> Option Failure
  inspect : Option Failure
  look : Option Failure
  map : Nat -> Option Failure
  resize_of_le : forall size : Nat, Text.signedBound ≤ size -> resize size ≠ none

namespace Refusals

def usual : Refusals where
  make _ := none
  access _ := none
  resize size :=
    if size < Text.signedBound then none
    else some (.fileFault .invalidInput "number too large to fit in target type")
  inspect := none
  look := none
  map _ := none
  resize_of_le size h := by
    rw [if_neg (Nat.not_lt.2 h)]
    exact Option.some_ne_none _

/-- The steps until there is a file; they give its name. -/
def vet (r : Refusals) (d : Directory) (key : String) (size : Nat) : Except Failure String := do
  let name ← fileName? key
  if size = 0 then .error (.emptyRegion key)
  else
    checkName name
    if d.names.contains name then
      .error (.fileFault .alreadyExists "File exists (os error 17)")
    else
      match r.make name with
      | some failure => .error failure
      | none => .ok name

/-- Creates a region step by step, until one is refused. -/
def create (r : Refusals) (d : Directory) (key : String) (size : Nat) :
    Except Failure Region × Directory :=
  match r.vet d key size with
  | .error failure => (.error failure, d)
  | .ok name =>
    let made := d.addFile name 0
    match r.resize size with
    | some failure => (.error failure, made)
    | none =>
      let sized := made.resize name size
      match r.inspect.or (r.map size) with
      | some failure => (.error failure, sized)
      | none => (.ok ⟨key, name, size, d.files.length⟩, sized)

def openFile (r : Refusals) (region : Region) : Except Failure Region :=
  match (r.access region.name).or r.inspect with
  | some failure => .error failure
  | none =>
    if region.size = 0 then .error (.emptyFile region.key)
    else
      match r.map region.size with
      | some failure => .error failure
      | none => .ok region

def openKey (r : Refusals) (d : Directory) (key : String) : Except Failure Region := do
  let name ← fileName? key
  checkName name
  match d.names.get? name with
  | none => .error (.missingRegion key)
  | some number => r.openFile ⟨key, name, (d.file number).size, number⟩

/-- A file that cannot be looked at does not count as the one that has been mapped. -/
def isCurrent (r : Refusals) (d : Directory) (region : Region) : Bool :=
  r.look.isNone && region.isCurrent d

def register (r : Refusals) (m : Manager) (name key : String) (offset size : Nat) :
    Except Failure Unit :=
  (m.registry.registerBy (r.isCurrent m.directory) (r.openKey m.directory key) m.isElsewhere name
    key offset size).1

end Refusals

theorem File.resize_zeroed (first size : Nat) : (zeroed first).resize size = zeroed size := by
  unfold resize zeroed
  rw [List.take_nil]

namespace Directory

theorem get?_addFile (d : Directory) (name : String) (size : Nat) :
    (d.addFile name size).names.get? name = some d.files.length :=
  OrderedMap.get?_insert_self ..

theorem resize_addFile (d : Directory) (name : String) (first size : Nat) :
    (d.addFile name first).resize name size = d.addFile name size := by
  have hlast : forall files : List File,
      (files ++ [File.zeroed first]).modify files.length (fun f => f.resize size) =
        files ++ [File.zeroed size] := by
    intro files
    induction files with
    | nil => exact congrArg (fun f => [f]) (File.resize_zeroed first size)
    | cons file rest ih => exact congrArg (file :: ·) ih
  unfold resize
  rw [get?_addFile]
  exact congrArg (Directory.mk · _) (hlast d.files)

end Directory

theorem Region.create_eq_usual (d : Directory) (key : String) (size : Nat) :
    create d key size = Refusals.usual.create d key size := by
  unfold create Refusals.create
  have hvet : Refusals.usual.vet d key size = (do
      let name ← fileName? key
      if size = 0 then .error (.emptyRegion key)
      else
        checkName name
        if d.names.contains name then
          .error (.fileFault .alreadyExists "File exists (os error 17)")
        else .ok name) := rfl
  rw [← hvet]
  cases Refusals.usual.vet d key size with
  | error failure => rfl
  | ok name =>
      simp only [Directory.resize_addFile]
      by_cases hsize : size < Text.signedBound
      · have hresize : Refusals.usual.resize size = none := if_pos hsize
        rw [if_pos hsize, hresize]
        rfl
      · have hresize : Refusals.usual.resize size =
            some (.fileFault .invalidInput "number too large to fit in target type") :=
          if_neg hsize
        rw [if_neg hsize, hresize]

theorem Region.openKey_eq_usual (d : Directory) (key : String) :
    openKey d key = Refusals.usual.openKey d key := rfl

theorem Manager.answer_eq_usual (m : Manager) (name key : String) (offset size : Nat) :
    (m.step (.register name key offset size)).1 =
      .ofExcept (Refusals.usual.register m name key offset size) := rfl

namespace Refusals

variable {r : Refusals} {d : Directory} {key name : String} {size : Nat}

theorem openFile_eq_ok {region opened : Region} (h : r.openFile region = .ok opened) :
    opened = region := by
  unfold openFile at h
  split at h
  · cases h
  · split at h
    · cases h
    · split at h
      · cases h
      · exact (Except.ok.inj h).symm

theorem vet_eq_ok (h : r.vet d key size = .ok name) :
    fileName? key = .ok name ∧ size ≠ 0 ∧ checkName name = .ok () ∧ d.names.get? name = none := by
  unfold vet at h
  rcases bind_eq_ok h with ⟨file, hname, hrest⟩
  split at hrest
  · cases hrest
  · rename_i hsize
    rcases bind_eq_ok hrest with ⟨⟨⟩, hcheck, hexists⟩
    split at hexists
    · cases hexists
    · rename_i hfree
      have hsame : file = name := by
        split at hexists
        · cases hexists
        · exact Except.ok.inj hexists
      subst hsame
      exact ⟨hname, hsize, hcheck, Option.not_isSome_iff_eq_none.1 hfree⟩

theorem create_cases (r : Refusals) (d : Directory) (key : String) (size : Nat) :
    (exists failure : Failure, r.vet d key size = .error failure ∧
      r.create d key size = (.error failure, d)) ∨
    (exists (name : String) (failure : Failure), r.vet d key size = .ok name ∧
      r.resize size = some failure ∧
      r.create d key size = (.error failure, d.addFile name 0)) ∨
    (exists (name : String) (failure : Failure), r.vet d key size = .ok name ∧
      r.resize size = none ∧ r.inspect.or (r.map size) = some failure ∧
      r.create d key size = (.error failure, d.addFile name size)) ∨
    (exists name : String, r.vet d key size = .ok name ∧
      r.resize size = none ∧ r.inspect.or (r.map size) = none ∧
      r.create d key size =
        (.ok ⟨key, name, size, d.files.length⟩, d.addFile name size)) := by
  unfold create
  cases r.vet d key size with
  | error failure => exact .inl ⟨failure, rfl, rfl⟩
  | ok name =>
      right
      simp only [Directory.resize_addFile]
      cases r.resize size with
      | some failure => exact .inl ⟨name, failure, rfl, rfl, rfl⟩
      | none =>
          right
          cases r.inspect.or (r.map size) with
          | some failure => exact .inl ⟨name, failure, rfl, rfl, rfl, rfl⟩
          | none => exact .inr ⟨name, rfl, rfl, rfl, rfl⟩

end Refusals

/-!
# What stays

Whoever comes to the name later comes to the file that has stayed, whether it is opened or found
among the mappings.
-/

/-- A creation that has failed with its file made has left this file behind, with a certain size.
It holds its name, so that no later creation succeeds under that name.  All who open the name or
register ranges of it come to this file, whatever the system refuses them then; a registration has
it opened unless it is mapped already and can be looked at. -/
structure LeavesFile (d d' : Directory) (name : String) (size : Nat) : Prop where
  absent : d.names.get? name = none
  directory : d' = d.addFile name size
  grows : d.Grows d'
  create : forall (r : Refusals) (key : String) (other : Nat), fileName? key = .ok name ->
    other ≠ 0 -> r.create d' key other =
      (.error (.fileFault .alreadyExists "File exists (os error 17)"), d')
  openKey : forall (r : Refusals) (key : String), fileName? key = .ok name ->
    r.openKey d' key = r.openFile ⟨key, name, size, d.files.length⟩
  register : forall (r : Refusals) (m : Manager) (handle key : String) (offset length : Nat),
    m.IsSound -> m.directory = d' -> handle ≠ "" -> m.registry.handles.contains handle = false ->
    fileName? key = .ok name ->
    (r.look = none -> forall h : Handle, m.IsLive h -> h.mapping.region.file ≠ d.files.length) ->
    r.register m handle key offset length = (do
      let region ← r.openFile ⟨key, name, size, d.files.length⟩
      checkRange (.keyedRegion key) offset length region.size)
  registerMapped : forall (r : Refusals) (m : Manager) (handle key : String)
    (offset length : Nat) (h : Handle), m.IsSound -> m.directory = d' -> handle ≠ "" ->
    m.registry.handles.contains handle = false -> fileName? key = .ok name -> r.look = none ->
    m.IsLive h -> h.mapping.region.file = d.files.length ->
    r.register m handle key offset length = checkRange (.keyedRegion key) offset length size

theorem LeavesFile.ne {d d' : Directory} {name : String} {size : Nat}
    (h : LeavesFile d d' name size) : d' ≠ d := by
  intro hsame
  have hget := d.get?_addFile name size
  rw [← h.directory, hsame, h.absent] at hget
  cases hget

theorem Manager.IsSound.answer_register {m : Manager} (hm : m.IsSound) (name key : String)
    (offset size : Nat) : (m.step (.register name key offset size)).1 =
      .ofExcept (m.admission name key offset size) := by
  rcases hm.step_register name key offset size with
    ⟨failure, r, hadmission, hstep, _⟩ | ⟨region, mapping, r, hadmission, hstep, _⟩
  · rw [hstep, hadmission]
    rfl
  · rw [hstep, hadmission]
    rfl

theorem Registry.registerBy_answer (r : Registry) (isCurrent : Region -> Bool)
    (opened : Except Failure Region) (elsewhere : Nat -> Bool) {name : String} (key : String)
    (offset size : Nat) (hname : name ≠ "") (hfree : r.handles.contains name = false) :
    (r.registerBy isCurrent opened elsewhere name key offset size).1 = (do
      let mapping ← (r.mapKeyBy isCurrent opened elsewhere key).1
      checkRange (.keyedRegion key) offset size mapping.region.size) := by
  unfold registerBy
  rw [if_neg hname, hfree, if_neg Bool.false_ne_true]
  generalize r.mapKeyBy isCurrent opened elsewhere key = made
  rcases made with ⟨⟨failure⟩ | ⟨mapping⟩, r', events⟩
  · rfl
  · simp only [bind, Except.bind]
    cases checkRange (.keyedRegion key) offset size mapping.region.size <;> rfl

section

variable {m : Manager} (hm : m.IsSound) (r : Refusals) {handle key name : String}
  (offset length : Nat) {size file : Nat} (hhandle : handle ≠ "")
  (hfree : m.registry.handles.contains handle = false) (hkey : fileName? key = .ok name)
  (hfile : m.directory.names.get? name = some file)
  (hopen : r.openKey m.directory key = r.openFile ⟨key, name, size, file⟩)

include hm hhandle hfree hkey hfile hopen

/-- A registration has a file opened that is not mapped, or that cannot be looked at. -/
theorem Refusals.register_of_stale (hstale : r.look = none ->
      forall h : Handle, m.IsLive h -> h.mapping.region.file ≠ file) :
    r.register m handle key offset length = (do
      let region ← r.openFile ⟨key, name, size, file⟩
      checkRange (.keyedRegion key) offset length region.size) := by
  have hopened : forall region : Region, r.openKey m.directory key = .ok region ->
      fileName? key = .ok region.name := by
    intro region hregion
    rw [hopen] at hregion
    rw [openFile_eq_ok hregion]
    exact hkey
  unfold Refusals.register
  rw [m.registry.registerBy_answer _ _ _ key offset length hhandle hfree, ← hopen]
  rcases m.registry.mapKeyBy_cases (r.isCurrent m.directory) m.isElsewhere hopened with
    ⟨failure, hname, _⟩ | ⟨other, mapping, hname, hlast, hheld, hcurrent, _⟩ |
    ⟨other, _, _, ⟨failure, hfails, hresult, _⟩ | ⟨region, hregion, hresult, _⟩⟩
  · rw [hkey] at hname
    cases hname
  · -- The mapping would be that of a live handle.
    rw [hkey] at hname
    cases hname
    obtain ⟨h, hlive, rfl⟩ := hm.live_of_isHeld hlast hheld
    unfold Refusals.isCurrent Region.isCurrent at hcurrent
    rw [Bool.and_eq_true, Option.isNone_iff_eq_none, Bool.and_eq_true, decide_eq_true_eq,
      (hm.last _ _ hlast).1, hfile] at hcurrent
    exact absurd (Option.some.inj hcurrent.2.1).symm (hstale hcurrent.1 h hlive)
  · rw [hresult, hfails]
    rfl
  · rw [hresult, hregion]
    rfl

theorem Refusals.register_of_mapped (hlook : r.look = none) {h : Handle} (hlive : m.IsLive h)
    (hover : h.mapping.region.file = file) (hsize : (m.directory.file file).size = size) :
    r.register m handle key offset length = checkRange (.keyedRegion key) offset length size := by
  have hopened : forall region : Region, r.openKey m.directory key = .ok region ->
      fileName? key = .ok region.name := by
    intro region hregion
    rw [hopen] at hregion
    rw [openFile_eq_ok hregion]
    exact hkey
  rcases @Manager.IsSound.shares m hm ⟨key, name, size, file⟩ hfile h hlive hover with
    ⟨hlast, hheld, hcurrent⟩
  have hcounts : r.isCurrent m.directory h.mapping.region = true := by
    unfold Refusals.isCurrent
    rw [hlook, hcurrent]
    rfl
  unfold Refusals.register
  rw [m.registry.registerBy_answer _ _ _ key offset length hhandle hfree]
  rcases m.registry.mapKeyBy_cases (r.isCurrent m.directory) m.isElsewhere hopened with
    ⟨failure, hname, _⟩ | ⟨other, mapping, hname, hmapping, _, _, hresult, _⟩ |
    ⟨other, hname, hstale, _⟩
  · rw [hkey] at hname
    cases hname
  · rw [hkey] at hname
    cases hname
    rw [hlast] at hmapping
    cases hmapping
    have hadmits := (hm.admits h hlive).size_eq
    rw [hover, hsize] at hadmits
    rw [hresult, hadmits]
    rfl
  · rw [hkey] at hname
    cases hname
    rw [hstale _ hlast hheld] at hcounts
    cases hcounts

end

theorem leavesFile_addFile {d : Directory} {name : String} (hcheck : checkName name = .ok ())
    (habsent : d.names.get? name = none) {size : Nat} (hsize : size < Text.signedBound) :
    LeavesFile d (d.addFile name size) name size := by
  have hget := d.get?_addFile name size
  have hfile : (d.addFile name size).file d.files.length = .zeroed size := by
    rw [Directory.file_addFile, if_pos rfl]
  have hopen : forall (r : Refusals) (key : String), fileName? key = .ok name ->
      r.openKey (d.addFile name size) key = r.openFile ⟨key, name, size, d.files.length⟩ := by
    intro r key hkey
    unfold Refusals.openKey
    simp only [hkey, hcheck, hget, hfile, bind, Except.bind]
    rfl
  refine ⟨habsent, rfl, d.grows_addFile hcheck hsize, ?_, hopen, ?_, ?_⟩
  · intro r key other hkey hother
    have hcontains : (d.addFile name size).names.contains name = true := by
      unfold OrderedMap.contains
      rw [hget]
      rfl
    have hvet : r.vet (d.addFile name size) key other =
        .error (.fileFault .alreadyExists "File exists (os error 17)") := by
      unfold Refusals.vet
      simp only [hkey, hcheck, bind, Except.bind, if_neg hother, if_pos hcontains]
    unfold Refusals.create
    rw [hvet]
  · intro r m handle key offset length hm hdirectory hhandle hfree hkey hstale
    have hnamed : m.directory.names.get? name = some d.files.length := by rw [hdirectory, hget]
    exact r.register_of_stale hm offset length hhandle hfree hkey hnamed
      (by rw [hdirectory]; exact hopen r key hkey) hstale
  · intro r m handle key offset length h hm hdirectory hhandle hfree hkey hlook hlive hover
    have hnamed : m.directory.names.get? name = some d.files.length := by rw [hdirectory, hget]
    exact r.register_of_mapped hm offset length hhandle hfree hkey hnamed
      (by rw [hdirectory]; exact hopen r key hkey) hlook hlive hover
      (by rw [hdirectory, hfile]; rfl)

/-- In a system that refuses nothing, a registration of the file that stays is answered as if
nothing had failed. -/
theorem LeavesFile.step_register {d d' : Directory} {name : String} {size : Nat}
    (hleaves : LeavesFile d d' name size) {m : Manager} (hm : m.IsSound)
    (hdirectory : m.directory = d') {handle key : String} (offset length : Nat)
    (hhandle : handle ≠ "")
    (hfree : m.registry.handles.contains handle = false) (hkey : fileName? key = .ok name) :
    (m.step (.register handle key offset length)).1 =
      if size = 0 then .failed (.emptyFile key)
      else .ofExcept (checkRange (.keyedRegion key) offset length size) := by
  rw [hm.answer_register]
  unfold Manager.admission
  rw [if_neg hhandle, hfree, if_neg Bool.false_ne_true, hdirectory, Region.openKey_eq_usual,
    hleaves.openKey .usual key hkey]
  unfold Refusals.openFile
  simp only [Refusals.usual, Option.or_none]
  split <;> rfl

/-- A creation that fails leaves the directory as it was exactly if it fails before there is a file:
by the check of the key or of the size, or since no file can be made under the name.  If it fails
later, whatever step is refused, the file stays.  It is empty if its size was refused, and has its
size otherwise. -/
theorem failed_create_undone_iff {r : Refusals} {d : Directory} {key : String} {size : Nat}
    {failure : Failure} (h : (r.create d key size).1 = .error failure) :
    ((r.create d key size).2 = d ↔ r.vet d key size = .error failure) ∧
    (forall name : String, r.vet d key size = .ok name -> exists left : Nat,
      LeavesFile d (r.create d key size).2 name left ∧
      (left = 0 ∧ r.resize size = some failure ∨
        left = size ∧ r.inspect.or (r.map size) = some failure)) ∧
    (r = .usual -> Region.create d key size = r.create d key size) := by
  have hleaves : forall (name : String) (left : Nat), r.vet d key size = .ok name ->
      left < Text.signedBound -> LeavesFile d (d.addFile name left) name left := by
    intro name left hvet hleft
    rcases Refusals.vet_eq_ok hvet with ⟨_, _, hcheck, habsent⟩
    exact leavesFile_addFile hcheck habsent hleft
  have husual : r = .usual -> Region.create d key size = r.create d key size := by
    rintro rfl
    exact Region.create_eq_usual d key size
  rw [← and_assoc]
  refine ⟨?_, husual⟩
  rcases r.create_cases d key size with ⟨other, hvet, hcreate⟩ |
    ⟨name, other, hvet, hresize, hcreate⟩ | ⟨name, other, hvet, hresize, hlate, hcreate⟩ |
    ⟨name, hvet, _, _, hcreate⟩
  · rw [hcreate] at h ⊢
    cases h
    refine ⟨⟨fun _ => hvet, fun _ => rfl⟩, ?_⟩
    intro name hname
    rw [hvet] at hname
    cases hname
  · rw [hcreate] at h ⊢
    cases h
    have hleft := hleaves name 0 hvet (by decide)
    rw [hvet]
    refine ⟨⟨fun hsame => absurd hsame hleft.ne, fun herror => by cases herror⟩, ?_⟩
    rintro _ ⟨⟩
    exact ⟨0, hleft, .inl ⟨rfl, hresize⟩⟩
  · rw [hcreate] at h ⊢
    cases h
    have hsize : size < Text.signedBound :=
      Nat.lt_of_not_le fun hle => r.resize_of_le size hle hresize
    have hleft := hleaves name size hvet hsize
    rw [hvet]
    refine ⟨⟨fun hsame => absurd hsame hleft.ne, fun herror => by cases herror⟩, ?_⟩
    rintro _ ⟨⟩
    exact ⟨size, hleft, .inr ⟨rfl, hlate⟩⟩
  · rw [hcreate] at h
    cases h

def Refusals.unmapped : Refusals :=
  { usual with map := fun _ => some (.fileFault .other "Cannot allocate memory (os error 12)") }

theorem unmapped_create_leaves_file :
    (Refusals.unmapped.create .empty "k" 8).1 =
      .error (.fileFault .other "Cannot allocate memory (os error 12)") ∧
    LeavesFile .empty (Refusals.unmapped.create .empty "k" 8).2 "k" 8 := by
  have hfails : (Refusals.unmapped.create .empty "k" 8).1 =
      .error (.fileFault .other "Cannot allocate memory (os error 12)") := rfl
  rcases (failed_create_undone_iff hfails).2.1 "k" rfl with
    ⟨left, hleaves, ⟨_, hresize⟩ | ⟨hleft, _⟩⟩
  · cases hresize
  · subst hleft
    exact ⟨hfails, hleaves⟩

/-- A size that no file can have is refused, but then the name is taken: it cannot be created with a
size that is fine, and it is found when it is opened or registered, as an empty file. -/
theorem refused_size_takes_name :
    let d := (Region.create .empty "k" 0x8000000000000000).2
    (Region.create .empty "k" 0x8000000000000000).1 =
      .error (.fileFault .invalidInput "number too large to fit in target type") ∧
    Directory.empty.names.get? "k" = none ∧ d.names.get? "k" = some 0 ∧
    (Region.create .empty "k" 8).1 = .ok ⟨"k", "k", 8, 0⟩ ∧
    (Region.create d "k" 8).1 =
      .error (.fileFault .alreadyExists "File exists (os error 17)") ∧
    Region.openKey .empty "k" = .error (.missingRegion "k") ∧
    Region.openKey d "k" = .error (.emptyFile "k") ∧
    (Registry.empty.register d (fun _ => false) "h" "k" 0 8).1 = .error (.emptyFile "k") := by
  refine ⟨rfl, rfl, rfl, rfl, rfl, rfl, rfl, rfl⟩

end InferenceEngine
