import InferenceEngine.Proofs.Regions.Creations

/-!
# Regions and handles over the same files

Clients hold regions that they have created or opened, and handles over ranges of regions.  Many of
these may cover the same bytes of a file, by whatever keys they were found.  Each access goes to the
file itself, at a position that is summed up from where the region or handle begins; so all of them
show what was last written, and none shows or changes anything that it does not cover.
-/

namespace InferenceEngine

/-!
# Views

The check of the region cannot fail once that of the handle has been passed.
-/

structure Put where
  file : Nat
  start : Nat
  data : Bytes

namespace Put

def brings? (p : Put) (file position : Nat) : Option UInt8 :=
  if p.file = file ∧ p.start ≤ position ∧ position < p.start + p.data.length then
    some (p.data.getD (position - p.start) 0)
  else none

/-- The byte at a position of a file that was all zero and then written to, one after the other:
the last one that was written there. -/
def shown (puts : List Put) (file position : Nat) : UInt8 :=
  (puts.reverse.findSome? fun p => p.brings? file position).getD 0

theorem shown_append (puts : List Put) (put? : Option Put) (file position : Nat) :
    shown (puts ++ put?.toList) file position =
      (put?.bind fun p => p.brings? file position).getD (shown puts file position) := by
  unfold shown
  rw [List.reverse_append, List.findSome?_append]
  cases put? with
  | none => rfl
  | some p =>
      rw [Option.toList_some, List.reverse_singleton, List.findSome?_singleton, Option.bind_some]
      cases p.brings? file position <;> rfl

end Put

/-- What a region or a handle covers: a range of a file. -/
structure View where
  owner : RangeOwner
  file : Nat
  start : Nat
  size : Nat

namespace View

def read (v : View) (d : Directory) (offset size : Nat) : Except Failure Bytes := do
  checkRange v.owner offset size v.size
  .ok ((d.file v.file).read (v.start + offset) size)

def write (v : View) (d : Directory) (offset : Nat) (data : Bytes) : Except Failure Directory := do
  checkRange v.owner offset data.length v.size
  .ok (d.modifyFile v.file fun f => f.write (v.start + offset) data)

def put (v : View) (offset : Nat) (data : Bytes) : Put := ⟨v.file, v.start + offset, data⟩

structure IsInside (v : View) (d : Directory) : Prop where
  file_lt : v.file < d.files.length
  size_le : v.start + v.size ≤ (d.file v.file).size

theorem read_of_le (v : View) (d : Directory) {offset size : Nat} (h : offset + size ≤ v.size) :
    v.read d offset size = .ok ((d.file v.file).read (v.start + offset) size) := by
  unfold read
  rw [checkRange_eq_ok.2 h]
  rfl

theorem read_of_lt (v : View) (d : Directory) {offset size : Nat} (h : v.size < offset + size) :
    v.read d offset size = .error (.rangeExceeds offset size v.owner v.size) := by
  unfold read checkRange
  rw [if_neg (Nat.not_le.2 h)]
  rfl

theorem write_of_le (v : View) (d : Directory) {offset : Nat} {data : Bytes}
    (h : offset + data.length ≤ v.size) : v.write d offset data =
      .ok (d.modifyFile v.file fun f => f.write (v.start + offset) data) := by
  unfold write
  rw [checkRange_eq_ok.2 h]
  rfl

theorem write_of_lt (v : View) (d : Directory) {offset : Nat} {data : Bytes}
    (h : v.size < offset + data.length) : v.write d offset data =
      .error (.rangeExceeds offset data.length v.owner v.size) := by
  unfold write checkRange
  rw [if_neg (Nat.not_le.2 h)]
  rfl

end View

theorem View.IsInside.of_grows {v : View} {d d' : Directory} (h : v.IsInside d) (hd : d.Grows d') :
    v.IsInside d' where
  file_lt := Nat.lt_of_lt_of_le h.file_lt hd.length_le
  size_le := by
    rw [hd.size_eq v.file h.file_lt]
    exact h.size_le

theorem View.grows_write {v : View} {d d' : Directory} {offset : Nat} {data : Bytes}
    (h : v.write d offset data = .ok d') : d.Grows d' := by
  unfold View.write at h
  rcases bind_eq_ok h with ⟨_, _, hmade⟩
  cases hmade
  exact d.grows_write _ _ _

def Region.view (r : Region) : View := ⟨.region, r.file, 0, r.size⟩

def Handle.view (h : Handle) : View := ⟨.handle h.name, h.mapping.region.file, h.offset, h.size⟩

theorem Region.isInside_create {d : Directory} {key : String} {size : Nat} {region : Region}
    (h : (create d key size).1 = .ok region) : region.view.IsInside (create d key size).2 := by
  rw [create_eq_usual] at h ⊢
  rcases Refusals.usual.create_cases d key size with ⟨_, _, hcreate⟩ | ⟨_, _, _, _, hcreate⟩ |
    ⟨_, _, _, _, _, hcreate⟩ | ⟨name, _, _, _, hcreate⟩
  · rw [hcreate] at h
    cases h
  · rw [hcreate] at h
    cases h
  · rw [hcreate] at h
    cases h
  · rw [hcreate] at h ⊢
    cases h
    constructor
    · show d.files.length < (d.files ++ [_]).length
      rw [List.length_append]
      exact Nat.lt_succ_self _
    · show 0 + size ≤ ((d.addFile name size).file d.files.length).size
      rw [Directory.file_addFile, if_pos rfl, Nat.zero_add]
      exact Nat.le_refl size

theorem Region.read_eq_view (r : Region) (d : Directory) (offset size : Nat) :
    r.read d offset size = r.view.read d offset size := by
  unfold Region.read View.read Region.view
  rw [Nat.zero_add]

theorem Region.write_eq_view (r : Region) (d : Directory) (offset : Nat) (data : Bytes) :
    r.write d offset data = r.view.write d offset data := by
  unfold Region.write View.write Region.view
  rw [Nat.zero_add]

theorem Handle.IsInside.read_eq_view {h : Handle} (hinside : h.IsInside) (d : Directory)
    (offset size : Nat) : h.read d offset size = h.view.read d offset size := by
  by_cases hrange : offset + size ≤ h.size
  · rw [hinside.read d hrange]
    exact (h.view.read_of_le d hrange).symm
  · rw [h.view.read_of_lt d (Nat.lt_of_not_le hrange)]
    unfold Handle.read checkRange
    rw [if_neg hrange]
    rfl

theorem Handle.IsInside.write_eq_view {h : Handle} (hinside : h.IsInside) (d : Directory)
    (offset : Nat) (data : Bytes) : h.write d offset data = h.view.write d offset data := by
  by_cases hrange : offset + data.length ≤ h.size
  · rw [hinside.write d hrange]
    exact (h.view.write_of_le d hrange).symm
  · rw [h.view.write_of_lt d (Nat.lt_of_not_le hrange)]
    unfold Handle.write checkRange
    rw [if_neg hrange]
    rfl

/-!
# Bytes of files

A new file is zero, as was what stood for it before there was one.
-/

/-- Whether the files of a directory are as before but for what is put into one of them. -/
def Directory.Takes (d d' : Directory) (put? : Option Put) : Prop :=
  forall file position : Nat, (d'.file file).byte position =
    (put?.bind fun p => p.brings? file position).getD ((d.file file).byte position)

namespace Directory

theorem takes_none {d d' : Directory} (h : forall file : Nat, d'.file file = d.file file) :
    d.Takes d' none := fun file position => congrArg (File.byte · position) (h file)

theorem takes_addFile (d : Directory) (name : String) (size : Nat) :
    d.Takes (d.addFile name size) none := by
  intro file position
  rw [file_addFile]
  split
  · rename_i hnew
    have hold : d.file file = .zeroed 0 := by
      unfold Directory.file
      rw [List.getD_eq_getElem?_getD, List.getElem?_eq_none (Nat.le_of_eq hnew.symm)]
      rfl
    rw [hold]
    rfl
  · rfl

theorem takes_modifyFile (d : Directory) {file : Nat} (hfile : file < d.files.length)
    (start : Nat) (data : Bytes) :
    d.Takes (d.modifyFile file fun f => f.write start data) (some ⟨file, start, data⟩) := by
  intro other position
  show _ = (Put.brings? _ other position).getD _
  unfold Put.brings?
  rw [file_modifyFile]
  by_cases hsame : other = file
  · subst hsame
    rw [if_pos ⟨rfl, hfile⟩, File.byte_write]
    by_cases hrange : start ≤ position ∧ position < start + data.length
    · rw [if_pos hrange, if_pos ⟨rfl, hrange⟩]
      rfl
    · rw [if_neg hrange, if_neg fun hall => hrange hall.2]
      rfl
  · rw [if_neg fun hboth => hsame hboth.1, if_neg fun hall => hsame hall.1.symm]
    rfl

theorem takes_create (d : Directory) (key : String) (size : Nat) :
    d.Takes (Region.create d key size).2 none := by
  rw [Region.create_eq_usual]
  rcases Refusals.usual.create_cases d key size with ⟨_, _, hcreate⟩ | ⟨name, _, _, _, hcreate⟩ |
    ⟨name, _, _, _, _, hcreate⟩ | ⟨name, _, _, _, hcreate⟩
  · rw [hcreate]
    exact takes_none fun _ => rfl
  · rw [hcreate]
    exact d.takes_addFile name 0
  · rw [hcreate]
    exact d.takes_addFile name size
  · rw [hcreate]
    exact d.takes_addFile name size

end Directory

/-!
# Calls

Whatever is found covers bytes of a file that is there.
-/

/-- A manager with the regions that clients hold, under labels. -/
structure Sharing where
  manager : Manager
  regions : OrderedMap String Region

namespace Sharing

def empty : Sharing := ⟨.empty, .empty⟩

def directory (s : Sharing) : Directory := s.manager.directory

inductive Call where
  /-- A call of the manager; through it, handles are read and written. -/
  | manage (call : Manager.Call)
  | create (label key : String) (size : Nat)
  | openKey (label key : String)
  | drop (label : String)
  | read (label : String) (offset size : Nat)
  | write (label : String) (offset : Nat) (data : Bytes)

def withDirectory (s : Sharing) (d : Directory) : Sharing :=
  { s with manager := { s.manager with directory := d } }

def step (s : Sharing) : Call -> Manager.Answer × Sharing
  | .manage call => ((s.manager.step call).1, { s with manager := (s.manager.step call).2 })
  | .create label key size =>
      let made := Region.create s.directory key size
      match made.1 with
      | .ok region => (.done, ⟨(s.withDirectory made.2).manager, s.regions.insert label region⟩)
      | .error failure => (.failed failure, s.withDirectory made.2)
  | .openKey label key =>
      match Region.openKey s.directory key with
      | .ok region => (.done, { s with regions := s.regions.insert label region })
      | .error failure => (.failed failure, s)
  | .drop label => (.done, { s with regions := s.regions.erase label })
  | .read label offset size =>
      match s.regions.get? label with
      | none => (.missing, s)
      | some region =>
          match region.read s.directory offset size with
          | .ok data => (.bytes data, s)
          | .error failure => (.failed failure, s)
  | .write label offset data =>
      match s.regions.get? label with
      | none => (.missing, s)
      | some region =>
          match region.write s.directory offset data with
          | .ok d => (.done, s.withDirectory d)
          | .error failure => (.failed failure, s)

def after (s : Sharing) (calls : List Call) : Sharing :=
  calls.foldl (fun s call => (s.step call).2) s

def reached (calls : List Call) : Sharing := empty.after calls

def target? (s : Sharing) : Call -> Option Put
  | .write label offset data => (s.regions.get? label).map fun r => r.view.put offset data
  | .manage (.write label offset data) =>
      (s.manager.held.get? label).map fun h => h.view.put offset data
  | .manage (.arrive file offset data) =>
      if file < s.directory.files.length then some ⟨file, offset, data⟩ else none
  | _ => none

/-- What a call puts into a file: nothing if it is not done. -/
def put? (s : Sharing) (call : Call) : Option Put :=
  match (s.step call).1 with
  | .done => s.target? call
  | _ => none

def puts (s : Sharing) : List Call -> List Put
  | [] => []
  | call :: rest => (s.put? call).toList ++ (s.step call).2.puts rest

inductive Place where
  | region (label : String)
  | handle (label : String)

namespace Place

def reads (offset size : Nat) : Place -> Call
  | .region label => .read label offset size
  | .handle label => .manage (.read label offset size)

def writes (offset : Nat) (data : Bytes) : Place -> Call
  | .region label => .write label offset data
  | .handle label => .manage (.write label offset data)

end Place

def find? (s : Sharing) : Place -> Option View
  | .region label => (s.regions.get? label).map Region.view
  | .handle label => (s.manager.held.get? label).map Handle.view

/-- Whether all that is held lies inside its files. -/
structure IsSound (s : Sharing) : Prop where
  manager : s.manager.IsSound
  region : forall r : Region, r ∈ s.regions.values -> r.view.IsInside s.directory

variable {s : Sharing}

theorem IsSound.handle_isInside (hs : s.IsSound) {label : String} {h : Handle}
    (hget : s.manager.held.get? label = some h) : h.IsInside :=
  hs.manager.inside h (.inr (OrderedMap.mem_values_of_get? hget))

theorem IsSound.isInside (hs : s.IsSound) {place : Place} {view : View}
    (h : s.find? place = some view) : view.IsInside s.directory := by
  cases place with
  | region label =>
      rcases Option.map_eq_some_iff.1 h with ⟨region, hget, rfl⟩
      exact hs.region region (OrderedMap.mem_values_of_get? hget)
  | handle label =>
      rcases Option.map_eq_some_iff.1 h with ⟨handle, hget, rfl⟩
      have hlive : s.manager.IsLive handle := .inr (OrderedMap.mem_values_of_get? hget)
      have hadmits := hs.manager.admits handle hlive
      refine ⟨hadmits.file_lt, ?_⟩
      exact Nat.le_trans (hs.manager.inside handle hlive) (Nat.le_of_eq hadmits.size_eq.symm)

/-!
# Accesses

Reading at a place reads through what is found there, and changes nothing.
-/

theorem IsSound.step_reads (hs : s.IsSound) {place : Place} {view : View}
    (h : s.find? place = some view) (offset size : Nat) :
    (forall data : Bytes, view.read s.directory offset size = .ok data ->
      s.step (place.reads offset size) = (.bytes data, s)) ∧
    forall failure : Failure, view.read s.directory offset size = .error failure ->
      s.step (place.reads offset size) = (.failed failure, s) := by
  cases place with
  | region label =>
      rcases Option.map_eq_some_iff.1 h with ⟨region, hget, rfl⟩
      unfold Place.reads step
      simp only [hget, region.read_eq_view]
      constructor <;>
      · intro result hresult
        rw [hresult]
  | handle label =>
      rcases Option.map_eq_some_iff.1 h with ⟨handle, hget, rfl⟩
      unfold Place.reads step Manager.step
      simp only [hget, (hs.handle_isInside hget).read_eq_view]
      unfold directory
      constructor <;>
      · intro result hresult
        rw [hresult]

/-- Writing at a place writes through what is found there, and changes nothing but the files. -/
theorem IsSound.step_writes (hs : s.IsSound) {place : Place} {view : View}
    (h : s.find? place = some view) (offset : Nat) (data : Bytes) :
    (forall d : Directory, view.write s.directory offset data = .ok d ->
      s.step (place.writes offset data) = (.done, s.withDirectory d)) ∧
    forall failure : Failure, view.write s.directory offset data = .error failure ->
      s.step (place.writes offset data) = (.failed failure, s) := by
  cases place with
  | region label =>
      rcases Option.map_eq_some_iff.1 h with ⟨region, hget, rfl⟩
      unfold Place.writes step
      simp only [hget, region.write_eq_view]
      constructor <;>
      · intro result hresult
        rw [hresult]
  | handle label =>
      rcases Option.map_eq_some_iff.1 h with ⟨handle, hget, rfl⟩
      unfold Place.writes step Manager.step
      simp only [hget, (hs.handle_isInside hget).write_eq_view]
      unfold directory
      constructor
      · intro d hd
        rw [hd]
        rfl
      · intro failure hfailure
        rw [hfailure]

theorem target?_writes (s : Sharing) (place : Place) (offset : Nat) (data : Bytes) :
    s.target? (place.writes offset data) =
      (s.find? place).map fun view => view.put offset data := by
  cases place with
  | region label =>
      unfold find?
      rw [Option.map_map]
      rfl
  | handle label =>
      unfold find?
      rw [Option.map_map]
      rfl

theorem step_writes_of_none {place : Place} (h : s.find? place = none) (offset : Nat)
    (data : Bytes) : s.step (place.writes offset data) = (.missing, s) := by
  cases place with
  | region label =>
      unfold Place.writes step
      simp only [Option.map_eq_none_iff.1 h]
  | handle label =>
      unfold Place.writes step Manager.step
      simp only [Option.map_eq_none_iff.1 h]

/-!
# What a call does to files

What comes into a file from elsewhere is put there, if there is such a file.
-/

theorem put?_of_target {call : Call} (h : s.target? call = none) : s.put? call = none := by
  unfold put?
  rw [h]
  split <;> rfl

/-- A write puts its bytes into the file that it means if it is done, and nothing else into any. -/
theorem IsSound.takes_writes (hs : s.IsSound) (place : Place) (offset : Nat) (data : Bytes) :
    s.directory.Takes (s.step (place.writes offset data)).2.directory
      (s.put? (place.writes offset data)) := by
  unfold put?
  cases hfind : s.find? place with
  | none =>
      rw [step_writes_of_none hfind]
      exact Directory.takes_none fun _ => rfl
  | some view =>
      have hstep := hs.step_writes hfind offset data
      by_cases hrange : offset + data.length ≤ view.size
      · rw [hstep.1 _ (view.write_of_le _ hrange), target?_writes, hfind]
        exact Directory.takes_modifyFile _ (hs.isInside hfind).file_lt _ _
      · rw [hstep.2 _ (view.write_of_lt _ (Nat.lt_of_not_le hrange))]
        exact Directory.takes_none fun _ => rfl

theorem file_unlink (s : Sharing) (key : String) (file : Nat) :
    (s.step (.manage (.unlink key))).2.directory.file file = s.directory.file file := by
  unfold step directory Manager.step
  simp only
  split
  · rename_i d hunlink
    unfold Directory.unlink at hunlink
    rcases bind_eq_ok hunlink with ⟨name, _, hrest⟩
    rcases bind_eq_ok hrest with ⟨_, _, hnames⟩
    split at hnames
    · cases hnames
    · cases hnames
      rfl
  · rfl

theorem takes_arrive (s : Sharing) (file offset : Nat) (data : Bytes) :
    s.directory.Takes (s.step (.manage (.arrive file offset data))).2.directory
      (s.put? (.manage (.arrive file offset data))) := by
  have hput : s.put? (.manage (.arrive file offset data)) =
      if file < s.directory.files.length then some ⟨file, offset, data⟩ else none := rfl
  rw [hput]
  split
  · rename_i hfile
    exact s.directory.takes_modifyFile hfile offset data
  · rename_i hfile
    refine Directory.takes_none fun other => ?_
    exact (s.directory.file_modifyFile file other _).trans (if_neg fun hboth => hfile hboth.2)

/-- Calls other than writes put nothing; and most of them do not even see the files. -/
theorem takes_of_same {call : Call} (htarget : s.target? call = none)
    (hdirectory : (s.step call).2.directory = s.directory) :
    s.directory.Takes (s.step call).2.directory (s.put? call) := by
  rw [put?_of_target htarget, hdirectory]
  exact Directory.takes_none fun _ => rfl

theorem IsSound.takes_manage (hs : s.IsSound) (call : Manager.Call) :
    s.directory.Takes (s.step (.manage call)).2.directory (s.put? (.manage call)) := by
  cases call with
  | create key size =>
      rw [put?_of_target rfl]
      exact s.directory.takes_create key size
  | unlink key =>
      rw [put?_of_target rfl]
      exact Directory.takes_none (s.file_unlink key)
  | unregister name | hold name label =>
      refine takes_of_same rfl ?_
      unfold step directory Manager.step
      simp only
      split <;> rfl
  | read label offset size =>
      refine takes_of_same rfl ?_
      unfold step directory Manager.step
      simp only
      split
      · rfl
      · split <;> rfl
  | write label offset data => exact hs.takes_writes (.handle label) offset data
  | arrive file offset data => exact s.takes_arrive file offset data
  | _ => exact takes_of_same rfl rfl

theorem takes_create (s : Sharing) (label key : String) (size : Nat) :
    s.directory.Takes (s.step (.create label key size)).2.directory
      (s.put? (.create label key size)) := by
  have hdirectory : (s.step (.create label key size)).2.directory =
      (Region.create s.directory key size).2 := by
    unfold step
    simp only
    split <;> rfl
  rw [put?_of_target rfl, hdirectory]
  exact s.directory.takes_create key size

theorem IsSound.takes_step (hs : s.IsSound) (call : Call) :
    s.directory.Takes (s.step call).2.directory (s.put? call) := by
  cases call with
  | manage call => exact hs.takes_manage call
  | create label key size => exact s.takes_create label key size
  | openKey label key =>
      refine takes_of_same rfl ?_
      unfold step
      simp only
      split <;> rfl
  | drop label => exact takes_of_same rfl rfl
  | read label offset size =>
      refine takes_of_same rfl ?_
      unfold step
      simp only
      split
      · rfl
      · split <;> rfl
  | write label offset data => exact hs.takes_writes (.region label) offset data

/-!
# Soundness
-/

theorem isSound_empty : empty.IsSound where
  manager := Manager.isSound_empty
  region region h := by cases h

theorem IsSound.withDirectory (hs : s.IsSound) {d : Directory} (hd : s.directory.Grows d) :
    (s.withDirectory d).IsSound where
  manager := hs.manager.of_grows hd
  region region hregion := (hs.region region hregion).of_grows hd

theorem IsSound.insert (hs : s.IsSound) {region : Region}
    (hinside : region.view.IsInside s.directory) (label : String) :
    { s with regions := s.regions.insert label region }.IsSound where
  manager := hs.manager
  region other hother := by
    rcases OrderedMap.mem_values_insert hother with rfl | hold
    · exact hinside
    · exact hs.region other hold

theorem IsSound.create (hs : s.IsSound) (label key : String) (size : Nat) :
    (s.step (.create label key size)).2.IsSound := by
  have hgrows := Region.grows_create s.directory key size
  unfold step
  simp only
  split
  · rename_i region hcreated
    exact (hs.withDirectory hgrows).insert (Region.isInside_create hcreated) label
  · exact hs.withDirectory hgrows

theorem IsSound.openKey (hs : s.IsSound) (label key : String) :
    (s.step (.openKey label key)).2.IsSound := by
  unfold step
  simp only
  split
  · rename_i region hopen
    rcases Region.openKey_eq_ok hopen with ⟨_, _, hnamed, hsize, _, _⟩
    refine hs.insert ⟨hs.manager.directory.file_lt _ _ hnamed, ?_⟩ label
    exact Nat.le_of_eq ((Nat.zero_add _).trans hsize.symm)
  · exact hs

theorem IsSound.step (hs : s.IsSound) (call : Call) : (s.step call).2.IsSound := by
  cases call with
  | manage call =>
      refine ⟨hs.manager.step call, fun region hregion => ?_⟩
      exact (hs.region region hregion).of_grows (hs.manager.change call).grows
  | create label key size => exact hs.create label key size
  | openKey label key => exact hs.openKey label key
  | drop label =>
      refine ⟨hs.manager, fun region hregion => ?_⟩
      exact hs.region region (OrderedMap.mem_values_erase hregion)
  | read label offset size =>
      unfold Sharing.step
      simp only
      split
      · exact hs
      · split <;> exact hs
  | write label offset data =>
      unfold Sharing.step
      simp only
      split
      · exact hs
      · split
        · rename_i d hwrite
          rw [Region.write_eq_view] at hwrite
          exact hs.withDirectory (View.grows_write hwrite)
        · exact hs

theorem IsSound.after (hs : s.IsSound) (calls : List Call) : (s.after calls).IsSound := by
  induction calls generalizing s with
  | nil => exact hs
  | cons call rest ih => exact ih (hs.step call)

/-!
# Runs
-/

/-- In a run, each byte is the last one that was put there, and the one from before it if there is
none. -/
theorem IsSound.takes_after (hs : s.IsSound) (earlier : List Put)
    (hshown : forall file position : Nat,
      (s.directory.file file).byte position = Put.shown earlier file position)
    (calls : List Call) (file position : Nat) :
    ((s.after calls).directory.file file).byte position =
      Put.shown (earlier ++ s.puts calls) file position := by
  induction calls generalizing s earlier with
  | nil =>
      rw [puts, List.append_nil]
      exact hshown file position
  | cons call rest ih =>
      rw [puts, ← List.append_assoc]
      refine ih (hs.step call) _ fun file position => ?_
      rw [hs.takes_step call file position, hshown, Put.shown_append]

theorem isSound_reached (calls : List Call) : (reached calls).IsSound := isSound_empty.after calls

theorem byte_reached (calls : List Call) (file position : Nat) :
    ((reached calls).directory.file file).byte position =
      Put.shown (empty.puts calls) file position :=
  isSound_empty.takes_after [] (fun _ _ => rfl) calls file position

/-- What a region or handle is good for, given all that has been put into files.  A range inside it
is read as it was last written there through whatever region or handle, and each byte is zero that
was never written; a range inside it is written as a whole, and nothing else changes.  A range that
is not inside is refused as an invalid argument, and nothing changes.  No sum of offsets inside it
overflows. -/
structure Serves (s : Sharing) (place : Place) (view : View) (puts : List Put) : Prop where
  read : forall offset size : Nat, offset + size ≤ view.size ->
    s.step (place.reads offset size) = (.bytes ((List.range size).map fun i =>
      Put.shown puts view.file (view.start + offset + i)), s)
  write : forall (offset : Nat) (data : Bytes), offset + data.length ≤ view.size ->
    exists d : Directory, s.step (place.writes offset data) = (.done, s.withDirectory d) ∧
      s.directory.Refills d ∧ s.directory.Takes d (some (view.put offset data))
  readOutside : forall offset size : Nat, view.size < offset + size ->
    s.step (place.reads offset size) =
      (.failed (.rangeExceeds offset size view.owner view.size), s)
  writeOutside : forall (offset : Nat) (data : Bytes), view.size < offset + data.length ->
    s.step (place.writes offset data) =
      (.failed (.rangeExceeds offset data.length view.owner view.size), s)
  code : forall offset size : Nat,
    (Failure.rangeExceeds offset size view.owner view.size).code = .invalidArg
  inside : view.start + view.size ≤ (s.directory.file view.file).size
  sum_lt : forall offset size : Nat, offset + size ≤ view.size ->
    view.start + offset + size < Text.wordBound

/-- After all calls, whatever is held serves as it should, and each byte of each file is the last
one that was put there. -/
theorem places_show_last_writes (calls : List Call) {place : Place} {view : View}
    (h : (reached calls).find? place = some view) :
    (reached calls).Serves place view (empty.puts calls) ∧
    forall file position : Nat, ((reached calls).directory.file file).byte position =
      Put.shown (empty.puts calls) file position := by
  have hs := isSound_reached calls
  have hinside := hs.isInside h
  refine ⟨?_, byte_reached calls⟩
  constructor
  · intro offset size hrange
    rw [(hs.step_reads h offset size).1 _ (view.read_of_le _ hrange), File.read_eq]
    simp only [byte_reached]
  · intro offset data hrange
    refine ⟨_, (hs.step_writes h offset data).1 _ (view.write_of_le _ hrange),
      Directory.refills_write .., ?_⟩
    exact Directory.takes_modifyFile _ hinside.file_lt _ _
  · intro offset size hrange
    exact (hs.step_reads h offset size).2 _ (view.read_of_lt _ hrange)
  · intro offset data hrange
    exact (hs.step_writes h offset data).2 _ (view.write_of_lt _ hrange)
  · intro offset size
    rfl
  · exact hinside.size_le
  · intro offset size hrange
    have hfile : ((reached calls).directory.file view.file).size < Text.wordBound :=
      Nat.lt_trans (hs.manager.directory.size_lt view.file) (by decide)
    have hsize := hinside.size_le
    omega

/-- A file that is mapped twice, by two spellings of its key, with a handle over its middle. -/
def sharedRun : List Call :=
  [.create "a" "/k" 8, .openKey "b" "k", .manage (.register "h" "k" 2 4),
    .manage (.hold "h" "x"), .write "a" 1 [1, 2, 3, 4], .manage (.write "x" 1 [9])]

theorem shown_in_sharedRun :
    (reached sharedRun).find? (.region "b") = some ⟨.region, 0, 0, 8⟩ ∧
    (reached sharedRun).step (.read "b" 0 8) =
      (.bytes [0, 1, 2, 9, 4, 0, 0, 0], reached sharedRun) := by
  have hfind : (reached sharedRun).find? (.region "b") = some ⟨.region, 0, 0, 8⟩ := rfl
  have hread := (places_show_last_writes sharedRun hfind).1.read 0 8 (by decide)
  exact ⟨hfind, hread⟩

end Sharing

end InferenceEngine
