import InferenceEngine.Proofs.OrderedMap
import InferenceEngine.Proofs.Regions.Writes

/-!
# A registry at work

A registry is called by those who register ranges of files and look them up, while files come and
go in its directory.  It keeps two tables: the handles, and the last mapping under each file name,
which may have been dropped or replaced since.  What ties the two tables to the files is an
invariant of all calls: the file of a live handle has the size that was mapped, and while the
directory has a name for this file, the mapping of the handle is the last one under that name.
-/

namespace InferenceEngine

/-!
# Calls
-/

/-- A registry with the directory of its regions and the handles that have been looked up and are
still held, under labels. -/
structure Manager where
  directory : Directory
  registry : Registry
  held : OrderedMap String Handle

namespace Manager

def empty : Manager := ⟨.empty, .empty, .empty⟩

/-- What is asked of a manager, or happens to its files. -/
inductive Call where
  | create (key : String) (size : Nat)
  | unlink (key : String)
  | register (name key : String) (offset size : Nat)
  | unregister (name : String)
  | unregisterAll
  | status
  /-- Looks a handle up and holds it under a label. -/
  | hold (name label : String)
  | letGo (label : String)
  /-- Reads from the handle that is held under a label. -/
  | read (label : String) (offset size : Nat)
  | write (label : String) (offset : Nat) (data : Bytes)
  /-- Bytes that come into a file from elsewhere. -/
  | arrive (file offset : Nat) (data : Bytes)

inductive Answer where
  | done
  | failed (failure : Failure)
  | found (status : HandleStatus)
  | listed (statuses : List HandleStatus)
  | bytes (data : Bytes)
  /-- Nothing is held under the label. -/
  | missing

namespace Answer

def ofExcept {α : Type} : Except Failure α -> Answer
  | .ok _ => .done
  | .error failure => .failed failure

def code? : Answer -> Option FailureCode
  | .failed failure => some failure.code
  | _ => none

end Answer

def isElsewhere (m : Manager) (number : Nat) : Bool :=
  m.held.values.any fun h => h.mapping.number = number

def step (m : Manager) : Call -> Answer × Manager
  | .create key size =>
      let made := Region.create m.directory key size
      (.ofExcept made.1, { m with directory := made.2 })
  | .unlink key =>
      match m.directory.unlink key with
      | .ok d => (.done, { m with directory := d })
      | .error failure => (.failed failure, m)
  | .register name key offset size =>
      let made := m.registry.register m.directory m.isElsewhere name key offset size
      (.ofExcept made.1, { m with registry := made.2.1 })
  | .unregister name =>
      match m.registry.unregister name with
      | .ok r => (.done, { m with registry := r })
      | .error failure => (.failed failure, m)
  | .unregisterAll => (.done, { m with registry := m.registry.unregisterAll.1 })
  | .status => (.listed m.registry.status, m)
  | .hold name label =>
      match m.registry.get name with
      | .ok h => (.found h.status, { m with held := m.held.insert label h })
      | .error failure => (.failed failure, m)
  | .letGo label => (.done, { m with held := m.held.erase label })
  | .read label offset size =>
      match m.held.get? label with
      | none => (.missing, m)
      | some h =>
          match h.read m.directory offset size with
          | .ok data => (.bytes data, m)
          | .error failure => (.failed failure, m)
  | .write label offset data =>
      match m.held.get? label with
      | none => (.missing, m)
      | some h =>
          match h.write m.directory offset data with
          | .ok d => (.done, { m with directory := d })
          | .error failure => (.failed failure, m)
  | .arrive file offset data =>
      (.done, { m with directory := m.directory.modifyFile file fun f => f.write offset data })

def after (m : Manager) (calls : List Call) : Manager :=
  calls.foldl (fun m call => (m.step call).2) m

def answers (m : Manager) : List Call -> List Answer
  | [] => []
  | call :: rest => (m.step call).1 :: (m.step call).2.answers rest

def reached (calls : List Call) : Manager := empty.after calls

@[simp] theorem after_nil (m : Manager) : m.after [] = m := rfl

@[simp] theorem after_cons (m : Manager) (call : Call) (rest : List Call) :
    m.after (call :: rest) = (m.step call).2.after rest := rfl

theorem after_append (m : Manager) (first rest : List Call) :
    m.after (first ++ rest) = (m.after first).after rest := List.foldl_append

def IsLive (m : Manager) (h : Handle) : Prop :=
  h ∈ m.registry.handles.values ∨ h ∈ m.held.values

end Manager

/-!
# Opening files
-/

theorem Region.openKey_eq_ok {d : Directory} {key : String} {region : Region}
    (h : openKey d key = .ok region) :
    fileName? key = .ok region.name ∧ checkName region.name = .ok () ∧
      d.names.get? region.name = some region.file ∧ (d.file region.file).size = region.size ∧
      region.size ≠ 0 ∧ region.key = key := by
  unfold openKey at h
  rcases bind_eq_ok h with ⟨name, hname, hrest⟩
  rcases bind_eq_ok hrest with ⟨⟨⟩, hcheck, hfile⟩
  split at hfile
  · cases hfile
  · rename_i number hnumber
    simp only at hfile
    split at hfile
    · cases hfile
    · rename_i hsize
      cases hfile
      exact ⟨hname, hcheck, hnumber, rfl, hsize, rfl⟩

theorem Region.openKey_of_file {d : Directory} {key name : String} {file : Nat}
    (hname : fileName? key = .ok name) (hcheck : checkName name = .ok ())
    (hfile : d.names.get? name = some file) (hsize : (d.file file).size ≠ 0) :
    openKey d key = .ok ⟨key, name, (d.file file).size, file⟩ := by
  unfold openKey
  simp only [hname, hcheck, hfile, bind, Except.bind]
  exact if_neg hsize

namespace Registry

def mapAnew (r : Registry) (region : Region) : Registry :=
  { r with mappings := r.mappings.insert region.name ⟨r.next, region⟩, next := r.next + 1 }

/-- What a key is mapped to: nothing if it is no key, the last mapping under its file name if it
is held and current, or else what it opens. -/
theorem mapKeyBy_cases (r : Registry) (isCurrent : Region -> Bool) {opened : Except Failure Region}
    (elsewhere : Nat -> Bool) {key : String}
    (hopened : forall region : Region, opened = .ok region -> fileName? key = .ok region.name) :
    (exists failure : Failure, fileName? key = .error failure ∧
      (r.mapKeyBy isCurrent opened elsewhere key).1 = .error failure ∧
      (r.mapKeyBy isCurrent opened elsewhere key).2.1 = r) ∨
    (exists (name : String) (mapping : Mapping), fileName? key = .ok name ∧
      r.mappings.get? name = some mapping ∧ r.isHeld elsewhere mapping.number = true ∧
      isCurrent mapping.region = true ∧
      (r.mapKeyBy isCurrent opened elsewhere key).1 = .ok mapping ∧
      (r.mapKeyBy isCurrent opened elsewhere key).2.1 = r) ∨
    (exists name : String, fileName? key = .ok name ∧
      (forall mapping : Mapping, r.mappings.get? name = some mapping ->
        r.isHeld elsewhere mapping.number = true -> isCurrent mapping.region = false) ∧
      ((exists failure : Failure, opened = .error failure ∧
        (r.mapKeyBy isCurrent opened elsewhere key).1 = .error failure ∧
        (r.mapKeyBy isCurrent opened elsewhere key).2.1 = r) ∨
      (exists region : Region, opened = .ok region ∧
        (r.mapKeyBy isCurrent opened elsewhere key).1 = .ok ⟨r.next, region⟩ ∧
        (r.mapKeyBy isCurrent opened elsewhere key).2.1 = r.mapAnew region))) := by
  cases hname : fileName? key with
  | error failure =>
      refine .inl ⟨failure, rfl, ?_⟩
      unfold mapKeyBy
      rw [hname]
      exact ⟨rfl, rfl⟩
  | ok name =>
      right
      by_cases hlast : exists mapping : Mapping, r.mappings.get? name = some mapping ∧
          r.isHeld elsewhere mapping.number = true ∧ isCurrent mapping.region = true
      · obtain ⟨mapping, hmapping, hheld, hcurrent⟩ := hlast
        refine .inl ⟨name, mapping, rfl, hmapping, hheld, hcurrent, ?_⟩
        have hmap : r.mapKeyBy isCurrent opened elsewhere key = (.ok mapping, r, []) := by
          unfold mapKeyBy
          simp only [hname, hmapping, Option.filter_some, hheld, if_true, hcurrent]
        rw [hmap]
        exact ⟨rfl, rfl⟩
      · have hstale : forall mapping : Mapping, r.mappings.get? name = some mapping ->
            r.isHeld elsewhere mapping.number = true -> isCurrent mapping.region = false := by
          intro mapping hmapping hheld
          cases hcurrent : isCurrent mapping.region with
          | false => rfl
          | true => exact absurd ⟨mapping, hmapping, hheld, hcurrent⟩ hlast
        refine .inr ⟨name, rfl, hstale, ?_⟩
        cases hopen : opened with
        | error failure =>
            refine .inl ⟨failure, rfl, ?_⟩
            unfold mapKeyBy
            simp only [hname]
            split
            · exact ⟨rfl, rfl⟩
            · rename_i mapping hlast
              rcases Option.filter_eq_some_iff.1 hlast with ⟨hmapping, hheld⟩
              rw [hstale mapping hmapping hheld]
              exact ⟨rfl, rfl⟩
        | ok region =>
            have hsame : name = region.name := by
              have hregion := hopened region hopen
              rw [hname] at hregion
              exact Except.ok.inj hregion
            refine .inr ⟨region, rfl, ?_⟩
            unfold mapKeyBy mapAnew
            simp only [hname, ← hsame]
            split
            · exact ⟨rfl, rfl⟩
            · rename_i mapping hlast
              rcases Option.filter_eq_some_iff.1 hlast with ⟨hmapping, hheld⟩
              rw [hstale mapping hmapping hheld]
              exact ⟨rfl, rfl⟩

theorem mapKey_cases (r : Registry) (d : Directory) (elsewhere : Nat -> Bool) (key : String) :
    (exists failure : Failure, fileName? key = .error failure ∧
      (r.mapKey d elsewhere key).1 = .error failure ∧ (r.mapKey d elsewhere key).2.1 = r) ∨
    (exists (name : String) (mapping : Mapping), fileName? key = .ok name ∧
      r.mappings.get? name = some mapping ∧ r.isHeld elsewhere mapping.number = true ∧
      mapping.region.isCurrent d = true ∧
      (r.mapKey d elsewhere key).1 = .ok mapping ∧ (r.mapKey d elsewhere key).2.1 = r) ∨
    (exists name : String, fileName? key = .ok name ∧
      (forall mapping : Mapping, r.mappings.get? name = some mapping ->
        r.isHeld elsewhere mapping.number = true -> mapping.region.isCurrent d = false) ∧
      ((exists failure : Failure, Region.openKey d key = .error failure ∧
        (r.mapKey d elsewhere key).1 = .error failure ∧ (r.mapKey d elsewhere key).2.1 = r) ∨
      (exists region : Region, Region.openKey d key = .ok region ∧
        (r.mapKey d elsewhere key).1 = .ok ⟨r.next, region⟩ ∧
        (r.mapKey d elsewhere key).2.1 = r.mapAnew region))) :=
  r.mapKeyBy_cases _ elsewhere fun _ hopen => (Region.openKey_eq_ok hopen).1

end Registry

/-!
# Directories in use
-/

namespace Directory

/-- Whether the names of a directory are names of different files, none of which is too large. -/
structure IsSound (d : Directory) : Prop where
  file_lt : forall (name : String) (file : Nat), d.names.get? name = some file ->
    file < d.files.length
  checked : forall (name : String) (file : Nat), d.names.get? name = some file ->
    checkName name = .ok ()
  distinct : forall (name other : String) (file : Nat), d.names.get? name = some file ->
    d.names.get? other = some file -> name = other
  size_lt : forall file : Nat, (d.file file).size < Text.signedBound

/-- What may become of a directory whose files are mapped: files come and lose their names, but none
of them gets another name or another size. -/
structure Grows (d d' : Directory) : Prop where
  sound : d.IsSound -> d'.IsSound
  length_le : d.files.length ≤ d'.files.length
  size_eq : forall file : Nat, file < d.files.length -> (d'.file file).size = (d.file file).size
  names : forall (name : String) (file : Nat), file < d.files.length ->
    d'.names.get? name = some file -> d.names.get? name = some file

theorem Grows.refl (d : Directory) : d.Grows d :=
  ⟨id, Nat.le_refl _, fun _ _ => rfl, fun _ _ _ => id⟩

theorem Grows.trans {d d' d'' : Directory} (h : d.Grows d') (h' : d'.Grows d'') : d.Grows d'' where
  sound := h'.sound ∘ h.sound
  length_le := Nat.le_trans h.length_le h'.length_le
  size_eq file hfile :=
    (h'.size_eq file (Nat.lt_of_lt_of_le hfile h.length_le)).trans (h.size_eq file hfile)
  names name file hfile hname :=
    h.names name file hfile (h'.names name file (Nat.lt_of_lt_of_le hfile h.length_le) hname)

theorem file_addFile (d : Directory) (name : String) (size file : Nat) :
    (d.addFile name size).file file =
      if file = d.files.length then .zeroed size else d.file file := by
  unfold addFile Directory.file
  simp only [List.getD_eq_getElem?_getD]
  split
  · rename_i hnew
    rw [hnew, List.getElem?_concat_length]
    rfl
  · rename_i hold
    by_cases hfile : file < d.files.length
    · rw [List.getElem?_append_left hfile]
    · rw [List.getElem?_eq_none (by rw [List.length_append, List.length_singleton]; omega),
        List.getElem?_eq_none (Nat.le_of_not_lt hfile)]

theorem grows_addFile (d : Directory) {name : String} {size : Nat} (hname : checkName name = .ok ())
    (hsize : size < Text.signedBound) : d.Grows (d.addFile name size) := by
  have hget : forall other : String, (d.addFile name size).names.get? other =
      if other = name then some d.files.length else d.names.get? other := by
    intro other
    unfold addFile
    split
    · rename_i hsame
      rw [hsame, OrderedMap.get?_insert_self]
    · rename_i hne
      rw [OrderedMap.get?_insert_of_ne hne]
  have hlength : (d.addFile name size).files.length = d.files.length + 1 := List.length_append
  refine ⟨?_, by omega, ?_, ?_⟩
  · intro h
    refine ⟨?_, ?_, ?_, ?_⟩
    · intro other file hfile
      rw [hget] at hfile
      split at hfile
      · cases hfile
        omega
      · have hlt := h.file_lt other file hfile
        omega
    · intro other file hfile
      rw [hget] at hfile
      split at hfile
      · rename_i hsame
        rw [hsame]
        exact hname
      · exact h.checked other file hfile
    · intro first second file hfirst hsecond
      rw [hget] at hfirst hsecond
      split at hfirst <;> split at hsecond
      · rename_i hsame hsame'
        rw [hsame, hsame']
      · cases hfirst
        exact absurd (h.file_lt _ _ hsecond) (Nat.lt_irrefl _)
      · cases hsecond
        exact absurd (h.file_lt _ _ hfirst) (Nat.lt_irrefl _)
      · exact h.distinct first second file hfirst hsecond
    · intro file
      rw [file_addFile]
      split
      · exact hsize
      · exact h.size_lt file
  · intro file hfile
    rw [file_addFile, if_neg (Nat.ne_of_lt hfile)]
  · intro other file hfile hother
    rw [hget] at hother
    split at hother
    · cases hother
      exact absurd hfile (Nat.lt_irrefl _)
    · exact hother

theorem grows_erase (d : Directory) (name : String) :
    d.Grows { d with names := d.names.erase name } := by
  have hnames : forall (other : String) (file : Nat), (d.names.erase name).get? other = some file ->
      d.names.get? other = some file := by
    intro other file hother
    by_cases hsame : other = name
    · rw [hsame, OrderedMap.get?_erase_self] at hother
      cases hother
    · rwa [OrderedMap.get?_erase_of_ne hsame] at hother
  refine ⟨fun h => ?_, Nat.le_refl _, fun _ _ => rfl, fun other file _ => hnames other file⟩
  exact ⟨fun other file hother => h.file_lt other file (hnames other file hother),
    fun other file hother => h.checked other file (hnames other file hother),
    fun first second file hfirst hsecond =>
      h.distinct first second file (hnames first file hfirst) (hnames second file hsecond),
    h.size_lt⟩

theorem grows_write (d : Directory) (number offset : Nat) (data : Bytes) :
    d.Grows (d.modifyFile number fun f => f.write offset data) := by
  have hsize : forall file : Nat,
      ((d.modifyFile number fun f => f.write offset data).file file).size = (d.file file).size := by
    intro file
    rw [file_modifyFile]
    split
    · rename_i hsame
      rw [hsame.1]
      rfl
    · rfl
  have hlength : (d.modifyFile number fun f => f.write offset data).files.length =
      d.files.length := List.length_modify ..
  refine ⟨fun h => ?_, Nat.le_of_eq hlength.symm, fun file _ => hsize file, fun _ _ _ => id⟩
  refine ⟨?_, h.checked, h.distinct, ?_⟩
  · intro name file hname
    rw [hlength]
    exact h.file_lt name file hname
  · intro file
    rw [hsize]
    exact h.size_lt file

theorem grows_unlink {d d' : Directory} {key : String} (h : d.unlink key = .ok d') :
    d.Grows d' := by
  unfold unlink at h
  rcases bind_eq_ok h with ⟨name, _, hrest⟩
  rcases bind_eq_ok hrest with ⟨_, _, hnames⟩
  split at hnames
  · cases hnames
  · cases hnames
    exact d.grows_erase name

end Directory

/-- A region that is created adds a file to the directory, unless it is refused; where its size is
refused, an empty file. -/
theorem Region.grows_create (d : Directory) (key : String) (size : Nat) :
    d.Grows (create d key size).2 := by
  unfold create
  simp only
  split
  · exact .refl d
  · rename_i name hchecked
    have hname : checkName name = .ok () := by
      rcases bind_eq_ok hchecked with ⟨file, _, hsize⟩
      split at hsize
      · cases hsize
      · rcases bind_eq_ok hsize with ⟨⟨⟩, hname, hexists⟩
        split at hexists
        · cases hexists
        · cases hexists
          exact hname
    split
    · rename_i hsize
      exact d.grows_addFile hname hsize
    · exact d.grows_addFile hname (by decide)

/-!
# Reading and writing through handles
-/

theorem Handle.IsInside.read {h : Handle} (hinside : h.IsInside) (d : Directory) {offset size : Nat}
    (hrange : offset + size ≤ h.size) :
    h.read d offset size = .ok ((d.file h.mapping.region.file).read (h.offset + offset) size) := by
  have hregion : h.offset + offset + size ≤ h.mapping.region.size := by
    have hhandle : h.offset + h.size ≤ h.mapping.region.size := hinside
    omega
  unfold Handle.read Region.read
  rw [checkRange_eq_ok.2 hrange, checkRange_eq_ok.2 hregion]
  rfl

theorem Handle.IsInside.write {h : Handle} (hinside : h.IsInside) (d : Directory) {offset : Nat}
    {data : Bytes} (hrange : offset + data.length ≤ h.size) :
    h.write d offset data =
      .ok (d.modifyFile h.mapping.region.file fun f => f.write (h.offset + offset) data) := by
  have hregion : h.offset + offset + data.length ≤ h.mapping.region.size := by
    have hhandle : h.offset + h.size ≤ h.mapping.region.size := hinside
    omega
  unfold Handle.write Region.write
  rw [checkRange_eq_ok.2 hrange, checkRange_eq_ok.2 hregion]
  rfl

theorem Handle.grows_write {h : Handle} {d d' : Directory} {offset : Nat} {data : Bytes}
    (hwrite : h.write d offset data = .ok d') : d.Grows d' := by
  unfold Handle.write Region.write at hwrite
  rcases bind_eq_ok hwrite with ⟨_, _, hregion⟩
  rcases bind_eq_ok hregion with ⟨_, _, hmade⟩
  cases hmade
  exact d.grows_write _ _ _

/-!
# The invariant

A handle may be registered over a mapping that a handle can have.
-/

namespace Manager

/-- What a mapping must be like for a handle to have it: its file is there as it was mapped, all
live handles over this file have the same mapping, and while the file has a name, this mapping is
the last one under that name. -/
structure Admits (m : Manager) (mapping : Mapping) : Prop where
  file_lt : mapping.region.file < m.directory.files.length
  size_eq : (m.directory.file mapping.region.file).size = mapping.region.size
  size_ne : mapping.region.size ≠ 0
  current : forall name : String, m.directory.names.get? name = some mapping.region.file ->
    mapping.region.name = name ∧ m.registry.mappings.get? name = some mapping
  shared : forall h : Handle, m.IsLive h -> h.mapping.region.file = mapping.region.file ->
    h.mapping = mapping
  number_lt : mapping.number < m.registry.next
  number_eq : forall (name : String) (last : Mapping),
    m.registry.mappings.get? name = some last -> mapping.number = last.number -> mapping = last

/-- What ties the tables of a registry and the live handles to the files. -/
structure IsSound (m : Manager) : Prop where
  directory : m.directory.IsSound
  named : forall (name : String) (h : Handle), m.registry.handles.get? name = some h ->
    name ≠ "" ∧ h.name = name
  last : forall (name : String) (mapping : Mapping),
    m.registry.mappings.get? name = some mapping ->
      mapping.region.name = name ∧ mapping.number < m.registry.next
  inside : forall h : Handle, m.IsLive h -> h.IsInside
  admits : forall h : Handle, m.IsLive h -> m.Admits h.mapping

theorem isSound_empty : empty.IsSound where
  directory := by
    refine ⟨?_, ?_, ?_, ?_⟩
    · intro name file h
      cases h
    · intro name file h
      cases h
    · intro name other file h
      cases h
    · intro file
      exact (by decide : 0 < Text.signedBound)
  named name h hget := by cases hget
  last name mapping hget := by cases hget
  inside h hlive := by rcases hlive with hlive | hlive <;> cases hlive
  admits h hlive := by rcases hlive with hlive | hlive <;> cases hlive

theorem IsSound.of_grows {m : Manager} (hm : m.IsSound) {d : Directory} (hd : m.directory.Grows d) :
    { m with directory := d }.IsSound where
  directory := hd.sound hm.directory
  named := hm.named
  last := hm.last
  inside := hm.inside
  admits h hlive := by
    have hadmits := hm.admits h hlive
    refine ⟨?_, ?_, hadmits.size_ne, ?_, hadmits.shared, hadmits.number_lt, hadmits.number_eq⟩
    · exact Nat.lt_of_lt_of_le hadmits.file_lt hd.length_le
    · exact (hd.size_eq _ hadmits.file_lt).trans hadmits.size_eq
    · intro name hname
      exact hadmits.current name (hd.names name _ hadmits.file_lt hname)

theorem IsSound.of_live {m n : Manager} (hm : m.IsSound) (hdirectory : n.directory = m.directory)
    (hmappings : n.registry.mappings = m.registry.mappings)
    (hnext : n.registry.next = m.registry.next)
    (hnamed : forall (name : String) (h : Handle), n.registry.handles.get? name = some h ->
      m.registry.handles.get? name = some h)
    (hlive : forall h : Handle, n.IsLive h -> m.IsLive h) : n.IsSound where
  directory := by
    rw [hdirectory]
    exact hm.directory
  named name h hget := hm.named name h (hnamed name h hget)
  last name mapping hget := by
    rw [hmappings] at hget
    rw [hnext]
    exact hm.last name mapping hget
  inside h hh := hm.inside h (hlive h hh)
  admits h hh := by
    have hadmits := hm.admits h (hlive h hh)
    refine ⟨?_, ?_, hadmits.size_ne, ?_, ?_, ?_, ?_⟩
    · rw [hdirectory]
      exact hadmits.file_lt
    · rw [hdirectory]
      exact hadmits.size_eq
    · rw [hdirectory, hmappings]
      exact hadmits.current
    · exact fun other hother => hadmits.shared other (hlive other hother)
    · rw [hnext]
      exact hadmits.number_lt
    · rw [hmappings]
      exact hadmits.number_eq

theorem IsSound.insert {m : Manager} (hm : m.IsSound) {name : String} (hname : name ≠ "")
    {mapping : Mapping} (hmapping : m.Admits mapping) {offset size : Nat}
    (hinside : offset + size ≤ mapping.region.size) :
    { m with registry := { m.registry with
      handles := m.registry.handles.insert name ⟨name, mapping, offset, size⟩ } }.IsSound := by
  have hlive : forall h : Handle, { m with registry := { m.registry with
      handles := m.registry.handles.insert name ⟨name, mapping, offset, size⟩ } }.IsLive h ->
      h = ⟨name, mapping, offset, size⟩ ∨ m.IsLive h := by
    rintro h (hregistered | hheld)
    · rcases OrderedMap.mem_values_insert hregistered with hnew | hold
      · exact .inl hnew
      · exact .inr (.inl hold)
    · exact .inr (.inr hheld)
  refine ⟨hm.directory, ?_, hm.last, ?_, ?_⟩
  · intro other h hget
    by_cases hsame : other = name
    · subst hsame
      rw [OrderedMap.get?_insert_self] at hget
      cases hget
      exact ⟨hname, rfl⟩
    · rw [OrderedMap.get?_insert_of_ne hsame] at hget
      exact hm.named other h hget
  · intro h hh
    rcases hlive h hh with rfl | hold
    · exact hinside
    · exact hm.inside h hold
  · intro h hh
    have hadmits : m.Admits h.mapping := by
      rcases hlive h hh with rfl | hold
      · exact hmapping
      · exact hm.admits h hold
    refine ⟨hadmits.file_lt, hadmits.size_eq, hadmits.size_ne, hadmits.current, ?_,
      hadmits.number_lt, hadmits.number_eq⟩
    intro other hother hfile
    rcases hlive other hother with rfl | hold
    · rcases hlive h hh with rfl | hold'
      · rfl
      · exact (hmapping.shared h hold' hfile.symm).symm
    · exact hadmits.shared other hold hfile

/-!
# Mapping a key

The last mapping under a name is that of a live handle, if it is held.
-/

/-- Where a live handle lies over a file that is opened, its mapping is held and current. -/
theorem IsSound.shares {m : Manager} (hm : m.IsSound) {region : Region}
    (hnamed : m.directory.names.get? region.name = some region.file) {h : Handle}
    (hlive : m.IsLive h) (hfile : h.mapping.region.file = region.file) :
    m.registry.mappings.get? region.name = some h.mapping ∧
      m.registry.isHeld m.isElsewhere h.mapping.number = true ∧
      h.mapping.region.isCurrent m.directory = true := by
  have hadmits := hm.admits h hlive
  rw [← hfile] at hnamed
  rcases hadmits.current region.name hnamed with ⟨hname, hlast⟩
  refine ⟨hlast, ?_, ?_⟩
  · unfold Registry.isHeld isElsewhere
    rw [Bool.or_eq_true, List.any_eq_true, List.any_eq_true]
    exact hlive.imp (fun hregistered => ⟨h, hregistered, decide_eq_true rfl⟩)
      fun hheld => ⟨h, hheld, decide_eq_true rfl⟩
  · unfold Region.isCurrent
    rw [hname, Bool.and_eq_true, decide_eq_true_eq, decide_eq_true_eq]
    exact ⟨hnamed, hadmits.size_eq⟩

theorem IsSound.live_of_isHeld {m : Manager} (hm : m.IsSound) {name : String} {mapping : Mapping}
    (hlast : m.registry.mappings.get? name = some mapping)
    (hheld : m.registry.isHeld m.isElsewhere mapping.number = true) :
    exists h : Handle, m.IsLive h ∧ h.mapping = mapping := by
  unfold Registry.isHeld isElsewhere at hheld
  rw [Bool.or_eq_true, List.any_eq_true, List.any_eq_true] at hheld
  have hlive : exists h : Handle, m.IsLive h ∧ h.mapping.number = mapping.number := by
    rcases hheld with ⟨h, hh, hnumber⟩ | ⟨h, hh, hnumber⟩
    · exact ⟨h, .inl hh, of_decide_eq_true hnumber⟩
    · exact ⟨h, .inr hh, of_decide_eq_true hnumber⟩
  obtain ⟨h, hh, hnumber⟩ := hlive
  exact ⟨h, hh, (hm.admits h hh).number_eq name mapping hlast hnumber⟩

theorem IsSound.mapAnew {m : Manager} (hm : m.IsSound) {key : String} {region : Region}
    (hopen : Region.openKey m.directory key = .ok region)
    (hfree : forall h : Handle, m.IsLive h -> h.mapping.region.file ≠ region.file) :
    { m with registry := m.registry.mapAnew region }.IsSound ∧
      { m with registry := m.registry.mapAnew region }.Admits ⟨m.registry.next, region⟩ := by
  obtain ⟨_, _, hnamed, hsize, hne, _⟩ := Region.openKey_eq_ok hopen
  have hlast : forall (name : String) (mapping : Mapping),
      (m.registry.mapAnew region).mappings.get? name = some mapping ->
      name = region.name ∧ mapping = ⟨m.registry.next, region⟩ ∨
      name ≠ region.name ∧ m.registry.mappings.get? name = some mapping := by
    intro name mapping hget
    unfold Registry.mapAnew at hget
    by_cases hsame : name = region.name
    · rw [hsame, OrderedMap.get?_insert_self] at hget
      exact .inl ⟨hsame, (Option.some.inj hget).symm⟩
    · rw [OrderedMap.get?_insert_of_ne hsame] at hget
      exact .inr ⟨hsame, hget⟩
  constructor
  · refine ⟨hm.directory, hm.named, ?_, hm.inside, ?_⟩
    · intro name mapping hget
      rcases hlast name mapping hget with ⟨rfl, rfl⟩ | ⟨_, hold⟩
      · exact ⟨rfl, Nat.lt_succ_self _⟩
      · rcases hm.last name mapping hold with ⟨hname, hnumber⟩
        exact ⟨hname, Nat.lt_succ_of_lt hnumber⟩
    · intro h hlive
      have hadmits := hm.admits h hlive
      refine ⟨hadmits.file_lt, hadmits.size_eq, hadmits.size_ne, ?_, hadmits.shared,
        Nat.lt_succ_of_lt hadmits.number_lt, ?_⟩
      · intro name hname
        rcases hadmits.current name hname with ⟨hregion, hget⟩
        refine ⟨hregion, ?_⟩
        have hother : name ≠ region.name := by
          intro hsame
          rw [hsame, hnamed] at hname
          exact hfree h hlive (Option.some.inj hname).symm
        exact (OrderedMap.get?_insert_of_ne hother ..).trans hget
      · intro name mapping hget hnumber
        rcases hlast name mapping hget with ⟨_, rfl⟩ | ⟨_, hold⟩
        · exact absurd hnumber (Nat.ne_of_lt hadmits.number_lt)
        · exact hadmits.number_eq name mapping hold hnumber
  · refine ⟨hm.directory.file_lt _ _ hnamed, hsize, hne, ?_, ?_, Nat.lt_succ_self _, ?_⟩
    · intro name hname
      have hsame := hm.directory.distinct _ _ _ hnamed hname
      subst hsame
      exact ⟨rfl, OrderedMap.get?_insert_self ..⟩
    · intro h hlive hfile
      exact absurd hfile (hfree h hlive)
    · intro name mapping hget hnumber
      rcases hlast name mapping hget with ⟨_, rfl⟩ | ⟨_, hold⟩
      · rfl
      · exact absurd hnumber (Nat.ne_of_gt (hm.last name mapping hold).2)

/-- How a mapping serves for a file that has been opened: it is that of a live handle over this
file, or no live handle lies over the file and it is mapped as it has been opened. -/
def Serves (m : Manager) (region : Region) (mapping : Mapping) : Prop :=
  (exists h : Handle, m.IsLive h ∧ h.mapping = mapping ∧ mapping.region.file = region.file) ∨
  (mapping.region = region ∧
    forall h : Handle, m.IsLive h -> h.mapping.region.file ≠ region.file)

/-- A key is mapped if its file can be opened, and handles over one file share its mapping. -/
theorem IsSound.mapKey_cases {m : Manager} (hm : m.IsSound) (key : String) :
    (exists failure : Failure, Region.openKey m.directory key = .error failure ∧
      (m.registry.mapKey m.directory m.isElsewhere key).1 = .error failure ∧
      (m.registry.mapKey m.directory m.isElsewhere key).2.1 = m.registry) ∨
    (exists (region : Region) (mapping : Mapping), Region.openKey m.directory key = .ok region ∧
      mapping.region.size = region.size ∧ m.Serves region mapping ∧
      (m.registry.mapKey m.directory m.isElsewhere key).1 = .ok mapping ∧
      { m with registry := (m.registry.mapKey m.directory m.isElsewhere key).2.1 }.IsSound ∧
      { m with registry := (m.registry.mapKey m.directory m.isElsewhere key).2.1 }.Admits
        mapping) := by
  rcases m.registry.mapKey_cases m.directory m.isElsewhere key with
    ⟨failure, hname, hresult, hregistry⟩ |
    ⟨name, mapping, hname, hlast, hheld, hcurrent, hresult, hregistry⟩ |
    ⟨name, hname, hstale, hopened⟩
  · refine .inl ⟨failure, ?_, hresult, hregistry⟩
    unfold Region.openKey
    rw [hname]
    rfl
  · obtain ⟨h, hlive, rfl⟩ := hm.live_of_isHeld hlast hheld
    have hadmits := hm.admits h hlive
    have hregion := (hm.last name h.mapping hlast).1
    unfold Region.isCurrent at hcurrent
    rw [hregion, Bool.and_eq_true, decide_eq_true_eq, decide_eq_true_eq] at hcurrent
    have hopen := Region.openKey_of_file hname (hm.directory.checked _ _ hcurrent.1) hcurrent.1
      (by rw [hcurrent.2]; exact hadmits.size_ne)
    refine .inr ⟨_, h.mapping, hopen, hcurrent.2.symm, .inl ⟨h, hlive, rfl, rfl⟩, hresult, ?_, ?_⟩
    · rw [hregistry]
      exact hm
    · rw [hregistry]
      exact hadmits
  · rcases hopened with ⟨failure, hopen, hresult, hregistry⟩ | ⟨region, hopen, hresult, hregistry⟩
    · exact .inl ⟨failure, hopen, hresult, hregistry⟩
    · obtain ⟨hname', _, hnamed, _, _, _⟩ := Region.openKey_eq_ok hopen
      have hsame : name = region.name := Except.ok.inj (hname.symm.trans hname')
      have hfree : forall h : Handle, m.IsLive h -> h.mapping.region.file ≠ region.file := by
        intro h hlive hfile
        rcases hm.shares hnamed hlive hfile with ⟨hlast, hheld, hcurrent⟩
        rw [hstale h.mapping (hsame ▸ hlast) hheld] at hcurrent
        cases hcurrent
      refine .inr ⟨region, ⟨m.registry.next, region⟩, hopen, rfl, .inr ⟨rfl, hfree⟩, hresult, ?_⟩
      rw [hregistry]
      exact hm.mapAnew hopen hfree

/-!
# Registering
-/

/-- What a registration is answered: it depends on the names in use and on the files as they are
now, and not on what has been mapped. -/
def admission (m : Manager) (name key : String) (offset size : Nat) : Except Failure Unit :=
  if name = "" then .error .unnamedHandle
  else if m.registry.handles.contains name then .error (.handleExists name)
  else do
    let region ← Region.openKey m.directory key
    checkRange (.keyedRegion key) offset size region.size

/-- A registration that fails leaves all handles alone, and one that does not adds a handle over the
file that its key names. -/
theorem IsSound.step_register {m : Manager} (hm : m.IsSound) (name key : String)
    (offset size : Nat) :
    (exists (failure : Failure) (r : Registry),
      m.admission name key offset size = .error failure ∧
      m.step (.register name key offset size) = (.failed failure, { m with registry := r }) ∧
      r.handles = m.registry.handles ∧ { m with registry := r }.IsSound) ∨
    (exists (region : Region) (mapping : Mapping) (r : Registry),
      m.admission name key offset size = .ok () ∧
      m.step (.register name key offset size) = (.done, { m with registry := r }) ∧
      Region.openKey m.directory key = .ok region ∧ m.Serves region mapping ∧
      offset + size ≤ mapping.region.size ∧
      r.handles = m.registry.handles.insert name ⟨name, mapping, offset, size⟩ ∧
      { m with registry := r }.IsSound) := by
  have hstep : m.step (.register name key offset size) =
      (.ofExcept (m.registry.register m.directory m.isElsewhere name key offset size).1,
        { m with registry :=
          (m.registry.register m.directory m.isElsewhere name key offset size).2.1 }) := rfl
  rw [hstep]
  rw [Registry.register_eq]
  unfold admission
  by_cases hname : name = ""
  · left
    refine ⟨.unnamedHandle, m.registry, ?_, ?_, rfl, hm⟩
    · rw [if_pos hname]
    · rw [if_pos hname]
      rfl
  rw [if_neg hname, if_neg hname]
  by_cases hcontains : m.registry.handles.contains name = true
  · left
    refine ⟨.handleExists name, m.registry, ?_, ?_, rfl, hm⟩
    · rw [if_pos hcontains]
    · rw [if_pos hcontains]
      rfl
  rw [if_neg hcontains, if_neg hcontains]
  have hhandles := m.registry.handles_mapKey m.directory m.isElsewhere key
  rcases hm.mapKey_cases key with ⟨failure, hopen, hresult, hregistry⟩ |
    ⟨region, mapping, hopen, hsize, hserves, hresult, hsound, hadmits⟩
  · left
    rw [hopen]
    generalize m.registry.mapKey m.directory m.isElsewhere key = made at hresult hregistry
    obtain ⟨_, r, events⟩ := made
    cases hresult
    cases hregistry
    exact ⟨failure, m.registry, rfl, rfl, rfl, hm⟩
  · rw [hopen]
    generalize m.registry.mapKey m.directory m.isElsewhere key = made at *
    obtain ⟨_, r, events⟩ := made
    cases hresult
    by_cases hrange : offset + size ≤ region.size
    · right
      refine ⟨region, mapping, { r with
        handles := r.handles.insert name ⟨name, mapping, offset, size⟩ }, ?_, ?_, rfl, hserves,
        by rw [hsize]; exact hrange, ?_, ?_⟩
      · exact checkRange_eq_ok.2 hrange
      · simp only [hsize, checkRange_eq_ok.2 hrange]
        rfl
      · exact congrArg (·.insert name ⟨name, mapping, offset, size⟩) hhandles
      · exact hsound.insert hname hadmits (by rw [hsize]; exact hrange)
    · left
      have hfails : checkRange (.keyedRegion key) offset size region.size =
          .error (.rangeExceeds offset size (.keyedRegion key) region.size) := if_neg hrange
      refine ⟨_, r, hfails, ?_, hhandles, hsound⟩
      simp only [hsize, hfails]
      rfl

/-!
# What a call can do
-/

/-- What a call can do to a manager.  Most calls can do nothing but change files; a registration may
also have a file mapped and then fail. -/
inductive Change (m : Manager) : Call -> Manager -> Prop
  | files {call : Call} {d : Directory} (h : m.directory.Grows d) :
      m.Change call { m with directory := d }
  | refused {name key : String} {offset size : Nat} {r : Registry}
      (hhandles : r.handles = m.registry.handles) (hsound : { m with registry := r }.IsSound) :
      m.Change (.register name key offset size) { m with registry := r }
  | registered {name key : String} {offset size : Nat} {mapping : Mapping} {r : Registry}
      (hname : m.registry.handles.contains name = false)
      (hdone : (m.step (.register name key offset size)).1 = .done)
      (hhandles : r.handles = m.registry.handles.insert name ⟨name, mapping, offset, size⟩)
      (hsound : { m with registry := r }.IsSound) :
      m.Change (.register name key offset size) { m with registry := r }
  | unregistered {name : String} :
      m.Change (.unregister name)
        { m with registry := { m.registry with handles := m.registry.handles.erase name } }
  | cleared : m.Change .unregisterAll { m with registry := { m.registry with handles := .empty } }
  | held {name label : String} {h : Handle} (hget : m.registry.handles.get? name = some h) :
      m.Change (.hold name label) { m with held := m.held.insert label h }
  | freed {label : String} : m.Change (.letGo label) { m with held := m.held.erase label }

theorem Change.none {m : Manager} (call : Call) : m.Change call m := .files (.refl m.directory)

theorem Change.grows {m n : Manager} {call : Call} (h : m.Change call n) :
    m.directory.Grows n.directory := by
  cases h with
  | files hgrows => exact hgrows
  | _ => exact .refl m.directory

theorem IsSound.change {m : Manager} (hm : m.IsSound) (call : Call) :
    m.Change call (m.step call).2 := by
  cases call with
  | create key size => exact .files (Region.grows_create m.directory key size)
  | unlink key =>
      unfold Manager.step
      simp only
      split
      · rename_i d hunlink
        exact .files (Directory.grows_unlink hunlink)
      · exact .none _
  | register name key offset size =>
      rcases hm.step_register name key offset size with
        ⟨failure, r, _, hstep, hhandles, hsound⟩ |
        ⟨region, mapping, r, hadmission, hstep, _, _, _, hhandles, hsound⟩
      · rw [hstep]
        exact .refused hhandles hsound
      · have hname : m.registry.handles.contains name = false := by
          unfold admission at hadmission
          split at hadmission
          · cases hadmission
          · split at hadmission
            · cases hadmission
            · rename_i hfree
              exact Bool.eq_false_iff.2 hfree
        have hdone : (m.step (.register name key offset size)).1 = .done := by rw [hstep]
        rw [hstep]
        exact .registered hname hdone hhandles hsound
  | unregister name =>
      unfold Manager.step Registry.unregister
      by_cases hname : m.registry.handles.contains name = true
      · simp only [if_pos hname]
        exact .unregistered
      · simp only [if_neg hname]
        exact .none _
  | unregisterAll => exact .cleared
  | status => exact .none _
  | hold name label =>
      unfold Manager.step Registry.get
      cases hget : m.registry.handles.get? name with
      | none =>
          simp only [hget]
          exact .none _
      | some h =>
          simp only [hget]
          exact .held hget
  | letGo label => exact .freed
  | read label offset size =>
      unfold Manager.step
      simp only
      split
      · exact .none _
      · split <;> exact .none _
  | write label offset data =>
      unfold Manager.step
      simp only
      split
      · exact .none _
      · split
        · rename_i d hwrite
          exact .files (Handle.grows_write hwrite)
        · exact .none _
  | arrive file offset data => exact .files (m.directory.grows_write file offset data)

theorem IsSound.step {m : Manager} (hm : m.IsSound) (call : Call) : (m.step call).2.IsSound := by
  have hchange := hm.change call
  generalize (m.step call).2 = n at hchange
  cases hchange with
  | files h => exact hm.of_grows h
  | refused _ hsound => exact hsound
  | registered _ _ _ hsound => exact hsound
  | @unregistered name =>
      refine hm.of_live rfl rfl rfl ?_ ?_
      · intro other h hget
        by_cases hsame : other = name
        · rw [hsame, OrderedMap.get?_erase_self] at hget
          cases hget
        · rwa [OrderedMap.get?_erase_of_ne hsame] at hget
      · rintro h (hregistered | hheld)
        · exact .inl (OrderedMap.mem_values_erase hregistered)
        · exact .inr hheld
  | cleared =>
      refine hm.of_live rfl rfl rfl ?_ ?_
      · intro name h hget
        cases hget
      · rintro h (hregistered | hheld)
        · cases hregistered
        · exact .inr hheld
  | held hget =>
      refine hm.of_live rfl rfl rfl (fun _ _ hnamed => hnamed) ?_
      rintro h (hregistered | hheld)
      · exact .inl hregistered
      · rcases OrderedMap.mem_values_insert hheld with rfl | hold
        · exact .inl (OrderedMap.mem_values_of_get? hget)
        · exact .inr hold
  | freed =>
      refine hm.of_live rfl rfl rfl (fun _ _ hnamed => hnamed) ?_
      rintro h (hregistered | hheld)
      · exact .inl hregistered
      · exact .inr (OrderedMap.mem_values_erase hheld)

/-!
# Runs
-/

theorem IsSound.after {m : Manager} (hm : m.IsSound) (calls : List Call) :
    (m.after calls).IsSound := by
  induction calls generalizing m with
  | nil => exact hm
  | cons call rest ih => exact ih (hm.step call)

theorem isSound_reached (calls : List Call) : (reached calls).IsSound := isSound_empty.after calls

end Manager

end InferenceEngine
