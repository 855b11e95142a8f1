import InferenceEngine.Proofs.Regions.Handles

/-!
# Keys and file names

A key means the name that is left of it without a slash in front, if this is the name of a file
right in a directory: one that leads there as a path, from whatever directory.  The file system
takes such a name if it has no zero character and is not too long.
-/

namespace InferenceEngine

/-!
# Paths

File names are just what leads from each directory to the entry of that name.
-/

namespace Path

/-- One step along a path: nothing and a dot stay where they are, and two dots go back. -/
def walk (place : List String) (name : String) : List String :=
  if name = "" ∨ name = "." then place
  else if name = ".." then place.dropLast
  else place ++ [name]

def parts (text : String) : List String := (text.toList.splitOn '/').map String.ofList

/-- Where a text leads from a directory, or from the root if it begins with a slash. -/
def resolve (base : List String) (text : String) : List String :=
  (parts text).foldl walk (if text.toList.head? = some '/' then [] else base)

end Path

/-- Whether a text is the name of a file right in a directory. -/
structure IsFileName (name : String) : Prop where
  ne_empty : name ≠ ""
  noSlash : '/' ∉ name.toList
  ne_dot : name ≠ "."
  ne_dots : name ≠ ".."

namespace Path

theorem resolve_of_isFileName {name : String} (h : IsFileName name) (base : List String) :
    resolve base name = base ++ [name] := by
  have hparts : parts name = [name] := by
    rw [parts, List.splitOn_eq_singleton h.noSlash, List.map_singleton, String.ofList_toList]
  have hhead : name.toList.head? ≠ some '/' := by
    intro hslash
    exact h.noSlash (List.mem_of_head? hslash)
  have hstay : ¬ (name = "" ∨ name = ".") := by
    intro hboth
    rcases hboth with hempty | hdot
    · exact h.ne_empty hempty
    · exact h.ne_dot hdot
  rw [resolve, hparts, if_neg hhead, List.foldl_cons, List.foldl_nil, walk, if_neg hstay,
    if_neg h.ne_dots]

theorem not_mem_of_mem_splitOn {chars part : List Char} (h : part ∈ chars.splitOn '/') :
    '/' ∉ part := by
  induction chars generalizing part with
  | nil =>
      rw [List.splitOn_nil, List.mem_singleton] at h
      rw [h]
      exact List.not_mem_nil
  | cons first rest ih =>
      rw [List.splitOn_cons_eq_if_modifyHead] at h
      by_cases hslash : first = '/'
      · rw [if_pos (beq_iff_eq.2 hslash)] at h
        rcases List.mem_cons.1 h with hempty | hrest
        · rw [hempty]
          exact List.not_mem_nil
        · exact ih hrest
      · rw [if_neg fun hsame => hslash (beq_iff_eq.1 hsame)] at h
        cases hsplit : rest.splitOn '/' with
        | nil => exact absurd hsplit (List.splitOn_ne_nil _ _)
        | cons head tail =>
            rw [hsplit] at h ih
            rcases List.mem_cons.1 h with hhead | htail
            · rw [hhead, List.mem_cons, not_or]
              exact ⟨fun hsame => hslash hsame.symm, ih List.mem_cons_self⟩
            · exact ih (List.mem_cons_of_mem _ htail)

theorem mem_foldl_walk {names place : List String} {name : String}
    (h : name ∈ names.foldl walk place) : name ∈ place ∨ name ∈ names := by
  induction names generalizing place with
  | nil => exact .inl h
  | cons first rest ih =>
      rcases ih h with hplace | hrest
      · unfold walk at hplace
        split at hplace
        · exact .inl hplace
        · split at hplace
          · exact .inl (List.dropLast_subset _ hplace)
          · rcases List.mem_append.1 hplace with hold | hnew
            · exact .inl hold
            · exact .inr (List.mem_singleton.1 hnew ▸ List.mem_cons_self)
      · exact .inr (List.mem_cons_of_mem _ hrest)

theorem isFileName_iff {name : String} :
    IsFileName name ↔ forall base : List String, resolve base name = base ++ [name] := by
  constructor
  · intro h base
    exact resolve_of_isFileName h base
  · intro h
    have hroot := h []
    constructor
    · intro hempty
      rw [hempty] at hroot
      exact absurd hroot (by decide)
    · have hmem : name ∈ resolve [] name := by
        rw [hroot]
        exact List.mem_singleton_self name
      have hpart : name ∈ parts name := by
        rcases mem_foldl_walk hmem with hstart | hpart
        · split at hstart <;> cases hstart
        · exact hpart
      rcases List.mem_map.1 hpart with ⟨part, hsplit, hname⟩
      rw [← hname, String.toList_ofList]
      exact not_mem_of_mem_splitOn hsplit
    · intro hdot
      rw [hdot] at hroot
      exact absurd hroot (by decide)
    · intro hdots
      rw [hdots] at hroot
      exact absurd hroot (by decide)

end Path

/-!
# Keys

A key means what is left of it, if this is a file name.
-/

def bareKey (key : String) : String :=
  if key.toList.head? = some '/' then String.ofList key.toList.tail else key

theorem isFileName_ofList_iff {chars : List Char} :
    IsFileName (String.ofList chars) ↔
      ¬ (chars = [] ∨ '/' ∈ chars ∨ chars = ['.'] ∨ chars = ['.', '.']) := by
  have hsame : forall (text : String), String.ofList chars = text ↔ chars = text.toList := by
    intro text
    rw [← String.toList_inj, String.toList_ofList]
  constructor
  · intro h hbad
    rcases hbad with hempty | hslash | hdot | hdots
    · exact h.ne_empty ((hsame "").2 hempty)
    · exact h.noSlash (by rw [String.toList_ofList]; exact hslash)
    · exact h.ne_dot ((hsame ".").2 hdot)
    · exact h.ne_dots ((hsame "..").2 hdots)
  · intro h
    rw [not_or, not_or, not_or] at h
    rcases h with ⟨hempty, hslash, hdot, hdots⟩
    constructor
    · exact fun hname => hempty ((hsame "").1 hname)
    · rw [String.toList_ofList]
      exact hslash
    · exact fun hname => hdot ((hsame ".").1 hname)
    · exact fun hname => hdots ((hsame "..").1 hname)

theorem fileName?_eq (key : String) :
    (IsFileName (bareKey key) ∧ fileName? key = .ok (bareKey key)) ∨
    (¬ IsFileName (bareKey key) ∧ fileName? key = .error (.invalidKey key)) := by
  have hbare : exists chars : List Char, bareKey key = String.ofList chars ∧
      fileName? key =
        if chars = [] ∨ '/' ∈ chars ∨ chars = ['.'] ∨ chars = ['.', '.'] then
          .error (.invalidKey key)
        else .ok (String.ofList chars) := by
    have hkey : String.ofList key.toList = key := String.ofList_toList
    unfold bareKey fileName?
    generalize key.toList = chars at hkey
    cases chars with
    | nil => exact ⟨[], hkey.symm, rfl⟩
    | cons first rest =>
        by_cases hslash : first = '/'
        · subst hslash
          exact ⟨rest, rfl, rfl⟩
        · have hhead : (first :: rest).head? ≠ some '/' := by
            simpa using hslash
          refine ⟨first :: rest, ?_, ?_⟩
          · rw [if_neg hhead]
            exact hkey.symm
          · simp only
            split
            · rename_i hsame
              exact absurd (List.cons.inj hsame).1 hslash
            · rfl
  rcases hbare with ⟨chars, hname, hfile⟩
  rw [hname, hfile, isFileName_ofList_iff]
  by_cases hbad : chars = [] ∨ '/' ∈ chars ∨ chars = ['.'] ∨ chars = ['.', '.']
  · exact .inr ⟨fun hgood => hgood hbad, if_pos hbad⟩
  · exact .inl ⟨hbad, if_neg hbad⟩

theorem fileName?_eq_ok_iff {key name : String} :
    fileName? key = .ok name ↔ IsFileName name ∧ bareKey key = name := by
  rcases fileName?_eq key with ⟨hname, hfile⟩ | ⟨hname, hfile⟩
  · rw [hfile, Except.ok.injEq]
    constructor
    · intro hsame
      exact ⟨hsame ▸ hname, hsame⟩
    · intro h
      exact h.2
  · rw [hfile]
    constructor
    · intro h
      cases h
    · intro h
      exact absurd (h.2 ▸ h.1) hname

theorem IsFileName.bareKey_eq {name : String} (h : IsFileName name) : bareKey name = name := by
  apply if_neg
  intro hslash
  exact h.noSlash (List.mem_of_head? hslash)

theorem IsFileName.fileName? {name : String} (h : IsFileName name) :
    InferenceEngine.fileName? name = .ok name :=
  fileName?_eq_ok_iff.2 ⟨h, h.bareKey_eq⟩

/-- The name by which the file system is asked for what a key means, if it takes this name. -/
def locate (key : String) : Except Failure String := do
  let name ← fileName? key
  checkName name
  .ok name

theorem locate_eq_ok {key name : String} (h : locate key = .ok name) :
    fileName? key = .ok name ∧ checkName name = .ok () := by
  rcases bind_eq_ok h with ⟨file, hname, hrest⟩
  rcases bind_eq_ok hrest with ⟨⟨⟩, hcheck, hsame⟩
  cases hsame
  exact ⟨hname, hcheck⟩

theorem locate_eq_error {key : String} {failure : Failure} (h : locate key = .error failure) :
    fileName? key = .error failure ∨
      exists name : String, fileName? key = .ok name ∧ checkName name = .error failure := by
  cases hname : fileName? key with
  | error other =>
      rw [locate, hname] at h
      cases h
      exact .inl rfl
  | ok name =>
      cases hcheck : checkName name with
      | error other =>
          rw [locate, hname] at h
          simp only [hcheck, bind, Except.bind] at h
          cases h
          exact .inr ⟨name, rfl, hcheck⟩
      | ok =>
          rw [locate, hname] at h
          simp only [hcheck, bind, Except.bind] at h
          cases h

/-- A key is located unless it means no file name, or one with a zero character, or one that is too
long. -/
theorem locate_cases (key : String) :
    (exists failure : Failure, locate key = .error failure ∧ failure.code = .invalidArg ∧
      (¬ IsFileName (bareKey key) ∨ '\x00' ∈ (bareKey key).toList)) ∨
    (exists failure : Failure, locate key = .error failure ∧ failure.code = .internal ∧
      IsFileName (bareKey key) ∧ '\x00' ∉ (bareKey key).toList ∧
      255 < (bareKey key).utf8ByteSize) ∨
    (locate key = .ok (bareKey key) ∧ IsFileName (bareKey key) ∧
      '\x00' ∉ (bareKey key).toList ∧ (bareKey key).utf8ByteSize ≤ 255) := by
  rcases fileName?_eq key with ⟨hname, hfile⟩ | ⟨hname, hfile⟩
  · unfold locate checkName
    simp only [hfile, bind, Except.bind]
    by_cases hzero : '\x00' ∈ (bareKey key).toList
    · rw [if_pos hzero]
      exact .inl ⟨_, rfl, rfl, .inr hzero⟩
    · right
      rw [if_neg hzero]
      by_cases hlong : 255 < (bareKey key).utf8ByteSize
      · rw [if_pos hlong]
        exact .inl ⟨_, rfl, rfl, hname, hzero, hlong⟩
      · rw [if_neg hlong]
        exact .inr ⟨rfl, hname, hzero, Nat.le_of_not_lt hlong⟩
  · left
    rw [locate, hfile]
    exact ⟨_, rfl, rfl, .inl hname⟩

end InferenceEngine
