import InferenceEngine.Proofs.Regions.Managers
import InferenceEngine.Proofs.Regions.Transports

/-!
# Elements in words

Sizes and positions are words of 64 bits.  To read an element of a handle takes a product and three
sums: the product and two of the sums are checked, each sum against a limit of its own, while the
sum that moves the element to where the handle begins is not.  It goes well since the handle lies
inside its region, and the region inside a file.
-/

namespace InferenceEngine

/-!
# Words

A range that is too long is refused, also if its end is not a word.
-/

/-- What no computation on words should run into. -/
inductive Fault where
  /-- A sum that is not a word, where this is not checked. -/
  | overflow
  /-- Bytes that are not there. -/
  | outOfBounds
  deriving DecidableEq

/-- What a computation on words comes to: a fault, or else a result or a failure. -/
abbrev InWords (α : Type) := Except Fault (Except Failure α)

namespace Word

def sum? (a b : UInt64) : Option UInt64 :=
  if a.toNat + b.toNat < UInt64.size then some (a + b) else none

def product? (a b : UInt64) : Option UInt64 :=
  if a.toNat * b.toNat < UInt64.size then some (a * b) else none

def checkRange (owner : RangeOwner) (offset size available : UInt64) : Except Failure UInt64 :=
  match sum? offset size with
  | none => .error (.rangeExceeds offset.toNat size.toNat owner available.toNat)
  | some last =>
      if last ≤ available then .ok last
      else .error (.rangeExceeds offset.toNat size.toNat owner available.toNat)

/-- The bytes from one position up to another, which both have to be there. -/
def cut (bytes : Bytes) (first last : UInt64) : Except Fault Bytes :=
  if first ≤ last ∧ last.toNat ≤ bytes.length then
    .ok (bytes.slice first.toNat (last.toNat - first.toNat))
  else .error .outOfBounds

theorem sum?_of_lt {a b : UInt64} (h : a.toNat + b.toNat < UInt64.size) :
    exists c : UInt64, sum? a b = some c ∧ c.toNat = a.toNat + b.toNat := by
  have hsum : (a + b).toNat = a.toNat + b.toNat := by
    rw [UInt64.toNat_add]
    exact Nat.mod_eq_of_lt h
  exact ⟨a + b, if_pos h, hsum⟩

theorem sum?_of_le {a b : UInt64} (h : UInt64.size ≤ a.toNat + b.toNat) : sum? a b = none :=
  if_neg (Nat.not_lt.2 h)

theorem product?_of_lt {a b : UInt64} (h : a.toNat * b.toNat < UInt64.size) :
    exists c : UInt64, product? a b = some c ∧ c.toNat = a.toNat * b.toNat := by
  have hproduct : (a * b).toNat = a.toNat * b.toNat := by
    rw [UInt64.toNat_mul]
    exact Nat.mod_eq_of_lt h
  exact ⟨a * b, if_pos h, hproduct⟩

theorem product?_of_le {a b : UInt64} (h : UInt64.size ≤ a.toNat * b.toNat) :
    product? a b = none :=
  if_neg (Nat.not_lt.2 h)

theorem checkRange_of_le (owner : RangeOwner) (offset size available : UInt64)
    (h : offset.toNat + size.toNat ≤ available.toNat) :
    exists last : UInt64, checkRange owner offset size available = .ok last ∧
      last.toNat = offset.toNat + size.toNat := by
  rcases sum?_of_lt (Nat.lt_of_le_of_lt h available.toNat_lt) with ⟨last, hsum, hlast⟩
  have hle : last ≤ available := by
    rw [UInt64.le_iff_toNat_le, hlast]
    exact h
  unfold checkRange
  simp only [hsum, if_pos hle]
  exact ⟨last, rfl, hlast⟩

theorem checkRange_of_lt (owner : RangeOwner) (offset size available : UInt64)
    (h : available.toNat < offset.toNat + size.toNat) :
    checkRange owner offset size available =
      .error (.rangeExceeds offset.toNat size.toNat owner available.toNat) := by
  unfold checkRange
  by_cases hword : offset.toNat + size.toNat < UInt64.size
  · rcases sum?_of_lt hword with ⟨last, hsum, hlast⟩
    have hlt : ¬ last ≤ available := by
      rw [UInt64.le_iff_toNat_le, hlast]
      exact Nat.not_le.2 h
    simp only [hsum, if_neg hlt]
  · simp only [sum?_of_le (Nat.le_of_not_lt hword)]

theorem cut_of_le {bytes : Bytes} {first last : UInt64} (hfirst : first.toNat ≤ last.toNat)
    (hlast : last.toNat ≤ bytes.length) :
    cut bytes first last = .ok (bytes.slice first.toNat (last.toNat - first.toNat)) :=
  if_pos ⟨UInt64.le_iff_toNat_le.2 hfirst, hlast⟩

end Word

/-!
# Reading in words

A region whose file is as large as it was mapped is read without fault.
-/

/-- The bytes that a region has been mapped to: all those of its file. -/
def Region.mapped (r : Region) (d : Directory) : Bytes :=
  (d.file r.file).read 0 (d.file r.file).size

def Region.readWords (r : Region) (d : Directory) (offset size : UInt64) : InWords Bytes :=
  match Word.checkRange .region offset size (.ofNat r.size) with
  | .error failure => .ok (.error failure)
  | .ok last => (Word.cut (r.mapped d) offset last).map .ok

/-- Reads from a handle.  The offset is moved to where the handle begins by a sum that is not
checked. -/
def Handle.readWords (h : Handle) (d : Directory) (offset size : UInt64) : InWords Bytes :=
  match Word.checkRange (.handle h.name) offset size (.ofNat h.size) with
  | .error failure => .ok (.error failure)
  | .ok _ =>
      match Word.sum? (.ofNat h.offset) offset with
      | none => .error .overflow
      | some start => h.mapping.region.readWords d start size

def Handle.elementWords (h : Handle) (d : Directory) (index stride : UInt64) : InWords Bytes :=
  match Word.product? index stride with
  | none => .ok (.error .elementOverflow)
  | some offset => h.readWords d offset stride

namespace Region

theorem length_mapped (r : Region) (d : Directory) :
    (r.mapped d).length = (d.file r.file).size := by
  unfold mapped
  rw [File.read_eq, List.length_map, List.length_range]

theorem slice_mapped (r : Region) (d : Directory) {offset size : Nat}
    (h : offset + size ≤ (d.file r.file).size) :
    (r.mapped d).slice offset size = (d.file r.file).read offset size := by
  rw [Bytes.slice_eq (by rw [length_mapped]; exact h), File.read_eq]
  apply List.map_congr_left
  intro i hi
  have hlt : offset + i < (d.file r.file).size := by
    have := List.mem_range.1 hi
    omega
  unfold mapped
  rw [File.read_eq, List.getD_eq_getElem?_getD, List.getElem?_map, List.getElem?_range hlt]
  simp

theorem read_of_lt (r : Region) (d : Directory) {offset size : Nat} (h : r.size < offset + size) :
    r.read d offset size = .error (.rangeExceeds offset size .region r.size) := by
  unfold read checkRange
  rw [if_neg (Nat.not_le.2 h)]
  rfl

theorem read_of_le (r : Region) (d : Directory) {offset size : Nat} (h : offset + size ≤ r.size) :
    r.read d offset size = .ok ((d.file r.file).read offset size) := by
  unfold read
  rw [checkRange_eq_ok.2 h]
  rfl

theorem readWords_eq {r : Region} {d : Directory} (hfile : (d.file r.file).size = r.size)
    (hword : r.size < UInt64.size) (offset size : UInt64) :
    r.readWords d offset size = .ok (r.read d offset.toNat size.toNat) := by
  have hsize : (UInt64.ofNat r.size).toNat = r.size := UInt64.toNat_ofNat_of_lt' hword
  unfold readWords
  by_cases hrange : offset.toNat + size.toNat ≤ r.size
  · rcases Word.checkRange_of_le .region offset size (.ofNat r.size)
      (by rw [hsize]; exact hrange) with ⟨last, hcheck, hlast⟩
    have hmapped : last.toNat ≤ (r.mapped d).length := by
      rw [length_mapped, hfile, hlast]
      exact hrange
    have hlength : last.toNat - offset.toNat = size.toNat := by omega
    simp only [hcheck]
    rw [Word.cut_of_le (by omega) hmapped, hlength, slice_mapped r d (by omega),
      r.read_of_le d hrange]
    rfl
  · have hlt : r.size < offset.toNat + size.toNat := Nat.lt_of_not_le hrange
    rw [Word.checkRange_of_lt .region _ _ _ (by rw [hsize]; exact hlt), hsize, r.read_of_lt d hlt]

end Region

namespace Handle

variable {h : Handle} {d : Directory}

/-- Whether a handle lies in a region that is as large as its file, and this is no larger than a
word can tell. -/
structure IsBounded (h : Handle) (d : Directory) : Prop where
  inside : h.IsInside
  file : (d.file h.mapping.region.file).size = h.mapping.region.size
  word : h.mapping.region.size < UInt64.size

theorem IsBounded.size_lt (hbounded : h.IsBounded d) :
    h.offset < UInt64.size ∧ h.size < UInt64.size := by
  have hinside : h.offset + h.size ≤ h.mapping.region.size := hbounded.inside
  have hword := hbounded.word
  omega

theorem read_of_lt (h : Handle) (d : Directory) {offset size : Nat} (hlt : h.size < offset + size) :
    h.read d offset size = .error (.rangeExceeds offset size (.handle h.name) h.size) := by
  unfold read checkRange
  rw [if_neg (Nat.not_le.2 hlt)]
  rfl

theorem IsBounded.readWords_eq (hbounded : h.IsBounded d) (offset size : UInt64) :
    h.readWords d offset size = .ok (h.read d offset.toNat size.toNat) := by
  have hinside : h.offset + h.size ≤ h.mapping.region.size := hbounded.inside
  have hword := hbounded.word
  have hoffset : (UInt64.ofNat h.offset).toNat = h.offset :=
    UInt64.toNat_ofNat_of_lt' hbounded.size_lt.1
  have hsize : (UInt64.ofNat h.size).toNat = h.size :=
    UInt64.toNat_ofNat_of_lt' hbounded.size_lt.2
  unfold readWords
  by_cases hrange : offset.toNat + size.toNat ≤ h.size
  · rcases Word.checkRange_of_le (.handle h.name) offset size (.ofNat h.size)
      (by rw [hsize]; exact hrange) with ⟨last, hcheck, _⟩
    -- the sum that is not checked stays below the size of the region
    rcases Word.sum?_of_lt (a := .ofNat h.offset) (b := offset) (by rw [hoffset]; omega) with
      ⟨start, hsum, hstart⟩
    rw [hoffset] at hstart
    have hregion : start.toNat + size.toNat ≤ h.mapping.region.size := by omega
    simp only [hcheck, hsum]
    rw [Region.readWords_eq hbounded.file hword, Region.read_of_le _ d hregion, hstart,
      hbounded.inside.read d hrange]
  · have hlt : h.size < offset.toNat + size.toNat := Nat.lt_of_not_le hrange
    rw [Word.checkRange_of_lt (.handle h.name) _ _ _ (by rw [hsize]; exact hlt), hsize,
      h.read_of_lt d hlt]

theorem IsBounded.elementWords_eq (hbounded : h.IsBounded d) (index stride : UInt64) :
    h.elementWords d index stride = .ok (h.element d index.toNat stride.toNat) := by
  unfold elementWords element
  by_cases hword : index.toNat * stride.toNat < Text.wordBound
  · rcases Word.product?_of_lt hword with ⟨offset, hproduct, hoffset⟩
    simp only [hproduct]
    rw [hbounded.readWords_eq, hoffset, if_pos hword]
  · simp only [Word.product?_of_le (Nat.le_of_not_lt hword)]
    rw [if_neg hword]

/-!
# Elements

An element that lies inside its handle is cut from the bytes of the region.
-/

theorem IsBounded.element_of_le (hbounded : h.IsBounded d) {index stride : Nat}
    (hle : (index + 1) * stride ≤ h.size) :
    h.element d index stride =
      .ok ((h.mapping.region.mapped d).slice (h.offset + index * stride) stride) := by
  have hinside : h.offset + h.size ≤ h.mapping.region.size := hbounded.inside
  have hsize : h.size < Text.wordBound := hbounded.size_lt.2
  rw [Nat.succ_mul] at hle
  rw [hbounded.inside.element hsize d hle, Region.slice_mapped _ _ (by rw [hbounded.file]; omega),
    File.read_eq]
  congr 1
  apply List.map_congr_left
  intro i _
  exact congrArg (d.file h.mapping.region.file).byte (by omega)

/-- An element that does not is refused, by the check of its offset or by that of its range. -/
theorem element_of_lt (h : Handle) (d : Directory) {index stride : Nat}
    (hlt : h.size < (index + 1) * stride) :
    h.element d index stride =
      .error (if index * stride < Text.wordBound then
        .rangeExceeds (index * stride) stride (.handle h.name) h.size
      else .elementOverflow) := by
  rw [Nat.succ_mul] at hlt
  unfold element
  by_cases hword : index * stride < Text.wordBound
  · rw [if_pos hword, if_pos hword, h.read_of_lt d hlt]
  · rw [if_neg hword, if_neg hword]

theorem IsBounded.element_eq_ok_iff (hbounded : h.IsBounded d) {index stride : Nat} {data : Bytes} :
    h.element d index stride = .ok data ↔ (index + 1) * stride ≤ h.size ∧
      data = (h.mapping.region.mapped d).slice (h.offset + index * stride) stride := by
  by_cases hle : (index + 1) * stride ≤ h.size
  · rw [hbounded.element_of_le hle, Except.ok.injEq]
    constructor
    · intro hdata
      exact ⟨hle, hdata.symm⟩
    · intro hdata
      exact hdata.2.symm
  · rw [h.element_of_lt d (Nat.lt_of_not_le hle)]
    constructor
    · intro hdata
      cases hdata
    · intro hdata
      exact absurd hdata.1 hle

theorem IsBounded.code_of_element (hbounded : h.IsBounded d) {index stride : Nat}
    {failure : Failure} (hfailure : h.element d index stride = .error failure) :
    failure.code = .invalidArg := by
  by_cases hle : (index + 1) * stride ≤ h.size
  · rw [hbounded.element_of_le hle] at hfailure
    cases hfailure
  · rw [h.element_of_lt d (Nat.lt_of_not_le hle)] at hfailure
    cases hfailure
    split <;> rfl

theorem IsBounded.le_length_mapped (hbounded : h.IsBounded d) {index stride : Nat}
    (hle : (index + 1) * stride ≤ h.size) :
    h.offset + index * stride + stride ≤ (h.mapping.region.mapped d).length := by
  have hinside : h.offset + h.size ≤ h.mapping.region.size := hbounded.inside
  rw [Nat.succ_mul] at hle
  rw [Region.length_mapped, hbounded.file]
  omega

end Handle

namespace Manager

theorem IsSound.isBounded {m : Manager} (hm : m.IsSound) {h : Handle} (hlive : m.IsLive h) :
    h.IsBounded m.directory := by
  have hadmits := hm.admits h hlive
  have hsize := hm.directory.size_lt h.mapping.region.file
  rw [hadmits.size_eq] at hsize
  exact ⟨hm.inside h hlive, hadmits.size_eq, Nat.lt_trans hsize (by decide)⟩

/-- After all calls, an element of a handle that is registered or held is read exactly if it ends
inside the handle, in exact arithmetic.  It is then cut from the bytes of the region, which are all
there; in all other cases it is refused as an invalid argument.  Computed in words, from an offset
and sizes that are words, it comes to the same: no sum overflows and no position is out of
bounds. -/
theorem elements_exact_in_words (calls : List Call) {h : Handle} (hlive : (reached calls).IsLive h)
    (index stride : UInt64) :
    let d := (reached calls).directory
    let region := h.mapping.region
    let element := h.element d index.toNat stride.toNat
    ((exists data : Bytes, element = .ok data) ↔ (index.toNat + 1) * stride.toNat ≤ h.size) ∧
    (forall data : Bytes, element = .ok data ->
      h.offset + index.toNat * stride.toNat + stride.toNat ≤ (region.mapped d).length ∧
      data = (region.mapped d).slice (h.offset + index.toNat * stride.toNat) stride.toNat ∧
      data.length = stride.toNat) ∧
    (forall failure : Failure, element = .error failure -> failure.code = .invalidArg) ∧
    h.elementWords d index stride = .ok element ∧
    h.offset < UInt64.size ∧ h.size < UInt64.size ∧ region.size < UInt64.size := by
  have hbounded := (isSound_reached calls).isBounded hlive
  intro d region element
  refine ⟨?_, ?_, fun failure => hbounded.code_of_element,
    hbounded.elementWords_eq index stride, hbounded.size_lt.1, hbounded.size_lt.2, hbounded.word⟩
  · constructor
    · intro hok
      rcases hok with ⟨data, hdata⟩
      exact (hbounded.element_eq_ok_iff.1 hdata).1
    · intro hle
      exact ⟨_, hbounded.element_of_le hle⟩
  · intro data hdata
    rcases hbounded.element_eq_ok_iff.1 hdata with ⟨hle, hslice⟩
    have hend := hbounded.le_length_mapped hle
    refine ⟨hend, hslice, ?_⟩
    rw [hslice]
    exact Bytes.length_slice hend

/-- A handle that begins in the middle of its region, is held after its name was given up, and whose
file has lost its name too. -/
def elementRun : List Call :=
  [.create "/k" 9, .register "h" "k" 2 6, .hold "h" "b", .arrive 0 0 [0, 1, 2, 3, 4, 5, 6, 7, 8],
    .unregister "h", .unlink "k"]

def elementHandle : Handle := ⟨"h", ⟨0, ⟨"k", "k", 9, 0⟩⟩, 2, 6⟩

theorem elements_of_elementRun :
    (reached elementRun).IsLive elementHandle ∧
    elementHandle.element (reached elementRun).directory 1 3 = .ok [5, 6, 7] ∧
    elementHandle.elementWords (reached elementRun).directory 1 3 = .ok (.ok [5, 6, 7]) ∧
    elementHandle.elementWords (reached elementRun).directory 2 3 =
      .ok (.error (.rangeExceeds 6 3 (.handle "h") 6)) ∧
    elementHandle.elementWords (reached elementRun).directory 0xffffffffffffffff 2 =
      .ok (.error .elementOverflow) ∧
    ¬ (0xffffffffffffffff + 1) * 2 ≤ elementHandle.size := by
  have hlive : (reached elementRun).IsLive elementHandle := .inr (.head _)
  have hsecond := elements_exact_in_words elementRun hlive 1 3
  have hthird := elements_exact_in_words elementRun hlive 2 3
  have hlast := elements_exact_in_words elementRun hlive 0xffffffffffffffff 2
  have hbytes : elementHandle.element (reached elementRun).directory 1 3 = .ok [5, 6, 7] := rfl
  refine ⟨hlive, hbytes, hsecond.2.2.2.1.trans (congrArg Except.ok hbytes),
    hthird.2.2.2.1, hlast.2.2.2.1, ?_⟩
  decide

end Manager

end InferenceEngine
