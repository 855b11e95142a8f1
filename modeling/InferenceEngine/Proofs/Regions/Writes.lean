import InferenceEngine.Proofs.Execution.Deliveries
import InferenceEngine.Proofs.Regions.Handles
import InferenceEngine.Proofs.Runs.Parts

/-!
# What is written to regions

A delivery writes the slots that are bound to ranges, one after the other.  None of these writes can
fail, so that either all of them are made or none, and where ranges overlap, the last one shows.
-/

namespace InferenceEngine

/-!
# Bytes of files
-/

theorem Bytes.getD_overwrite {bytes : Bytes} {offset : Nat} (h : offset ≤ bytes.length)
    (data : Bytes) (position : Nat) :
    (bytes.overwrite offset data).getD position 0 =
      if offset ≤ position ∧ position < offset + data.length then data.getD (position - offset) 0
      else bytes.getD position 0 := by
  unfold Bytes.overwrite
  rw [List.append_assoc]
  simp only [List.getD_eq_getElem?_getD]
  have htake : (bytes.take offset).length = offset := List.length_take_of_le h
  by_cases hbefore : position < offset
  · rw [List.getElem?_append_left (by rw [htake]; exact hbefore),
      List.getElem?_take_of_lt hbefore, if_neg (fun hboth => Nat.not_le_of_lt hbefore hboth.1)]
  · have hafter : offset ≤ position := Nat.le_of_not_lt hbefore
    rw [List.getElem?_append_right (by rw [htake]; exact hafter), htake]
    by_cases hinside : position < offset + data.length
    · have hdata : position - offset < data.length := by omega
      rw [List.getElem?_append_left hdata, if_pos ⟨hafter, hinside⟩]
    · have hbehind : data.length ≤ position - offset := by omega
      rw [List.getElem?_append_right hbehind, List.getElem?_drop,
        if_neg fun hboth => hinside hboth.2]
      congr 2
      omega

theorem File.byte_write (f : File) (offset position : Nat) (data : Bytes) :
    (f.write offset data).byte position =
      if offset ≤ position ∧ position < offset + data.length then data.getD (position - offset) 0
      else f.byte position := by
  have hlong : offset ≤ (f.written ++ Bytes.zeros (offset - f.written.length)).length := by
    rw [List.length_append, Bytes.length_zeros]
    omega
  have hpadded : (f.written ++ Bytes.zeros (offset - f.written.length)).getD position 0 =
      f.written.getD position 0 := by
    simp only [List.getD_eq_getElem?_getD]
    by_cases hheld : position < f.written.length
    · rw [List.getElem?_append_left hheld]
    · have hbeyond : f.written.length ≤ position := Nat.le_of_not_lt hheld
      rw [List.getElem?_append_right hbeyond, List.getElem?_eq_none hbeyond]
      unfold Bytes.zeros
      rw [List.getElem?_replicate]
      split <;> rfl
  unfold File.write File.byte
  rw [Bytes.getD_overwrite hlong, hpadded]

theorem Directory.file_modifyFile (d : Directory) (n m : Nat) (f : File -> File) :
    (d.modifyFile n f).file m =
      if m = n ∧ n < d.files.length then f (d.file n) else d.file m :=
  getD_modify d.files n m f _

/-!
# Writing to ranges
-/

namespace ResolvedRange

def start (r : ResolvedRange) : Nat := r.handle.offset + r.range.offset

def file (r : ResolvedRange) : Nat := r.handle.mapping.region.file

def holds (r : ResolvedRange) (file position : Nat) : Bool :=
  r.file = file && r.start ≤ position && position < r.start + r.range.size

def put (r : ResolvedRange) (d : Directory) (data : Bytes) : Directory :=
  d.modifyFile r.file fun f => f.write r.start data

theorem byte_put (r : ResolvedRange) (d : Directory) {data : Bytes}
    (hdata : data.length = r.range.size) {n : Nat} (hn : n < d.files.length) (position : Nat) :
    ((r.put d data).file n).byte position =
      if r.holds n position then data.getD (position - r.start) 0
      else (d.file n).byte position := by
  unfold put
  rw [Directory.file_modifyFile]
  by_cases hfile : r.file = n
  · rw [if_pos ⟨hfile.symm, by rw [hfile]; exact hn⟩, File.byte_write, hfile, hdata]
    simp [holds, hfile]
  · rw [if_neg fun hboth => hfile hboth.1.symm]
    simp [holds, hfile]

end ResolvedRange

namespace Directory

/-- The files once a slot has been written to the range of its output, if it has one. -/
def accept (d : Directory) (pair : OutputSlot × PreparedOutput) : Directory :=
  match pair.2.destination with
  | none => d
  | some range => range.put d pair.1.buffer.bytes

/-- The files once slots have been written to the ranges of their outputs, in order. -/
def receive (d : Directory) (pairs : List (OutputSlot × PreparedOutput)) : Directory :=
  pairs.foldl accept d

def brought? (n position : Nat) (pair : OutputSlot × PreparedOutput) : Option UInt8 :=
  match pair.2.destination with
  | none => none
  | some range =>
    if range.holds n position then some (pair.1.buffer.bytes.getD (position - range.start) 0)
    else none

structure Refills (d d' : Directory) : Prop where
  names : d'.names = d.names
  length : d'.files.length = d.files.length
  size : forall n : Nat, (d'.file n).size = (d.file n).size

theorem refills_write (d : Directory) (file start : Nat) (data : Bytes) :
    d.Refills (d.modifyFile file fun f => f.write start data) where
  names := rfl
  length := by simp [modifyFile]
  size n := by
    rw [file_modifyFile]
    split
    · rename_i hboth
      rw [hboth.1]
      rfl
    · rfl

theorem refills_put (r : ResolvedRange) (d : Directory) (data : Bytes) :
    d.Refills (r.put d data) := d.refills_write r.file r.start data

theorem refills_receive (pairs : List (OutputSlot × PreparedOutput)) (d : Directory) :
    d.Refills (d.receive pairs) := by
  induction pairs generalizing d with
  | nil => exact ⟨rfl, rfl, fun _ => rfl⟩
  | cons pair rest ih =>
      have hone : d.Refills (d.accept pair) := by
        unfold accept
        split
        · exact ⟨rfl, rfl, fun _ => rfl⟩
        · exact refills_put _ d _
      have hrest := ih (d.accept pair)
      exact ⟨hrest.names.trans hone.names, hrest.length.trans hone.length,
        fun n => (hrest.size n).trans (hone.size n)⟩

theorem byte_accept (d : Directory) {pair : OutputSlot × PreparedOutput}
    (hsize : forall range, pair.2.destination = some range ->
      pair.1.buffer.bytes.length = range.range.size)
    {n : Nat} (hn : n < d.files.length) (position : Nat) :
    ((d.accept pair).file n).byte position =
      (brought? n position pair).getD ((d.file n).byte position) := by
  unfold accept brought?
  cases hdestination : pair.2.destination with
  | none => rfl
  | some range =>
      show ((range.put d pair.1.buffer.bytes).file n).byte position = _
      rw [range.byte_put d (hsize range hdestination) hn]
      simp only
      split <;> rfl

/-- At each position of a file there is what the last slot has brought whose range holds it, and
otherwise what there was. -/
theorem byte_receive {pairs : List (OutputSlot × PreparedOutput)} (d : Directory)
    (hsizes : forall pair, pair ∈ pairs -> forall range,
      pair.2.destination = some range -> pair.1.buffer.bytes.length = range.range.size)
    {n : Nat} (hn : n < d.files.length) (position : Nat) :
    ((d.receive pairs).file n).byte position =
      (pairs.reverse.findSome? (brought? n position)).getD ((d.file n).byte position) := by
  induction pairs generalizing d with
  | nil => rfl
  | cons pair rest ih =>
      have hlength : n < (d.accept pair).files.length := by
        rw [(refills_receive [pair] d).length.symm] at hn
        exact hn
      have hlater := ih (d.accept pair)
        (fun other hother => hsizes other (List.mem_cons_of_mem _ hother)) hlength
      rw [List.reverse_cons, List.findSome?_append, List.findSome?_singleton]
      rw [d.byte_accept (hsizes pair List.mem_cons_self) hn] at hlater
      refine hlater.trans ?_
      cases rest.reverse.findSome? (brought? n position) <;> rfl

end Directory

/-!
# Delivering

A delivery of slots that fit does not fail, and writes them all.
-/

namespace Execution

/-- Whether a slot fits the range of its output, and that lies inside its region. -/
def Deliverable (pair : OutputSlot × PreparedOutput) : Prop :=
  forall range, pair.2.destination = some range ->
    range.IsInside ∧ pair.1.buffer.bytes.length = range.range.size

theorem deliverSlot_of_deliverable {s : Delivery} (hs : s.failure = none)
    {pair : OutputSlot × PreparedOutput} (h : Deliverable pair) :
    (deliverSlot s pair.1 pair.2).failure = none ∧
      (deliverSlot s pair.1 pair.2).memory.directory = s.memory.directory.accept pair := by
  unfold deliverSlot Directory.accept
  cases hdestination : pair.2.destination with
  | none => exact ⟨hs, rfl⟩
  | some range =>
      rcases h range hdestination with ⟨hinside, hsize⟩
      have hwrite : range.write s.memory.directory pair.1.buffer.bytes =
          .ok (range.put s.memory.directory pair.1.buffer.bytes) :=
        hinside.write s.memory.directory hsize
      simp only [hs, hwrite]
      exact ⟨rfl, rfl⟩

theorem deliverSlots_of_deliverable {pairs : List (OutputSlot × PreparedOutput)} {s : Delivery}
    (hs : s.failure = none) (h : forall pair, pair ∈ pairs -> Deliverable pair) :
    (pairs.foldl (fun s pair => deliverSlot s pair.1 pair.2) s).failure = none ∧
      (pairs.foldl (fun s pair => deliverSlot s pair.1 pair.2) s).memory.directory =
        s.memory.directory.receive pairs := by
  induction pairs generalizing s with
  | nil => exact ⟨hs, rfl⟩
  | cons pair rest ih =>
      rcases deliverSlot_of_deliverable hs (h pair List.mem_cons_self) with ⟨hfirst, hreceived⟩
      rcases ih hfirst fun other hother => h other (List.mem_cons_of_mem _ hother) with
        ⟨hfailure, hdirectory⟩
      refine ⟨hfailure, ?_⟩
      rw [List.foldl_cons, hdirectory, hreceived]
      rfl

theorem deliver_of_deliverable {m : Memory} {slots : List OutputSlot}
    {outputs : List PreparedOutput}
    (h : forall pair, pair ∈ slots.zip outputs -> Deliverable pair) :
    (exists results, (deliver m slots outputs).1 = .ok results) ∧
      (deliver m slots outputs).2.1.directory = m.directory.receive (slots.zip outputs) := by
  rcases deliverSlots_of_deliverable (s := ⟨m, none, [], []⟩) rfl h with ⟨hfailure, hdirectory⟩
  simp only [deliver, hfailure]
  exact ⟨⟨_, rfl⟩, hdirectory⟩

theorem sizes_of_checkPairs {config : ModelConfig} {pairs : List (OutputSlot × PreparedOutput)}
    (h : checkPairs config pairs = .ok ()) :
    forall pair, pair ∈ pairs -> pair.1.size = pair.2.size := by
  induction pairs with
  | nil =>
      intro pair hpair
      cases hpair
  | cons first rest ih =>
      unfold checkPairs at h
      split at h
      · rename_i hplace
        simp only [isInPlace, Bool.and_eq_true, decide_eq_true_eq] at hplace
        intro pair hpair
        rcases List.mem_cons.1 hpair with rfl | hrest
        · exact hplace.1.1.2
        · exact ih h pair hrest
      · cases h

theorem deliverable_of_checkSlots {config : ModelConfig} {slots : List OutputSlot}
    {outputs : List PreparedOutput} (h : checkSlots config slots outputs = .ok ())
    (hsound : forall output, output ∈ outputs -> forall range,
      output.destination = some range -> range.IsInside ∧ range.range.size = output.size) :
    forall pair, pair ∈ slots.zip outputs -> Deliverable pair := by
  intro pair hpair range hrange
  rcases hsound pair.2 (List.of_mem_zip hpair).2 range hrange with ⟨hinside, hsize⟩
  unfold checkSlots at h
  rw [if_neg fun hne => hne (length_of_checkSlots h)] at h
  exact ⟨hinside, (sizes_of_checkPairs h pair hpair).trans hsize.symm⟩

/-- All or nothing: an execution that fails leaves the files alone, and one that succeeds has
written all slots. -/
theorem conclude_of_isSound {request : PreparedRequest} (hsound : request.IsSound) (m : Memory)
    (result : Except Failure Unit) (slots : List OutputSlot) :
    (exists failure : Failure,
      (conclude m request.model.config request.outputs result slots).1 = .error failure ∧
      (conclude m request.model.config request.outputs result slots).2.1.directory =
        m.directory) ∨
    (result = .ok () ∧ checkSlots request.model.config slots request.outputs = .ok () ∧
      (exists results,
        (conclude m request.model.config request.outputs result slots).1 = .ok results) ∧
      (conclude m request.model.config request.outputs result slots).2.1.directory =
        m.directory.receive (slots.zip request.outputs)) := by
  unfold conclude
  split
  · rename_i hchecked
    rcases bind_eq_ok hchecked with ⟨_, hresult, hslots⟩
    rcases deliver_of_deliverable (m := m)
      (deliverable_of_checkSlots hslots hsound.output) with ⟨hok, hdirectory⟩
    exact .inr ⟨hresult, hslots, hok, hdirectory⟩
  · exact .inl ⟨_, rfl, rfl⟩

end Execution

end InferenceEngine
