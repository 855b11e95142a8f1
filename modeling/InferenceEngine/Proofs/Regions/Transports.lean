import InferenceEngine.Proofs.Execution.Contents

/-!
# Elements of outputs

An output holds one element for each instance of its batch, and all of them have the same size.  An
inline output is cut into as many parts as the batch has instances; one that was delivered to a
handle is read there at multiples of the size.  Both give the same elements.
-/

namespace InferenceEngine

/-!
# Slices

Slices of one size that follow each other make up what they are cut from.
-/

namespace Bytes

theorem length_slice {bytes : Bytes} {offset size : Nat} (h : offset + size ≤ bytes.length) :
    (bytes.slice offset size).length = size := by
  unfold slice
  rw [List.length_take, List.length_drop]
  omega

theorem slice_eq {bytes : Bytes} {offset size : Nat} (h : offset + size ≤ bytes.length) :
    bytes.slice offset size = (List.range size).map fun i => bytes.getD (offset + i) 0 := by
  apply List.ext_getElem
  · rw [length_slice h, List.length_map, List.length_range]
  · intro i hi _
    rw [length_slice h] at hi
    have hinside : offset + i < bytes.length := by omega
    rw [List.getElem_map, List.getElem_range, ← List.getElem_eq_getD (h := hinside) 0]
    simp only [slice, List.getElem_take, List.getElem_drop]

theorem flatten_slices (bytes : Bytes) (size count : Nat) :
    ((List.range count).map fun i => bytes.slice (i * size) size).flatten =
      bytes.take (count * size) := by
  induction count with
  | zero => rw [Nat.zero_mul, List.range_zero, List.map_nil, List.flatten_nil, List.take_zero]
  | succ count ih =>
      rw [List.range_succ, List.map_append, List.flatten_append, ih, List.map_singleton,
        List.flatten_singleton, Nat.succ_mul, List.take_add]
      rfl

end Bytes

theorem succ_mul_le_of_lt {index batch size : Nat} (h : index < batch) :
    index * size + size ≤ batch * size := by
  rw [← Nat.succ_mul]
  exact Nat.mul_le_mul_right size h

/-!
# Elements of responses

Each inline output of a good response is a batch of elements.
-/

namespace Response

/-- Whether a response gives out an output as elements of one size, one for each instance of the
batch, that make up its bytes.  All positions that are computed are words. -/
structure HasElements (r : Response) (name : String) (size : Nat) (data : Bytes) : Prop where
  given : r.outputData name = .ok data
  length : data.length = r.batchSize * size
  word : data.length < Text.wordBound
  exact : data.length % r.batchSize = 0 ∧ data.length / r.batchSize = size
  inside : forall index : Nat, index < r.batchSize -> (index + 1) * size ≤ data.length
  element : forall index : Nat, index < r.batchSize ->
    r.outputElement name index = .ok (data.slice (index * size) size)
  whole : exists elements : List Bytes,
    (List.range r.batchSize).mapM (r.outputElement name) = .ok elements ∧ elements.flatten = data
  beyond : forall index : Nat, r.batchSize ≤ index -> exists failure : Failure,
    r.outputElement name index = .error failure ∧ failure.code = .invalidArg

theorem outputElement_of_data {r : Response} {name : String} {data : Bytes}
    (h : r.outputData name = .ok data) (index : Nat) :
    r.outputElement name index =
      if index < r.batchSize then
        .ok (data.slice (index * (data.length / r.batchSize)) (data.length / r.batchSize))
      else .error (.batchIndex index r.batchSize) := by
  unfold outputElement
  rw [h]
  rfl

theorem hasElements_of_data {r : Response} {name : String} {data : Bytes} {size : Nat}
    (hbatch : 1 ≤ r.batchSize) (hdata : r.outputData name = .ok data)
    (hlength : data.length = r.batchSize * size) (hword : data.length < Text.wordBound) :
    r.HasElements name size data := by
  have hstride : data.length / r.batchSize = size := by
    rw [hlength]
    exact Nat.mul_div_cancel_left size hbatch
  have helement : forall index : Nat, index < r.batchSize ->
      r.outputElement name index = .ok (data.slice (index * size) size) := by
    intro index hindex
    rw [outputElement_of_data hdata, if_pos hindex, hstride]
  refine ⟨hdata, hlength, hword, ⟨?_, hstride⟩, ?_, helement, ?_, ?_⟩
  · rw [hlength]
    exact Nat.mul_mod_right _ _
  · intro index hindex
    rw [hlength]
    exact Nat.mul_le_mul_right size hindex
  · refine ⟨_, mapM_of_forall fun index hindex => helement index (List.mem_range.1 hindex), ?_⟩
    rw [Bytes.flatten_slices, ← hlength]
    exact List.take_length
  · intro index hindex
    rw [outputElement_of_data hdata, if_neg (Nat.not_lt.2 hindex)]
    exact ⟨_, rfl, rfl⟩

theorem IsTo.hasElements {r : Response} {p : Provider} (h : r.IsTo p) (hfits : p.outline.Fits)
    (hbatch : 1 ≤ p.header.batchSize) (hok : r.status = .ok ()) {b : OutputBinding}
    (hb : b ∈ p.outputs) (hinline : b.destination = none) :
    exists (size : Nat) (data : Bytes), b.spec.instanceByteSize = .ok size ∧
      r.HasElements b.spec.name size data := by
  rcases h.storage hok hfits hb with ⟨storage, hstorage, hholds⟩
  have hsized := hfits.sized hb
  unfold TensorSpec.batchByteSize at hsized
  rcases bind_eq_ok hsized with ⟨size, hsize, _⟩
  rcases hfits.expected_eq hb with ⟨hexpected, hword⟩
  have htotal : b.expected = r.batchSize * size := by
    rw [hexpected, h.batchSize, TensorSpec.instanceByteSize_eq_ok hsize]
    exact Nat.mul_comm _ _
  cases storage with
  | inline buffer =>
      have hlength : buffer.bytes.length = b.expected := hholds.2
      refine ⟨size, buffer.bytes, hsize, hasElements_of_data ?_ (outputData_of_inline hstorage)
        (hlength.trans htotal) ?_⟩
      · rw [h.batchSize]
        exact hbatch
      · rw [hlength, hexpected]
        exact hword
  | delivered range =>
      rw [hholds.1] at hinline
      cases hinline

end Response

/-!
# Elements of handles

The elements of a handle are cut from the bytes that it shows.
-/

namespace Handle

/-- Whether the files hold certain bytes at a handle, and it is as long as these. -/
def Shows (h : Handle) (d : Directory) (data : Bytes) : Prop :=
  data.length = h.size ∧ forall position : Nat, position < h.size ->
    h.byte d position = data.getD position 0

theorem IsInside.element {h : Handle} (hinside : h.IsInside) (hword : h.size < Text.wordBound)
    (d : Directory) {index size : Nat} (hle : index * size + size ≤ h.size) :
    h.element d index size =
      .ok ((List.range size).map fun i => h.byte d (index * size + i)) := by
  have hregion : h.offset + index * size + size ≤ h.mapping.region.size := by
    have hhandle : h.offset + h.size ≤ h.mapping.region.size := hinside
    omega
  have hread : h.read d (index * size) size =
      .ok ((d.file h.mapping.region.file).read (h.offset + index * size) size) := by
    unfold Handle.read Region.read
    rw [checkRange_eq_ok.2 hle, checkRange_eq_ok.2 hregion]
    rfl
  unfold Handle.element
  rw [if_pos (by omega), hread, ← Handle.read_eq_ok hread]

def LooksSame (h : Handle) (d d' : Directory) : Prop :=
  forall position : Nat, position < h.size -> h.byte d position = h.byte d' position

theorem Shows.of_looksSame {h : Handle} {d d' : Directory} {data : Bytes} (hshows : h.Shows d' data)
    (hsame : h.LooksSame d d') : h.Shows d data :=
  ⟨hshows.1, fun position hposition =>
    (hsame position hposition).trans (hshows.2 position hposition)⟩

theorem Shows.element {h : Handle} {d : Directory} {data : Bytes} (hshows : h.Shows d data)
    (hinside : h.IsInside) (hword : h.size < Text.wordBound) {index size : Nat}
    (hle : index * size + size ≤ h.size) :
    h.element d index size = .ok (data.slice (index * size) size) := by
  rcases hshows with ⟨hlength, hbytes⟩
  rw [hinside.element hword d hle, Bytes.slice_eq (by omega)]
  congr 1
  apply List.map_congr_left
  intro i hi
  apply hbytes
  have hlt := List.mem_range.1 hi
  omega

end Handle

namespace ResolvedRange

def IsApart (r other : ResolvedRange) : Prop :=
  forall file position : Nat, r.holds file position = true -> other.holds file position = false

theorem holds_of_start {r : ResolvedRange} (hstart : r.range.offset = 0) {position : Nat}
    (h : position < r.range.size) : r.holds r.file (r.handle.offset + position) = true := by
  simp [holds, start, hstart, h]

theorem shows_put {r : ResolvedRange} (hstart : r.range.offset = 0) {data : Bytes}
    (hdata : data.length = r.range.size) (hwhole : r.handle.size = r.range.size) {d : Directory}
    (hfile : r.file < d.files.length) : r.handle.Shows (r.put d data) data := by
  constructor
  · rw [hdata, hwhole]
  · intro position hposition
    have hbegin : r.start = r.handle.offset := by
      unfold start
      rw [hstart, Nat.add_zero]
    have hholds := holds_of_start hstart (hwhole ▸ hposition)
    unfold Handle.byte
    show ((r.put d data).file r.file).byte (r.handle.offset + position) = _
    rw [r.byte_put d hdata hfile, if_pos hholds, hbegin, Nat.add_sub_cancel_left]

end ResolvedRange

theorem Directory.byte_receive_of_apart {pairs : List (OutputSlot × PreparedOutput)}
    {d : Directory} (hsizes : forall pair, pair ∈ pairs -> forall range,
      pair.2.destination = some range -> pair.1.buffer.bytes.length = range.range.size)
    {n position : Nat} (hn : n < d.files.length)
    (hapart : forall pair, pair ∈ pairs -> forall range, pair.2.destination = some range ->
      range.holds n position = false) :
    ((d.receive pairs).file n).byte position = (d.file n).byte position := by
  have hnone : pairs.reverse.findSome? (brought? n position) = none := by
    apply List.findSome?_eq_none_iff.2
    intro pair hpair
    unfold brought?
    cases hdestination : pair.2.destination with
    | none => rfl
    | some range =>
        simp [hapart pair (List.mem_reverse.1 hpair) range hdestination]
  rw [d.byte_receive hsizes hn, hnone]
  rfl

/-- An output that is delivered to a range of a handle in files that exist, among all outputs that
are received with it. -/
structure Landing (files : Directory) (pairs : List (OutputSlot × PreparedOutput)) where
  written : List (OutputSlot × PreparedOutput)
  slot : OutputSlot
  output : PreparedOutput
  later : List (OutputSlot × PreparedOutput)
  range : ResolvedRange
  split : pairs = written ++ (slot, output) :: later
  destination : output.destination = some range
  file : range.file < files.files.length

namespace Landing

variable {files : Directory} {pairs : List (OutputSlot × PreparedOutput)}
  (landing : Landing files pairs)

def filled : Directory :=
  (files.receive landing.written).accept (landing.slot, landing.output)

def IsKept : Prop :=
  forall pair, pair ∈ landing.later -> forall taken, pair.2.destination = some taken ->
    landing.range.IsApart taken

theorem mem : (landing.slot, landing.output) ∈ pairs := by
  have hmem : (landing.slot, landing.output) ∈
      landing.written ++ (landing.slot, landing.output) :: landing.later :=
    List.mem_append_right _ List.mem_cons_self
  rwa [← landing.split] at hmem

theorem mem_of_later {pair : OutputSlot × PreparedOutput} (h : pair ∈ landing.later) :
    pair ∈ pairs := by
  have hmem : pair ∈ landing.written ++ (landing.slot, landing.output) :: landing.later :=
    List.mem_append_right _ (List.mem_cons_of_mem _ h)
  rwa [← landing.split] at hmem

theorem filled_eq : landing.filled =
    landing.range.put (files.receive landing.written) landing.slot.buffer.bytes := by
  unfold filled Directory.accept
  simp only [landing.destination]

theorem receive_eq : files.receive pairs = landing.filled.receive landing.later := by
  conv_lhs => rw [landing.split]
  unfold Directory.receive
  rw [List.foldl_append, List.foldl_cons]
  rfl

theorem lt_of_written : landing.range.file < (files.receive landing.written).files.length := by
  rw [(Directory.refills_receive landing.written files).length]
  exact landing.file

/-- What fills all of a handle can be read there as soon as it is written, and still after all other
outputs unless one of them is written over it. -/
theorem shows (hsizes : forall pair, pair ∈ pairs -> forall range,
      pair.2.destination = some range -> pair.1.buffer.bytes.length = range.range.size)
    (hstart : landing.range.range.offset = 0)
    (hwhole : landing.range.handle.size = landing.slot.buffer.bytes.length) :
    landing.range.handle.Shows landing.filled landing.slot.buffer.bytes ∧
      (landing.IsKept ->
        landing.range.handle.Shows (files.receive pairs) landing.slot.buffer.bytes) := by
  have hlength := hsizes _ landing.mem _ landing.destination
  have hshows : landing.range.handle.Shows landing.filled landing.slot.buffer.bytes := by
    rw [landing.filled_eq]
    exact ResolvedRange.shows_put hstart hlength (hwhole.trans hlength) landing.lt_of_written
  refine ⟨hshows, fun hkept => ⟨hshows.1, ?_⟩⟩
  intro position hposition
  rw [← hshows.2 position hposition, landing.receive_eq]
  apply Directory.byte_receive_of_apart
  · exact fun pair hpair => hsizes pair (landing.mem_of_later hpair)
  · rw [landing.filled_eq, (Directory.refills_put landing.range _ _).length]
    exact landing.lt_of_written
  · intro pair hpair taken htaken
    apply hkept pair hpair taken htaken
    apply ResolvedRange.holds_of_start hstart
    rw [← hlength, ← hwhole]
    exact hposition

end Landing

namespace Engine

/-!
# Both transports
-/

/-- A provider that was made at some time and changed since is accepted, and its callback is called
with a good response.  Then each of its inline outputs is a batch of elements of the size that the
model declares for one instance.  Take any good response to any request of any run, the same one
over again or another, that is delivered to the start of a handle of exactly that many bytes, and
say that its backend has left the same bytes.  Then the handle gives the same elements for as long
as its bytes are not written over, and nobody has done so by the end of the turn unless a later
output of that request lies in the same place. -/
theorem transports_agree {earlier before e : Engine} (hearlier : earlier.Reachable)
    (hbefore : before.Reachable) {owner server callback n : Nat} {model : String}
    {choice : VersionChoice} {header : RequestHeader} {made : Provider}
    (hmade : earlier.provider owner model choice header = .ok made)
    (changes : List Provider.Edit)
    (haccepted : (before.submit server (made.edited changes) callback).1 = .ok n)
    (he : Moves (fun _ => True) (before.submit server (made.edited changes) callback).2 e)
    {c : Completion} (hc : c ∈ e.completions) (hn : c.submission = n)
    (hok : c.response.status = .ok ()) :
    c.response.batchSize = header.batchSize ∧ 1 ≤ header.batchSize ∧
    forall b, b ∈ (made.edited changes).outputs -> b.destination = none ->
      exists (size : Nat) (data : Bytes), b.spec.instanceByteSize = .ok size ∧
        c.response.HasElements b.spec.name size data ∧
        forall (ops : List Operation) (other : Completion), other ∈ (reached ops).completions ->
          other.response.status = .ok () -> exists (i : Nat) (slots : List OutputSlot),
            TurnAt ops i other.submission ∧
            (reached (ops.take i)).Delivers other.submission slots (reached (ops.take (i + 1))) ∧
            forall landing : Landing (reached (ops.take i)).directory
                (slots.zip ((reached (ops.take i)).submission other.submission).request.outputs),
              landing.range.range.offset = 0 ->
              landing.range.handle.size = header.batchSize * size ->
              landing.slot.buffer.bytes = data ->
                (forall d : Directory, landing.range.handle.LooksSame d landing.filled ->
                  forall index : Nat, index < header.batchSize ->
                    landing.range.handle.element d index size =
                      c.response.outputElement b.spec.name index) ∧
                (landing.IsKept -> forall index : Nat, index < header.batchSize ->
                  landing.range.handle.element (reached (ops.take (i + 1))).directory index size =
                    c.response.outputElement b.spec.name index) := by
  rcases hearlier.edited hmade changes with ⟨hfits, hmodel, hheader, _⟩
  have hto := Moves.isTo hbefore haccepted he hc hn
  have htakes : made.model.config.Takes header := Provider.takes_of_new hmade
  have hbatch : c.response.batchSize = header.batchSize := hto.batchSize.trans
    (congrArg RequestHeader.batchSize hheader)
  refine ⟨hbatch, htakes.batch.1, ?_⟩
  intro b hb hinline
  have hpositive : 1 ≤ (made.edited changes).header.batchSize := by
    rw [hheader]
    exact htakes.batch.1
  rcases hto.hasElements hfits hpositive hok hb hinline with ⟨size, data, hsize, helements⟩
  refine ⟨size, data, hsize, helements, ?_⟩
  intro ops other hother hgood
  rcases exists_turn ops hother (isOk_of_status hgood) with ⟨i, slots, hturn, hdelivers⟩
  refine ⟨i, slots, hturn, hdelivers, ?_⟩
  intro landing hstart hsame hdata
  have hdeliverable := Execution.deliverable_of_checkSlots hdelivers.checked
    (isSound_request (ops.take i) other.submission).output
  have hlength := helements.length
  rw [hbatch] at hlength
  have hwhole : landing.range.handle.size = landing.slot.buffer.bytes.length := by
    rw [hsame, hdata, hlength]
  have hword : landing.range.handle.size < Text.wordBound := by
    rw [hwhole, hdata]
    exact helements.word
  have hinside : landing.range.handle.IsInside :=
    (hdeliverable _ landing.mem _ landing.destination).1.handle
  have helement : forall d : Directory,
      landing.range.handle.Shows d landing.slot.buffer.bytes ->
        forall index : Nat, index < header.batchSize ->
          landing.range.handle.element d index size =
            c.response.outputElement b.spec.name index := by
    intro d hshows index hindex
    have hle : index * size + size ≤ landing.range.handle.size := by
      rw [hsame]
      exact succ_mul_le_of_lt hindex
    rw [hshows.element hinside hword hle, hdata, helements.element index (hbatch ▸ hindex)]
  rcases landing.shows (fun pair hpair range hrange => (hdeliverable pair hpair range hrange).2)
    hstart hwhole with ⟨hfilled, hafter⟩
  constructor
  · intro d hlooks
    exact helement d (hfilled.of_looksSame hlooks)
  · intro hkept
    rw [hdelivers.directory]
    exact helement _ (hafter hkept)

/-- The request for a copy of two bytes again, with a handle of two bytes for its output. -/
def filledRun : List Operation :=
  copyRun ++ [.setDirectory (Directory.empty.addFile "region" 4),
    .register 0 "handle" "region" 1 2,
    .submit 0 (copyProvider.edited
      [.append "in" [1], .append "in" [2], .bindOutput "out" ⟨"handle", 0, 2⟩]) 7, .runAt 0]

theorem element_of_filledRun :
    (reached answeredRun).completions.map (fun c => c.response.outputElement "out" 0) =
      [.ok [1, 2]] ∧
    exists (c : Completion) (handle : Handle), c ∈ (reached answeredRun).completions ∧
      ((reached filledRun).server 0).registry.handles.get? "handle" = some handle ∧
      handle.size = 2 ∧
      handle.element (reached filledRun).directory 0 2 = c.response.outputElement "out" 0 := by
  have hreachable := reachable_reached copyRun
  have haccepted : ((reached copyRun).submit 0
      (copyProvider.edited [.append "in" [1], .append "in" [2]]) 7).1 = .ok 0 := rfl
  have hother : (reached filledRun).completions.headD default ∈
      (reached filledRun).completions := by
    have hall : (reached filledRun).completions =
        [(reached filledRun).completions.headD default] := rfl
    rw [hall]
    exact List.mem_singleton_self _
  rcases (transports_agree hreachable hreachable provider_copyRun
    [.append "in" [1], .append "in" [2]] haccepted moves_answeredRun
    mem_completions_answeredRun rfl rfl).2.2
      ⟨⟨"out", .uint8, [2]⟩, 2, none⟩ (List.mem_singleton_self _) rfl with
    ⟨size, data, hsize, helements, hreads⟩
  have htwo : size = 2 := Except.ok.inj (hsize.symm.trans rfl)
  have hbytes : data = [1, 2] := Except.ok.inj (helements.given.symm.trans rfl)
  rcases hreads filledRun _ hother rfl with ⟨i, slots, ⟨position, hop, _⟩, hdelivers, hfilled⟩
  -- The only turn is the last operation.
  have hturn : i = 4 := by
    rcases i with _ | _ | _ | _ | _ | i
    · cases hop
    · cases hop
    · cases hop
    · cases hop
    · rfl
    · cases hop
  rw [hturn] at hdelivers hfilled
  have hslots : slots = ((reached filledRun).endings.headD default).slots := by
    have hall : (reached filledRun).endings = [(reached filledRun).endings.headD default] := rfl
    have hending := hdelivers.ending
    have hlast : filledRun.take 5 = filledRun := rfl
    rw [hlast, hall] at hending
    exact congrArg Ending.slots (List.mem_singleton.1 hending)
  rw [hslots, htwo, hbytes] at hfilled
  have helement := (hfilled ⟨[], _, _, [], _, rfl, rfl, by decide⟩ rfl rfl rfl).2
    (fun _ hpair => absurd hpair List.not_mem_nil) 0 (by decide)
  exact ⟨rfl, _, _, mem_completions_answeredRun, rfl, rfl, helement⟩

end Engine

end InferenceEngine
