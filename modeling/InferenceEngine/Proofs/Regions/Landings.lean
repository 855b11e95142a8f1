import InferenceEngine.Proofs.Regions.Transports
import InferenceEngine.Proofs.Servers.Leftovers

/-!
# Outputs that land in files

The files of a directory are numbered, and no operation takes one away unless it puts another
directory in the place of the old one.  Say that each directory that is put there still has all
files, and gives names to files only.  Then every handle that is registered lies over a file that
exists, and so does every handle that a request in flight has been given.  So whatever is delivered
to a handle lands in a file.
-/

namespace InferenceEngine

def Directory.NamesFiles (d : Directory) : Prop :=
  forall (name : String) (file : Nat), d.names.get? name = some file -> file < d.files.length

namespace Engine

/-- Whether the directory is replaced, if at all, by one that has all files of the old one. -/
def KeepsFiles (ops : List Operation) : Prop :=
  forall (before later : List Operation) (d : Directory),
    ops = before ++ .setDirectory d :: later ->
      d.NamesFiles ∧ (reached before).directory.files.length ≤ d.files.length

theorem KeepsFiles.left {ops more : List Operation} (h : KeepsFiles (ops ++ more)) :
    KeepsFiles ops := by
  rintro before later d rfl
  exact h before (later ++ more) d (by rw [List.append_assoc, List.cons_append])

/-!
# Files stay

No file goes away in a run that keeps its files.
-/

/-- An operation leaves the names and the number of the files alone, unless it replaces the
directory. -/
theorem directory_operate (ops : List Operation) (op : Operation) :
    (((reached ops).operate op).directory.names = (reached ops).directory.names ∧
      ((reached ops).operate op).directory.files.length = (reached ops).directory.files.length) ∨
    exists d : Directory, op = .setDirectory d := by
  rcases settles_operate (isSound_request ops) op with hnone | hset | ⟨_, n, _, _, hsettles⟩
  · rw [hnone.directory]
    exact .inl ⟨rfl, rfl⟩
  · exact .inr hset
  · left
    rcases hsettles with hnone | ⟨slots, hdelivers⟩
    · rw [hnone.directory]
      exact ⟨rfl, rfl⟩
    · rw [hdelivers.directory]
      have hrefills := Directory.refills_receive
        (slots.zip ((reached ops).submission n).request.outputs) (reached ops).directory
      exact ⟨hrefills.names, hrefills.length⟩

theorem length_files_le {ops : List Operation} {op : Operation} (h : KeepsFiles (ops ++ [op])) :
    (reached ops).directory.files.length ≤ ((reached ops).operate op).directory.files.length := by
  rcases directory_operate ops op with ⟨_, hlength⟩ | ⟨d, rfl⟩
  · exact Nat.le_of_eq hlength.symm
  · exact (h ops [] d rfl).2

theorem length_files_mono {ops : List Operation} (more : List Operation)
    (h : KeepsFiles (ops ++ more)) :
    (reached ops).directory.files.length ≤ (reached (ops ++ more)).directory.files.length := by
  induction more using List.reverseRecOn with
  | nil => exact Nat.le_of_eq (by rw [List.append_nil])
  | append_singleton more op ih =>
      rw [← List.append_assoc] at h ⊢
      rw [reached_concat]
      exact Nat.le_trans (ih h.left) (length_files_le h)

/-!
# Handles lie over files
-/

/-- Whether all names are names of files, and all handles lie over files. -/
structure IsGrounded (e : Engine) : Prop where
  names : e.directory.NamesFiles
  handles : forall (k : Nat) (name : String) (h : Handle),
    (e.server k).registry.handles.get? name = some h ->
      h.mapping.region.file < e.directory.files.length

theorem isGrounded_empty : empty.IsGrounded where
  names name file h := by cases h
  handles k name h hget := by
    have hmissing : empty.server k = default := by
      simp [Engine.server, empty]
    rw [hmissing] at hget
    cases hget

theorem isGrounded_operate {ops : List Operation} {op : Operation}
    (hkeeps : KeepsFiles (ops ++ [op])) (h : (reached ops).IsGrounded) :
    ((reached ops).operate op).IsGrounded := by
  have hlength := length_files_le hkeeps
  constructor
  · rcases directory_operate ops op with ⟨hnames, hsame⟩ | ⟨d, rfl⟩
    · intro name file hget
      rw [hnames] at hget
      rw [hsame]
      exact h.names name file hget
    · exact (hkeeps ops [] d rfl).1
  · intro k name handle hget
    apply Nat.lt_of_lt_of_le ?_ hlength
    rcases registered_step hget with hold | ⟨key, offset, size, _, hmade⟩
    · exact h.handles k name handle hold
    · obtain ⟨fileName, hnamed⟩ := Registry.Registers.named hmade
      exact h.names fileName _ hnamed

theorem isGrounded_reached {ops : List Operation} (h : KeepsFiles ops) :
    (reached ops).IsGrounded := by
  induction ops using List.reverseRecOn with
  | nil => exact isGrounded_empty
  | append_singleton ops op ih =>
      rw [reached_concat]
      exact isGrounded_operate h (ih h.left)

/-!
# Requests write to files
-/

/-- Whatever a request delivers in a run that keeps its files is delivered to a file that exists. -/
theorem file_lt_of_destination {ops : List Operation} (hkeeps : KeepsFiles ops) {n : Nat}
    {output : PreparedOutput} (houtput : output ∈ ((reached ops).submission n).request.outputs)
    {range : ResolvedRange} (hrange : output.destination = some range) :
    range.file < (reached ops).directory.files.length := by
  by_cases hlt : n < (reached ops).submissions.length
  · rcases submit_of_reached ops hlt with ⟨earlier, later, server, callback, p, hops, hprepare⟩
    rcases PreparedRequest.registered_of_prepare hprepare houtput hrange with ⟨name, hget⟩
    rw [hops] at hkeeps ⊢
    have hgrounded := isGrounded_reached hkeeps.left
    exact Nat.lt_of_lt_of_le (hgrounded.handles server name range.handle hget)
      (length_files_mono _ hkeeps)
  · have hmissing : (reached ops).submission n = default := by
      simp [Engine.submission, Nat.le_of_not_lt hlt]
    rw [hmissing] at houtput
    cases houtput

/-- An output of a request that is delivered to a range lands there, in a run that keeps its
files. -/
def landing {ops : List Operation} (hkeeps : KeepsFiles ops) {n : Nat} {slots : List OutputSlot}
    (written : List (OutputSlot × PreparedOutput)) (slot : OutputSlot) (output : PreparedOutput)
    (later : List (OutputSlot × PreparedOutput)) (range : ResolvedRange)
    (hsplit : slots.zip ((reached ops).submission n).request.outputs =
      written ++ (slot, output) :: later)
    (hrange : output.destination = some range) :
    Landing (reached ops).directory
      (slots.zip ((reached ops).submission n).request.outputs) where
  written := written
  slot := slot
  output := output
  later := later
  range := range
  split := hsplit
  destination := hrange
  file := by
    have hmem : (slot, output) ∈ slots.zip ((reached ops).submission n).request.outputs := by
      rw [hsplit]
      exact List.mem_append_right _ List.mem_cons_self
    exact file_lt_of_destination hkeeps (List.of_mem_zip hmem).2 hrange

end Engine

end InferenceEngine
