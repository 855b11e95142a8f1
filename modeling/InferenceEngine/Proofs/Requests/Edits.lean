import InferenceEngine.Proofs.Requests.Acceptance
import InferenceEngine.Proofs.Requests.History
import InferenceEngine.Proofs.Requests.Making
import InferenceEngine.Session.Requests

/-!
# Providers under changes

An input is appended to or bound, but never both, and which of them it is decides what may still
be done to it.  A change that fails leaves everything as it is, one that succeeds leaves all other
tensors as they are, and taking everything away gives back the provider that was made.
-/

namespace InferenceEngine

namespace Provider

/-- The range that an output is bound to last. -/
def destination? (name : String) (changes : List Edit) : Option HandleRange :=
  (changes.filterMap fun
    | .bindOutput output range => if output = name then some range else none
    | _ => none).getLast?

def Edit.output? : Edit -> Option String
  | .bindOutput output _ => some output
  | _ => none

def Exclusive (changes : List Edit) : Prop :=
  forall name : String, bound? name changes = none ∨ appended name changes = []

/-- What is true of a provider for a model and a header, given the changes that have succeeded
since everything was last taken away. -/
structure Follows (p : Provider) (config : ModelConfig) (header : RequestHeader)
    (kept : List Edit) : Prop where
  /-- An input has the buffers that were appended to it, or else the range that it was bound to
  last and no buffer. -/
  input : forall (name : String) (b : InputBinding), p.inputs.get? name = some b ->
    (b.source = .buffers (appended name kept) ∧ bound? name kept = none) ∨
      exists range : HandleRange, b.source = .shared range ∧ bound? name kept = some range ∧
        appended name kept = []
  /-- An output has the range that it was bound to last. -/
  output : forall b, b ∈ p.outputs -> b.destination = destination? b.spec.name kept
  append_fails : forall (name : String) (data : Bytes),
    (exists failure : Failure, p.attempt (.append name data) = .error failure) ↔
      name ∉ config.inputs.map TensorSpec.name ∨ bound? name kept ≠ none
  bindInput_fails : forall (name : String) (range : HandleRange),
    (exists failure : Failure, p.attempt (.bindInput name range) = .error failure) ↔
      name ∉ config.inputs.map TensorSpec.name ∨ appended name kept ≠ []
  bindOutput_fails : forall (name : String) (range : HandleRange),
    (exists failure : Failure, p.attempt (.bindOutput name range) = .error failure) ↔
      name ∉ requested config header

/-- Whether a change has touched nothing but the tensor that it names. -/
structure Spares (change : Edit) (p q : Provider) : Prop where
  outline : q.outline = p.outline
  inputs : forall name : String, change.input? ≠ some name ->
    q.inputs.get? name = p.inputs.get? name
  outputs : forall b : OutputBinding, change.output? ≠ some b.spec.name ->
    (b ∈ q.outputs ↔ b ∈ p.outputs)

theorem edit_of_ok {p q : Provider} {change : Edit} (h : p.attempt change = .ok q) :
    p.edit change = q := by
  unfold edit
  rw [h]

/-!
# Appended or bound

A change keeps inputs that it does not name as they are.
-/

theorem Exclusive.other {kept : List Edit} {change : Edit} {name : String} (h : Exclusive kept)
    (hother : change.input? ≠ some name) :
    bound? name (kept ++ [change]) = none ∨ appended name (kept ++ [change]) = [] := by
  rw [bound?_other hother, appended_other hother]
  exact h name

theorem Exclusive.attempt {p q : Provider} {kept : List Edit} {change : Edit}
    (h : Exclusive kept) (hp : p.Remembers kept) (hq : p.attempt change = .ok q) :
    Exclusive (keep kept change) := by
  -- What is appended to was not bound before, and what is bound was not appended to.
  cases change with
  | append name data =>
      rcases append_eq_ok hq with ⟨binding, bs, hbinding, hbs, _⟩
      intro other
      by_cases hname : name = other
      · left
        have hsource : sourceOf other kept = .buffers bs := by
          rw [← hname, ← hp name binding hbinding, hbs]
        change bound? other (kept ++ [.append name data]) = none
        rw [bound?_append]
        exact (sourceOf_eq_buffers hsource).1
      · exact h.other fun hsame => hname (Option.some.inj hsame)
  | bindInput name range =>
      rcases bindInputRange_eq_ok hq with ⟨binding, hbinding, hempty, _⟩
      intro other
      by_cases hname : name = other
      · right
        change appended other (kept ++ [.bindInput name range]) = []
        rw [appended_bindInput]
        rcases h other with hbound | hnone
        · apply hempty
          rw [hp name binding hbinding, hname]
          unfold sourceOf
          rw [hbound]
        · exact hnone
      · exact h.other fun hsame => hname (Option.some.inj hsame)
  | bindOutput name range =>
      intro other
      exact h.other fun hsame => by cases hsame
  | reset => exact fun _ => .inl rfl

/-!
# Destinations

Where all outputs have names of their own, one of them is bound.
-/

/-- Whether the outputs of a provider are as certain changes have left them. -/
def Delivers (p : Provider) (kept : List Edit) : Prop :=
  forall b, b ∈ p.outputs -> b.destination = destination? b.spec.name kept

theorem destination?_other {name : String} {change : Edit} (h : change.output? ≠ some name)
    (changes : List Edit) :
    destination? name (changes ++ [change]) = destination? name changes := by
  cases change with
  | bindOutput output range =>
      have houtput : output ≠ name := fun hsame => h (congrArg some hsame)
      simp [destination?, List.filterMap_append, houtput]
  | append input data => simp [destination?, List.filterMap_append]
  | bindInput input range => simp [destination?, List.filterMap_append]
  | reset => simp [destination?, List.filterMap_append]

theorem destination?_self (name : String) (range : HandleRange) (changes : List Edit) :
    destination? name (changes ++ [.bindOutput name range]) = some range := by
  simp [destination?, List.filterMap_append]

theorem setDestination_eq_map {name : String} {range : HandleRange}
    {bindings : List OutputBinding} (h : (bindings.map fun b => b.spec.name).Nodup) :
    setDestination name range bindings = bindings.map fun b =>
      if b.spec.name = name then { b with destination := some range } else b := by
  induction bindings with
  | nil => rfl
  | cons binding rest ih =>
      rw [List.map_cons, List.nodup_cons] at h
      unfold setDestination
      rw [List.map_cons]
      split
      · rename_i hname
        congr 1
        symm
        apply (List.map_congr_left ?_).trans (List.map_id rest)
        intro b hb
        rw [if_neg, id]
        intro hsame
        apply h.1
        rw [hname, ← hsame]
        exact List.mem_map_of_mem hb
      · rw [ih h.2]

theorem outputs_of_attempt {p q : Provider} {change : Edit}
    (hdistinct : (p.outputs.map fun b => b.spec.name).Nodup) (hchange : change ≠ .reset)
    (hq : p.attempt change = .ok q) {b : OutputBinding} (h : change.output? ≠ some b.spec.name) :
    b ∈ q.outputs ↔ b ∈ p.outputs := by
  cases change with
  | append name data =>
      rcases append_eq_ok hq with ⟨binding, bs, _, _, rfl⟩
      exact Iff.rfl
  | bindInput name range =>
      rcases bindInputRange_eq_ok hq with ⟨binding, _, _, rfl⟩
      exact Iff.rfl
  | bindOutput name range =>
      have hname : b.spec.name ≠ name := fun hsame => h (congrArg some hsame.symm)
      rw [bindOutputRange_eq_ok hq]
      simp only
      rw [setDestination_eq_map hdistinct, List.mem_map]
      constructor
      · rintro ⟨other, hother, rfl⟩
        split at hname
        · rename_i hsame
          exact absurd hsame hname
        · rename_i hsame
          rwa [if_neg hsame]
      · intro hb
        exact ⟨b, hb, if_neg hname⟩
  | reset => exact absurd rfl hchange

theorem keep_of_ne {kept : List Edit} {change : Edit} (h : change ≠ .reset) :
    keep kept change = kept ++ [change] := by
  cases change with
  | reset => exact absurd rfl h
  | _ => rfl

theorem Delivers.attempt {p q : Provider} {kept : List Edit} {change : Edit}
    (h : p.Delivers kept) (hdistinct : (p.outputs.map fun b => b.spec.name).Nodup)
    (hq : p.attempt change = .ok q) : q.Delivers (keep kept change) := by
  intro b hb
  by_cases hreset : change = .reset
  · rw [hreset] at hq ⊢
    cases hq
    rcases List.mem_map.1 hb with ⟨_, _, rfl⟩
    rfl
  · rw [keep_of_ne hreset]
    by_cases hnamed : change.output? = some b.spec.name
    · cases change with
      | bindOutput name range =>
          cases hnamed
          rw [destination?_self]
          rw [bindOutputRange_eq_ok hq] at hb
          simp only at hb
          rw [setDestination_eq_map hdistinct] at hb
          rcases List.mem_map.1 hb with ⟨other, _, hother⟩
          split at hother
          · rw [← hother]
          · rename_i hname
            rw [hother] at hname
            exact absurd rfl hname
      | append name data => cases hnamed
      | bindInput name range => cases hnamed
      | reset => cases hnamed
    · rw [destination?_other hnamed]
      exact h b ((outputs_of_attempt hdistinct hreset hq hnamed).1 hb)

/-!
# What holds after any changes
-/

/-- All that is known of a provider and the changes that count. -/
structure Tracks (p : Provider) (kept : List Edit) : Prop where
  fits : p.outline.Fits
  remembers : p.Remembers kept
  exclusive : Exclusive kept
  delivers : p.Delivers kept

theorem Outline.Fits.distinct_outputs {p : Provider} (h : p.outline.Fits) :
    (p.outputs.map fun b => b.spec.name).Nodup := by
  simpa [outline, Function.comp_def] using h.distinct

theorem Tracks.attempt {p q : Provider} {kept : List Edit} {change : Edit} (h : p.Tracks kept)
    (hq : p.attempt change = .ok q) : q.Tracks (keep kept change) where
  fits := by
    rw [← edit_of_ok hq, outline_edit]
    exact h.fits
  remembers := h.remembers.attempt hq
  exclusive := h.exclusive.attempt h.remembers hq
  delivers := h.delivers.attempt h.fits.distinct_outputs hq

theorem Tracks.edited {p : Provider} (h : p.Tracks []) (changes : List Edit) :
    (p.edited changes).Tracks (sinceReset (p.made changes)) :=
  kept_induct (P := Tracks) (fun _ _ _ _ hp hq => hp.attempt hq) h changes

theorem tracks_of_new {server : Nat} {table : ModelTable} {name : String}
    {choice : VersionChoice} {header : RequestHeader} {p : Provider} (htable : table.IsValid)
    (h : Provider.new server table name choice header = .ok p) : p.Tracks [] where
  fits := (fits_of_new htable h).1
  remembers := remembers_of_new h
  exclusive := fun _ => .inl rfl
  delivers := by
    rw [Delivers, (isUnbound_of_new htable h).outputs]
    intro b hb
    rcases List.mem_map.1 hb with ⟨spec, _, rfl⟩
    rfl

theorem Outline.Fits.get?_eq_none_iff {p : Provider} (h : p.outline.Fits) {name : String} :
    p.inputs.get? name = none ↔ name ∉ p.model.config.inputs.map TensorSpec.name := by
  constructor
  · intro hnone hname
    rcases List.mem_map.1 hname with ⟨spec, hspec, rfl⟩
    rcases h.input hspec with ⟨binding, hbinding, _⟩
    rw [hnone] at hbinding
    cases hbinding
  · intro hname
    cases hbinding : p.inputs.get? name with
    | none => rfl
    | some binding =>
        have hmem : (name, binding.spec, binding.expected) ∈ p.outline.inputs :=
          List.mem_map_of_mem (f := fun e => (e.1, e.2.spec, e.2.expected))
            (OrderedMap.get?_eq_some_iff.1 hbinding)
        have hdeclared := h.declared.mem_iff.1 (List.mem_map_of_mem (f := fun e => e.2.1) hmem)
        have hsame : binding.spec.name = name := h.named _ hmem
        exact absurd (hsame ▸ List.mem_map_of_mem hdeclared) hname

/-!
# When a change fails
-/

variable {p : Provider} {kept : List Edit}

theorem Tracks.input (h : p.Tracks kept) {name : String} {b : InputBinding}
    (hb : p.inputs.get? name = some b) :
    (b.source = .buffers (appended name kept) ∧ bound? name kept = none) ∨
      exists range : HandleRange, b.source = .shared range ∧ bound? name kept = some range ∧
        appended name kept = [] := by
  rw [h.remembers name b hb]
  unfold sourceOf
  cases hbound : bound? name kept with
  | none => exact .inl ⟨rfl, rfl⟩
  | some range =>
      rcases h.exclusive name with hnone | hnone
      · rw [hbound] at hnone
        cases hnone
      · exact .inr ⟨range, rfl, rfl, hnone⟩

theorem Tracks.append_fails (h : p.Tracks kept) (name : String) (data : Bytes) :
    (exists failure : Failure, p.attempt (.append name data) = .error failure) ↔
      p.inputs.get? name = none ∨ bound? name kept ≠ none := by
  change (exists failure : Failure, p.append name data = .error failure) ↔ _
  unfold Provider.append Provider.input
  cases hb : p.inputs.get? name with
  | none => simp [bind, Except.bind]
  | some b =>
      rcases h.input hb with ⟨hsource, hbound⟩ | ⟨range, hsource, hbound, _⟩
      · simp [bind, Except.bind, hsource, hbound]
      · simp [bind, Except.bind, hsource, hbound]

theorem Tracks.bindInput_fails (h : p.Tracks kept) (name : String) (range : HandleRange) :
    (exists failure : Failure, p.attempt (.bindInput name range) = .error failure) ↔
      p.inputs.get? name = none ∨ appended name kept ≠ [] := by
  change (exists failure : Failure, p.bindInputRange name range = .error failure) ↔ _
  unfold bindInputRange Provider.input
  cases hb : p.inputs.get? name with
  | none => simp [bind, Except.bind]
  | some b =>
      rcases h.input hb with ⟨hsource, _⟩ | ⟨last, hsource, _, hnone⟩
      · cases happended : appended name kept with
        | nil => simp [bind, Except.bind, hsource, happended]
        | cons first rest => simp [bind, Except.bind, hsource, happended]
      · simp [bind, Except.bind, hsource, hnone]

theorem bindOutput_fails (p : Provider) (name : String) (range : HandleRange) :
    (exists failure : Failure, p.attempt (.bindOutput name range) = .error failure) ↔
      name ∉ p.outputs.map fun b => b.spec.name := by
  change (exists failure : Failure, p.bindOutputRange name range = .error failure) ↔ _
  unfold bindOutputRange
  by_cases hname : name ∈ p.outputs.map fun b => b.spec.name
  · have hany : (p.outputs.any fun b => b.spec.name = name) = true := by simpa using hname
    simp [hany, hname]
  · have hany : (p.outputs.any fun b => b.spec.name = name) = false := by simpa using hname
    simp [hany, hname]

theorem Tracks.follows (h : p.Tracks kept) : p.Follows p.model.config p.header kept where
  input := fun _ _ hb => h.input hb
  output := h.delivers
  append_fails := fun name data => by rw [h.append_fails, h.fits.get?_eq_none_iff]
  bindInput_fails := fun name range => by rw [h.bindInput_fails, h.fits.get?_eq_none_iff]
  bindOutput_fails := fun name range => by
    rw [p.bindOutput_fails, show requested p.model.config p.header = p.outputs.map _ from
      (by simpa [outline, Function.comp_def] using h.fits.requested.symm)]

/-!
# What a change leaves alone
-/

theorem inputs_of_attempt {p q : Provider} {change : Edit} (hchange : change ≠ .reset)
    (hq : p.attempt change = .ok q) {name : String} (h : change.input? ≠ some name) :
    q.inputs.get? name = p.inputs.get? name := by
  cases change with
  | append input data =>
      rcases append_eq_ok hq with ⟨binding, bs, _, _, rfl⟩
      exact OrderedMap.get?_insert_of_ne (fun hsame => h (congrArg some hsame.symm)) _ _
  | bindInput input range =>
      rcases bindInputRange_eq_ok hq with ⟨binding, _, _, rfl⟩
      exact OrderedMap.get?_insert_of_ne (fun hsame => h (congrArg some hsame.symm)) _ _
  | bindOutput output range =>
      rw [bindOutputRange_eq_ok hq]
  | reset => exact absurd rfl hchange

theorem Tracks.spares {q : Provider} {change : Edit} (h : p.Tracks kept) (hchange : change ≠ .reset)
    (hq : p.attempt change = .ok q) : Spares change p q where
  outline := by
    rw [← edit_of_ok hq]
    exact outline_edit p change
  inputs := fun _ hname => inputs_of_attempt hchange hq hname
  outputs := fun _ hname => outputs_of_attempt h.fits.distinct_outputs hchange hq hname

/-!
# Taking everything away

There is one provider that has just been made for a model and a header.
-/

theorem reset_setSource {name : String} {binding : InputBinding}
    (h : p.inputs.get? name = some binding) (source : InputSource) :
    (p.setSource name binding source).reset = p.reset := by
  have hinputs : (p.inputs.insert name { binding with source := source }).map
      (fun b => { b with source := .buffers [] }) =
      p.inputs.map fun b => { b with source := .buffers [] } :=
    OrderedMap.ext (OrderedMap.map_toList_insert h rfl)
  unfold reset setSource
  simp only
  rw [hinputs]

theorem reset_setDestination (name : String) (range : HandleRange)
    (bindings : List OutputBinding) :
    (setDestination name range bindings).map (fun b => { b with destination := none }) =
      bindings.map fun b => { b with destination := none } := by
  induction bindings with
  | nil => rfl
  | cons binding rest ih =>
      unfold setDestination
      split
      · rfl
      · rw [List.map_cons, List.map_cons, ih]

theorem reset_edit (p : Provider) (change : Edit) : (p.edit change).reset = p.reset := by
  cases h : p.attempt change with
  | error failure =>
      unfold edit
      rw [h]
  | ok q =>
      rw [edit_of_ok h]
      cases change with
      | append name data =>
          rcases append_eq_ok h with ⟨binding, bs, hbinding, _, rfl⟩
          exact reset_setSource hbinding _
      | bindInput name range =>
          rcases bindInputRange_eq_ok h with ⟨binding, hbinding, _, rfl⟩
          exact reset_setSource hbinding _
      | bindOutput name range =>
          rw [bindOutputRange_eq_ok h]
          unfold reset
          simp only
          rw [reset_setDestination]
      | reset =>
          cases h
          simp [reset, OrderedMap.map]

theorem reset_edited (p : Provider) (changes : List Edit) :
    (p.edited changes).reset = p.reset :=
  edited_induct (P := fun q => q.reset = p.reset)
    (fun q change hq => (reset_edit q change).trans hq) rfl changes

section

variable {server : Nat} {model : LoadedModel} {header : RequestHeader}

theorem IsUnbound.reset (h : p.IsUnbound server model header) : p.reset = p := by
  have hinputs : (p.inputs.map fun b => { b with source := .buffers [] }) = p.inputs := by
    apply OrderedMap.ext
    change p.inputs.toList.map _ = _
    apply (List.map_congr_left ?_).trans (List.map_id _)
    intro e he
    rcases List.mem_map.1 (h.inputs.mem_iff.1 he) with ⟨spec, _, rfl⟩
    rfl
  have houtputs : (p.outputs.map fun b => { b with destination := none }) = p.outputs := by
    rw [h.outputs, List.map_map]
    rfl
  unfold Provider.reset
  rw [hinputs, houtputs]

theorem IsUnbound.unique {q : Provider} (hp : p.IsUnbound server model header)
    (hq : q.IsUnbound server model header) : p = q := by
  have hinputs : p.inputs = q.inputs := OrderedMap.ext_perm (hp.inputs.trans hq.inputs.symm)
  have houtputs : p.outputs = q.outputs := hp.outputs.trans hq.outputs.symm
  cases p
  cases q
  cases hp.server_eq
  cases hp.model_eq
  cases hp.header_eq
  cases hq.server_eq
  cases hq.model_eq
  cases hq.header_eq
  cases hinputs
  cases houtputs
  rfl

end

end Provider

/-!
# Changes by a client

A client keeps a provider under a label, and a change takes its place there or fails.
-/

theorem Session.run_changeProvider {s : Session} {label : String} {p : Provider}
    (h : s.providers.get? label = some p) (f : Provider -> Except Failure Provider) :
    (changeProvider label f).run s =
      match f p with
      | .ok changed => (.ok (), { s with providers := s.providers.insert label changed })
      | .error failure => (.error (.failed failure), s) := by
  unfold changeProvider askProvider provider
  rw [bind_assoc, SessionStep.run_bind (SessionStep.run_find h)]
  cases f p <;> rfl

namespace Engine

/-- Whatever a client does with a provider, in whatever order: each input has the buffers that were
appended to it since everything was last taken away, or else the range that it was bound to last,
and never both.  Appending fails exactly for an input that is not declared or is bound, binding an
input for one that is not declared or has been appended to, and binding an output for one that is
not requested.  A change that fails leaves the whole session as it is; one that succeeds puts the
changed provider in place of the old one, which differs from it in the tensor that is named, and
in nothing else.  Once everything is taken away, the provider is the very one that is made anew for
the same model and header, whatever is done with it from then on. -/
theorem provider_follows_changes {ops : List Operation} {server : Nat} {name : String}
    {choice : VersionChoice} {header : RequestHeader} {made : Provider}
    (hmade : (reached ops).provider server name choice header = .ok made)
    (changes : List Provider.Edit) :
    (made.edited changes).Follows made.model.config header
      (Provider.sinceReset (made.made changes)) ∧
    (forall (change : Provider.Edit) (changed : Provider), change ≠ .reset ->
      (made.edited changes).attempt change = .ok changed ->
        Provider.Spares change (made.edited changes) changed) ∧
    (forall (s : Session) (label : String) (change : Provider.Edit),
      s.providers.get? label = some (made.edited changes) ->
        (Session.changeProvider label fun p => p.attempt change).run s =
          match (made.edited changes).attempt change with
          | .ok changed => (.ok (), { s with providers := s.providers.insert label changed })
          | .error failure => (.error (.failed failure), s)) ∧
    forall (others : List Operation) (name' : String) (choice' : VersionChoice)
      (fresh : Provider) (more : List Provider.Edit),
      (reached others).provider server name' choice' header = .ok fresh ->
        fresh.model = made.model ->
          made.edited (changes ++ .reset :: more) = fresh.edited more := by
  have htracks :=
    (Provider.tracks_of_new ((reachable_reached ops).sound.tables server) hmade).edited
    changes
  have houtline := made.outline_edited changes
  have hunbound := Provider.isUnbound_of_new ((reachable_reached ops).sound.tables server) hmade
  refine ⟨?_, ?_, ?_, ?_⟩
  · have hmodel : (made.edited changes).model = made.model :=
      congrArg Provider.Outline.model houtline
    have hheader : (made.edited changes).header = header :=
      (congrArg Provider.Outline.header houtline).trans hunbound.header_eq
    rw [← hmodel, ← hheader]
    exact htracks.follows
  · intro change changed hchange hchanged
    exact htracks.spares hchange hchanged
  · intro s label change hlabel
    exact Session.run_changeProvider hlabel _
  · intro others name' choice' fresh more hfresh hmodel
    have hfreshly := Provider.isUnbound_of_new ((reachable_reached others).sound.tables server)
      hfresh
    rw [hmodel] at hfreshly
    have hreset : (made.edited changes).reset = fresh := by
      rw [Provider.reset_edited, hunbound.reset]
      exact hunbound.unique hfreshly
    unfold Provider.edited
    rw [List.foldl_append, List.foldl_cons]
    exact congrArg (fun p => more.foldl Provider.edit p) hreset

/-- The input of a copy is appended to, cannot be bound then, and can be bound once everything has
been taken away. -/
theorem changes_of_copyRun :
    (reached copyRun).provider 0 "copy" .latest (.new 1) = .ok copyProvider ∧
    (copyProvider.edited [.append "in" [1], .bindInput "in" ⟨"h", 0, 2⟩]).Follows copyModel (.new 1)
      [.append "in" [1]] ∧
    copyProvider.edited [.append "in" [1], .reset, .bindInput "in" ⟨"h", 0, 2⟩] =
      copyProvider.edited [.bindInput "in" ⟨"h", 0, 2⟩] := by
  refine ⟨provider_copyRun, ?_, ?_⟩
  · exact (provider_follows_changes provider_copyRun
      [.append "in" [1], .bindInput "in" ⟨"h", 0, 2⟩]).1
  · exact (provider_follows_changes provider_copyRun [.append "in" [1]]).2.2.2 copyRun "copy"
      .latest
      copyProvider [.bindInput "in" ⟨"h", 0, 2⟩] provider_copyRun rfl

end Engine

end InferenceEngine
