import InferenceEngine.Proofs.Regions.Turns

/-!
# Responses and files

A request writes to files only in the turn in which it is answered with a good response, and then it
writes all that its backend has left for its ranges.  A response with a failure gives out nothing
but that.
-/

namespace InferenceEngine

namespace Engine

/-!
# Responses
-/

/-- Each callback has been called with the response to some result of its request. -/
def Responded (e : Engine) : Prop :=
  forall c : Completion, c ∈ e.completions -> c.computeTime < Text.wordBound ∧
    exists (allocator : Nat) (result : Except Failure (List (String × OutputStorage))),
      c.response =
        .ofResult (e.submission c.submission).request allocator c.computeTime result

theorem Move.responded {deed : Deed} {e e' : Engine} (h : Move deed e e') (htally : e.Tally)
    (k : e.Responded) : e'.Responded := by
  have hold : forall c : Completion, c ∈ e.completions -> c.computeTime < Text.wordBound ∧
      exists (allocator : Nat) (result : Except Failure (List (String × OutputStorage))),
        c.response =
          .ofResult (e'.submission c.submission).request allocator c.computeTime result := by
    intro c hc
    rw [(h.keepsRequests c.submission (htally.known c hc).1).2]
    exact k c hc
  intro c hc
  rcases h.completions with hsame | ⟨made, result, hmade, hlt, hresponse, htime, _⟩
  · rw [hsame] at hc
    exact hold c hc
  · rw [hmade] at hc
    rcases List.mem_append.1 hc with hc | hc
    · exact hold c hc
    · rw [List.mem_singleton.1 hc, (h.keepsRequests made.submission hlt).2]
      exact ⟨htime, _, result, hresponse⟩

theorem Reachable.responded {e : Engine} (h : e.Reachable) : e.Responded := by
  refine Reachable.induct ?_ ?_ h
  · intro c hc
    cases hc
  · intro deed e e' hreachable hmove hresponded
    exact hmove.responded hreachable.tally hresponded

end Engine

/-- Whether a response gives out nothing but a failure, whatever it is asked for. -/
structure Response.IsBare (r : Response) (failure : Failure) : Prop where
  outputs : r.outputs = []
  outputNames : r.outputNames = []
  header : exists header : ResponseHeader, r.header = .ofJson header.toJson ∧ header.outputs = []
  outputData : forall name : String, r.outputData name = .error failure
  outputElement : forall (name : String) (index : Nat), r.outputElement name index = .error failure
  outputRange : forall name : String, r.outputRange name = .error failure

theorem Response.isBare_of_ofResult {request : PreparedRequest} {allocator computeTime : Nat}
    {result : Except Failure (List (String × OutputStorage))} {failure : Failure}
    (h : (ofResult request allocator computeTime result).status = .error failure) :
    (ofResult request allocator computeTime result).IsBare failure := by
  cases result with
  | ok outputs => cases h
  | error other =>
      cases h
      exact ⟨rfl, rfl, ⟨_, rfl, rfl⟩, fun _ => rfl, fun _ _ => rfl, fun _ => rfl⟩

namespace Engine

/-!
# Turns in a run

Each good response has been delivered in some turn of its request.
-/

def TurnAt (ops : List Operation) (i n : Nat) : Prop :=
  exists position : Nat, ops[i]? = some (.runAt position) ∧
    (reached (ops.take i)).queue[position]? = some (.request n)

theorem reached_take_succ {ops : List Operation} {i : Nat} {op : Operation}
    (h : ops[i]? = some op) :
    reached (ops.take (i + 1)) = (reached (ops.take i)).operate op := by
  rw [List.take_add_one, h]
  exact reached_concat (ops.take i) op

theorem TurnAt.settles {ops : List Operation} {i n : Nat} (h : TurnAt ops i n) :
    (reached (ops.take i)).Settles n (reached (ops.take (i + 1))) := by
  rcases h with ⟨position, hop, hjob⟩
  rw [reached_take_succ hop]
  rcases settles_operate (isSound_request (ops.take i)) (.runAt position) with
    hnone | ⟨d, hset⟩ | ⟨place, m, hplace, hother, hsettles⟩
  · exact .inl hnone
  · cases hset
  · cases hplace
    rw [hjob] at hother
    cases hother
    exact hsettles

theorem completions_operate (ops : List Operation) (op : Operation) :
    exists made : List Completion,
      ((reached ops).operate op).completions = (reached ops).completions ++ made := by
  rcases settles_operate (isSound_request ops) op with
    hnone | ⟨d, rfl⟩ | ⟨position, n, _, _, hnone | ⟨slots, hall⟩⟩
  · rcases hnone.completions with ⟨made, hmade, _⟩
    exact ⟨made, hmade⟩
  · exact ⟨[], (List.append_nil _).symm⟩
  · rcases hnone.completions with ⟨made, hmade, _⟩
    exact ⟨made, hmade⟩
  · rcases hall.completions with ⟨c, hc, _⟩
    exact ⟨[c], hc⟩

theorem completions_append (ops more : List Operation) : exists made : List Completion,
    (reached (ops ++ more)).completions = (reached ops).completions ++ made := by
  induction more using List.reverseRecOn with
  | nil => exact ⟨[], by simp⟩
  | append_singleton more op ih =>
      rcases ih with ⟨made, hmade⟩
      rcases completions_operate (ops ++ more) op with ⟨last, hlast⟩
      refine ⟨made ++ last, ?_⟩
      rw [← List.append_assoc, reached_concat, hlast, hmade, List.append_assoc]

theorem completions_take (ops : List Operation) {i j : Nat} (h : i ≤ j) :
    exists made : List Completion,
      (reached (ops.take j)).completions = (reached (ops.take i)).completions ++ made := by
  have hsplit : ops.take j = ops.take i ++ (ops.drop i).take (j - i) := by
    rw [← List.take_add, Nat.add_sub_cancel' h]
  rw [hsplit]
  exact completions_append _ _

theorem mem_completions_of_take {ops : List Operation} {i : Nat} {c : Completion}
    (h : c ∈ (reached (ops.take i)).completions) : c ∈ (reached ops).completions := by
  rcases completions_append (ops.take i) (ops.drop i) with ⟨made, hmade⟩
  rw [List.take_append_drop] at hmade
  rw [hmade]
  exact List.mem_append_left _ h

theorem exists_turn (ops : List Operation) {c : Completion} (hc : c ∈ (reached ops).completions)
    (hok : c.response.isOk = true) : exists (i : Nat) (slots : List OutputSlot),
      TurnAt ops i c.submission ∧
      (reached (ops.take i)).Delivers c.submission slots (reached (ops.take (i + 1))) := by
  induction ops using List.reverseRecOn with
  | nil => cases hc
  | append_singleton ops op ih =>
      -- An earlier turn is one of the longer run, too.
      have hearlier : c ∈ (reached ops).completions -> exists (i : Nat) (slots : List OutputSlot),
          TurnAt (ops ++ [op]) i c.submission ∧ (reached ((ops ++ [op]).take i)).Delivers
            c.submission slots (reached ((ops ++ [op]).take (i + 1))) := by
        intro hc
        rcases ih hc with ⟨i, slots, ⟨position, hop, hjob⟩, hdelivers⟩
        have hlt : i < ops.length := (List.getElem?_eq_some_iff.1 hop).1
        refine ⟨i, slots, ⟨position, ?_, ?_⟩, ?_⟩
        · rw [List.getElem?_append_left hlt]
          exact hop
        · rw [List.take_append_of_le_length (Nat.le_of_lt hlt)]
          exact hjob
        · rw [List.take_append_of_le_length (Nat.le_of_lt hlt),
            List.take_append_of_le_length (Nat.succ_le_of_lt hlt)]
          exact hdelivers
      have hlast : (ops ++ [op]).take (ops.length + 1) = ops ++ [op] :=
        List.take_of_length_le (by simp)
      rw [reached_concat] at hc
      rcases settles_operate (isSound_request ops) op with
        hnone | ⟨d, rfl⟩ | ⟨position, n, hop, hjob, hnone | ⟨slots, hall⟩⟩
      · rcases hnone.completions with ⟨made, hmade, hfail⟩
        rw [hmade] at hc
        rcases List.mem_append.1 hc with hc | hc
        · exact hearlier hc
        · rw [hfail c hc] at hok
          cases hok
      · exact hearlier hc
      · rcases hnone.completions with ⟨made, hmade, hfail⟩
        rw [hmade] at hc
        rcases List.mem_append.1 hc with hc | hc
        · exact hearlier hc
        · rw [hfail c hc] at hok
          cases hok
      · rcases hall.completions with ⟨given, hgiven, hsubmission, _⟩
        rw [hgiven] at hc
        rcases List.mem_append.1 hc with hc | hc
        · exact hearlier hc
        · rw [List.mem_singleton.1 hc, hsubmission]
          refine ⟨ops.length, slots, ⟨position, by simp [hop], ?_⟩, ?_⟩
          · rw [List.take_left]
            exact hjob
          · rw [List.take_left, hlast, reached_concat]
            exact hall

theorem Delivers.once {ops : List Operation} {i j n : Nat} {slots others : List OutputSlot}
    (h : (reached (ops.take i)).Delivers n slots (reached (ops.take (i + 1))))
    (k : (reached (ops.take j)).Delivers n others (reached (ops.take (j + 1)))) : i = j := by
  have hnot : forall {i j : Nat} {slots others : List OutputSlot}, i < j ->
      (reached (ops.take i)).Delivers n slots (reached (ops.take (i + 1))) ->
      (reached (ops.take j)).Delivers n others (reached (ops.take (j + 1))) -> False := by
    intro i j slots others hij h k
    rcases h.completions with ⟨first, hfirst, hown, _⟩
    rcases k.completions with ⟨second, hsecond, hown', _⟩
    rcases completions_take ops (Nat.succ_le_of_lt hij) with ⟨made, hmade⟩
    have htally := (reachable_reached (ops.take (j + 1))).tally
    have hmem : second ∈ (reached (ops.take (j + 1))).completions := by
      rw [hsecond]
      exact List.mem_append_right _ (List.mem_singleton_self _)
    have hlt := (htally.known second hmem).1
    rw [hown'] at hlt
    have hcalled := htally.called n hlt
    unfold timesCalled at hcalled
    rw [hsecond, hmade, hfirst] at hcalled
    simp only [List.countP_append, List.countP_singleton, hown, hown', decide_true, if_true]
      at hcalled
    split at hcalled <;> omega
  rcases Nat.lt_trichotomy i j with hlt | heq | hgt
  · exact (hnot hlt h k).elim
  · exact heq
  · exact (hnot hgt k h).elim

theorem isOk_of_status {r : Response} (h : r.status = .ok ()) : r.isOk = true := by
  unfold Response.isOk
  rw [h]

/-- A callback that is called with a failure has been called with nothing else, and its request has
not changed any file in any of its turns.  One that is called with a good response tells of a turn
in which each position of each file came to hold what the last output, in the order of the request,
has left for it whose range holds the position, and what it held before if there is none; and no
other turn of the request has changed any file.  Nothing but turns of requests changes files at
all, unless someone does so from outside. -/
theorem files_and_responses (ops : List Operation) {c : Completion}
    (hc : c ∈ (reached ops).completions) :
    (forall failure : Failure, c.response.status = .error failure ->
      c.response.IsBare failure ∧ forall i : Nat, TurnAt ops i c.submission ->
        (reached (ops.take (i + 1))).directory = (reached (ops.take i)).directory) ∧
    (c.response.status = .ok () -> exists (i : Nat) (slots : List OutputSlot),
      TurnAt ops i c.submission ∧
      (reached (ops.take (i + 1))).endings.filter (fun x => x.submission = c.submission) =
        [⟨c.submission, .ok (), slots⟩] ∧
      let outputs := ((reached (ops.take i)).submission c.submission).request.outputs
      let before := (reached (ops.take i)).directory
      let after := (reached (ops.take (i + 1))).directory
      slots.map (fun slot => slot.spec.name) = outputs.map (fun output => output.spec.name) ∧
      (forall pair, pair ∈ slots.zip outputs -> Execution.Deliverable pair) ∧
      before.Refills after ∧
      (forall n : Nat, n < before.files.length -> forall position : Nat,
        (after.file n).byte position =
          ((slots.zip outputs).reverse.findSome? (Directory.brought? n position)).getD
            ((before.file n).byte position)) ∧
      forall j : Nat, TurnAt ops j c.submission -> j ≠ i ->
        (reached (ops.take (j + 1))).directory = (reached (ops.take j)).directory) ∧
    forall (i : Nat) (op : Operation), ops[i]? = some op -> (forall n : Nat, ¬ TurnAt ops i n) ->
      (forall d : Directory, op ≠ .setDirectory d) ->
        (reached (ops.take (i + 1))).directory = (reached (ops.take i)).directory := by
  refine ⟨?_, ?_, ?_⟩
  · intro failure hstatus
    constructor
    · rcases (reachable_reached ops).responded c hc with ⟨_, allocator, result, hresponse⟩
      rw [hresponse] at hstatus ⊢
      exact Response.isBare_of_ofResult hstatus
    · intro i hturn
      rcases hturn.settles with hnone | ⟨slots, hall⟩
      · exact hnone.directory
      · -- The response that this turn has given would be another one.
        rcases hall.completions with ⟨given, hgiven, hsubmission, hok⟩
        have hmem : given ∈ (reached ops).completions := by
          apply mem_completions_of_take (i := i + 1)
          rw [hgiven]
          exact List.mem_append_right _ (List.mem_singleton_self _)
        rw [(reachable_reached ops).eq_of_called hc hmem hsubmission] at hok
        unfold Response.isOk at hok
        rw [hstatus] at hok
        cases hok
  · intro hstatus
    rcases exists_turn ops hc (isOk_of_status hstatus) with ⟨i, slots, hturn, hdelivers⟩
    have hsound := (isSound_request (ops.take i) c.submission).output
    have hdeliverable := Execution.deliverable_of_checkSlots hdelivers.checked hsound
    refine ⟨i, slots, hturn, ?_, ?_, hdeliverable, ?_, ?_, ?_⟩
    · exact (reachable_reached (ops.take (i + 1))).ended_once hdelivers.ending
    · exact Execution.names_of_checkSlots hdelivers.checked
    · rw [hdelivers.directory]
      exact Directory.refills_receive _ _
    · intro n hn position
      rw [hdelivers.directory]
      exact Directory.byte_receive _
        (fun pair hpair range hrange => (hdeliverable pair hpair range hrange).2) hn position
    · intro j hother hj
      rcases hother.settles with hnone | ⟨others, hall⟩
      · exact hnone.directory
      · exact absurd (hdelivers.once hall).symm hj
  · intro i op hop hturns hset
    rw [reached_take_succ hop]
    rcases settles_operate (isSound_request (ops.take i)) op with
      hnone | ⟨d, hd⟩ | ⟨position, n, hplace, hjob, _⟩
    · exact hnone.directory
    · exact absurd hd (hset d)
    · rw [hplace] at hop
      exact absurd ⟨position, hop, hjob⟩ (hturns n)

/-- A request for a copy of two bytes, the output of which is bound to the middle of a region. -/
def deliveredRun : List Operation :=
  copyRun ++ [.setDirectory (Directory.empty.addFile "region" 4),
    .register 0 "handle" "region" 0 4,
    .submit 0 (copyProvider.edited
      [.append "in" [1], .append "in" [2], .bindOutput "out" ⟨"handle", 1, 2⟩]) 7, .runAt 0]

theorem files_of_deliveredRun :
    exists c : Completion, c ∈ (reached deliveredRun).completions ∧
      c.response.status = .ok () ∧ exists (i : Nat) (slots : List OutputSlot),
        TurnAt deliveredRun i c.submission ∧
        (reached (deliveredRun.take (i + 1))).endings.filter
          (fun x => x.submission = c.submission) = [⟨c.submission, .ok (), slots⟩] ∧
        ((reached deliveredRun).directory.file 0).read 0 4 = [0, 1, 2, 0] := by
  have hall : (reached deliveredRun).completions =
      [(reached deliveredRun).completions.headD default] := rfl
  have hmem : (reached deliveredRun).completions.headD default ∈
      (reached deliveredRun).completions := by
    rw [hall]
    exact List.mem_singleton_self _
  have hstatus : ((reached deliveredRun).completions.headD default).response.status = .ok () := rfl
  rcases (files_and_responses deliveredRun hmem).2.1 hstatus with ⟨i, slots, hturn, hending, _⟩
  exact ⟨_, hmem, hstatus, i, slots, hturn, hending, rfl⟩

end Engine

end InferenceEngine
