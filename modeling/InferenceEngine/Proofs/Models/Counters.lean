import InferenceEngine.Engine.Report
import InferenceEngine.Proofs.Execution.Answers
import InferenceEngine.Proofs.Models.Loaded

/-!
# Counters

The counters of a loaded model count the requests that are pinned to it and have been executed, with
success or not.  A request is counted when it is answered, and only then, whatever has become of its
model in the meantime; so polls, rejections and dropped tasks leave all counters alone.
-/

namespace InferenceEngine

def Completion.totalTime : List Completion -> Nat
  | [] => 0
  | c :: rest => c.computeTime + totalTime rest

theorem Completion.totalTime_concat (done : List Completion) (c : Completion) :
    totalTime (done ++ [c]) = totalTime done + c.computeTime := by
  induction done with
  | nil => exact Nat.add_comm _ _
  | cons a done ih =>
      rw [List.cons_append, totalTime, ih, totalTime]
      omega

namespace Engine

/-!
# Executed requests
-/

/-- The calls of callbacks of requests that have been executed, in order. -/
def executed (e : Engine) : List Completion := e.completions.filter Completion.isExecuted

def hasCome (e : Engine) (n : Nat) (isOk : Bool) : Bool :=
  e.executed.any fun c => c.submission = n && c.response.isOk = isOk

/-- How many of the requests that are pinned to the loaded model of a number have been executed,
with success or not. -/
def executions (e : Engine) (k : Nat) (isOk : Bool) : Nat :=
  (List.range e.submissions.length).countP fun n =>
    (e.submission n).request.model.number = k && e.hasCome n isOk

/-- How long the executions have taken of the requests that are pinned to the loaded model of a
number. -/
def computed (e : Engine) (k : Nat) : Nat :=
  Completion.totalTime
    (e.executed.filter fun c => (e.submission c.submission).request.model.number = k)

theorem executed_concat {e e' : Engine} {c : Completion}
    (h : e'.completions = e.completions ++ [c]) :
    e'.executed = e.executed ++ if c.isExecuted then [c] else [] := by
  unfold executed
  rw [h, List.filter_append]
  cases hc : c.isExecuted <;> simp [hc]

/-!
# What a move does to the counters

Only a move that ends an execution counts, and it counts for one loaded model.
-/

/-- Whether there are counters for all loaded models that requests are pinned to. -/
def PinnedInUse (e : Engine) : Prop :=
  forall n : Nat, n < e.submissions.length ->
    (e.submission n).request.model.number < e.stats.length

/-- A move leaves all counters alone, or it answers one request that has been executed and counts it
for the loaded model that it is pinned to, once. -/
inductive Scores (e e' : Engine) : Prop where
  | quiet (hexecuted : e'.executed = e.executed)
      (hstats : forall k : Nat, e'.statsOf k = e.statsOf k) : Scores e e'
  | scored (c : Completion) (hopen : (e.submission c.submission).phase.isOpen = true)
      (hexecuted : e'.executed = e.executed ++ [c])
      (hstats : forall k : Nat, e'.statsOf k =
        if k = (e.submission c.submission).request.model.number then
          (e.statsOf k).record c.response.isOk c.computeTime
        else e.statsOf k) : Scores e e'

theorem statsOf_of_stats {e e' : Engine} (h : e'.stats = e.stats) (k : Nat) :
    e'.statsOf k = e.statsOf k := by
  unfold statsOf
  rw [h]

theorem statsOf_modifyStats {e : Engine} {n : Nat} (h : n < e.stats.length)
    (f : InferStats -> InferStats) (k : Nat) :
    (e.modifyStats n f).statsOf k = if k = n then f (e.statsOf k) else e.statsOf k := by
  have hmodify := getD_modify e.stats n k f .zero
  by_cases hk : k = n
  · rw [hk] at hmodify ⊢
    rw [if_pos ⟨rfl, h⟩] at hmodify
    rw [if_pos rfl]
    exact hmodify
  · rw [if_neg hk]
    rw [if_neg fun hboth => hk hboth.1] at hmodify
    exact hmodify

theorem statsOf_addStats (e : Engine) (next k : Nat) :
    (e.addStats next).statsOf k = e.statsOf k := by
  unfold statsOf addStats
  rw [List.getD_eq_getElem?_getD, List.getD_eq_getElem?_getD, List.getElem?_append]
  split
  · rfl
  · rename_i hge
    rw [List.getElem?_eq_none (Nat.le_of_not_lt hge), List.getElem?_replicate]
    split <;> rfl

theorem statsOf_respond {e : Engine} {n : Nat}
    (h : (e.submission n).request.model.number < e.stats.length)
    (result : Except Failure (List (String × OutputStorage))) (k : Nat) :
    (e.respond n result).statsOf k =
      if k = (e.submission n).request.model.number then
        (e.statsOf k).record (e.responseTo n e.readings.computeTime result).isOk
          e.readings.computeTime
      else e.statsOf k := by
  have hstats : (e.respond n result).stats = (e.noteResult n result).stats := by
    unfold respond
    rw [stats_callBack, stats_releaseSlot]
  rw [statsOf_of_stats hstats]
  cases result with
  | ok outputs => exact statsOf_modifyStats h _ k
  | error failure => exact statsOf_modifyStats h _ k

theorem PinnedInUse.scores_respond {e : Engine} (h : e.PinnedInUse) {n : Nat}
    (hopen : (e.submission n).phase.isOpen = true)
    (result : Except Failure (List (String × OutputStorage))) : e.Scores (e.respond n result) := by
  rcases completions_respond e n result with ⟨live, ready, hcompletions⟩
  exact .scored _ hopen (executed_concat hcompletions)
    (statsOf_respond (h n (lt_of_phase hopen)) result)

theorem Scores.since {e middle e' : Engine} (k : middle.Scores e')
    (hsubmissions : middle.submissions = e.submissions) (hstats : middle.stats = e.stats)
    (hcompletions : middle.completions = e.completions) : e.Scores e' := by
  have hexecuted : middle.executed = e.executed := by
    unfold executed
    rw [hcompletions]
  have hstatsOf := statsOf_of_stats hstats
  cases k with
  | quiet hsame hcounts =>
      exact .quiet (hsame.trans hexecuted) fun k => (hcounts k).trans (hstatsOf k)
  | scored c hopen hmore hcounts =>
      have hsubmission := submission_of_submissions hsubmissions c.submission
      rw [hsubmission] at hopen
      refine .scored c hopen (by rw [hmore, hexecuted]) fun k => ?_
      rw [hcounts, hsubmission, hstatsOf]

theorem Move.scores {deed : Deed} {e e' : Engine} (h : Move deed e e') (hpinned : e.PinnedInUse) :
    e.Scores e' := by
  cases h with
  | addStats _ next => exact .quiet rfl (statsOf_addStats e next)
  | takeSlot _ e' n hn htake =>
      rcases takeSlot?_eq_some htake with ⟨free, rfl⟩
      exact .quiet rfl fun _ => rfl
  | gatherFails _ n failure hn hgather => exact hpinned.scores_respond (by rw [hn]; rfl) _
  | allocateFails _ n failure a events hn hallocate =>
      have hsame : ((e.setMemory (e.submission n).server ⟨a, e.directory⟩).report
          events).PinnedInUse := hpinned
      have hopen : (e.submission n).phase.isOpen = true := by
        rw [hn]
        rfl
      exact (hsame.scores_respond hopen _).since rfl rfl rfl
  | leave _ n held next result slots hn hnext =>
      have hsame : (e.takeSlots n result slots).PinnedInUse := hpinned
      have hopen : (e.submission n).phase.isOpen = true := by
        rw [hn]
        rfl
      exact (hsame.scores_respond hopen _).since rfl rfl rfl
  | unwind _ n slots a events hn hallocate =>
      rcases completions_giveUp (e.forfeit n slots a events) n with ⟨live, ready, hcompletions⟩
      refine .quiet ((executed_concat hcompletions).trans (List.append_nil _)) ?_
      exact statsOf_of_stats (stats_giveUp (e.forfeit n slots a events) n)
  | cancel _ n hn =>
      rcases completions_giveUp e n with ⟨live, ready, hcompletions⟩
      refine .quiet ((executed_concat hcompletions).trans (List.append_nil _)) ?_
      exact statsOf_of_stats (stats_giveUp e n)
  | comeBack _ n hn =>
      refine .quiet ?_ (statsOf_of_stats (stats_comeBack e n))
      unfold executed
      rw [completions_comeBack]
  | _ => exact .quiet rfl fun _ => rfl

/-!
# The counters of a run

What executions have taken is told by the requests as they were.
-/

def Scored (e : Engine) : Prop :=
  forall k : Nat, e.statsOf k =
    ⟨e.executions k true % Text.wordBound, e.executions k false % Text.wordBound,
      e.computed k % Text.wordBound⟩

theorem scored_empty : empty.Scored := fun _ => rfl

theorem executions_of_keeps {e e' : Engine} (hkeeps : e.KeepsRequests e')
    (hknown : forall c : Completion, c ∈ e'.executed -> c.submission < e.submissions.length)
    (k : Nat) (isOk : Bool) :
    e'.executions k isOk = (List.range e.submissions.length).countP fun n =>
      (e.submission n).request.model.number = k && e'.hasCome n isOk := by
  have hle : e.submissions.length ≤ e'.submissions.length := by
    rcases Nat.eq_zero_or_pos e.submissions.length with hzero | hpos
    · rw [hzero]
      exact Nat.zero_le _
    · have hlast := (hkeeps (e.submissions.length - 1) (Nat.sub_lt hpos Nat.one_pos)).1
      omega
  rcases Nat.exists_eq_add_of_le hle with ⟨more, hmore⟩
  have hnew : ((List.range more).map (e.submissions.length + ·)).countP (fun n =>
      (e'.submission n).request.model.number = k && e'.hasCome n isOk) = 0 := by
    apply List.countP_eq_zero.2
    intro n hn hboth
    rcases List.mem_map.1 hn with ⟨i, _, rfl⟩
    rcases List.any_eq_true.1 (Bool.and_eq_true_iff.1 hboth).2 with ⟨c, hc, hown⟩
    have hsubmission := of_decide_eq_true (Bool.and_eq_true_iff.1 hown).1
    have hlt := hknown c hc
    omega
  unfold executions
  rw [hmore, List.range_add, List.countP_append, hnew, Nat.add_zero]
  apply countP_range_congr
  intro n hn
  rw [(hkeeps n hn).2]

theorem computed_of_keeps {e e' : Engine} (hkeeps : e.KeepsRequests e')
    (hknown : forall c : Completion, c ∈ e'.executed -> c.submission < e.submissions.length)
    (k : Nat) :
    e'.computed k = Completion.totalTime (e'.executed.filter fun c =>
      (e.submission c.submission).request.model.number = k) := by
  have hsame : e'.executed.filter (fun c =>
      (e'.submission c.submission).request.model.number = k) =
        e'.executed.filter fun c => (e.submission c.submission).request.model.number = k := by
    apply List.filter_congr
    intro c hc
    rw [(hkeeps c.submission (hknown c hc)).2]
  unfold computed
  rw [hsame]

theorem hasCome_concat {e e' : Engine} {c : Completion} (h : e'.executed = e.executed ++ [c])
    (n : Nat) (isOk : Bool) : e'.hasCome n isOk =
      (e.hasCome n isOk || (c.submission = n && c.response.isOk = isOk)) := by
  unfold hasCome
  rw [h, List.any_append]
  simp

theorem Tally.hasCome_eq_false {e : Engine} (h : e.Tally) {n : Nat}
    (hopen : (e.submission n).phase.isOpen = true) (isOk : Bool) : e.hasCome n isOk = false := by
  have hcalled := h.called n (lt_of_phase hopen)
  rw [if_pos hopen] at hcalled
  apply Bool.eq_false_iff.2
  intro hcome
  rcases List.any_eq_true.1 hcome with ⟨c, hc, hown⟩
  exact List.countP_eq_zero.1 hcalled c (List.mem_of_mem_filter hc) (Bool.and_eq_true_iff.1 hown).1

theorem executions_of_scored {e e' : Engine} (htally : e.Tally) (hkeeps : e.KeepsRequests e')
    {c : Completion} (hopen : (e.submission c.submission).phase.isOpen = true)
    (hexecuted : e'.executed = e.executed ++ [c]) (k : Nat) (isOk : Bool) :
    e'.executions k isOk = e.executions k isOk +
      if k = (e.submission c.submission).request.model.number ∧ c.response.isOk = isOk then 1
      else 0 := by
  have hlt := lt_of_phase hopen
  have hknown : forall a : Completion, a ∈ e'.executed -> a.submission < e.submissions.length := by
    intro a ha
    rw [hexecuted] at ha
    rcases List.mem_append.1 ha with hold | hnew
    · exact (htally.known a (List.mem_of_mem_filter hold)).1
    · rw [List.mem_singleton.1 hnew]
      exact hlt
  rw [executions_of_keeps hkeeps hknown]
  unfold executions
  split
  · rename_i hboth
    refine countP_range_remove hlt ?_ ?_ ?_
    · rw [hasCome_concat hexecuted]
      simp [hboth.1, hboth.2]
    · rw [htally.hasCome_eq_false hopen, Bool.and_false]
    · intro m _ hne
      rw [hasCome_concat hexecuted]
      simp [Ne.symm hne]
  · rename_i hother
    apply countP_range_congr
    intro m _
    rw [hasCome_concat hexecuted]
    by_cases hm : c.submission = m
    · rw [← hm]
      by_cases hk : k = (e.submission c.submission).request.model.number
      · have hresult : ¬ c.response.isOk = isOk := fun hok => hother ⟨hk, hok⟩
        simp [hresult]
      · simp [Ne.symm hk]
    · simp [hm]

theorem computed_of_scored {e e' : Engine} (htally : e.Tally) (hkeeps : e.KeepsRequests e')
    {c : Completion} (hopen : (e.submission c.submission).phase.isOpen = true)
    (hexecuted : e'.executed = e.executed ++ [c]) (k : Nat) :
    e'.computed k = e.computed k +
      if k = (e.submission c.submission).request.model.number then c.computeTime else 0 := by
  have hknown : forall a : Completion, a ∈ e'.executed -> a.submission < e.submissions.length := by
    intro a ha
    rw [hexecuted] at ha
    rcases List.mem_append.1 ha with hold | hnew
    · exact (htally.known a (List.mem_of_mem_filter hold)).1
    · rw [List.mem_singleton.1 hnew]
      exact lt_of_phase hopen
  rw [computed_of_keeps hkeeps hknown, hexecuted, List.filter_append]
  by_cases hk : k = (e.submission c.submission).request.model.number
  · rw [if_pos hk, List.filter_cons_of_pos (by simp [hk]), List.filter_nil,
      Completion.totalTime_concat]
    rfl
  · rw [if_neg hk, List.filter_cons_of_neg (by simpa using Ne.symm hk), List.filter_nil,
      List.append_nil]
    rfl

theorem Move.scored {deed : Deed} {e e' : Engine} (h : Move deed e e') (htally : e.Tally)
    (hscored : e.Scored) (hpinned : e.PinnedInUse) : e'.Scored := by
  intro k
  cases h.scores hpinned with
  | quiet hexecuted hstats =>
      have hknown : forall c : Completion, c ∈ e'.executed ->
          c.submission < e.submissions.length := by
        intro c hc
        rw [hexecuted] at hc
        exact (htally.known c (List.mem_of_mem_filter hc)).1
      have hcount : forall isOk : Bool, e'.executions k isOk = e.executions k isOk := by
        intro isOk
        rw [executions_of_keeps h.keepsRequests hknown]
        unfold executions hasCome
        rw [hexecuted]
      have htime : e'.computed k = e.computed k := by
        rw [computed_of_keeps h.keepsRequests hknown, hexecuted]
        rfl
      rw [hstats, hscored, hcount, hcount, htime]
  | scored c hopen hexecuted hstats =>
      have hcount := executions_of_scored htally h.keepsRequests hopen hexecuted k
      rw [hstats, hscored, hcount, hcount,
        computed_of_scored htally h.keepsRequests hopen hexecuted k]
      by_cases hk : k = (e.submission c.submission).request.model.number
      · cases c.response.isOk <;> simp [InferStats.record, InferStats.next, hk]
      · simp [hk]

/-- All counters go on to be right as long as all requests are pinned to numbers in use. -/
theorem Moves.scored {also : Deed -> Prop} {e e' : Engine} (h : Moves also e e')
    (hreachable : e.Reachable) (hscored : e.Scored)
    (hpinned : forall n : Nat, n < e'.submissions.length ->
      (e'.submission n).request.model.number < e.stats.length) : e'.Scored := by
  induction h with
  | refl => exact hscored
  | tail hmoves hlast ih =>
      rename_i middle last
      rcases hlast with ⟨deed, _, hmove⟩
      have hbefore : Moves also e middle := hmoves
      have hstill : forall n : Nat, n < middle.submissions.length ->
          (middle.submission n).request.model.number < e.stats.length := by
        intro n hn
        rcases hmove.keepsRequests n hn with ⟨hlt, hlasts⟩
        have hpin := hpinned n hlt
        rw [hlasts] at hpin
        exact hpin
      exact hmove.scored (hreachable.moves hbefore).tally (ih hstill) fun n hn =>
        Nat.lt_of_lt_of_le (hstill n hn) hbefore.length_stats_le

theorem scored_reached {ops : List Operation} (h : SubmitsOwn ops) : (reached ops).Scored := by
  induction ops using List.reverseRecOn with
  | nil => exact scored_empty
  | append_singleton ops op ih =>
      have hreachable := reachable_reached ops
      have hmoves : Moves (fun _ => True) (reached ops) (reached (ops ++ [op])) := by
        rw [reached_concat]
        exact moves_operate hreachable.sound op fun _ _ => trivial
      exact hmoves.scored hreachable (ih (h.earlier (List.prefix_append ops [op]))) fun n hn =>
        h.number_lt_of_concat hn

/-!
# What leaves the counters alone
-/

theorem statsOf_eq_zero {e : Engine} {k : Nat} (h : e.stats.length ≤ k) : e.statsOf k = .zero := by
  unfold statsOf
  rw [List.getD_eq_getElem?_getD, List.getElem?_eq_none h]
  rfl

/-- Loading models leaves the counters alone; those of a number that is not in use are zero. -/
theorem statsOf_load (e : Engine) {op : Operation} (h : op.isLoad = true) (k : Nat) :
    (e.operate op).statsOf k = e.statsOf k := by
  have hreconciled : forall (factory : Option BackendFactory) (polled : Option Nat)
      (options : ServerOptions) (table : ModelTable) (models : List RepositoryModel),
      (e.reconcile factory polled options table models).2.2.statsOf k = e.statsOf k := by
    intro factory polled options table models
    rw [statsOf_reconcile]
    split
    · rfl
    · rename_i hge
      exact (statsOf_eq_zero (Nat.le_of_not_lt hge)).symm
  cases op with
  | build options allocator scan factory isInside =>
      simp only [operate, build]
      split
      · split
        · rfl
        · split
          · rfl
          · cases scan with
            | error failure => rfl
            | ok models =>
                have hstats := hreconciled factory none options .empty models
                simp only
                split
                · exact hstats
                · cases allocator with
                  | some n => exact hstats
                  | none => exact hstats
      · rfl
  | poll n scan factory =>
      simp only [operate, poll]
      split
      · rfl
      · cases scan with
        | error failure => rfl
        | ok models =>
            have hstats :=
              hreconciled factory (some n) (e.server n).options (e.server n).table models
            simp only
            split
            · exact hstats
            · split <;> exact hstats
  | _ => cases h

/-- A version that is ready after an operation was so before with the same loaded model, whose
counters no load changes, or it has been loaded by the operation and its counters are zero. -/
theorem counters_operate {e : Engine} (op : Operation) {k : Nat} {name : String}
    {entry : ModelEntry} {v : Int} {model : LoadedModel}
    (hentry : OrderedMap.get? ((e.operate op).server k).table name = some entry)
    (hslot : entry.versions.get? v = some (.ready model)) :
    (exists before : ModelEntry, OrderedMap.get? (e.server k).table name = some before ∧
      before.config = entry.config ∧ before.versions.get? v = some (.ready model) ∧
      (op.isLoad = true ->
        (e.operate op).statsOf model.number = e.statsOf model.number)) ∨
    (op.isLoad = true ∧ e.stats.length ≤ model.number ∧
      (e.operate op).statsOf model.number = .zero) := by
  cases hload : op.isLoad with
  | false =>
      left
      rcases (unloads_operate e hload k).2 with hsame | hempty
      · rw [hsame] at hentry
        exact ⟨entry, hentry, rfl, hslot, fun htrue => by cases htrue⟩
      · rw [hempty] at hentry
        cases hentry
  | true =>
      have hstats := statsOf_load e hload model.number
      rcases keepsOrLoads_operate e op k name entry hentry v model hslot with
        ⟨before, hbefore, hconfig, hready⟩ | hnew
      · exact .inl ⟨before, hbefore, hconfig, hready, fun _ => hstats⟩
      · exact .inr ⟨rfl, hnew, hstats.trans (statsOf_eq_zero hnew)⟩

theorem stats_cancel (e : Engine) (n : Nat) : (e.cancel n).stats = e.stats := by
  unfold cancel
  split
  · rw [stats_comeBack, stats_giveUp]
  · rfl

theorem stats_submit (e : Engine) (server callback : Nat) (p : Provider) :
    (e.submit server p callback).2.stats = e.stats := by
  unfold submit
  split
  · rfl
  · split
    · rfl
    · split
      · simp only [countOut]
        split <;> rfl
      · simp only [launch]
        split
        · rfl
        · exact stats_cancel _ _

/-!
# What is told about the counters
-/

/-- Whether the blobs for a model and for its server tell counters for a version. -/
def Reports (e : Engine) (k : Nat) (name : String) (v : Int) (counters : InferStats) : Prop :=
  exists (model : ModelStatus) (server : ServerStatus),
    e.modelStatus k name = .ok (.ofJson model.toJson) ∧ e.status k = .ofJson server.toJson ∧
      OrderedMap.get? server.models name = some model ∧
        model.versions.get? v = some ⟨.ready, none, counters⟩

theorem reports_statsOf {e : Engine} {k : Nat} {name : String} {entry : ModelEntry} {v : Int}
    {model : LoadedModel} (hentry : OrderedMap.get? (e.server k).table name = some entry)
    (hslot : entry.versions.get? v = some (.ready model)) :
    e.Reports k name v (e.statsOf model.number) := by
  have htold : OrderedMap.get? ((e.server k).status e.statsOf e.readings).models name =
      some (entry.status e.statsOf) := by
    unfold Server.status ModelTable.status
    rw [OrderedMap.get?_map, hentry]
    rfl
  refine ⟨entry.status e.statsOf, (e.server k).status e.statsOf e.readings, ?_, rfl, htold, ?_⟩
  · unfold modelStatus Server.modelStatus ModelTable.modelStatus?
    rw [show (e.server k).table.get? name = some entry from hentry]
    rfl
  · unfold ModelEntry.status
    rw [OrderedMap.get?_map, hslot]
    rfl

/-- What the counters of an engine tell: how many of the requests that are pinned to a loaded model
have been executed with success, and how many without. -/
structure CountsExecutions (e : Engine) : Prop where
  success : forall k : Nat, (e.statsOf k).success = e.executions k true % Text.wordBound
  failed : forall k : Nat, (e.statsOf k).failed = e.executions k false % Text.wordBound
  computeTime : forall k : Nat, (e.statsOf k).computeTime = e.computed k % Text.wordBound
  /-- An answer counts for one result, and for none if the request has been dropped. -/
  once : forall c : Completion, c ∈ e.completions -> forall isOk : Bool,
    e.hasCome c.submission isOk = (c.isExecuted && c.response.isOk = isOk)
  moves : forall (deed : Deed) (e' : Engine), Move deed e e' -> e.Scores e'
  reports : forall (k : Nat) (name : String) (entry : ModelEntry) (v : Int) (model : LoadedModel),
    OrderedMap.get? (e.server k).table name = some entry ->
    entry.versions.get? v = some (.ready model) -> exists counters : InferStats,
      e.Reports k name v counters ∧
        counters.success = e.executions model.number true % Text.wordBound ∧
        counters.failed = e.executions model.number false % Text.wordBound

theorem Tally.hasCome_eq {e : Engine} (h : e.Tally) {c : Completion} (hc : c ∈ e.completions)
    (isOk : Bool) :
    e.hasCome c.submission isOk = (c.isExecuted && c.response.isOk = isOk) := by
  have hcalled := h.called c.submission (h.known c hc).1
  have honce : e.timesCalled c.submission ≤ 1 := by
    rw [hcalled]
    split <;> decide
  have honly : forall a : Completion, a ∈ e.completions -> a.submission = c.submission ->
      a = c := by
    intro a ha hown
    have hmem : a ∈ e.completions.filter fun a => a.submission = c.submission :=
      List.mem_filter.2 ⟨ha, decide_eq_true hown⟩
    rw [filter_eq_singleton honce hc (decide_eq_true rfl)] at hmem
    exact List.mem_singleton.1 hmem
  apply Bool.eq_iff_iff.2
  unfold hasCome executed
  rw [List.any_eq_true]
  constructor
  · rintro ⟨a, ha, hboth⟩
    rcases List.mem_filter.1 ha with ⟨hmem, hexecuted⟩
    rcases Bool.and_eq_true_iff.1 hboth with ⟨hown, hresult⟩
    rw [honly a hmem (of_decide_eq_true hown)] at hexecuted hresult
    rw [hexecuted, hresult]
    rfl
  · intro hboth
    rcases Bool.and_eq_true_iff.1 hboth with ⟨hexecuted, hresult⟩
    exact ⟨c, List.mem_filter.2 ⟨hc, hexecuted⟩, by rw [hresult]; simp⟩

theorem Scored.counts {e : Engine} (h : e.Scored) (htally : e.Tally) (hpinned : e.PinnedInUse) :
    e.CountsExecutions where
  success k := by rw [h k]
  failed k := by rw [h k]
  computeTime k := by rw [h k]
  once _ hc isOk := htally.hasCome_eq hc isOk
  moves _ _ hmove := hmove.scores hpinned
  reports _ _ _ _ model hentry hslot :=
    ⟨_, reports_statsOf hentry hslot, by rw [h model.number], by rw [h model.number]⟩

/-- In a run that submits providers of its own a number means one loaded model, be it in a table or
pinned to a request.  At each moment the counters under it are the numbers of the pinned requests
that have been executed with success and without, also when the model is not in the table any more.
What is submitted or dropped leaves all counters alone.  A version that is ready after an operation
was so before with the same loaded model, whose counters no load changes, or it has been loaded by
this operation and its counters are zero. -/
theorem counters_count_executions (ops : List Operation) (hown : SubmitsOwn ops) :
    (exists named : Nat -> LoadedModel, forall earlier : List Operation, earlier <+: ops ->
      (reached earlier).Named named ∧
        forall n : Nat, n < (reached earlier).submissions.length ->
          named ((reached earlier).submission n).request.model.number =
            ((reached earlier).submission n).request.model) ∧
    (forall e : Engine, Moves Deed.AcceptsNone (reached ops) e -> e.CountsExecutions) ∧
    (forall (server callback k : Nat) (p : Provider),
      ((reached ops).submit server p callback).2.statsOf k = (reached ops).statsOf k) ∧
    (forall n k : Nat, ((reached ops).cancel n).statsOf k = (reached ops).statsOf k) ∧
    forall (op : Operation) (k : Nat) (name : String) (entry : ModelEntry) (v : Int)
      (model : LoadedModel),
      OrderedMap.get? (((reached ops).operate op).server k).table name = some entry ->
      entry.versions.get? v = some (.ready model) ->
        (exists before : ModelEntry,
          OrderedMap.get? ((reached ops).server k).table name = some before ∧
          before.config = entry.config ∧ before.versions.get? v = some (.ready model) ∧
          (op.isLoad = true ->
            ((reached ops).operate op).statsOf model.number =
              (reached ops).statsOf model.number)) ∨
        (op.isLoad = true ∧ (reached ops).stats.length ≤ model.number ∧
          ((reached ops).operate op).statsOf model.number = .zero) := by
  refine ⟨?_, ?_, ?_, ?_, ?_⟩
  · rcases named_reached ops with ⟨named, hnamed⟩
    refine ⟨named, ?_⟩
    intro earlier hearlier
    refine ⟨hnamed earlier hearlier, ?_⟩
    intro n hn
    rcases (hown.earlier hearlier).is_ready hn with
      ⟨before, hbefore, _, k, name, entry, v, hentry, hslot⟩
    exact (hnamed before (hbefore.trans hearlier) k name entry hentry v _ hslot).2
  · intro e he
    have hreachable := reachable_reached ops
    have hlength : e.submissions.length = (reached ops).submissions.length := by
      simpa [callbacks] using congrArg List.length he.callbacks
    have hpinned : forall n : Nat, n < e.submissions.length ->
        (e.submission n).request.model.number < (reached ops).stats.length := by
      intro n hn
      rw [hlength] at hn
      rw [(he.keepsRequests n hn).2]
      exact hown.number_lt hn
    have hscored : e.Scored := he.scored hreachable (scored_reached hown) hpinned
    exact hscored.counts (hreachable.moves he).tally fun n hn =>
      Nat.lt_of_lt_of_le (hpinned n hn) he.length_stats_le
  · intro server callback k p
    exact statsOf_of_stats (stats_submit _ server callback p) k
  · intro n k
    exact statsOf_of_stats (stats_cancel _ n) k
  · intro op k name entry v model hentry hslot
    exact counters_operate op hentry hslot

def failAtOnce (_ : Nat) (batch : ExecutionBatch) : Behaviour :=
  .finish (.error .cancelled) batch.outputs

theorem keeps_failAtOnce (request : Nat) (batch : ExecutionBatch) :
    (failAtOnce request batch).Keeps batch.outputs := Rearranged.refl _

def brokenBackend : Backend := ⟨failAtOnce, keeps_failAtOnce⟩

/-- A request has been answered, and another one has been accepted, when their model is unloaded and
loaded again with a backend that fails. -/
def reloadedRun : List Operation :=
  answeredRun ++ [.submit 0 (copyProvider.edited [.append "in" [1], .append "in" [2]]) 8] ++
    [.poll 0 (.ok []) none] ++
    [.poll 0 (.ok [⟨copyModel, [1]⟩]) (some fun _ _ => ⟨false, .ok brokenBackend⟩)]

/-- A third request is accepted for the model that has been loaded again, and both are executed. -/
def stragglerRun : List Operation :=
  reloadedRun ++ [.submit 0 ({ copyProvider with model := ⟨1, copyModel, 1, brokenBackend⟩ }.edited
    [.append "in" [1], .append "in" [2]]) 9] ++ [.runAt 0] ++ [.runAt 0]

theorem submitsOwn_stragglerRun : SubmitsOwn stragglerRun := by
  have hmakes : forall {before ops : List Operation} {made : Provider}, before <+: ops ->
      (reached before).provider 0 "copy" .latest (.new 1) = .ok made ->
        Makes ops (made.edited [.append "in" [1], .append "in" [2]]) := fun hbefore hmade =>
    ⟨_, 0, "copy", .latest, .new 1, _, _, hbefore, hmade, rfl⟩
  have hcopied : SubmitsOwn copyRun := submitsOwn_nil.other rfl
  have hfirst := hcopied.submit (hmakes List.prefix_rfl provider_copyRun) 0 7
  have hanswered : SubmitsOwn answeredRun := hfirst.other rfl
  have hsecond := hanswered.submit (hmakes (List.prefix_append _ _) provider_copyRun) 0 8
  have hreloaded : SubmitsOwn reloadedRun := (hsecond.other rfl).other rfl
  have hthird := hreloaded.submit (hmakes List.prefix_rfl rfl) 0 9
  exact (hthird.other rfl).other rfl

/-- The second request is counted for the model that it was accepted with. -/
theorem counters_of_stragglerRun : SubmitsOwn stragglerRun ∧
    ((reached stragglerRun).statsOf 0).success = 2 ∧
    ((reached stragglerRun).statsOf 0).failed = 0 ∧
    exists counters : InferStats, (reached stragglerRun).Reports 0 "copy" 1 counters ∧
      counters.success = 0 ∧ counters.failed = 1 := by
  have hcounts := (counters_count_executions stragglerRun submitsOwn_stragglerRun).2.1 _
    (Moves.refl _)
  rcases hcounts.reports 0 "copy" _ 1 _ rfl rfl with ⟨counters, hreports, hsuccess, hfailed⟩
  refine ⟨submitsOwn_stragglerRun, ?_, ?_, counters, hreports, ?_, ?_⟩
  · rw [hcounts.success]
    decide
  · rw [hcounts.failed]
    decide
  · rw [hsuccess]
    decide
  · rw [hfailed]
    decide

end Engine

end InferenceEngine
