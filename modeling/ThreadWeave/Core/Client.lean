import ThreadWeave.Core.Outcomes
import ThreadWeave.Core.Reports
import ThreadWeave.Core.Submission

/-!
# What a client sees of its jobs

`GetJob` reads the jobs map and nothing else. What it answers is said here
without the map, from the calls made so far alone:

* `submissionOf` — the submission of a job, `Withdrawn` — its publish failed.
* `reportsOn` — the reports about a job that were accepted, in the order in
  which they updated it.
* `viewed` — the answer these determine: the last report decides the state, the
  last terminal report the result.

`getJob_by_history` says that every reachable state answers so, and
`getJob_advances` what may happen between two calls: a job keeps its identity,
never returns to ACCEPTED, and disappears only if its publish fails, before
anything was reported about it: a failing publish has put nothing on the list here.
-/

namespace ThreadWeave.Core

open Runs (HashMap Machine)

variable {Bytes : Type} {cfg : Config Bytes} {registry : MemoryWorkerRegistry}

/-! ## GetJob -/

structure GetJobResponse where
  job : Option Job
  result : Option JobResult
deriving DecidableEq

/-- `get_job`: a read of the jobs map. -/
def CoreState.getJob (s : CoreState Bytes) (jobId : String) : Except Status GetJobResponse :=
  match s.jobs.lookup jobId with
  | none => .error ⟨.notFound, "job not found"⟩
  | some record => .ok { job := some record.job, result := record.result }

/-! ## What the trace says about a job -/

/-- The job a step submits, with its request and its time. -/
def Act.submission (j : String) : Act → Option (SubmitTaskRequest × Timestamp)
  | .submit jobId _ request now => if jobId = j then some (request, now) else none
  | _ => none

def submissionOf (tr : List (Act × Out Bytes)) (j : String) :
    Option (SubmitTaskRequest × Timestamp) :=
  tr.findSome? fun x => x.1.submission j

/-- The job whose publish fails in this step. -/
def Act.withdrawal : Act → Option String
  | .published jobId (.error _) => some jobId
  | _ => none

/-- The `accept` of job `j` was answered that the broker is unavailable. -/
def Withdrawn (tr : List (Act × Out Bytes)) (j : String) : Prop :=
  ∃ x ∈ tr, x.1.withdrawal = some j

instance (tr : List (Act × Out Bytes)) (j : String) : Decidable (Withdrawn tr j) :=
  inferInstanceAs (Decidable (∃ x ∈ tr, _))

/-- The reports a trace shows: those that were begun, by their call, and those
that were accepted, with the time of the update. -/
structure ReportLog where
  begun : Nat → Option ReportExecutionRequest
  accepted : List (ReportExecutionRequest × Timestamp)

def ReportLog.add (log : ReportLog) : Act × Out Bytes → ReportLog
  | (.report k report, .silent) =>
      { log with begun := Function.update log.begun k (some report) }
  | (.jobUpdated k now, .reported (.ok _)) =>
      { log with accepted := log.accepted ++ ((log.begun k).map fun report => (report, now)).toList }
  | _ => log

def reportLog (tr : List (Act × Out Bytes)) : ReportLog :=
  tr.foldl ReportLog.add ⟨fun _ => none, []⟩

/-- The job an execution belongs to. -/
def CoreState.jobOf (s : CoreState Bytes) (executionId : String) : Option String :=
  (s.executions.lookup executionId).map ExecutionRecord.jobId

/-- The accepted reports about job `j`, in the order in which they updated it. -/
def reportsOn (tr : List (Act × Out Bytes)) (s : CoreState Bytes) (j : String) :
    List (ReportExecutionRequest × Timestamp) :=
  (reportLog tr).accepted.filter fun x => decide (s.jobOf x.1.executionId = some j)

/-- The outcome an accepted report carries: none for RUNNING. -/
def carried (cfg : Config Bytes) (report : ReportExecutionRequest) : Option JobResult :=
  match cfg.states.tryFrom report.state with
  | some .running => none
  | _ => report.outcome.map fun outcome => { outcome with executionId := report.executionId }

/-- The state an accepted report puts its job in. -/
def reportedState (cfg : Config Bytes) (report : ReportExecutionRequest) : JobState :=
  match carried cfg report with
  | none => .running
  | some outcome => stateOf outcome

/-- The record of a job after the given reports. -/
def recordAfter (cfg : Config Bytes) (j : String) (submission : SubmitTaskRequest × Timestamp)
    (reports : List (ReportExecutionRequest × Timestamp)) : JobRecord where
  job :=
    { newJob submission.1 j submission.2 with
      state := (reports.getLast?.map fun x => reportedState cfg x.1).getD .accepted
      attemptNumber := if reports = [] then 0 else 1
      updatedAt := some ((reports.getLast?.map Prod.snd).getD submission.2) }
  result := (reports.filterMap fun x => carried cfg x.1).getLast?

/-- The answer history determines. -/
def viewed (cfg : Config Bytes) (tr : List (Act × Out Bytes)) (s : CoreState Bytes) (j : String) :
    Except Status GetJobResponse :=
  match submissionOf tr j with
  | none => .error ⟨.notFound, "job not found"⟩
  | some submission =>
      if Withdrawn tr j then .error ⟨.notFound, "job not found"⟩
      else
        let record := recordAfter cfg j submission (reportsOn tr s j)
        .ok { job := some record.job, result := record.result }

/-! ## One more entry -/

section Snoc

variable {tr : List (Act × Out Bytes)} {x : Act × Out Bytes} {j : String}

theorem submissionOf_snoc :
    submissionOf (tr ++ [x]) j = (submissionOf tr j).or (x.1.submission j) := by
  simp [submissionOf, List.findSome?_append]

theorem Withdrawn.snoc : Withdrawn (tr ++ [x]) j ↔ Withdrawn tr j ∨ x.1.withdrawal = some j := by
  simp [Withdrawn, or_and_right, exists_or]

theorem reportLog_snoc : reportLog (tr ++ [x]) = (reportLog tr).add x := by
  simp [reportLog, List.foldl_append]

/-- One more report about the job. -/
theorem recordAfter_snoc (submission : SubmitTaskRequest × Timestamp)
    (reports : List (ReportExecutionRequest × Timestamp)) (report : ReportExecutionRequest)
    (now : Timestamp) :
    recordAfter cfg j submission (reports ++ [(report, now)]) =
      (recordAfter cfg j submission reports).update (carried cfg report) now := by
  have hattempt : max (if reports = [] then 0 else 1) 1 = 1 := by split_ifs <;> rfl
  cases hc : carried cfg report with
  | none =>
      simp [recordAfter, JobRecord.update, JobRecord.running, reportedState, hc]
  | some outcome =>
      simp [recordAfter, JobRecord.update, JobRecord.finished, reportedState, stateOf, hc,
        hattempt]

end Snoc

/-! ## What a step does to jobs and reports -/

section Step

variable {s s' : CoreState Bytes} {a : Act} {o : Out Bytes}

/-- A step submits a job, rolls one back, updates one, or shows nothing of
the kind and leaves them alone. -/
theorem jobs_cases (h : Takes cfg s a o s') :
    (∃ j messageId request now, a = .submit j messageId request now ∧ j ∉ s.drawn ∧
      s'.jobs = s.jobs.insert j { job := newJob request j now, result := none }) ∨
    (∃ j error request job env, a = .published j (.error error) ∧
      s.accepts.lookup j = some (.publishing request job env) ∧ s'.jobs = s.jobs.erase j) ∨
    (∃ k now report j outcome record, a = .jobUpdated k now ∧ o = .reported (.ok ()) ∧
      s.reports.lookup k = some (.finishing report j outcome) ∧
      s.jobs.lookup j = some record ∧ s'.jobs = s.jobs.insert j (record.update outcome now)) ∨
    (s'.jobs = s.jobs ∧ (∀ j, a.submission j = none) ∧ a.withdrawal = none ∧
      ∀ log : ReportLog, (log.add (a, o)).accepted = log.accepted) := by
  cases h with
  | submit jobId messageId request now hfresh =>
      exact Or.inl ⟨jobId, messageId, request, now, rfl,
        (hfresh.2 jobId List.mem_cons_self).1, rfl⟩
  | publishFailed jobId error request job envelope hpc =>
      exact Or.inr (Or.inl ⟨jobId, error, request, job, envelope, rfl, hpc, rfl⟩)
  | jobUpdated k now report jobId outcome record hpc hjob =>
      exact Or.inr (Or.inr (Or.inl ⟨k, now, report, jobId, outcome, record, rfl, rfl, hpc, hjob,
        rfl⟩))
  | refused a k status ha =>
      rcases ha with ⟨_, rfl⟩ | ⟨_, rfl⟩ | ⟨_, _, rfl⟩ | ⟨_, rfl⟩
      all_goals exact Or.inr (Or.inr (Or.inr ⟨rfl, fun _ => rfl, rfl, fun _ => rfl⟩))
  | _ => exact Or.inr (Or.inr (Or.inr ⟨rfl, fun _ => rfl, rfl, fun _ => rfl⟩))

/-- A call in progress goes on with its request and looks its job up once, or
has just begun. -/
theorem reports_origin (h : Takes cfg s a o s') {k : Nat} {pc : ReportPc}
    (hpc : s'.reports.lookup k = some pc) :
    (∃ pc₀, s.reports.lookup k = some pc₀ ∧ pc₀.request = pc.request ∧
      (pc.jobId = pc₀.jobId ∨ pc.jobId = s.jobOf pc.request.executionId) ∧
      ∀ log : ReportLog, (log.add (a, o)).begun k = log.begun k) ∨
    (∃ report state, a = .report k report ∧ o = .silent ∧ pc = .resolving report state) := by
  -- a call that is not touched, or another one that ends
  have hsame : s.reports.lookup k = some pc →
      (∀ log : ReportLog, (log.add (a, o)).begun k = log.begun k) →
      ∃ pc₀, s.reports.lookup k = some pc₀ ∧ pc₀.request = pc.request ∧
        (pc.jobId = pc₀.jobId ∨ pc.jobId = s.jobOf pc.request.executionId) ∧
        ∀ log : ReportLog, (log.add (a, o)).begun k = log.begun k := by
    intro hlook hlog
    exact ⟨pc, hlook, rfl, Or.inl rfl, hlog⟩
  have hgone : ∀ n, (s.reports.erase n).lookup k = some pc → s.reports.lookup k = some pc :=
    fun n hn => (HashMap.lookup_erase_some hn).2
  cases h with
  | report n report state hfree hstate =>
      rcases HashMap.lookup_insert_some hpc with ⟨rfl, rfl⟩ | ⟨hne, hold⟩
      · exact Or.inr ⟨report, state, rfl, rfl, rfl⟩
      · exact Or.inl (hsame hold fun log => Function.update_of_ne hne _ _)
  | refused a n status ha =>
      refine Or.inl (hsame (hgone n hpc) ?_)
      rcases ha with ⟨_, rfl⟩ | ⟨_, rfl⟩ | ⟨_, _, rfl⟩ | ⟨_, rfl⟩
      all_goals exact fun _ => rfl
  | resolvedRunning n report state execution hn hexec hout =>
      rcases HashMap.lookup_insert_some hpc with ⟨rfl, rfl⟩ | ⟨-, hold⟩
      · exact Or.inl ⟨_, hn, rfl, Or.inr (by simp [ReportPc.jobId, ReportPc.request,
          CoreState.jobOf, hexec]), fun _ => rfl⟩
      · exact Or.inl (hsame hold fun _ => rfl)
  | resolvedTerminal n report state execution outcome hn hexec hout =>
      rcases HashMap.lookup_insert_some hpc with ⟨rfl, rfl⟩ | ⟨-, hold⟩
      · exact Or.inl ⟨_, hn, rfl, Or.inr (by simp [ReportPc.jobId, ReportPc.request,
          CoreState.jobOf, hexec]), fun _ => rfl⟩
      · exact Or.inl (hsame hold fun _ => rfl)
  | outcomeStored n report state jobId outcome hn =>
      rcases HashMap.lookup_insert_some hpc with ⟨rfl, rfl⟩ | ⟨-, hold⟩
      · exact Or.inl ⟨_, hn, rfl, Or.inl rfl, fun _ => rfl⟩
      · exact Or.inl (hsame hold fun _ => rfl)
  | stateUpdated n now report state jobId outcome execution hn hexec =>
      rcases HashMap.lookup_insert_some hpc with ⟨rfl, rfl⟩ | ⟨-, hold⟩
      · exact Or.inl ⟨_, hn, rfl, Or.inl rfl, fun _ => rfl⟩
      · exact Or.inl (hsame hold fun _ => rfl)
  | outcomeLost n error report state jobId outcome hn =>
      exact Or.inl (hsame (hgone n hpc) fun _ => rfl)
  | stateLost n error now report state jobId outcome execution hn hexec =>
      exact Or.inl (hsame (hgone n hpc) fun _ => rfl)
  | jobUpdated n now report jobId outcome record hn hjob =>
      exact Or.inl (hsame (hgone n hpc) fun _ => rfl)
  | _ => exact Or.inl (hsame hpc fun _ => rfl)

/-- Only an update of a job shows that a report was accepted. -/
theorem accepted_add (log : ReportLog) (ha : ∀ k now, a ≠ .jobUpdated k now) :
    (log.add (a, o)).accepted = log.accepted := by
  unfold ReportLog.add
  split
  · rfl
  · rename_i k now _ heq
    exact absurd (congrArg Prod.fst heq) (ha k now)
  · rfl

/-- An execution stays with its job. -/
theorem jobOf_stays (h : Takes cfg s a o s') {x j : String} (hx : s.jobOf x = some j) :
    s'.jobOf x = some j := by
  rcases Option.map_eq_some_iff.mp hx with ⟨e₀, he₀, rfl⟩
  rcases executions_stay h he₀ with ⟨e, he, hid⟩
  have hjob : e.jobId = e₀.jobId := congrArg (fun names => names.2.1) hid
  simp [CoreState.jobOf, he, hjob]

end Step

/-! ## The jobs map by history -/

/-- What the trace says about the reports and the jobs. -/
structure Told (cfg : Config Bytes) (tr : List (Act × Out Bytes)) (s : CoreState Bytes) : Prop where
  begun : ∀ k pc, s.reports.lookup k = some pc → (reportLog tr).begun k = some pc.request
  resolved : ∀ k pc j, s.reports.lookup k = some pc → pc.jobId = some j →
    s.jobOf pc.request.executionId = some j
  accepted : ∀ x ∈ (reportLog tr).accepted, ∃ j, s.jobOf x.1.executionId = some j
  submitted : ∀ j, j ∉ s.drawn → submissionOf tr j = none
  withdrawn : ∀ j, j ∉ s.drawn → ¬ Withdrawn tr j
  jobs : ∀ j, s.jobs.lookup j =
    if Withdrawn tr j then none
    else (submissionOf tr j).map fun submission => recordAfter cfg j submission (reportsOn tr s j)

section Told

variable {tr : List (Act × Out Bytes)} {s s' : CoreState Bytes} {a : Act} {o : Out Bytes}

/-- Nothing was reported about a job that has not been submitted. -/
theorem reportsOn_eq_nil (hi : Integrity cfg s) {j : String} (hj : j ∉ s.drawn) :
    reportsOn tr s j = [] := by
  unfold reportsOn
  rw [List.filter_eq_nil_iff]
  intro x _ hx
  rcases Option.map_eq_some_iff.mp (of_decide_eq_true hx) with ⟨e, he, rfl⟩
  exact hj (hi.drawn _ (hi.executed _ e he).job)

/-- The reports so far are about the same jobs after a step. -/
theorem Told.filter_accepted (h : Told cfg tr s) (hstep : Takes cfg s a o s') (j : String) :
    ((reportLog tr).accepted.filter fun x => decide (s'.jobOf x.1.executionId = some j)) =
      reportsOn tr s j := by
  refine List.filter_congr ?_
  intro x hx
  rcases h.accepted x hx with ⟨j', hj'⟩
  rw [hj', jobOf_stays hstep hj']

theorem Told.reportsOn_same (h : Told cfg tr s) (hstep : Takes cfg s a o s') (j : String)
    (hlog : ((reportLog tr).add (a, o)).accepted = (reportLog tr).accepted) :
    reportsOn (tr ++ [(a, o)]) s' j = reportsOn tr s j := by
  rw [← h.filter_accepted hstep j, reportsOn, reportLog_snoc, hlog]

/-- A job that a step neither submits, nor rolls back, nor updates. -/
theorem Told.jobs_same (h : Told cfg tr s) {j : String}
    (hjobs : s'.jobs.lookup j = s.jobs.lookup j) (hsub : a.submission j = none)
    (hwith : a.withdrawal ≠ some j)
    (hreports : reportsOn (tr ++ [(a, o)]) s' j = reportsOn tr s j) :
    s'.jobs.lookup j =
      if Withdrawn (tr ++ [(a, o)]) j then none
      else (submissionOf (tr ++ [(a, o)]) j).map fun submission =>
        recordAfter cfg j submission (reportsOn (tr ++ [(a, o)]) s' j) := by
  have hiff : Withdrawn (tr ++ [(a, o)]) j ↔ Withdrawn tr j := by
    rw [Withdrawn.snoc]
    exact or_iff_left hwith
  rw [hjobs, h.jobs j, submissionOf_snoc, hsub, Option.or_none, hreports]
  simp only [hiff]

/-- The outcome with which a checked report updates its job. -/
theorem carried_of_checked {report : ReportExecutionRequest} {state : ExecutionState}
    {outcome : Option JobResult} (hstate : cfg.states.tryFrom report.state = some state)
    (hout : reportOutcome report state = .ok outcome) : carried cfg report = outcome := by
  unfold carried
  unfold reportOutcome at hout
  cases state with
  | running =>
      cases hout
      rw [hstate]
  | succeeded =>
      rw [hstate]
      cases hoc : report.outcome with
      | none => simp [hoc] at hout
      | some v => simpa [hoc] using hout
  | failed =>
      rw [hstate]
      cases hoc : report.outcome with
      | none => simp [hoc] at hout
      | some v =>
          cases hf : v.failure with
          | none => simp [hoc, hf] at hout
          | some f => simpa [hoc, hf] using hout
  | _ => cases hout

/-- A submission: the job has the record of a job without reports. -/
theorem Told.jobs_submit (h : Told cfg tr s) (hi : Integrity cfg s) {j messageId : String}
    {request : SubmitTaskRequest} {now : Timestamp}
    (hstep : Takes cfg s (.submit j messageId request now) o s') (hfresh : j ∉ s.drawn)
    (hjobs : s'.jobs = s.jobs.insert j { job := newJob request j now, result := none })
    (i : String) :
    s'.jobs.lookup i =
      if Withdrawn (tr ++ [(.submit j messageId request now, o)]) i then none
      else (submissionOf (tr ++ [(.submit j messageId request now, o)]) i).map fun submission =>
        recordAfter cfg i submission
          (reportsOn (tr ++ [(.submit j messageId request now, o)]) s' i) := by
  have hreports := h.reportsOn_same hstep i (accepted_add _ (by simp))
  by_cases hi' : i = j
  · subst hi'
    have hnot : ¬ Withdrawn (tr ++ [(.submit i messageId request now, o)]) i := by
      rw [Withdrawn.snoc]
      rintro (hold | hnew)
      · exact h.withdrawn i hfresh hold
      · cases hnew
    rw [if_neg hnot, hjobs, Finmap.lookup_insert, submissionOf_snoc, h.submitted i hfresh,
      hreports, reportsOn_eq_nil hi hfresh]
    simp [Act.submission, recordAfter, newJob]
  · refine h.jobs_same ?_ ?_ (by simp [Act.withdrawal]) hreports
    · rw [hjobs, Finmap.lookup_insert_of_ne _ hi']
    · exact if_neg (Ne.symm hi')

/-- A rollback: the job is gone. -/
theorem Told.jobs_withdraw (h : Told cfg tr s) {j error : String}
    (hstep : Takes cfg s (.published j (.error error)) o s') (hjobs : s'.jobs = s.jobs.erase j)
    (i : String) :
    s'.jobs.lookup i =
      if Withdrawn (tr ++ [(.published j (.error error), o)]) i then none
      else (submissionOf (tr ++ [(.published j (.error error), o)]) i).map fun submission =>
        recordAfter cfg i submission
          (reportsOn (tr ++ [(.published j (.error error), o)]) s' i) := by
  have hreports := h.reportsOn_same hstep i (accepted_add _ (by simp))
  by_cases hi' : i = j
  · subst hi'
    have hgone : Withdrawn (tr ++ [(.published i (.error error), o)]) i :=
      Withdrawn.snoc.mpr (Or.inr rfl)
    rw [if_pos hgone, hjobs, Finmap.lookup_erase]
  · refine h.jobs_same ?_ rfl ?_ hreports
    · rw [hjobs, Finmap.lookup_erase_ne hi']
    · intro he
      exact hi' (Option.some.inj he).symm

/-- An accepted report: it is the last one about its job. -/
theorem Told.jobs_report (h : Told cfg tr s) (hc : ReportsChecked cfg s) {k : Nat}
    {now : Timestamp} {report : ReportExecutionRequest} {j : String} {outcome : Option JobResult}
    {record : JobRecord} (hstep : Takes cfg s (.jobUpdated k now) (.reported (.ok ())) s')
    (hpc : s.reports.lookup k = some (.finishing report j outcome))
    (hjob : s.jobs.lookup j = some record)
    (hjobs : s'.jobs = s.jobs.insert j (record.update outcome now)) (i : String) :
    s'.jobs.lookup i =
      if Withdrawn (tr ++ [(.jobUpdated k now, .reported (.ok ()))]) i then none
      else (submissionOf (tr ++ [(.jobUpdated k now, .reported (.ok ()))]) i).map
        fun submission => recordAfter cfg i submission
          (reportsOn (tr ++ [(.jobUpdated k now, .reported (.ok ()))]) s' i) := by
  have hbegun : (reportLog tr).begun k = some report := h.begun k _ hpc
  have hof : s.jobOf report.executionId = some j := h.resolved k _ j hpc rfl
  rcases hc k _ hpc with ⟨state, hstate, hout⟩
  have hcarried : carried cfg report = outcome := carried_of_checked hstate hout
  -- the log has one more report, about job `j`
  have hlog : (reportLog (tr ++ [(.jobUpdated k now, .reported (.ok ()))])).accepted =
      (reportLog tr).accepted ++ [(report, now)] := by
    rw [reportLog_snoc]
    simp [ReportLog.add, hbegun]
  have hreports : reportsOn (tr ++ [(.jobUpdated k now, .reported (.ok ()))]) s' i =
      reportsOn tr s i ++ if i = j then [(report, now)] else [] := by
    rw [reportsOn, hlog, List.filter_append, h.filter_accepted hstep i]
    congr 1
    simp only [List.filter_cons, jobOf_stays hstep hof, List.filter_nil, Option.some.injEq,
      decide_eq_true_eq]
    by_cases hij : i = j
    · rw [if_pos hij, if_pos hij.symm]
    · rw [if_neg hij, if_neg (Ne.symm hij)]
  by_cases hij : i = j
  · subst hij
    have hnow := h.jobs i
    rw [hjob] at hnow
    have hnot : ¬ Withdrawn tr i := by
      intro hw
      rw [if_pos hw] at hnow
      cases hnow
    rw [if_neg hnot] at hnow
    rcases Option.map_eq_some_iff.mp hnow.symm with ⟨submission, hsub, hrec⟩
    have hnot' : ¬ Withdrawn (tr ++ [(.jobUpdated k now, .reported (.ok ()))]) i := by
      rw [Withdrawn.snoc]
      exact not_or.mpr ⟨hnot, by simp [Act.withdrawal]⟩
    rw [if_neg hnot', hjobs, Finmap.lookup_insert, submissionOf_snoc, hsub, hreports, if_pos rfl,
      Option.some_or, Option.map_some, recordAfter_snoc, hrec, hcarried]
  · refine h.jobs_same ?_ rfl (by simp [Act.withdrawal]) ?_
    · rw [hjobs, Finmap.lookup_insert_of_ne _ hij]
    · rw [hreports, if_neg hij, List.append_nil]

/-- An accepted report is about an execution. -/
theorem Told.accepted_step (h : Told cfg tr s) (hstep : Takes cfg s a o s') :
    ∀ x ∈ (reportLog (tr ++ [(a, o)])).accepted, ∃ j, s'.jobOf x.1.executionId = some j := by
  intro x hx
  rw [reportLog_snoc] at hx
  have hold : x ∈ (reportLog tr).accepted → ∃ j, s'.jobOf x.1.executionId = some j := by
    intro hmem
    rcases h.accepted x hmem with ⟨j, hj⟩
    exact ⟨j, jobOf_stays hstep hj⟩
  rcases jobs_cases hstep with
    ⟨j, m, request, now, rfl, -⟩ | ⟨j, error, request, job, env, rfl, -⟩ |
    ⟨k, now, report, j, outcome, record, rfl, rfl, hpc, -⟩ | ⟨-, -, -, hlog⟩
  · rw [accepted_add _ (by simp)] at hx
    exact hold hx
  · rw [accepted_add _ (by simp)] at hx
    exact hold hx
  · have hbegun : (reportLog tr).begun k = some report := h.begun k _ hpc
    simp only [ReportLog.add, hbegun, Option.map_some, Option.toList_some, List.mem_append,
      List.mem_singleton] at hx
    rcases hx with hmem | rfl
    · exact hold hmem
    · exact ⟨j, jobOf_stays hstep (h.resolved k _ j hpc rfl)⟩
  · exact hold (hlog (reportLog tr) ▸ hx)

/-- A submission draws the id of its job. -/
theorem Told.submitted_step (h : Told cfg tr s) (hi : Integrity cfg s)
    (hstep : Takes cfg s a o s') {j : String} (hj : j ∉ s'.drawn) :
    submissionOf (tr ++ [(a, o)]) j = none := by
  have hj' : j ∉ s.drawn := fun hd => hj (drawn_stays hstep hd)
  rw [submissionOf_snoc, h.submitted j hj', Option.none_or]
  rcases jobs_cases hstep with
    ⟨i, m, request, now, rfl, -, hjobs⟩ | ⟨i, error, request, job, env, rfl, -⟩ |
    ⟨k, now, report, i, outcome, record, rfl, -⟩ | ⟨-, hsub, -⟩
  · have hne : i ≠ j := by
      rintro rfl
      have hmem : i ∈ s'.jobs := hjobs ▸ Finmap.mem_insert.mpr (Or.inl rfl)
      exact hj ((integrity_step hi hstep).drawn i hmem)
    exact if_neg hne
  · rfl
  · rfl
  · exact hsub j

/-- What is rolled back was submitted. -/
theorem Told.withdrawn_step (h : Told cfg tr s) (hi : Integrity cfg s)
    (hstep : Takes cfg s a o s') {j : String} (hj : j ∉ s'.drawn) :
    ¬ Withdrawn (tr ++ [(a, o)]) j := by
  have hj' : j ∉ s.drawn := fun hd => hj (drawn_stays hstep hd)
  rw [Withdrawn.snoc]
  rintro (hold | hnew)
  · exact h.withdrawn j hj' hold
  · rcases jobs_cases hstep with
      ⟨i, m, request, now, rfl, -⟩ | ⟨i, error, request, job, env, rfl, hpc, -⟩ |
      ⟨k, now, report, i, outcome, record, rfl, -⟩ | ⟨-, -, hnone, -⟩
    · cases hnew
    · cases hnew
      exact hj' (hi.drawn j (hi.accepting j _ hpc).mem_jobs)
    · cases hnew
    · rw [hnone] at hnew
      cases hnew

theorem Told.step (h : Told cfg tr s) (hi : Integrity cfg s) (hc : ReportsChecked cfg s)
    (hstep : Takes cfg s a o s') : Told cfg (tr ++ [(a, o)]) s' := by
  refine ⟨?_, ?_, h.accepted_step hstep, fun j hj => h.submitted_step hi hstep hj,
    fun j hj => h.withdrawn_step hi hstep hj, ?_⟩
  · intro k pc hpc
    rw [reportLog_snoc]
    rcases reports_origin hstep hpc with ⟨pc₀, hpc₀, hreq, -, hlog⟩ | ⟨report, state, rfl, rfl, rfl⟩
    · rw [hlog, ← hreq]
      exact h.begun k pc₀ hpc₀
    · exact Function.update_self _ _ _
  · intro k pc j hpc hj
    rcases reports_origin hstep hpc with ⟨pc₀, hpc₀, hreq, hjob, -⟩ | ⟨report, state, -, -, rfl⟩
    · rcases hjob with hsame | hfound
      · rw [hsame] at hj
        exact jobOf_stays hstep (hreq ▸ h.resolved k pc₀ j hpc₀ hj)
      · exact jobOf_stays hstep (hfound ▸ hj)
    · cases hj
  · intro i
    rcases jobs_cases hstep with
      ⟨j, m, request, now, rfl, hfresh, hjobs⟩ | ⟨j, error, request, job, env, rfl, hpc, hjobs⟩ |
      ⟨k, now, report, j, outcome, record, rfl, rfl, hpc, hjob, hjobs⟩ |
      ⟨hjobs, hsub, hwith, hlog⟩
    · exact h.jobs_submit hi hstep hfresh hjobs i
    · exact h.jobs_withdraw hstep hjobs i
    · exact h.jobs_report hc hstep hpc hjob hjobs i
    · refine h.jobs_same (by rw [hjobs]) (hsub i) (by simp [hwith]) ?_
      exact h.reportsOn_same hstep i (hlog _)

theorem core_told (h : (core cfg registry).Run tr s) : Told cfg tr s := by
  refine h.history (P := Told cfg) ?_ ?_
  · refine ⟨?_, ?_, ?_, ?_, ?_, ?_⟩
    all_goals simp [core, CoreState.start, reportLog, submissionOf, Withdrawn]
  · intro tr s a t b hrun ih hs
    exact ih.step (core_integrity hrun) (core_reportsChecked hrun) (step_takes hs)

theorem Told.getJob (h : Told cfg tr s) (j : String) : s.getJob j = viewed cfg tr s j := by
  unfold CoreState.getJob viewed
  rw [h.jobs j]
  cases hsub : submissionOf tr j with
  | none => simp
  | some submission =>
      by_cases hw : Withdrawn tr j
      · simp [hw]
      · simp [hw]

/-- **GetJob by history.** In every reachable state `GetJob` answers what the
submission and the accepted reports determine. -/
theorem getJob_by_history (h : (core cfg registry).Run tr s) (j : String) :
    s.getJob j = viewed cfg tr s j :=
  (core_told h).getJob j

/-- A RUNNING report that comes after the terminal one. -/
theorem getJob_by_history_late : ∃ tr s,
    symbolicCore.Run tr s ∧
    (reportsOn tr s "j").map (fun x => reportedState symbolicConfig x.1) =
      [.running, .succeeded, .running] ∧
    (s.getJob "j").toOption.bind (fun view => view.job.map Job.state) = some .running ∧
    s.getJob "j" = viewed symbolicConfig tr s "j" := by
  rcases Machine.run_of_exec symbolicCore
    (oneOutcome ++ [.report 2 (plainReport "x" .running none), .resolved 2 (.ok ()),
      .stateUpdated 2 .done 6, .jobUpdated 2 6])
    (P := fun tr s =>
      (reportsOn tr s "j").map (fun x => reportedState symbolicConfig x.1) =
        [.running, .succeeded, .running] ∧
      (s.getJob "j").toOption.bind (fun view => view.job.map Job.state) = some .running)
    (by decide +kernel) with ⟨tr, s, hrun, -, hreports, hstate⟩
  exact ⟨tr, s, hrun, hreports, hstate, getJob_by_history hrun "j"⟩

end Told

/-! ## Between two calls -/

/-- What a later answer may look like: the same job, further along. -/
structure Advances (view view' : GetJobResponse) : Prop where
  job : ∃ job job', view.job = some job ∧ view'.job = some job' ∧ SameJob job' job ∧
    job.attemptNumber ≤ job'.attemptNumber ∧ (job'.state = .accepted → view' = view)
  result : view.result.isSome → view'.result.isSome

section Between

variable {tr q : List (Act × Out Bytes)} {s t : CoreState Bytes} {j : String}

theorem reportedState_ne_accepted (cfg : Config Bytes) (report : ReportExecutionRequest) :
    reportedState cfg report ≠ .accepted := by
  unfold reportedState
  cases carried cfg report with
  | none => simp
  | some outcome =>
      dsimp only [stateOf]
      split_ifs <;> simp

/-- More reports take a job further. -/
theorem advances_append (submission : SubmitTaskRequest × Timestamp)
    (reports more : List (ReportExecutionRequest × Timestamp)) :
    Advances
      { job := some (recordAfter cfg j submission reports).job
        result := (recordAfter cfg j submission reports).result }
      { job := some (recordAfter cfg j submission (reports ++ more)).job
        result := (recordAfter cfg j submission (reports ++ more)).result } := by
  constructor
  · refine ⟨_, _, rfl, rfl, rfl, ?_, ?_⟩
    · simp only [recordAfter, List.append_eq_nil_iff]
      split_ifs with h₁ h₂
      · exact le_rfl
      · exact Nat.zero_le 1
      · exact absurd (And.left ‹_›) h₁
      · exact le_rfl
    · intro hstate
      -- ACCEPTED means that nothing has been reported yet
      have hnil : reports ++ more = [] := by
        by_contra hne
        rcases List.getLast?_isSome.mpr hne |> Option.isSome_iff_exists.mp with ⟨x, hx⟩
        simp only [recordAfter, hx, Option.map_some, Option.getD_some] at hstate
        exact reportedState_ne_accepted cfg x.1 hstate
      rcases List.append_eq_nil_iff.mp hnil with ⟨rfl, rfl⟩
      rfl
  · intro hsome
    simp only [recordAfter, List.filterMap_append, List.getLast?_append] at hsome ⊢
    cases hmore : (more.filterMap fun x => carried cfg x.1).getLast? with
    | none => simpa using hsome
    | some v => simp

theorem reportsOn_step (h : Told cfg tr s) {a : Act} {o : Out Bytes}
    (hstep : Takes cfg s a o t) (j : String) :
    reportsOn tr s j <+: reportsOn (tr ++ [(a, o)]) t j := by
  have hlog : (reportLog tr).accepted <+: (reportLog (tr ++ [(a, o)])).accepted := by
    rw [reportLog_snoc]
    unfold ReportLog.add
    split
    · exact List.prefix_refl _
    · exact List.prefix_append _ _
    · exact List.prefix_refl _
  rw [← h.filter_accepted hstep j]
  exact hlog.filter _

/-- Along a run reports about a job are only added. -/
theorem reportsOn_grows (h : (core cfg registry).Run tr s)
    (hq : (core cfg registry).Steps s q t) (j : String) :
    reportsOn tr s j <+: reportsOn (tr ++ q) t j := by
  induction hq with
  | refl => simp
  | @snoc q₀ t₀ t₁ a o hq₀ hstep ih =>
      have hrun : (core cfg registry).Run (tr ++ q₀) t₀ := Machine.Steps.trans h hq₀
      rw [← List.append_assoc]
      exact ih.trans (reportsOn_step (core_told hrun) (step_takes hstep) j)

theorem known_steps (h : (core cfg registry).Run tr s)
    (hq : (core cfg registry).Steps s q t) (hj : Known s j) : Known t j := by
  induction hq with
  | refl => exact hj
  | @snoc q₀ t₀ t₁ a o hq₀ hstep ih =>
      have hrun : (core cfg registry).Run (tr ++ q₀) t₀ := Machine.Steps.trans h hq₀
      exact ih.takes (core_integrity hrun).drawn (step_takes hstep)

/-- A job about which something was reported is known. -/
theorem known_of_reportsOn (h : (core cfg registry).Run tr s) (hne : reportsOn tr s j ≠ []) :
    Known s j := by
  rcases List.exists_mem_of_ne_nil _ hne with ⟨x, hx⟩
  have hof : s.jobOf x.1.executionId = some j := of_decide_eq_true (List.mem_filter.mp hx).2
  rcases Option.map_eq_some_iff.mp hof with ⟨e, he, rfl⟩
  exact (core_integrity h).executed _ e he

/-- A known job has not been withdrawn. -/
theorem not_withdrawn_of_known (h : (core cfg registry).Run tr s) (hj : Known s j) :
    ¬ Withdrawn tr j := by
  intro hw
  have hjobs := (core_told h).jobs j
  rw [if_pos hw] at hjobs
  exact Finmap.lookup_eq_none.mp hjobs hj.job

/-- A job whose submission was answered is known. -/
theorem known_of_answered (h : (core cfg registry).Run tr s) {a : Act}
    {response : SubmitTaskResponse} (hmem : (a, .accepted j (.ok response)) ∈ tr) : Known s j := by
  rcases List.append_of_mem hmem with ⟨p, q, rfl⟩
  rcases Machine.Steps.mid h with ⟨t, t', hp, hstep, hq⟩
  have hi : Integrity cfg t := core_integrity hp
  have hknown : Known t' j := by
    cases step_takes hstep with
    | resultStored _ request job hpc =>
        refine ⟨(hi.accepting j _ hpc).mem_jobs, ?_⟩
        intro request' job' env' hlook
        exact absurd rfl (HashMap.lookup_erase_some hlook).1
  exact known_steps (Machine.Run.snoc hp hstep) hq hknown

/-- **Between two calls of GetJob.** The job is still there, the same one and
not behind what was seen; or its publish has failed meanwhile, nothing had been
reported about it, and its submission had not been answered. -/
theorem getJob_advances (h : (core cfg registry).Run tr s)
    (hq : (core cfg registry).Steps s q t) {view : GetJobResponse}
    (hget : s.getJob j = .ok view) :
    (∃ view', t.getJob j = .ok view' ∧ Advances view view') ∨
    (t.getJob j = .error ⟨.notFound, "job not found"⟩ ∧ (∃ x ∈ q, x.1.withdrawal = some j) ∧
      reportsOn tr s j = [] ∧ ∀ a response, (a, .accepted j (.ok response)) ∉ tr) := by
  have hrun : (core cfg registry).Run (tr ++ q) t := Machine.Steps.trans h hq
  rw [(core_told h).getJob] at hget
  rw [(core_told hrun).getJob]
  unfold viewed at hget ⊢
  rcases hsub : submissionOf tr j with _ | submission
  · rw [hsub] at hget
    cases hget
  · rw [hsub] at hget
    dsimp only at hget
    split_ifs at hget with hw
    cases hget
    have hsub' : submissionOf (tr ++ q) j = some submission := by
      unfold submissionOf at hsub ⊢
      rw [List.findSome?_append, hsub, Option.some_or]
    rw [hsub']
    dsimp only
    by_cases hw' : Withdrawn (tr ++ q) j
    · -- the publish failed in between, so nobody can have named the job before
      have hnot : ¬ Known s j :=
        fun hk => not_withdrawn_of_known hrun (known_steps h hq hk) hw'
      refine Or.inr ⟨if_pos hw', ?_, ?_, ?_⟩
      · rcases hw' with ⟨x, hx, hxj⟩
        rcases List.mem_append.mp hx with hold | hnew
        · exact absurd ⟨x, hold, hxj⟩ hw
        · exact ⟨x, hnew, hxj⟩
      · by_contra hne
        exact hnot (known_of_reportsOn h hne)
      · intro a response hmem
        exact hnot (known_of_answered h hmem)
    · rcases reportsOn_grows h hq j with ⟨more, hmore⟩
      refine Or.inl ⟨_, if_neg hw', ?_⟩
      rw [← hmore]
      exact advances_append submission _ more

/-- A job seen after its submission and again after it has finished. -/
theorem getJob_advances_finished : ∃ tr q s t view view',
    symbolicCore.Run tr s ∧ symbolicCore.Steps s q t ∧
    view.job.map Job.state = some .accepted ∧ view'.job.map Job.state = some .succeeded ∧
    s.getJob "j" = .ok view ∧ t.getJob "j" = .ok view' ∧ Advances view view' := by
  rcases Machine.runs_of_exec symbolicCore (submitted "j") (oneOutcome.drop 3)
    (P := fun _ s => s.getJob "j" =
      .ok { job := some (newJob plainRequest "j" 1), result := none })
    (Q := fun _ t => (t.getJob "j").toOption.bind (fun view => view.job.map Job.state) =
      some .succeeded)
    (by decide +kernel) with ⟨tr, s, q, t, hrun, hq, -, -, hget, hstate⟩
  rcases getJob_advances hrun hq hget with ⟨view', hget', hadv⟩ | ⟨hgone, -⟩
  · rw [hget'] at hstate
    exact ⟨tr, q, s, t, _, view', hrun, hq, rfl, hstate, hget, hget', hadv⟩
  · rw [hgone] at hstate
    cases hstate

end Between

end ThreadWeave.Core
