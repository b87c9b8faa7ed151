import ThreadWeave.Core.Reports
import ThreadWeave.Core.Outcomes

/-!
# Execution state and job state

`report_execution` takes the state of the execution from the report and the
state of the job from the failure field of the outcome. They agree unless a
SUCCEEDED report carries a failure, which nothing checks; and the backend
agrees with the job unless `accept` writes its placeholder between the two
writes of the outcome.

* `Since` — what a call that is the only one of its kind has achieved so far,
  with `accept` and `schedule_one` calls running beside it.
* `report_agreement` — the states after an accepted report.
-/

namespace ThreadWeave.Core

open Runs (HashMap Machine)

variable {Bytes : Type} {cfg : Config Bytes} {registry : MemoryWorkerRegistry}

/-! ## Execution ids -/

/-- Execution ids are drawn, so none of them is blank. -/
structure NamedExecutions (s : CoreState Bytes) : Prop where
  creating : ∀ k workerId assignment submitted now,
    s.schedules.lookup k = some (.creating workerId assignment submitted now) →
    Rust.isBlank assignment.executionId = false
  executed : ∀ id e, s.executions.lookup id = some e → Rust.isBlank id = false

theorem fresh_of_consumed {s s' : CoreState Bytes} {k : Nat} {f asg x : String} {now : Timestamp}
    {o : Out Bytes} (h : Takes cfg s (.consumed k f asg x now) o s') : s.Fresh [f, asg, x] := by
  cases h with
  | refused a n status ha => simp at ha
  | undecodable _ _ _ _ _ workerId error submitted rest hpc hqueue hfresh hdecode => exact hfresh
  | consumed _ _ _ _ _ workerId submitted rest request hpc hqueue hfresh hdecode => exact hfresh

theorem NamedExecutions.takes {s s' : CoreState Bytes} {a : Act} {o : Out Bytes}
    (hi : NamedExecutions s) (h : Takes cfg s a o s') : NamedExecutions s' := by
  constructor
  · intro k w asg sub now hpc
    rcases schedules_of_takes h hpc with
      hold | hpc | ⟨w', hpc, -⟩ | ⟨w', sub', rest, request, f, a', x, now', -, -, -, hpc, rfl⟩ |
      ⟨w', asg', sub', now', -, hpc, -⟩
    · exact hi.creating k w asg sub now hold
    · cases hpc
    · cases hpc
    · cases hpc
      exact ((fresh_of_consumed h).2 x (by simp)).2
    · cases hpc
  · intro id e he
    rcases executions_of_takes h he with
      ⟨e₀, he₀, -⟩ | ⟨k, w, asg, sub, now, hpc, rfl, -⟩
    · exact hi.executed id e₀ he₀
    · exact hi.creating k w asg sub now hpc

theorem core_namedExecutions {tr : List (Act × Out Bytes)} {s : CoreState Bytes}
    (h : (core cfg registry).Run tr s) : NamedExecutions s := by
  refine h.invariant (I := NamedExecutions) ?_ fun _ _ _ _ hi hs => hi.takes (step_takes hs)
  constructor
  all_goals simp [core, CoreState.start]

/-! ## What other calls do meanwhile -/

/-- The step stores a value under job `j`. -/
def wrote (j : String) (x : Act × Out Bytes) : Bool :=
  placeholderOf x.1 = some j ∨ (storedOutcome x).map Prod.fst = some j

/-- The last step that stored a value under job `j`. -/
def lastWrite (j : String) (tr : List (Act × Out Bytes)) : Option (Act × Out Bytes) :=
  (tr.filter (wrote j)).getLast?

theorem lastWrite_snoc (j : String) (tr : List (Act × Out Bytes)) (x : Act × Out Bytes) :
    lastWrite j (tr ++ [x]) = if wrote j x then some x else lastWrite j tr := by
  unfold lastWrite
  rw [List.filter_append]
  cases hx : wrote j x <;> simp [hx]

section Other

variable {s s' : CoreState Bytes} {a : Act} {o : Out Bytes}

/-- A step of another kind of call keeps every execution record as it is. -/
theorem executions_of_other (ha : a.reportCall = none) (h : Takes cfg s a o s') {id : String}
    {e : ExecutionRecord} (he : s.executions.lookup id = some e) :
    s'.executions.lookup id = some e := by
  cases h with
  | created k workerId assignment submitted now hpc hnew =>
      have hne : id ≠ assignment.executionId := by
        rintro rfl
        exact hnew (Finmap.mem_of_lookup_eq_some he)
      rw [Finmap.lookup_insert_of_ne _ hne]
      exact he
  | stateUpdated => cases ha
  | stateLost => cases ha
  | _ => exact he

/-- What a step of another kind of call stores is a placeholder. -/
theorem backend_of_other (ha : a.reportCall = none) (h : Takes cfg s a o s') (j : String) :
    storedOutcome (a, o) = none ∧
    s'.backend.lookup j =
      if placeholderOf a = some j then some (placeholder cfg) else s.backend.lookup j := by
  cases h with
  | resultStored jobId request job hpc =>
      refine ⟨rfl, ?_⟩
      simp [HashMap.lookup_insert_ite, placeholderOf, eq_comm]
  | resultLost jobId error request job hpc =>
      refine ⟨rfl, ?_⟩
      simp [HashMap.lookup_insert_ite, placeholderOf, eq_comm]
  | outcomeStored => cases ha
  | outcomeLost => cases ha
  | refused a n status hact =>
      rcases hact with ⟨_, rfl⟩ | ⟨_, rfl⟩ | ⟨_, _, rfl⟩ | ⟨_, rfl⟩
      all_goals cases ha
  | _ => exact ⟨rfl, rfl⟩

end Other

/-! ## The call, step by step -/

/-- What a call has stored as the outcome of its job. -/
def ReportPc.written : ReportPc → Option (String × JobResult)
  | .updating _ _ jobId (some outcome) => some (jobId, outcome)
  | .finishing _ jobId (some outcome) => some (jobId, outcome)
  | _ => none

/-- The only `report_execution` call in progress is about `report`, has taken
the run since its start by `tr` to `t`, and stands at `pc`. -/
structure Since (cfg : Config Bytes) (report : ReportExecutionRequest)
    (tr : List (Act × Out Bytes)) (t : CoreState Bytes) (pc : ReportPc) : Prop where
  request : pc.request = report
  checked : pc.Checked cfg
  found : ∀ j, pc.jobId = some j →
    ∃ e, t.executions.lookup report.executionId = some e ∧ e.jobId = j
  updated : ∀ r j outcome, pc = .finishing r j outcome →
    ∃ e, t.executions.lookup report.executionId = some e ∧
      cfg.states.tryFrom report.state = some e.state
  /-- its outcome is in the backend, or a placeholder that came later -/
  stored : ∀ j outcome, pc.written = some (j, outcome) →
    ∃ x, lastWrite j tr = some x ∧
      ((placeholderOf x.1 = none ∧ t.backend.lookup j = some outcome) ∨
       (placeholderOf x.1 = some j ∧ t.backend.lookup j = some (placeholder cfg)))

section Since

variable {report : ReportExecutionRequest} {tr : List (Act × Out Bytes)} {t t' : CoreState Bytes}
  {a : Act} {o : Out Bytes} {k : Nat}

/-- A step of another kind of call. -/
theorem Since.other {pc : ReportPc} (h : Since cfg report tr t pc) (ha : a.reportCall = none)
    (hstep : Takes cfg t a o t') : Since cfg report (tr ++ [(a, o)]) t' pc := by
  refine ⟨h.request, h.checked, ?_, ?_, ?_⟩
  · intro j hj
    obtain ⟨e, he, hjob⟩ := h.found j hj
    exact ⟨e, executions_of_other ha hstep he, hjob⟩
  · intro r j outcome hpc
    obtain ⟨e, he, hstate⟩ := h.updated r j outcome hpc
    exact ⟨e, executions_of_other ha hstep he, hstate⟩
  · intro j outcome hw
    obtain ⟨hstored, hbackend⟩ := backend_of_other ha hstep j
    rw [lastWrite_snoc, hbackend]
    by_cases hplace : placeholderOf a = some j
    · refine ⟨(a, o), by simp [wrote, hplace], Or.inr ⟨hplace, by simp [hplace]⟩⟩
    · rw [if_neg hplace, if_neg (by simp [wrote, hplace, hstored])]
      exact h.stored j outcome hw

theorem wrote_of_silent {j : String} (hplace : placeholderOf a = none)
    (hstored : storedOutcome (a, o) = none) : wrote j (a, o) = false := by
  simp [wrote, hplace, hstored]

/-- A step of the call itself. -/
theorem Since.own {pc' : ReportPc}
    (h : ∀ pc, t.reports.lookup k = some pc → Since cfg report tr t pc)
    (ha : a.continues k) (hstep : Handles cfg t k a o t')
    (hpc' : t'.reports.lookup k = some pc') : Since cfg report (tr ++ [(a, o)]) t' pc' := by
  cases hstep with
  | unknown report' hfree hstate => cases ha
  | opened report' state hfree hstate => cases ha
  | resolved report' state execution outcome hpc hexec hout =>
      have hs := h _ hpc
      obtain rfl : report' = report := hs.request
      simp only [Finmap.lookup_insert, Option.some.injEq] at hpc'
      subst hpc'
      refine ⟨request_resolvedPc .., checked_resolvedPc _ hs.checked hout, ?_, ?_, ?_⟩
      · intro j hj
        rw [jobId_resolvedPc, Option.some.injEq] at hj
        exact ⟨execution, hexec, hj⟩
      · intro r j outcome' hpc''
        cases outcome <;> cases hpc''
      · intro j outcome' hw
        cases outcome <;> cases hw
  | stored report' state jobId outcome hpc =>
      have hs := h _ hpc
      simp only [Finmap.lookup_insert, Option.some.injEq] at hpc'
      subst hpc'
      refine ⟨hs.request, hs.checked, hs.found, (fun r j outcome' hpc'' => nomatch hpc''), ?_⟩
      intro j outcome' hw
      cases hw
      rw [lastWrite_snoc, if_pos (by simp [wrote, storedOutcome])]
      exact ⟨_, rfl, Or.inl ⟨rfl, by simp⟩⟩
  | updated report' state jobId outcome now execution hpc hexec =>
      have hs := h _ hpc
      obtain rfl : report' = report := hs.request
      simp only [Finmap.lookup_insert, Option.some.injEq] at hpc'
      subst hpc'
      refine ⟨rfl, ⟨state, hs.checked⟩, ?_, ?_, ?_⟩
      · intro j hj
        obtain ⟨e, he, hjob⟩ := hs.found j hj
        rw [hexec, Option.some.injEq] at he
        subst he
        exact ⟨_, Finmap.lookup_insert _, hjob⟩
      · intro r j outcome' hpc''
        exact ⟨_, Finmap.lookup_insert _, hs.checked.1⟩
      · intro j outcome' hw
        rw [lastWrite_snoc, wrote_of_silent rfl rfl]
        refine hs.stored j outcome' ?_
        cases outcome with
        | none => cases hw
        | some result => exact hw
  | _ =>
      -- the call has returned
      simp at hpc'

/-- As long as no other report is handled, the call is where `Since` says. -/
theorem Since.steps {t₀ : CoreState Bytes}
    (h : ∀ pc, t₀.reports.lookup k = some pc → Since cfg report [] t₀ pc)
    (htr : ∀ x ∈ tr, x.1.reportCall = none ∨ x.1.continues k)
    (hsteps : (core cfg registry).Steps t₀ tr t) :
    ∀ pc, t.reports.lookup k = some pc → Since cfg report tr t pc := by
  induction hsteps with
  | refl => exact h
  | @snoc tr u v a o _ hstep ih =>
      have hu := ih fun x hx => htr x (List.mem_append_left _ hx)
      intro pc hpc
      rcases htr (a, o) (by simp) with ha | ha
      · rw [reports_of_other ha hstep] at hpc
        exact (hu pc hpc).other ha (step_takes hstep)
      · exact Since.own hu ha (step_handles (reportCall_of_continues ha) hstep) hpc

end Since

/-! ## Agreement -/

/-- The state of an execution and the state of its job. -/
def Corresponds (state : ExecutionState) (job : JobState) : Prop :=
  (state = .running ∧ job = .running) ∨ (state = .succeeded ∧ job = .succeeded) ∨
  (state = .failed ∧ job = .failed)

/-- What holds of the execution and the job of a report that was accepted. -/
def StatesAgree (cfg : Config Bytes) (s : CoreState Bytes) (report : ReportExecutionRequest) :
    Prop :=
  ∃ state execution record, cfg.states.tryFrom report.state = some state ∧
    s.executions.lookup report.executionId = some execution ∧ execution.state = state ∧
    s.jobs.lookup execution.jobId = some record ∧ Corresponds state record.job.state ∧
    (state ≠ .running → ∃ result, s.backend.lookup execution.jobId = some result ∧
      record.result = some result ∧ (result.failure.isSome ↔ state = .failed))

/-- A report of success whose outcome carries a failure. -/
def Contradictory (cfg : Config Bytes) (report : ReportExecutionRequest) : Prop :=
  cfg.states.tryFrom report.state = some .succeeded ∧
  (report.outcome.bind JobResult.failure).isSome

/-- A terminal report during whose call the job's placeholder is stored last. -/
def Overwritten (cfg : Config Bytes) (s : CoreState Bytes) (report : ReportExecutionRequest)
    (tr : List (Act × Out Bytes)) : Prop :=
  cfg.states.tryFrom report.state ≠ some .running ∧
  ∃ execution x, s.executions.lookup report.executionId = some execution ∧
    lastWrite execution.jobId tr = some x ∧ placeholderOf x.1 = some execution.jobId

/-- What `report_execution` does with the outcome of a terminal report. -/
theorem reportOutcome_terminal {report : ReportExecutionRequest} {state : ExecutionState}
    {result : JobResult} (h : reportOutcome report state = .ok (some result)) :
    result.executionId = report.executionId ∧
    result.failure = report.outcome.bind JobResult.failure ∧
    (state = .succeeded ∨ (state = .failed ∧ result.failure.isSome)) := by
  unfold reportOutcome at h
  cases state with
  | running => cases h
  | assigned => cases h
  | other value => cases h
  | succeeded =>
      cases hout : report.outcome with
      | none => simp [hout] at h
      | some outcome =>
          simp only [hout, reduceCtorEq, false_and, if_false, Except.ok.injEq,
            Option.some.injEq] at h
          subst h
          simp
  | failed =>
      cases hout : report.outcome with
      | none => simp [hout] at h
      | some outcome =>
          cases hfail : outcome.failure with
          | none => simp [hout, hfail] at h
          | some failure =>
              simp [hout, hfail] at h
              subst h
              simp [hfail]

theorem reportOutcome_running {report : ReportExecutionRequest} {state : ExecutionState}
    (h : reportOutcome report state = .ok none) : state = .running := by
  unfold reportOutcome at h
  repeat' split at h
  all_goals first | rfl | cases h

section Agreement

variable {s : CoreState Bytes} {report : ReportExecutionRequest} {e : ExecutionRecord}
  {record : JobRecord} {now : Timestamp}

theorem statesAgree_running (hstate : cfg.states.tryFrom report.state = some .running)
    (hexec : s.executions.lookup report.executionId = some e) (he : e.state = .running)
    (hjob : s.jobs.lookup e.jobId = some (record.running now)) : StatesAgree cfg s report :=
  ⟨.running, e, _, hstate, hexec, he, hjob, Or.inl ⟨rfl, rfl⟩, fun hne => absurd rfl hne⟩

/-- After a terminal report the states agree if the outcome is in the backend
and says what the report says. -/
theorem statesAgree_terminal {state : ExecutionState} {result : JobResult}
    (hstate : cfg.states.tryFrom report.state = some state)
    (hexec : s.executions.lookup report.executionId = some e) (he : e.state = state)
    (hjob : s.jobs.lookup e.jobId = some (record.finished result now))
    (hterm : state = .succeeded ∨ (state = .failed ∧ result.failure.isSome)) :
    StatesAgree cfg s report ↔
      ¬ (state = .succeeded ∧ result.failure.isSome) ∧ s.backend.lookup e.jobId = some result := by
  have hne : state ≠ .running := by
    rcases hterm with rfl | ⟨rfl, -⟩ <;> simp
  constructor
  · rintro ⟨state', e', record', hstate', hexec', -, hjob', -, hresult⟩
    -- everything the statement speaks of is determined
    rw [hstate, Option.some.injEq] at hstate'
    subst hstate'
    rw [hexec, Option.some.injEq] at hexec'
    subst hexec'
    rw [hjob, Option.some.injEq] at hjob'
    subst hjob'
    obtain ⟨result', hbackend, hres, hfail⟩ := hresult hne
    simp only [JobRecord.finished, Option.some.injEq] at hres
    subst hres
    refine ⟨?_, hbackend⟩
    rintro ⟨rfl, hsome⟩
    cases hfail.mp hsome
  · rintro ⟨hnot, hbackend⟩
    refine ⟨state, e, _, hstate, hexec, he, hjob, ?_, fun _ => ⟨result, hbackend, rfl, ?_⟩⟩
    · rcases hterm with rfl | ⟨rfl, hsome⟩
      · have hnone : ¬ result.failure.isSome = true := fun hsome => hnot ⟨rfl, hsome⟩
        exact Or.inr (Or.inl ⟨rfl, by simp [JobRecord.finished, hnone]⟩)
      · exact Or.inr (Or.inr ⟨rfl, by simp [JobRecord.finished, hsome]⟩)
    · rcases hterm with rfl | ⟨rfl, hsome⟩
      · have hnone : ¬ result.failure.isSome = true := fun hsome => hnot ⟨rfl, hsome⟩
        simp [hnone]
      · simp [hsome]

/-- No outcome is a placeholder: it names its execution. -/
theorem outcome_ne_placeholder {result : JobResult}
    (hblank : Rust.isBlank report.executionId = false)
    (hid : result.executionId = report.executionId) : placeholder cfg ≠ result := by
  intro heq
  have hempty : report.executionId = "" := by
    rw [← hid, ← heq]
    rfl
  rw [hempty] at hblank
  cases hblank

/-- The outcome is still in the backend exactly if no placeholder was stored over
it. -/
theorem outcome_kept_iff {tr : List (Act × Out Bytes)}
    {x : Act × Out Bytes} {result : JobResult}
    (hne : cfg.states.tryFrom report.state ≠ some .running)
    (hexec : s.executions.lookup report.executionId = some e)
    (hx : lastWrite e.jobId tr = some x)
    (hwho : (placeholderOf x.1 = none ∧ s.backend.lookup e.jobId = some result) ∨
      (placeholderOf x.1 = some e.jobId ∧ s.backend.lookup e.jobId = some (placeholder cfg)))
    (hother : placeholder cfg ≠ result) :
    s.backend.lookup e.jobId = some result ↔ ¬ Overwritten cfg s report tr := by
  rcases hwho with ⟨hwho, hbackend⟩ | ⟨hwho, hbackend⟩
  · -- the outcome was stored last
    refine iff_of_true hbackend ?_
    rintro ⟨-, e', x', hexec', hx', hplace⟩
    rw [hexec, Option.some.injEq] at hexec'
    subst hexec'
    rw [hx, Option.some.injEq] at hx'
    subst hx'
    rw [hwho] at hplace
    cases hplace
  · refine iff_of_false ?_ fun hnot => hnot ⟨hne, e, x, hexec, hx, hwho⟩
    intro hlook
    rw [hbackend, Option.some.injEq] at hlook
    exact hother hlook

/-- **Agreement.** After an accepted report that no other report is handled
beside, whatever else runs meanwhile, the execution and its job agree exactly
if the report does not contradict itself and `accept` does not store the job's
placeholder over the outcome before the call is through. -/
theorem report_agreement {tr₀ tr : List (Act × Out Bytes)} {s₀ : CoreState Bytes} {k : Nat}
    {o : Out Bytes} (hrun : (core cfg registry).Run tr₀ s₀)
    (hsteps : (core cfg registry).Steps s₀
      ((.report k report, o) :: (tr ++ [(.jobUpdated k now, .reported (.ok ()))])) s)
    (halone : ∀ x ∈ tr, x.1.reportCall = none ∨ x.1.continues k) :
    StatesAgree cfg s report ↔ ¬ Contradictory cfg report ∧ ¬ Overwritten cfg s report tr := by
  have hnamed : NamedExecutions s := core_namedExecutions (hrun.trans hsteps)
  obtain ⟨t₀, hopen, hrest⟩ := hsteps.first
  obtain ⟨t, hmid, hlast⟩ := hrest.last
  have hopened : Handles cfg s₀ k (.report k report) o t₀ := step_handles rfl hopen
  have hstart : ∀ pc, t₀.reports.lookup k = some pc → Since cfg report [] t₀ pc := by
    intro pc hpc
    rcases hopened.opened_pc hpc with ⟨state, hstate, rfl, -⟩
    exact ⟨rfl, hstate, nofun, nofun, nofun⟩
  have hsince := Since.steps hstart halone hmid
  have hfinish : Handles cfg t k (.jobUpdated k now) (.reported (.ok ())) s :=
    step_handles rfl hlast
  cases hfinish with
  | finished report' jobId outcome now record hpc hjob =>
      have hs := hsince _ hpc
      obtain rfl : report' = report := hs.request
      obtain ⟨state, hstate, hout⟩ := hs.checked
      obtain ⟨e, hexec, rfl⟩ := hs.found jobId rfl
      obtain ⟨e', hexec', hstate'⟩ := hs.updated _ _ _ rfl
      rw [hexec, Option.some.injEq] at hexec'
      subst hexec'
      rw [hstate, Option.some.injEq] at hstate'
      cases outcome with
      | none =>
          have hrunning : state = .running := reportOutcome_running hout
          subst hrunning
          refine iff_of_true ?_ ⟨?_, fun hover => hover.1 hstate⟩
          · exact statesAgree_running hstate hexec hstate'.symm (Finmap.lookup_insert _)
          · intro hcontra
            rw [hcontra.1] at hstate
            cases hstate
      | some result =>
          obtain ⟨hid, hfailure, hterm⟩ := reportOutcome_terminal hout
          have hne : cfg.states.tryFrom report'.state ≠ some .running := by
            rw [hstate]
            rcases hterm with rfl | ⟨rfl, -⟩ <;> simp
          have hcontra : Contradictory cfg report' ↔
              state = .succeeded ∧ result.failure.isSome := by
            rw [Contradictory, hstate, Option.some.injEq, hfailure]
          have hblank := hnamed.executed _ e hexec
          obtain ⟨x, hx, hwho⟩ := hs.stored e.jobId result rfl
          refine Iff.trans (statesAgree_terminal hstate hexec hstate'.symm
            (Finmap.lookup_insert _) hterm) ?_
          rw [hcontra]
          refine and_congr_right fun _ => ?_
          exact outcome_kept_iff hne hexec hx hwho (outcome_ne_placeholder hblank hid)

end Agreement

/-- Job `j` is accepted and scheduled as execution `x`. -/
def oneExecution : List Act :=
  submitted "j" ++ [.resultStored "j" .done] ++ scheduled "j" "x" 0

/-- The steps of a terminal report on `x` between its first and its last. -/
def terminalSteps (outcome : JobResult) : List (Act × Out Payload) :=
  [(.resolved 0 (.ok ()), .silent),
   (.outcomeStored 0 .done, .outcome "j" { outcome with executionId := "x" } none),
   (.stateUpdated 0 .done 4, .silent)]

theorem report_agreement_oneSuccess :
    ∃ tr₀ s₀ s, symbolicCore.Run tr₀ s₀ ∧
      symbolicCore.Steps s₀
        ((.report 0 (plainReport "x" .succeeded (some .empty)), .silent) ::
          (terminalSteps .empty ++ [(.jobUpdated 0 5, .reported (.ok ()))])) s ∧
      StatesAgree symbolicConfig s (plainReport "x" .succeeded (some .empty)) := by
  let report := plainReport "x" .succeeded (some .empty)
  rcases Machine.run_of_exec symbolicCore
    (oneExecution ++ .report 0 report :: (terminalSteps .empty).map Prod.fst ++ [.jobUpdated 0 5])
    (P := fun tr s => tr.drop 9 = (.report 0 report, .silent) ::
        (terminalSteps .empty ++ [(.jobUpdated 0 5, .reported (.ok ()))]) ∧
      (s.executions.lookup "x").map ExecutionRecord.jobId = some "j")
    (by decide +kernel) with ⟨tr, s, hrun, -, hdrop, hjob⟩
  rw [← List.take_append_drop 9 tr, hdrop] at hrun
  obtain ⟨s₀, hrun₀, hsteps⟩ := hrun.split
  refine ⟨_, s₀, s, hrun₀, hsteps, (report_agreement hrun₀ hsteps (by decide)).mpr ⟨?_, ?_⟩⟩
  · rintro ⟨-, hfail⟩
    exact absurd hfail (by decide)
  · rintro ⟨-, e, x, hexec, hx, hplace⟩
    have he : e.jobId = "j" := by
      have hexec' : s.executions.lookup "x" = some e := hexec
      simpa [hexec'] using hjob
    rw [he] at hx hplace
    cases hx
    cases hplace

/-- A report of success with a failure in its outcome is accepted: the execution
has SUCCEEDED and its job has FAILED. -/
theorem contradictory_report_accepted :
    ¬ ∀ tr₀ s₀ tr s k report o now, symbolicCore.Run tr₀ s₀ →
      symbolicCore.Steps s₀
        ((.report k report, o) :: (tr ++ [(.jobUpdated k now, .reported (.ok ()))])) s →
      (∀ x ∈ tr, x.1.reportCall = none ∨ x.1.continues k) →
      StatesAgree symbolicConfig s report := by
  intro hall
  let outcome : JobResult := { JobResult.empty with failure := some ⟨"E", "", none⟩ }
  let report := plainReport "x" .succeeded (some outcome)
  rcases Machine.run_of_exec symbolicCore
    (oneExecution ++ .report 0 report :: (terminalSteps outcome).map Prod.fst ++ [.jobUpdated 0 5])
    (P := fun tr s => tr.drop 9 = (.report 0 report, .silent) ::
        (terminalSteps outcome ++ [(.jobUpdated 0 5, .reported (.ok ()))]) ∧
      (s.executions.lookup "x").map (fun e => (e.jobId, e.state)) = some ("j", .succeeded) ∧
      (s.jobs.lookup "j").map (fun r => r.job.state) = some .failed)
    (by decide +kernel) with ⟨tr, s, hrun, -, hdrop, hexec, hjob⟩
  rw [← List.take_append_drop 9 tr, hdrop] at hrun
  obtain ⟨s₀, hrun₀, hsteps⟩ := hrun.split
  obtain ⟨state, e, record, -, he, rfl, hrecord, hcorr, -⟩ :=
    hall _ s₀ _ s 0 report _ 5 hrun₀ hsteps (by decide)
  have he' : s.executions.lookup "x" = some e := he
  obtain ⟨hj, hstate⟩ : e.jobId = "j" ∧ e.state = .succeeded := by simpa [he'] using hexec
  rw [hj] at hrecord
  have hfailed : record.job.state = .failed := by simpa [hrecord] using hjob
  rw [hstate, hfailed] at hcorr
  simp [Corresponds] at hcorr

end ThreadWeave.Core
