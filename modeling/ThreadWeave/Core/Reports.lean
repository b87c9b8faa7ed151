import ThreadWeave.Core.Integrity

/-!
# `report_execution`, step by step

`Handles` says what one step of a `report_execution` call does, with the status
of every refusal; `Takes` says the same of all calls and leaves the statuses
out. On top of it:

* `Checked` — a call in progress carries a report that has passed the checks
  up to where it stands.
* `not_invalidArgument` — a report that passes Core's checks is never
  answered with INVALID_ARGUMENT.
* `reportExecution` — the whole call as one function, for a call that nothing
  disturbs, and `steps_reportExecution`, which finds it among the runs.
* `Underway` — how far a call that runs alone has got, and what it has written
  by then.
-/

namespace ThreadWeave.Core

open Runs (HashMap Machine)

variable {Bytes : Type} {cfg : Config Bytes}

/-! ## The steps of one call -/

/-- The call of `report_execution` an action belongs to. -/
def Act.reportCall : Act → Option Nat
  | .report k _ => some k
  | .resolved k _ => some k
  | .outcomeStored k _ => some k
  | .stateUpdated k _ _ => some k
  | .jobUpdated k _ => some k
  | _ => none

/-- The request a call in progress is about. -/
def ReportPc.request : ReportPc → ReportExecutionRequest
  | .resolving report _ => report
  | .storing report _ _ _ => report
  | .updating report _ _ _ => report
  | .finishing report _ _ => report

/-- Where a call goes on once the execution is found and the report checked:
the RUNNING branch has nothing to store. -/
def resolvedPc (report : ReportExecutionRequest) (state : ExecutionState) (jobId : String) :
    Option JobResult → ReportPc
  | none => .updating report state jobId none
  | some outcome => .storing report state jobId outcome

/-- One step of call `k` of `report_execution`. -/
inductive Handles (cfg : Config Bytes) (s : CoreState Bytes) (k : Nat) :
    Act → Out Bytes → CoreState Bytes → Prop where
  | unknown (report : ReportExecutionRequest) (hfree : k ∉ s.reports)
      (hstate : cfg.states.tryFrom report.state = none) :
      Handles cfg s k (.report k report)
        (.reported (.error ⟨.invalidArgument, "unknown execution state"⟩)) s
  | opened (report : ReportExecutionRequest) (state : ExecutionState) (hfree : k ∉ s.reports)
      (hstate : cfg.states.tryFrom report.state = some state) :
      Handles cfg s k (.report k report) .silent
        { s with reports := s.reports.insert k (.resolving report state) }
  | unresolved (report : ReportExecutionRequest) (state : ExecutionState) (error : String)
      (hpc : s.reports.lookup k = some (.resolving report state)) :
      Handles cfg s k (.resolved k (.error error))
        (.reported (.error ⟨.unavailable, "execution store is unavailable"⟩))
        { s with reports := s.reports.erase k }
  | notFound (report : ReportExecutionRequest) (state : ExecutionState)
      (hpc : s.reports.lookup k = some (.resolving report state))
      (hexec : s.executions.lookup report.executionId = none) :
      Handles cfg s k (.resolved k (.ok ()))
        (.reported (.error ⟨.notFound, "execution not found"⟩))
        { s with reports := s.reports.erase k }
  | invalid (report : ReportExecutionRequest) (state : ExecutionState)
      (execution : ExecutionRecord) (status : Status)
      (hpc : s.reports.lookup k = some (.resolving report state))
      (hexec : s.executions.lookup report.executionId = some execution)
      (hout : reportOutcome report state = .error status) :
      Handles cfg s k (.resolved k (.ok ())) (.reported (.error status))
        { s with reports := s.reports.erase k }
  | resolved (report : ReportExecutionRequest) (state : ExecutionState)
      (execution : ExecutionRecord) (outcome : Option JobResult)
      (hpc : s.reports.lookup k = some (.resolving report state))
      (hexec : s.executions.lookup report.executionId = some execution)
      (hout : reportOutcome report state = .ok outcome) :
      Handles cfg s k (.resolved k (.ok ())) .silent
        { s with
          reports := s.reports.insert k (resolvedPc report state execution.jobId outcome) }
  | stored (report : ReportExecutionRequest) (state : ExecutionState) (jobId : String)
      (outcome : JobResult)
      (hpc : s.reports.lookup k = some (.storing report state jobId outcome)) :
      Handles cfg s k (.outcomeStored k .done) (.outcome jobId outcome none)
        { s with
          backend := s.backend.insert jobId outcome
          reports := s.reports.insert k (.updating report state jobId (some outcome)) }
  | storeFailed (report : ReportExecutionRequest) (state : ExecutionState) (jobId : String)
      (outcome : JobResult) (error : String)
      (hpc : s.reports.lookup k = some (.storing report state jobId outcome)) :
      Handles cfg s k (.outcomeStored k (.failed error))
        (.reported (.error ⟨.unavailable, "result backend is unavailable"⟩))
        { s with reports := s.reports.erase k }
  | storeLost (report : ReportExecutionRequest) (state : ExecutionState) (jobId : String)
      (outcome : JobResult) (error : String)
      (hpc : s.reports.lookup k = some (.storing report state jobId outcome)) :
      Handles cfg s k (.outcomeStored k (.lost error))
        (.outcome jobId outcome (some ⟨.unavailable, "result backend is unavailable"⟩))
        { s with
          backend := s.backend.insert jobId outcome
          reports := s.reports.erase k }
  | updated (report : ReportExecutionRequest) (state : ExecutionState) (jobId : String)
      (outcome : Option JobResult) (now : Timestamp) (execution : ExecutionRecord)
      (hpc : s.reports.lookup k = some (.updating report state jobId outcome))
      (hexec : s.executions.lookup report.executionId = some execution) :
      Handles cfg s k (.stateUpdated k .done now) .silent
        { s with
          executions := s.executions.insert report.executionId
            { execution with state := state, updatedAt := now }
          reports := s.reports.insert k (.finishing report jobId outcome) }
  | updateFailed (report : ReportExecutionRequest) (state : ExecutionState) (jobId : String)
      (outcome : Option JobResult) (fate : Fate) (now : Timestamp)
      (hpc : s.reports.lookup k = some (.updating report state jobId outcome))
      (hfate : (∃ error, fate = .failed error) ∨
        s.executions.lookup report.executionId = none) :
      Handles cfg s k (.stateUpdated k fate now)
        (.reported (.error ⟨.unavailable, "execution store is unavailable"⟩))
        { s with reports := s.reports.erase k }
  | updateLost (report : ReportExecutionRequest) (state : ExecutionState) (jobId : String)
      (outcome : Option JobResult) (error : String) (now : Timestamp)
      (execution : ExecutionRecord)
      (hpc : s.reports.lookup k = some (.updating report state jobId outcome))
      (hexec : s.executions.lookup report.executionId = some execution) :
      Handles cfg s k (.stateUpdated k (.lost error) now)
        (.reported (.error ⟨.unavailable, "execution store is unavailable"⟩))
        { s with
          executions := s.executions.insert report.executionId
            { execution with state := state, updatedAt := now }
          reports := s.reports.erase k }
  | jobMissing (report : ReportExecutionRequest) (jobId : String) (outcome : Option JobResult)
      (now : Timestamp)
      (hpc : s.reports.lookup k = some (.finishing report jobId outcome))
      (hjob : s.jobs.lookup jobId = none) :
      Handles cfg s k (.jobUpdated k now) (.reported (.error ⟨.notFound, "job not found"⟩))
        { s with reports := s.reports.erase k }
  | finished (report : ReportExecutionRequest) (jobId : String) (outcome : Option JobResult)
      (now : Timestamp) (record : JobRecord)
      (hpc : s.reports.lookup k = some (.finishing report jobId outcome))
      (hjob : s.jobs.lookup jobId = some record) :
      Handles cfg s k (.jobUpdated k now) (.reported (.ok ()))
        { s with
          jobs := s.jobs.insert jobId (record.update outcome now)
          reports := s.reports.erase k }

section Inversion

variable {s s' : CoreState Bytes} {k : Nat} {o : Out Bytes}

theorem report_handles {report : ReportExecutionRequest}
    (h : s.report cfg k report = some (s', o)) : Handles cfg s k (.report k report) o s' := by
  unfold CoreState.report at h
  split_ifs at h with hfree
  split at h
  · rename_i hstate
    cases h
    exact .unknown report hfree hstate
  · rename_i state hstate
    cases h
    exact .opened report state hfree hstate

theorem resolved_handles {answer : Except String Unit}
    (h : s.resolved k answer = some (s', o)) : Handles cfg s k (.resolved k answer) o s' := by
  unfold CoreState.resolved at h
  split at h
  · rename_i report state hpc
    split at h
    · cases h
      exact .unresolved report state _ hpc
    · split at h
      · rename_i hexec
        cases h
        exact .notFound report state hpc hexec
      · rename_i execution hexec
        split at h
        · rename_i status hout
          cases h
          exact .invalid report state execution status hpc hexec hout
        · rename_i hout
          cases h
          exact .resolved report state execution none hpc hexec hout
        · rename_i outcome hout
          cases h
          exact .resolved report state execution (some outcome) hpc hexec hout
  · cases h

theorem outcomeStored_handles {fate : Fate}
    (h : s.outcomeStored k fate = some (s', o)) :
    Handles cfg s k (.outcomeStored k fate) o s' := by
  unfold CoreState.outcomeStored at h
  split at h
  · rename_i report state jobId outcome hpc
    cases fate with
    | done =>
        cases h
        exact .stored report state jobId outcome hpc
    | failed error =>
        cases h
        exact .storeFailed report state jobId outcome error hpc
    | lost error =>
        cases h
        exact .storeLost report state jobId outcome error hpc
  · cases h

theorem stateUpdated_handles {fate : Fate} {now : Timestamp}
    (h : s.stateUpdated k fate now = some (s', o)) :
    Handles cfg s k (.stateUpdated k fate now) o s' := by
  unfold CoreState.stateUpdated at h
  split at h
  · rename_i report state jobId outcome hpc
    cases hexec : s.executions.lookup report.executionId with
    | none =>
        -- an execution that is gone is answered like a store that is down
        have hfail : Handles cfg s k (.stateUpdated k fate now) _ _ :=
          .updateFailed report state jobId outcome fate now hpc (Or.inr hexec)
        simp only [MemoryExecutionStore.updateState, hexec] at h
        cases fate with
        | done =>
            cases h
            exact hfail
        | failed error =>
            cases h
            exact hfail
        | lost error =>
            cases h
            exact hfail
    | some execution =>
        simp only [MemoryExecutionStore.updateState, hexec] at h
        cases fate with
        | done =>
            cases h
            exact .updated report state jobId outcome now execution hpc hexec
        | failed error =>
            cases h
            exact .updateFailed report state jobId outcome _ now hpc (Or.inl ⟨error, rfl⟩)
        | lost error =>
            cases h
            exact .updateLost report state jobId outcome error now execution hpc hexec
  · cases h

theorem jobUpdated_handles {now : Timestamp} (h : s.jobUpdated k now = some (s', o)) :
    Handles cfg s k (.jobUpdated k now) o s' := by
  unfold CoreState.jobUpdated at h
  split at h
  · rename_i report jobId outcome hpc
    rcases updateJob_cases s.jobs jobId outcome now with ⟨hjob, hup⟩ | ⟨record, hjob, hup⟩
    · rw [hup] at h
      cases h
      exact .jobMissing report jobId outcome now hpc hjob
    · rw [hup] at h
      cases h
      exact .finished report jobId outcome now record hpc hjob
  · cases h

/-- Every step of a call runs one branch of `report_execution`. -/
theorem step_handles {a : Act} (ha : a.reportCall = some k) (h : s.step cfg a = some (s', o)) :
    Handles cfg s k a o s' := by
  cases a with
  | report n report =>
      cases ha
      exact report_handles h
  | resolved n answer =>
      cases ha
      exact resolved_handles h
  | outcomeStored n fate =>
      cases ha
      exact outcomeStored_handles h
  | stateUpdated n fate now =>
      cases ha
      exact stateUpdated_handles h
  | jobUpdated n now =>
      cases ha
      exact jobUpdated_handles h
  | _ => cases ha

end Inversion

/-! ## What a call in progress has checked -/

/-- The checks a report has passed where its call stands. -/
def ReportPc.Checked (cfg : Config Bytes) : ReportPc → Prop
  | .resolving report state => cfg.states.tryFrom report.state = some state
  | .storing report state _ outcome =>
      cfg.states.tryFrom report.state = some state ∧
      reportOutcome report state = .ok (some outcome)
  | .updating report state _ outcome =>
      cfg.states.tryFrom report.state = some state ∧ reportOutcome report state = .ok outcome
  | .finishing report _ outcome =>
      ∃ state, cfg.states.tryFrom report.state = some state ∧
        reportOutcome report state = .ok outcome

/-- Every call in progress has checked its report. -/
def ReportsChecked (cfg : Config Bytes) (s : CoreState Bytes) : Prop :=
  ∀ k pc, s.reports.lookup k = some pc → pc.Checked cfg

theorem checked_resolvedPc {report : ReportExecutionRequest} {state : ExecutionState}
    (jobId : String) {outcome : Option JobResult}
    (hstate : cfg.states.tryFrom report.state = some state)
    (hout : reportOutcome report state = .ok outcome) :
    (resolvedPc report state jobId outcome).Checked cfg := by
  cases outcome with
  | none => exact ⟨hstate, hout⟩
  | some result => exact ⟨hstate, hout⟩

section Checked

variable {s s' : CoreState Bytes} {a : Act} {o : Out Bytes}

theorem ReportsChecked.insert (h : ReportsChecked cfg s) (k : Nat) (pc : ReportPc)
    (hpc : pc.Checked cfg) (hreports : s'.reports = s.reports.insert k pc) :
    ReportsChecked cfg s' := by
  intro n pc' hlook
  rw [hreports] at hlook
  rcases HashMap.lookup_insert_some hlook with ⟨-, rfl⟩ | ⟨-, hold⟩
  · exact hpc
  · exact h n pc' hold

theorem ReportsChecked.erase (h : ReportsChecked cfg s) {k : Nat}
    (hreports : s'.reports = s.reports.erase k) : ReportsChecked cfg s' := by
  intro n pc hlook
  rw [hreports] at hlook
  exact h n pc (HashMap.lookup_erase_some hlook).2

theorem ReportsChecked.handles {k : Nat} (h : ReportsChecked cfg s)
    (hstep : Handles cfg s k a o s') : ReportsChecked cfg s' := by
  cases hstep with
  | unknown report hfree hstate => exact h
  | opened report state hfree hstate => exact h.insert k (.resolving report state) hstate rfl
  | resolved report state execution outcome hpc hexec hout =>
      exact h.insert k (resolvedPc report state execution.jobId outcome)
        (checked_resolvedPc execution.jobId (h k _ hpc) hout) rfl
  | stored report state jobId outcome hpc =>
      exact h.insert k (.updating report state jobId (some outcome))
        (h k (.storing report state jobId outcome) hpc) rfl
  | updated report state jobId outcome now execution hpc hexec =>
      exact h.insert k (.finishing report jobId outcome)
        ⟨state, h k (.updating report state jobId outcome) hpc⟩ rfl
  | unresolved report state error hpc => exact h.erase rfl
  | notFound report state hpc hexec => exact h.erase rfl
  | invalid report state execution status hpc hexec hout => exact h.erase rfl
  | storeFailed report state jobId outcome error hpc => exact h.erase rfl
  | storeLost report state jobId outcome error hpc => exact h.erase rfl
  | updateFailed report state jobId outcome fate now hpc hfate => exact h.erase rfl
  | updateLost report state jobId outcome error now execution hpc hexec => exact h.erase rfl
  | jobMissing report jobId outcome now hpc hjob => exact h.erase rfl
  | finished report jobId outcome now record hpc hjob => exact h.erase rfl

/-- Only steps of `report_execution` touch its calls. -/
theorem reports_of_other (ha : a.reportCall = none) (h : s.step cfg a = some (s', o)) :
    s'.reports = s.reports := by
  cases step_takes h with
  | report n report state hfree hstate => cases ha
  | refused a n status hact =>
      rcases hact with ⟨_, rfl⟩ | ⟨_, rfl⟩ | ⟨_, _, rfl⟩ | ⟨_, rfl⟩
      all_goals cases ha
  | resolvedRunning n report state execution hpc hexec hout => cases ha
  | resolvedTerminal n report state execution outcome hpc hexec hout => cases ha
  | outcomeStored n report state jobId outcome hpc => cases ha
  | outcomeLost n error report state jobId outcome hpc => cases ha
  | stateUpdated n now report state jobId outcome execution hpc hexec => cases ha
  | stateLost n error now report state jobId outcome execution hpc hexec => cases ha
  | jobUpdated n now report jobId outcome record hpc hjob => cases ha
  | _ => rfl

theorem ReportsChecked.step (h : ReportsChecked cfg s) (hstep : s.step cfg a = some (s', o)) :
    ReportsChecked cfg s' := by
  cases ha : a.reportCall with
  | none =>
      intro k pc hlook
      rw [reports_of_other ha hstep] at hlook
      exact h k pc hlook
  | some k => exact h.handles (step_handles ha hstep)

theorem reportsChecked_of_empty (h : s.reports = ∅) : ReportsChecked cfg s := by
  intro k pc hlook
  rw [h, Finmap.lookup_empty] at hlook
  cases hlook

theorem core_reportsChecked {registry : MemoryWorkerRegistry} {tr : List (Act × Out Bytes)}
    (h : (core cfg registry).Run tr s) : ReportsChecked cfg s :=
  h.invariant (reportsChecked_of_empty rfl) fun _ _ _ _ hc hs => hc.step hs

end Checked

/-! ## Valid reports -/

/-- The reports `report_execution` finds nothing wrong with. -/
def Reportable (report : ReportExecutionRequest) (state : ExecutionState) : Prop :=
  state = .running ∨ (state = .succeeded ∧ report.outcome.isSome) ∨
  (state = .failed ∧ (report.outcome.bind JobResult.failure).isSome)

instance (report : ReportExecutionRequest) (state : ExecutionState) :
    Decidable (Reportable report state) :=
  inferInstanceAs (Decidable (_ ∨ _))

theorem reportOutcome_ok_iff {report : ReportExecutionRequest} {state : ExecutionState} :
    (∃ outcome, reportOutcome report state = .ok outcome) ↔ Reportable report state := by
  cases state with
  | running => simp [reportOutcome, Reportable]
  | succeeded => cases hout : report.outcome <;> simp [reportOutcome, Reportable, hout]
  | failed =>
      cases hout : report.outcome with
      | none => simp [reportOutcome, Reportable, hout]
      | some outcome =>
          cases hfail : outcome.failure <;> simp [reportOutcome, Reportable, hout, hfail]
  | assigned => simp [reportOutcome, Reportable]
  | other value => simp [reportOutcome, Reportable]

/-- The answer with which a step ends a call of `report_execution`. -/
def Out.returns : Out Bytes → Option (Except Status Unit)
  | .reported r => some r
  | .outcome _ _ (some status) => some (.error status)
  | _ => none

/-- The request that a step of `report_execution` works on. -/
def CoreState.handling (s : CoreState Bytes) : Act → Option ReportExecutionRequest
  | .report _ report => some report
  | a => (a.reportCall.bind fun k => s.reports.lookup k).map ReportPc.request

/-- A call about a valid report is not answered with INVALID_ARGUMENT, whatever
else goes on and whichever store fails. -/
theorem not_invalidArgument {s s' : CoreState Bytes} {a : Act} {o : Out Bytes} {k : Nat}
    (hstep : Handles cfg s k a o s') (hchecked : ReportsChecked cfg s)
    {report : ReportExecutionRequest} {state : ExecutionState}
    (habout : s.handling a = some report) (hstate : cfg.states.tryFrom report.state = some state)
    (hvalid : Reportable report state) {status : Status}
    (hret : o.returns = some (.error status)) : status.code ≠ .invalidArgument := by
  cases hstep with
  | unknown report' hfree hunknown =>
      cases habout
      rw [hstate] at hunknown
      cases hunknown
  | invalid report' state' execution status' hpc hexec hout =>
      -- the state was read off the report when the call began
      have hstate' : cfg.states.tryFrom report'.state = some state' := hchecked k _ hpc
      simp only [CoreState.handling, Act.reportCall, Option.bind_some, hpc, Option.map_some,
        ReportPc.request, Option.some.injEq] at habout
      subst habout
      rw [hstate', Option.some.injEq] at hstate
      subst hstate
      obtain ⟨outcome, hok⟩ := reportOutcome_ok_iff.mpr hvalid
      rw [hok] at hout
      cases hout
  | _ =>
      cases hret
      all_goals simp

/-! ## The whole call -/

/-- The result backend once the outcome of a report, if there is one, is stored. -/
def storeOutcome (backend : HashMap String JobResult) (jobId : String) :
    Option JobResult → HashMap String JobResult
  | none => backend
  | some outcome => backend.insert jobId outcome

/-- The two durable writes of a report: the outcome to the result backend, the
state to the execution store. -/
def CoreState.persist (s : CoreState Bytes) (report : ReportExecutionRequest)
    (state : ExecutionState) (execution : ExecutionRecord) (outcome : Option JobResult)
    (updated : Timestamp) : CoreState Bytes :=
  { s with
    backend := storeOutcome s.backend execution.jobId outcome
    executions := s.executions.insert report.executionId
      { execution with state := state, updatedAt := updated } }

@[simp] theorem persist_jobs (s : CoreState Bytes) (report : ReportExecutionRequest)
    (state : ExecutionState) (execution : ExecutionRecord) (outcome : Option JobResult)
    (updated : Timestamp) : (s.persist report state execution outcome updated).jobs = s.jobs := rfl

/-- `report_execution` from start to end, undisturbed and with no store failing. -/
def CoreState.reportExecution (cfg : Config Bytes) (s : CoreState Bytes)
    (report : ReportExecutionRequest) (updated finished : Timestamp) :
    CoreState Bytes × Except Status Unit :=
  match cfg.states.tryFrom report.state with
  | none => (s, .error ⟨.invalidArgument, "unknown execution state"⟩)
  | some state =>
      match s.executions.lookup report.executionId with
      | none => (s, .error ⟨.notFound, "execution not found"⟩)
      | some execution =>
          match reportOutcome report state with
          | .error status => (s, .error status)
          | .ok outcome =>
              let s' := s.persist report state execution outcome updated
              match CoreState.updateJob s.jobs execution.jobId outcome finished with
              | .error status => (s', .error status)
              | .ok jobs => ({ s' with jobs := jobs }, .ok ())

/-- A step that takes call `k` on from where it stands. -/
def Act.continues (k : Nat) : Act → Bool
  | .resolved n _ | .outcomeStored n _ | .stateUpdated n _ _ | .jobUpdated n _ => n = k
  | _ => false

/-- Call `k` about `report`, from its start in `s` to its return of `r` in `s'`,
with no step of another call in between. -/
structure Alone (M : Machine (CoreState Bytes) Act (Out Bytes)) (s : CoreState Bytes) (k : Nat)
    (report : ReportExecutionRequest) (r : Except Status Unit) (s' : CoreState Bytes)
    (tr : List (Act × Out Bytes)) : Prop where
  steps : M.Steps s tr s'
  opened : ∃ o rest, tr = (.report k report, o) :: rest ∧ ∀ x ∈ rest, x.1.continues k
  returned : ∃ x, tr.getLast? = some x ∧ x.2.returns = some r

@[simp] theorem continues_resolved (k : Nat) (answer : Except String Unit) :
    (Act.resolved k answer).continues k = true := by
  simp [Act.continues]

@[simp] theorem continues_stateUpdated (k : Nat) (fate : Fate) (now : Timestamp) :
    (Act.stateUpdated k fate now).continues k = true := by
  simp [Act.continues]

@[simp] theorem continues_jobUpdated (k : Nat) (now : Timestamp) :
    (Act.jobUpdated k now).continues k = true := by
  simp [Act.continues]

theorem reportCall_of_continues {k : Nat} {a : Act} (h : a.continues k) :
    a.reportCall = some k := by
  cases a with
  | resolved n answer => simpa [Act.continues, Act.reportCall] using h
  | outcomeStored n fate => simpa [Act.continues, Act.reportCall] using h
  | stateUpdated n fate now => simpa [Act.continues, Act.reportCall] using h
  | jobUpdated n now => simpa [Act.continues, Act.reportCall] using h
  | _ => simp [Act.continues] at h

/-- `s` with call `k` of `report_execution` at `pc`. -/
def CoreState.withCall (s : CoreState Bytes) (k : Nat) (pc : ReportPc) : CoreState Bytes :=
  { s with reports := s.reports.insert k pc }

section Whole

variable {registry : MemoryWorkerRegistry} {s : CoreState Bytes} {k : Nat}
  {report : ReportExecutionRequest} {state : ExecutionState} {execution : ExecutionRecord}
  {outcome : Option JobResult}

theorem withCall_report (hfree : k ∉ s.reports)
    (hstate : cfg.states.tryFrom report.state = some state) :
    (core cfg registry).step s (.report k report) =
      some (s.withCall k (.resolving report state), .silent) := by
  simp [core, CoreState.step, CoreState.report, hfree, hstate, CoreState.withCall]

theorem withCall_resolved (hexec : s.executions.lookup report.executionId = some execution)
    (hout : reportOutcome report state = .ok outcome) :
    (core cfg registry).step (s.withCall k (.resolving report state)) (.resolved k (.ok ())) =
      some (s.withCall k (resolvedPc report state execution.jobId outcome), .silent) := by
  cases outcome with
  | none => simp [core, CoreState.step, CoreState.resolved, CoreState.withCall, hexec, hout,
      resolvedPc]
  | some result => simp [core, CoreState.step, CoreState.resolved, CoreState.withCall, hexec,
      hout, resolvedPc]

/-- The outcome, if there is one, goes to the backend. -/
theorem withCall_stored (cfg : Config Bytes) (registry : MemoryWorkerRegistry)
    (s : CoreState Bytes) (k : Nat) (report : ReportExecutionRequest) (state : ExecutionState)
    (jobId : String) (outcome : Option JobResult) :
    ∃ tr, (core cfg registry).Steps (s.withCall k (resolvedPc report state jobId outcome)) tr
        (({ s with backend := storeOutcome s.backend jobId outcome }).withCall k
          (.updating report state jobId outcome)) ∧
      ∀ x ∈ tr, x.1.continues k := by
  cases outcome with
  | none => exact ⟨[], .refl, by simp⟩
  | some result =>
      refine ⟨[(.outcomeStored k .done, .outcome jobId result none)], .snoc .refl ?_,
        by simp [Act.continues]⟩
      simp [core, CoreState.step, CoreState.outcomeStored, CoreState.withCall, resolvedPc,
        storeOutcome]

theorem withCall_updated (updated : Timestamp)
    (hexec : s.executions.lookup report.executionId = some execution) :
    (core cfg registry).step
        (({ s with backend := storeOutcome s.backend execution.jobId outcome }).withCall k
          (.updating report state execution.jobId outcome))
        (.stateUpdated k .done updated) =
      some ((s.persist report state execution outcome updated).withCall k
        (.finishing report execution.jobId outcome), .silent) := by
  simp [core, CoreState.step, CoreState.stateUpdated, CoreState.withCall, CoreState.persist, hexec,
    MemoryExecutionStore.updateState]

theorem withCall_refuse (hfree : k ∉ s.reports) (pc : ReportPc) (status : Status) :
    (s.withCall k pc).refuse k status = (s, .reported (.error status)) := by
  simp [CoreState.refuse, CoreState.withCall, HashMap.erase_insert, HashMap.erase_of_notMem hfree]

/-- The last step, on the jobs of this process. -/
theorem withCall_finished (cfg : Config Bytes) (registry : MemoryWorkerRegistry)
    (hfree : k ∉ s.reports) (report : ReportExecutionRequest) (jobId : String)
    (outcome : Option JobResult) (finished : Timestamp) :
    (core cfg registry).step (s.withCall k (.finishing report jobId outcome))
        (.jobUpdated k finished) =
      match CoreState.updateJob s.jobs jobId outcome finished with
      | .error status => some (s, .reported (.error status))
      | .ok jobs => some ({ s with jobs := jobs }, .reported (.ok ())) := by
  have hback : (s.reports.insert k (.finishing report jobId outcome)).erase k = s.reports := by
    rw [HashMap.erase_insert, HashMap.erase_of_notMem hfree]
  simp only [core, CoreState.step, CoreState.jobUpdated, CoreState.withCall,
    Finmap.lookup_insert]
  cases CoreState.updateJob s.jobs jobId outcome finished with
  | error status => simp [CoreState.refuse, hback]
  | ok jobs => simp [hback]

theorem Alone.close {M : Machine (CoreState Bytes) Act (Out Bytes)} {t s' : CoreState Bytes}
    {rest : List (Act × Out Bytes)} {o o' : Out Bytes} {a : Act} {r : Except Status Unit}
    (h : M.Steps s ((.report k report, o) :: rest) t) (hrest : ∀ x ∈ rest, x.1.continues k)
    (hstep : M.step t a = some (s', o')) (ha : a.continues k) (hret : o'.returns = some r) :
    Alone M s k report r s' ((.report k report, o) :: (rest ++ [(a, o')])) where
  steps := h.snoc hstep
  opened := by
    refine ⟨o, _, rfl, ?_⟩
    intro x hx
    rcases List.mem_append.mp hx with hx | hx
    · exact hrest x hx
    · rw [List.mem_singleton] at hx
      rw [hx]
      exact ha
  returned := ⟨(a, o'), by simp [List.getLast?_cons], hret⟩

/-- The call up to its last step, for a valid report on an execution that is there. -/
theorem steps_persist (registry : MemoryWorkerRegistry) (hfree : k ∉ s.reports)
    (hstate : cfg.states.tryFrom report.state = some state)
    (hexec : s.executions.lookup report.executionId = some execution)
    (hout : reportOutcome report state = .ok outcome) (updated : Timestamp) :
    ∃ rest, (core cfg registry).Steps s ((.report k report, .silent) :: rest)
        ((s.persist report state execution outcome updated).withCall k
          (.finishing report execution.jobId outcome)) ∧
      ∀ x ∈ rest, x.1.continues k := by
  have hopen : (core cfg registry).Steps s [(.report k report, .silent)]
      (s.withCall k (.resolving report state)) :=
    .snoc .refl (withCall_report hfree hstate)
  have hresolved := hopen.snoc (withCall_resolved hexec hout)
  obtain ⟨tr, hstored, hcont⟩ :=
    withCall_stored cfg registry s k report state execution.jobId outcome
  have hupdated := (hresolved.trans hstored).snoc (withCall_updated updated hexec)
  refine ⟨_, hupdated, ?_⟩
  intro x hx
  simp only [List.nil_append, List.append_eq, List.append_assoc, List.mem_append,
    List.mem_singleton] at hx
  rcases hx with rfl | hx | rfl
  · exact continues_resolved k (.ok ())
  · exact hcont x hx
  · exact continues_stateUpdated k .done updated

/-- A call that no store fails can run from start to end on its own, and does
then what `reportExecution` says. -/
theorem alone_reportExecution (cfg : Config Bytes) (registry : MemoryWorkerRegistry)
    (report : ReportExecutionRequest) (hfree : k ∉ s.reports) (updated finished : Timestamp) :
    ∃ tr, Alone (core cfg registry) s k report
      (s.reportExecution cfg report updated finished).2
      (s.reportExecution cfg report updated finished).1 tr := by
  cases hstate : cfg.states.tryFrom report.state with
  | none =>
      have hstep : (core cfg registry).step s (.report k report) =
          some (s, .reported (.error ⟨.invalidArgument, "unknown execution state"⟩)) := by
        simp [core, CoreState.step, CoreState.report, hfree, hstate]
      simp only [CoreState.reportExecution, hstate]
      exact ⟨_, .snoc .refl hstep, ⟨_, [], rfl, by simp⟩, ⟨_, rfl, rfl⟩⟩
  | some state =>
      have hopen : (core cfg registry).Steps s [(.report k report, .silent)]
          (s.withCall k (.resolving report state)) :=
        .snoc .refl (withCall_report hfree hstate)
      cases hexec : s.executions.lookup report.executionId with
      | none =>
          have hrefused : (core cfg registry).step (s.withCall k (.resolving report state))
              (.resolved k (.ok ())) =
              some (s, .reported (.error ⟨.notFound, "execution not found"⟩)) := by
            rw [← withCall_refuse hfree (.resolving report state)]
            simp [core, CoreState.step, CoreState.resolved, CoreState.withCall, hexec]
          simp only [CoreState.reportExecution, hstate, hexec]
          exact ⟨_, .close hopen (by simp) hrefused (continues_resolved k _) rfl⟩
      | some execution =>
          cases hout : reportOutcome report state with
          | error status =>
              have hrefused : (core cfg registry).step (s.withCall k (.resolving report state))
                  (.resolved k (.ok ())) = some (s, .reported (.error status)) := by
                rw [← withCall_refuse hfree (.resolving report state)]
                simp [core, CoreState.step, CoreState.resolved, CoreState.withCall, hexec, hout]
              simp only [CoreState.reportExecution, hstate, hexec, hout]
              exact ⟨_, .close hopen (by simp) hrefused (continues_resolved k _) rfl⟩
          | ok outcome =>
              obtain ⟨rest, hsteps, hcont⟩ :=
                steps_persist registry hfree hstate hexec hout updated
              have hlast := withCall_finished cfg registry
                (s := s.persist report state execution outcome updated) hfree report
                execution.jobId outcome finished
              rw [persist_jobs] at hlast
              simp only [CoreState.reportExecution, hstate, hexec, hout]
              cases hup : CoreState.updateJob s.jobs execution.jobId outcome finished with
              | error status =>
                  rw [hup] at hlast
                  exact ⟨_, .close hsteps hcont hlast (continues_jobUpdated k _) rfl⟩
              | ok jobs =>
                  rw [hup] at hlast
                  exact ⟨_, .close hsteps hcont hlast (continues_jobUpdated k _) rfl⟩

end Whole

/-! ## The steps of a call that runs alone -/

section Rule

variable {registry : MemoryWorkerRegistry} {s t s' : CoreState Bytes} {k : Nat}
  {report : ReportExecutionRequest}

/-- Where a call stands after its first step, if that was not its last. -/
theorem Handles.opened_pc {o : Out Bytes} {pc : ReportPc}
    (h : Handles cfg s k (.report k report) o t) (hpc : t.reports.lookup k = some pc) :
    ∃ state, cfg.states.tryFrom report.state = some state ∧ pc = .resolving report state ∧
      t = { s with reports := s.reports.insert k pc } := by
  cases h with
  | unknown report' hfree hstate =>
      rw [Finmap.lookup_eq_none.mpr hfree] at hpc
      cases hpc
  | opened report' state hfree hstate =>
      simp only [Finmap.lookup_insert, Option.some.injEq] at hpc
      subst hpc
      exact ⟨state, hstate, rfl, rfl⟩

/-- What every step of a call keeps holds along them. -/
theorem keeps_steps {P : CoreState Bytes → ReportPc → Prop} {rest : List (Act × Out Bytes)}
    (hstep : ∀ t a o t' pc, (∀ pc, t.reports.lookup k = some pc → P t pc) → a.continues k →
      Handles cfg t k a o t' → t'.reports.lookup k = some pc → P t' pc)
    (h : ∀ pc, t.reports.lookup k = some pc → P t pc) (hrest : ∀ x ∈ rest, x.1.continues k)
    (hsteps : (core cfg registry).Steps t rest s') :
    ∀ pc, s'.reports.lookup k = some pc → P s' pc := by
  induction hsteps with
  | refl => exact h
  | @snoc tr u v a o _ hs ih =>
      intro pc hpc
      have ha : a.continues k := hrest (a, o) (by simp)
      have hu := ih fun x hx => hrest x (List.mem_append_left _ hx)
      exact hstep u a o v pc hu ha (step_handles (reportCall_of_continues ha) hs) hpc

/-- The rule for a call that runs alone. `P` holds where the call stands after
its first step, and every further step keeps it: then the call was turned away at
once, or it returned with a step from a state with `P`. -/
theorem Alone.last_step {P : CoreState Bytes → ReportPc → Prop} {r : Except Status Unit}
    {tr : List (Act × Out Bytes)}
    (hstart : ∀ state, cfg.states.tryFrom report.state = some state →
      P { s with reports := s.reports.insert k (.resolving report state) }
        (.resolving report state))
    (hstep : ∀ t a o t' pc, (∀ pc, t.reports.lookup k = some pc → P t pc) → a.continues k →
      Handles cfg t k a o t' → t'.reports.lookup k = some pc → P t' pc)
    (h : Alone (core cfg registry) s k report r s' tr) :
    (s' = s ∧ r = .error ⟨.invalidArgument, "unknown execution state"⟩) ∨
    ∃ t a o, (∀ pc, t.reports.lookup k = some pc → P t pc) ∧ a.continues k ∧
      Handles cfg t k a o s' ∧ o.returns = some r := by
  rcases h with ⟨hsteps, ⟨o, rest, rfl, hcont⟩, ⟨x, hlast, hret⟩⟩
  rcases hsteps.first with ⟨t, hopen, hrest⟩
  have hopened : Handles cfg s k (.report k report) o t := step_handles rfl hopen
  -- the call has only just begun, or its last step is one of `rest`
  rcases List.eq_nil_or_concat rest with rfl | ⟨rest', y, rfl⟩
  · obtain rfl : t = s' := Machine.Steps.det .refl hrest
    obtain rfl : (Act.report k report, o) = x := by simpa using hlast
    cases hopened with
    | unknown report' hfree hstate =>
        cases hret
        exact Or.inl ⟨rfl, rfl⟩
    | opened report' state hfree hstate => cases hret
  · rw [List.concat_eq_append] at hrest hcont hlast
    rcases hrest.last with ⟨u, hrest', hreturn⟩
    obtain rfl : y = x := by simpa [List.getLast?_cons] using hlast
    have hfirst : ∀ pc, t.reports.lookup k = some pc → P t pc := by
      intro pc hpc
      rcases hopened.opened_pc hpc with ⟨state, hstate, rfl, rfl⟩
      exact hstart state hstate
    have hkept := keeps_steps hstep hfirst (fun z hz => hcont z (List.mem_append_left _ hz)) hrest'
    have hy : y.1.continues k := hcont y (by simp)
    exact Or.inr ⟨u, y.1, y.2, hkept, hy, step_handles (reportCall_of_continues hy) hreturn, hret⟩

end Rule

/-! ## Refused calls -/

/-- Call `k` about `report` started in `s` and, with no step of another call
since, has come to `s'`. -/
structure Underway (cfg : Config Bytes) (s : CoreState Bytes) (k : Nat)
    (report : ReportExecutionRequest) (s' : CoreState Bytes) (pc : ReportPc) : Prop where
  request : pc.request = report
  checked : pc.Checked cfg
  jobs : s'.jobs = s.jobs
  /-- before the lookup nothing is written -/
  clean : pc.jobId = none → s'.backend = s.backend ∧ s'.executions = s.executions
  found : ∀ jobId, pc.jobId = some jobId →
    ∃ execution, s.executions.lookup report.executionId = some execution ∧
      execution.jobId = jobId

/-- A valid report on an execution that this process has stored and whose job it
does not have. -/
def Orphaned (cfg : Config Bytes) (s : CoreState Bytes) (report : ReportExecutionRequest) : Prop :=
  ∃ state execution, cfg.states.tryFrom report.state = some state ∧ Reportable report state ∧
    s.executions.lookup report.executionId = some execution ∧ execution.jobId ∉ s.jobs

section Refused

variable {registry : MemoryWorkerRegistry} {s t s' : CoreState Bytes} {k : Nat}
  {report : ReportExecutionRequest}

theorem jobId_resolvedPc (report : ReportExecutionRequest) (state : ExecutionState)
    (jobId : String) (outcome : Option JobResult) :
    (resolvedPc report state jobId outcome).jobId = some jobId := by
  cases outcome <;> rfl

theorem request_resolvedPc (report : ReportExecutionRequest) (state : ExecutionState)
    (jobId : String) (outcome : Option JobResult) :
    (resolvedPc report state jobId outcome).request = report := by
  cases outcome <;> rfl

/-- One step of a call that runs alone. -/
theorem Underway.handles {a : Act} {o : Out Bytes} {pc' : ReportPc}
    (h : ∀ pc, t.reports.lookup k = some pc → Underway cfg s k report t pc)
    (ha : a.continues k) (hstep : Handles cfg t k a o s')
    (hpc' : s'.reports.lookup k = some pc') : Underway cfg s k report s' pc' := by
  cases hstep with
  | unknown report' hfree hstate => cases ha
  | opened report' state hfree hstate => cases ha
  | resolved report' state execution outcome hpc hexec hout =>
      have hu := h _ hpc
      obtain rfl : report' = report := hu.request
      obtain ⟨hbackend, hexecs⟩ := hu.clean rfl
      simp only [Finmap.lookup_insert, Option.some.injEq] at hpc'
      subst hpc'
      refine ⟨request_resolvedPc .., checked_resolvedPc _ hu.checked hout, hu.jobs, ?_, ?_⟩
      · intro hjob
        rw [jobId_resolvedPc] at hjob
        cases hjob
      · intro jobId hjob
        rw [jobId_resolvedPc, Option.some.injEq] at hjob
        exact ⟨execution, hexecs ▸ hexec, hjob⟩
  | stored report' state jobId outcome hpc =>
      have hu := h _ hpc
      simp only [Finmap.lookup_insert, Option.some.injEq] at hpc'
      subst hpc'
      exact ⟨hu.request, hu.checked, hu.jobs, (fun hjob => nomatch hjob), hu.found⟩
  | updated report' state jobId outcome now execution hpc hexec =>
      have hu := h _ hpc
      simp only [Finmap.lookup_insert, Option.some.injEq] at hpc'
      subst hpc'
      exact ⟨hu.request, ⟨state, hu.checked⟩, hu.jobs, (fun hjob => nomatch hjob), hu.found⟩
  | _ =>
      -- the call has returned
      simp at hpc'

/-- A refusal that comes before the durable writes has no effect, and one that
comes after them is about an orphan. -/
theorem refused_cases {a : Act} {o : Out Bytes} {status : Status}
    (h : ∀ pc, t.reports.lookup k = some pc → Underway cfg s k report t pc)
    (ha : a.continues k) (hstep : Handles cfg t k a o s')
    (hret : o.returns = some (.error status))
    (hcode : status.code = .notFound ∨ status.code = .invalidArgument) :
    (s'.backend = s.backend ∧ s'.executions = s.executions ∧ s'.jobs = s.jobs) ∨
    Orphaned cfg s report := by
  cases hstep with
  | unknown report' hfree hstate => cases ha
  | opened report' state hfree hstate => cases ha
  | notFound report' state hpc hexec =>
      have hu := h _ hpc
      exact Or.inl ⟨(hu.clean rfl).1, (hu.clean rfl).2, hu.jobs⟩
  | invalid report' state execution status' hpc hexec hout =>
      have hu := h _ hpc
      exact Or.inl ⟨(hu.clean rfl).1, (hu.clean rfl).2, hu.jobs⟩
  | jobMissing report' jobId outcome now hpc hjob =>
      have hu := h _ hpc
      obtain rfl : report' = report := hu.request
      obtain ⟨state, hstate, hout⟩ := hu.checked
      obtain ⟨execution, hexec, rfl⟩ := hu.found jobId rfl
      rw [hu.jobs] at hjob
      exact Or.inr ⟨state, execution, hstate, reportOutcome_ok_iff.mp ⟨outcome, hout⟩, hexec,
        Finmap.lookup_eq_none.mp hjob⟩
  | _ =>
      cases hret
      all_goals simp at hcode

/-- What a refused call leaves behind. -/
theorem Alone.refused {tr : List (Act × Out Bytes)} {status : Status}
    (h : Alone (core cfg registry) s k report (.error status) s' tr)
    (hcode : status.code = .notFound ∨ status.code = .invalidArgument) :
    (s'.backend = s.backend ∧ s'.executions = s.executions ∧ s'.jobs = s.jobs) ∨
    Orphaned cfg s report := by
  have hstart : ∀ state, cfg.states.tryFrom report.state = some state →
      Underway cfg s k report { s with reports := s.reports.insert k (.resolving report state) }
        (.resolving report state) := by
    intro state hstate
    exact ⟨rfl, hstate, rfl, fun _ => ⟨rfl, rfl⟩, fun jobId hjob => nomatch hjob⟩
  rcases Alone.last_step hstart (fun _ _ _ _ _ => Underway.handles) h with
    ⟨rfl, -⟩ | ⟨t, a, o, hunder, ha, hreturn, hret⟩
  · exact Or.inl ⟨rfl, rfl, rfl⟩
  · exact refused_cases hunder ha hreturn hret hcode

/-- Refused for an orphan, a report has been written to the execution store. -/
theorem Orphaned.written (h : Orphaned cfg s report) :
    ∃ updated, ∀ finished,
      (s.reportExecution cfg report updated finished).2 =
        .error ⟨.notFound, "job not found"⟩ ∧
      (s.reportExecution cfg report updated finished).1.executions ≠ s.executions := by
  obtain ⟨state, execution, hstate, hvalid, hexec, hjob⟩ := h
  obtain ⟨outcome, hout⟩ := reportOutcome_ok_iff.mpr hvalid
  refine ⟨execution.updatedAt + 1, fun finished => ?_⟩
  have hup : CoreState.updateJob s.jobs execution.jobId outcome finished =
      .error ⟨.notFound, "job not found"⟩ := by
    rcases updateJob_cases s.jobs execution.jobId outcome finished with
      ⟨-, hup⟩ | ⟨record, hrec, -⟩
    · exact hup
    · rw [Finmap.lookup_eq_none.mpr hjob] at hrec
      cases hrec
  simp only [CoreState.reportExecution, hstate, hexec, hout, hup, true_and]
  intro hsame
  -- the time of the update shows
  have hlook := congrArg (fun m => (Finmap.lookup report.executionId m).map
    ExecutionRecord.updatedAt) hsame
  simp [CoreState.persist, hexec] at hlook

/-- A call answered with NOT_FOUND or INVALID_ARGUMENT leaves the result
backend, the execution store and the jobs as they were, on every run of the
call, exactly when the report is not a valid one about an orphan. -/
theorem refused_report_without_effect (registry : MemoryWorkerRegistry) (s : CoreState Bytes)
    (report : ReportExecutionRequest) :
    (∀ k tr status s', Alone (core cfg registry) s k report (.error status) s' tr →
      status.code = .notFound ∨ status.code = .invalidArgument →
      s'.backend = s.backend ∧ s'.executions = s.executions ∧ s'.jobs = s.jobs) ↔
    ¬ Orphaned cfg s report := by
  constructor
  · intro hall horphan
    obtain ⟨k, hfree⟩ := Infinite.exists_notMem_finset s.reports.keys
    obtain ⟨updated, hwritten⟩ := horphan.written
    obtain ⟨hrefused, hchanged⟩ := hwritten 0
    obtain ⟨tr, halone⟩ := alone_reportExecution cfg registry report
      (fun hk => hfree (Finmap.mem_keys.mpr hk)) updated 0
    rw [hrefused] at halone
    exact hchanged (hall k tr _ _ halone (Or.inl rfl)).2.1
  · intro hnot k tr status s' halone hcode
    rcases halone.refused hcode with hsame | horphan
    · exact hsame
    · exact absurd horphan hnot

end Refused

/-- A control plane that was started again: the execution store has a record of
the process before, the jobs map is empty. -/
def restarted : CoreState Payload :=
  { symbolicCore.init with
    executions := (∅ : MemoryExecutionStore).insert "x"
      { executionId := "x", jobId := "j", assignmentId := "a", workerId := "w",
        state := .running, createdAt := 1, updatedAt := 2 } }

theorem refused_report_written :
    ∃ tr s', Alone symbolicCore restarted 0
        (plainReport "x" .succeeded (some JobResult.empty))
        (.error ⟨.notFound, "job not found"⟩) s' tr ∧
      s'.backend ≠ restarted.backend ∧ s'.executions ≠ restarted.executions := by
  obtain ⟨tr, halone⟩ := alone_reportExecution symbolicConfig (.new 30 (by decide))
    (plainReport "x" .succeeded (some JobResult.empty)) (s := restarted) (k := 0)
    (by decide) 3 4
  have hret : (restarted.reportExecution symbolicConfig
      (plainReport "x" .succeeded (some JobResult.empty)) 3 4).2 =
      .error ⟨.notFound, "job not found"⟩ := by
    decide +kernel
  rw [hret] at halone
  exact ⟨tr, _, halone, by decide +kernel, by decide +kernel⟩


end ThreadWeave.Core
