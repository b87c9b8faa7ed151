import ThreadWeave.Core.Integrity

/-!
# Outcomes: the result backend and the job records

Two places hold the outcome of a job. The result backend is written by
`report_execution` and, under the same key, by `accept`, which stores its
ACCEPTED placeholder only after it has published the envelope. The job record
is written by `mark_job_running` and `store_job_result`, neither of which looks
at what is there.

* `outcome_kept` — a stored outcome is not lost in a run in which every
  placeholder is written to a key without a value.
* `outcomes_final` — the job records are final exactly in the runs in which a
  job that has a result is only ever updated with the same result.
-/

namespace ThreadWeave.Core

open Runs (HashMap Machine)

variable {Bytes : Type} {cfg : Config Bytes} {registry : MemoryWorkerRegistry}

/-! ## The result backend -/

/-- What a step stored as the outcome of a terminal report. -/
def storedOutcome : Act × Out Bytes → Option (String × JobResult)
  | (_, .outcome jobId outcome _) => some (jobId, outcome)
  | _ => none

/-- `v` was stored as an outcome of job `j`. -/
def OutcomeStored (tr : List (Act × Out Bytes)) (j : String) (v : JobResult) : Prop :=
  ∃ x ∈ tr, storedOutcome x = some (j, v)

/-- Once an outcome of a job was stored, the backend holds an outcome of it. -/
def OutcomeKept (tr : List (Act × Out Bytes)) (s : CoreState Bytes) : Prop :=
  ∀ j v, OutcomeStored tr j v →
    ∃ v', s.backend.lookup j = some v' ∧ OutcomeStored tr j v'

instance (tr : List (Act × Out Bytes)) (j : String) (v : JobResult) :
    Decidable (OutcomeStored tr j v) :=
  inferInstanceAs (Decidable (∃ x ∈ tr, _))

/-- The job whose placeholder the step writes to the backend. -/
def placeholderOf : Act → Option String
  | .resultStored jobId .done => some jobId
  | .resultStored jobId (.lost _) => some jobId
  | _ => none

/-- The step writes no placeholder over a stored value. -/
def PlaceholderFirst (s : CoreState Bytes) (a : Act) : Prop :=
  ∀ j ∈ placeholderOf a, s.backend.lookup j = none

instance (s : CoreState Bytes) (a : Act) : Decidable (PlaceholderFirst s a) :=
  inferInstanceAs (Decidable (∀ j ∈ placeholderOf a, _))

theorem OutcomeStored.snoc {tr : List (Act × Out Bytes)} {x : Act × Out Bytes} {j : String}
    {v : JobResult} : OutcomeStored (tr ++ [x]) j v ↔
      OutcomeStored tr j v ∨ storedOutcome x = some (j, v) := by
  simp [OutcomeStored, or_and_right, exists_or]

/-- A step that stores no outcome and leaves the backend alone. -/
theorem OutcomeKept.congr {tr : List (Act × Out Bytes)} {s s' : CoreState Bytes}
    {x : Act × Out Bytes} (h : OutcomeKept tr s) (hbackend : s'.backend = s.backend)
    (hx : storedOutcome x = none) : OutcomeKept (tr ++ [x]) s' := by
  intro j v hv
  rcases OutcomeStored.snoc.mp hv with hold | hnew
  · rcases h j v hold with ⟨v', hv', hstored⟩
    exact ⟨v', hbackend ▸ hv', OutcomeStored.snoc.mpr (Or.inl hstored)⟩
  · rw [hx] at hnew
    cases hnew

/-- `accept` writes its placeholder to a key without a value. -/
theorem OutcomeKept.placeholder {tr : List (Act × Out Bytes)} {s s' : CoreState Bytes}
    {x : Act × Out Bytes} {jobId : String} {v₀ : JobResult} (h : OutcomeKept tr s)
    (hnone : s.backend.lookup jobId = none)
    (hbackend : s'.backend = s.backend.insert jobId v₀) (hx : storedOutcome x = none) :
    OutcomeKept (tr ++ [x]) s' := by
  intro j v hv
  rcases OutcomeStored.snoc.mp hv with hold | hnew
  · rcases h j v hold with ⟨v', hv', hstored⟩
    have hne : j ≠ jobId := by
      rintro rfl
      rw [hnone] at hv'
      cases hv'
    refine ⟨v', ?_, OutcomeStored.snoc.mpr (Or.inl hstored)⟩
    rw [hbackend, Finmap.lookup_insert_of_ne _ hne]
    exact hv'
  · rw [hx] at hnew
    cases hnew

/-- `report_execution` stores an outcome. -/
theorem OutcomeKept.outcome {tr : List (Act × Out Bytes)} {s s' : CoreState Bytes}
    {x : Act × Out Bytes} {jobId : String} {v₀ : JobResult} (h : OutcomeKept tr s)
    (hbackend : s'.backend = s.backend.insert jobId v₀)
    (hx : storedOutcome x = some (jobId, v₀)) : OutcomeKept (tr ++ [x]) s' := by
  intro j v hv
  by_cases hj : j = jobId
  · subst hj
    refine ⟨v₀, ?_, OutcomeStored.snoc.mpr (Or.inr hx)⟩
    rw [hbackend]
    exact Finmap.lookup_insert _
  · rcases OutcomeStored.snoc.mp hv with hold | hnew
    · rcases h j v hold with ⟨v', hv', hstored⟩
      refine ⟨v', ?_, OutcomeStored.snoc.mpr (Or.inl hstored)⟩
      rw [hbackend, Finmap.lookup_insert_of_ne _ hj]
      exact hv'
    · rw [hx, Option.some.injEq, Prod.mk.injEq] at hnew
      exact absurd hnew.1.symm hj

theorem outcomeKept_step {tr : List (Act × Out Bytes)} {s s' : CoreState Bytes} {a : Act}
    {o : Out Bytes} (hC : PlaceholderFirst s a) (h : Takes cfg s a o s')
    (ih : OutcomeKept tr s) : OutcomeKept (tr ++ [(a, o)]) s' := by
  cases h with
  | resultStored jobId request job hpc => exact ih.placeholder (hC jobId rfl) rfl rfl
  | resultLost jobId error request job hpc => exact ih.placeholder (hC jobId rfl) rfl rfl
  | outcomeStored k report state jobId outcome hpc => exact ih.outcome rfl rfl
  | outcomeLost k error report state jobId outcome hpc => exact ih.outcome rfl rfl
  -- nothing else writes to the backend
  | _ => exact ih.congr rfl rfl

/-- **Stored outcomes.** In every run in which `accept` writes its placeholder
before anything is stored under the job, a stored outcome is only ever replaced
by another outcome. -/
theorem outcome_kept {tr : List (Act × Out Bytes)} {s : CoreState Bytes}
    (h : (core cfg registry).Run tr s)
    (hfirst : (core cfg registry).Conforms PlaceholderFirst tr) : OutcomeKept tr s := by
  refine h.history_conforms (P := OutcomeKept) ?_ ?_ hfirst
  · intro j v hv
    simp [OutcomeStored] at hv
  · intro tr s a t b hrun ih hC hs
    exact outcomeKept_step hC (step_takes hs) ih

/-- A job is submitted and published. -/
def submitted (j : String) : List Act :=
  [.register (plainWorker "w") 0, .submit j (j ++ "-m") plainRequest 1, .published j (.ok ())]

/-- Execution `x` is reported with the given state up to the last await. -/
def reported (k : Nat) (x : String) (state : ExecutionState) (outcome : Option JobResult) :
    List Act :=
  [.report k (plainReport x state outcome), .resolved k (.ok ()), .outcomeStored k .done,
   .stateUpdated k .done 4]

theorem outcome_kept_of_early_placeholder : ∃ tr s,
    symbolicCore.Run tr s ∧
    OutcomeStored tr "j" { JobResult.empty with executionId := "x" } ∧ OutcomeKept tr s := by
  let acts : List Act := submitted "j" ++ [.resultStored "j" .done] ++ scheduled "j" "x" 0 ++
    reported 0 "x" .succeeded (some .empty)
  rcases Machine.run_of_exec symbolicCore acts
    (P := fun tr _ => OutcomeStored tr "j" { JobResult.empty with executionId := "x" })
    (by decide +kernel) with ⟨tr, s, hrun, hacts, hstored⟩
  have hfirst : symbolicCore.Conforms PlaceholderFirst tr := by
    refine Machine.conforms_of_checks ?_
    rw [hacts]
    decide +kernel
  exact ⟨tr, s, hrun, hstored, outcome_kept hrun hfirst⟩

/-- The worker reports before `accept` has written its placeholder: the
outcome is overwritten. -/
theorem outcome_overwritten_by_placeholder : ¬ ∀ tr s,
    symbolicCore.Run tr s → OutcomeKept tr s := by
  intro hall
  let acts : List Act := submitted "j" ++ scheduled "j" "x" 0 ++
    reported 0 "x" .succeeded (some .empty) ++ [.resultStored "j" .done]
  rcases Machine.run_of_exec symbolicCore acts
    (P := fun tr s => OutcomeStored tr "j" { JobResult.empty with executionId := "x" } ∧
      s.backend.lookup "j" = some (placeholder symbolicConfig) ∧
      ¬ OutcomeStored tr "j" (placeholder symbolicConfig))
    (by decide +kernel) with ⟨tr, s, hrun, -, hstored, hval, hnot⟩
  rcases hall tr s hrun "j" _ hstored with ⟨v, hv, hv'⟩
  rw [hval, Option.some.injEq] at hv
  exact hnot (hv ▸ hv')

/-! ## The job records -/

/-- SUCCEEDED or FAILED. -/
def isTerminal : JobState → Bool
  | .succeeded | .failed => true
  | _ => false

/-- A job has a result iff its state is terminal. -/
def ResultIffTerminal (s : CoreState Bytes) : Prop :=
  ∀ j record, s.jobs.lookup j = some record →
    (record.result.isSome ↔ isTerminal record.job.state)

/-- From `s` to `t` no finished job lost or changed its state or its result. -/
def KeepsOutcomes (s t : CoreState Bytes) : Prop :=
  ∀ j record, s.jobs.lookup j = some record → record.result.isSome →
    isTerminal record.job.state → ∃ record', t.jobs.lookup j = some record' ∧
      record'.job.state = record.job.state ∧ record'.result = record.result

/-- The outcomes of jobs are final along the run with trace `tr`: between any
two of its states they are kept, and in each of them a job has a result iff
its state is terminal. -/
def OutcomesFinal (M : Machine (CoreState Bytes) Act (Out Bytes))
    (tr : List (Act × Out Bytes)) : Prop :=
  ∀ p q r s t, tr = p ++ q ++ r → M.Run p s → M.Steps s q t →
    KeepsOutcomes s t ∧ ResultIffTerminal t

/-- The job record the step is about to update, and with which outcome. -/
def jobUpdate (s : CoreState Bytes) : Act → Option (JobRecord × Option JobResult)
  | .jobUpdated k _ =>
      match s.reports.lookup k with
      | some (.finishing _ jobId outcome) =>
          (s.jobs.lookup jobId).map fun record => (record, outcome)
      | _ => none
  | _ => none

/-- A job that has a result is only updated with that same result. -/
def SameOutcome (s : CoreState Bytes) (a : Act) : Prop :=
  ∀ u ∈ jobUpdate s a, ∀ v ∈ u.1.result, u.2 = some v

instance (s : CoreState Bytes) (a : Act) : Decidable (SameOutcome s a) :=
  inferInstanceAs (Decidable (∀ u ∈ jobUpdate s a, _))

theorem KeepsOutcomes.refl (s : CoreState Bytes) : KeepsOutcomes s s :=
  fun _ record hrec _ _ => ⟨record, hrec, rfl, rfl⟩

theorem KeepsOutcomes.trans {s t u : CoreState Bytes} (h : KeepsOutcomes s t)
    (h' : KeepsOutcomes t u) : KeepsOutcomes s u := by
  intro j record hrec hsome hterm
  rcases h j record hrec hsome hterm with ⟨r₁, hr₁, hstate₁, hres₁⟩
  rcases h' j r₁ hr₁ (by rw [hres₁]; exact hsome) (by rw [hstate₁]; exact hterm) with
    ⟨r₂, hr₂, hstate₂, hres₂⟩
  exact ⟨r₂, hr₂, hstate₂.trans hstate₁, hres₂.trans hres₁⟩

/-- The state `store_job_result` derives from a result. -/
def stateOf (result : JobResult) : JobState :=
  if result.failure.isSome then .failed else .succeeded

/-- The state of a record is the one its result stands for. -/
structure Agrees (record : JobRecord) : Prop where
  finished : ∀ v, record.result = some v → record.job.state = stateOf v
  unfinished : record.result = none → isTerminal record.job.state = false

@[simp] theorem isTerminal_stateOf (v : JobResult) : isTerminal (stateOf v) = true := by
  cases hfail : v.failure <;> simp [stateOf, hfail, isTerminal]

theorem Agrees.iff {record : JobRecord} (h : Agrees record) :
    record.result.isSome ↔ isTerminal record.job.state := by
  cases hres : record.result with
  | none => simp [h.unfinished hres]
  | some v => simp [h.finished v hres, isTerminal_stateOf]

/-- An update with the outcome the record has, if it has one. -/
theorem Agrees.update {record : JobRecord} {outcome : Option JobResult} (h : Agrees record)
    (now : Timestamp) (hsame : ∀ v ∈ record.result, outcome = some v) :
    Agrees (record.update outcome now) ∧
      ∀ v, record.result = some v → (record.update outcome now).job.state = record.job.state ∧
        (record.update outcome now).result = record.result := by
  cases outcome with
  | none =>
      -- `mark_job_running` keeps the result, so there must be none
      have hnone : record.result = none := by
        cases hres : record.result with
        | none => rfl
        | some v => cases hsame v hres
      refine ⟨⟨?_, fun _ => rfl⟩, ?_⟩
      · intro v hv
        have hv' : record.result = some v := hv
        rw [hnone] at hv'
        cases hv'
      · intro v hv
        rw [hnone] at hv
        cases hv
  | some w =>
      refine ⟨⟨?_, ?_⟩, ?_⟩
      · intro v hv
        cases hv
        rfl
      · intro hv
        cases hv
      · intro v hv
        have hw : w = v := Option.some.inj (hsame v hv)
        subst hw
        exact ⟨(h.finished w hv).symm, hv.symm⟩

/-- A step that leaves the jobs alone. -/
theorem final_of_jobs_eq {s s' : CoreState Bytes}
    (ih : ∀ j record, s.jobs.lookup j = some record → Agrees record)
    (hjobs : s'.jobs = s.jobs) :
    KeepsOutcomes s s' ∧ ∀ j record, s'.jobs.lookup j = some record → Agrees record := by
  rw [hjobs]
  refine ⟨?_, ih⟩
  intro j record hrec _ _
  exact ⟨record, hjobs ▸ hrec, rfl, rfl⟩

theorem final_step {s s' : CoreState Bytes} {a : Act} {o : Out Bytes} (hi : Integrity cfg s)
    (hC : SameOutcome s a) (h : Takes cfg s a o s')
    (ih : ∀ j record, s.jobs.lookup j = some record → Agrees record) :
    KeepsOutcomes s s' ∧ ∀ j record, s'.jobs.lookup j = some record → Agrees record := by
  cases h with
  | submit jobId messageId request now hfresh =>
      -- a new job overwrites nothing, and starts ACCEPTED without a result
      have hnew : jobId ∉ s.jobs := Fresh.not_mem_jobs hi.drawn hfresh
      constructor
      · intro j record hrec _ _
        have hne : j ≠ jobId := by
          rintro rfl
          exact hnew (Finmap.mem_of_lookup_eq_some hrec)
        exact ⟨record, (Finmap.lookup_insert_of_ne _ hne).trans hrec, rfl, rfl⟩
      · intro j record hrec
        rcases HashMap.lookup_insert_some hrec with ⟨-, rfl⟩ | ⟨-, hold⟩
        · exact ⟨by simp, fun _ => rfl⟩
        · exact ih j record hold
  | publishFailed jobId error request job envelope hpc =>
      -- the job that is rolled back has no result
      have hjob : s.jobs.lookup jobId = some { job := job, result := none } :=
        (hi.accepting jobId _ hpc).1
      constructor
      · intro j record hrec hsome _
        have hne : j ≠ jobId := by
          rintro rfl
          rw [hjob, Option.some.injEq] at hrec
          rw [← hrec] at hsome
          cases hsome
        exact ⟨record, (Finmap.lookup_erase_ne hne).trans hrec, rfl, rfl⟩
      · intro j record hrec
        exact ih j record (HashMap.lookup_erase_some hrec).2
  | jobUpdated k now report jobId outcome record hpc hjob =>
      have hupdate : jobUpdate s (.jobUpdated k now) = some (record, outcome) := by
        simp [jobUpdate, hpc, hjob]
      have hsame : ∀ v ∈ record.result, outcome = some v := hC _ hupdate
      have hnext := (ih jobId record hjob).update now hsame
      constructor
      · intro j record' hrec hsome _
        by_cases hj : j = jobId
        · subst hj
          rw [hjob, Option.some.injEq] at hrec
          subst hrec
          rcases Option.isSome_iff_exists.mp hsome with ⟨v, hv⟩
          exact ⟨_, Finmap.lookup_insert _, hnext.2 v hv⟩
        · exact ⟨record', (Finmap.lookup_insert_of_ne _ hj).trans hrec, rfl, rfl⟩
      · intro j record' hrec
        rcases HashMap.lookup_insert_some hrec with ⟨-, rfl⟩ | ⟨-, hold⟩
        · exact hnext.1
        · exact ih j record' hold
  | _ => exact final_of_jobs_eq ih rfl

/-- In a conforming run every state keeps the outcomes of every earlier one. -/
theorem kept_of_conforms {tr : List (Act × Out Bytes)} {t : CoreState Bytes}
    (h : (core cfg registry).Run tr t) (hC : (core cfg registry).Conforms SameOutcome tr) :
    (∀ j record, t.jobs.lookup j = some record → Agrees record) ∧
    ∀ p q s, tr = p ++ q → (core cfg registry).Run p s → KeepsOutcomes s t := by
  refine h.history_conforms (C := SameOutcome) (P := fun tr t =>
    (∀ j record, t.jobs.lookup j = some record → Agrees record) ∧
    ∀ p q s, tr = p ++ q → (core cfg registry).Run p s → KeepsOutcomes s t) ?_ ?_ hC
  · refine ⟨by simp [core, CoreState.start], ?_⟩
    intro p q s hnil hs
    have hp : p = [] := (List.append_eq_nil_iff.mp hnil.symm).1
    subst hp
    have hst : s = (core cfg registry).init := hs.det .refl
    exact hst ▸ KeepsOutcomes.refl _
  · intro tr t a u b hrun ih hCa hstep
    have hnext := final_step (core_integrity hrun) hCa (step_takes hstep) ih.1
    refine ⟨hnext.2, ?_⟩
    intro p q s hsplit hs
    rcases List.eq_nil_or_concat q with rfl | ⟨q', y, rfl⟩
    · -- `s` is the new state itself
      rw [List.append_nil] at hsplit
      have hsu : s = u := hs.det (hsplit ▸ hrun.snoc hstep)
      exact hsu ▸ KeepsOutcomes.refl _
    · rw [List.concat_eq_append, ← List.append_assoc] at hsplit
      have htr : tr = p ++ q' := (List.append_inj' hsplit rfl).1
      exact (ih.2 p q' s htr hs).trans hnext.1

theorem jobUpdated_eq (cfg : Config Bytes) {s : CoreState Bytes} {k : Nat} {now : Timestamp}
    {record : JobRecord} {outcome : Option JobResult}
    (h : jobUpdate s (.jobUpdated k now) = some (record, outcome)) :
    ∃ jobId, s.jobs.lookup jobId = some record ∧ s.step cfg (.jobUpdated k now) =
      some ({ s with
        jobs := s.jobs.insert jobId (record.update outcome now)
        reports := s.reports.erase k }, .reported (.ok ())) := by
  simp only [jobUpdate] at h
  split at h
  · rename_i report jobId outcome' hpc
    rcases Option.map_eq_some_iff.mp h with ⟨record', hrec, heq⟩
    cases heq
    refine ⟨jobId, hrec, ?_⟩
    rcases updateJob_cases s.jobs jobId outcome now with ⟨hnone, -⟩ | ⟨record'', hrec'', hup⟩
    · rw [hrec] at hnone
      cases hnone
    · rw [hrec, Option.some.injEq] at hrec''
      subst hrec''
      simp only [CoreState.step, CoreState.jobUpdated, hpc, hup]
  · cases h

/-- A step that keeps the outcomes updates a job that has a result with that
result only. -/
theorem sameOutcome_of_keeps {s t : CoreState Bytes} {a : Act} {o : Out Bytes}
    (hstep : s.step cfg a = some (t, o)) (hiff : ResultIffTerminal s)
    (hkeep : KeepsOutcomes s t) : SameOutcome s a := by
  rintro ⟨record, outcome⟩ hu v hv
  cases a with
  | jobUpdated k now =>
      rcases jobUpdated_eq cfg hu with ⟨jobId, hrec, heq⟩
      rw [hstep, Option.some.injEq, Prod.mk.injEq] at heq
      have hsome : record.result.isSome := by
        rw [hv]
        rfl
      have hterm : isTerminal record.job.state := (hiff jobId record hrec).mp hsome
      rcases hkeep jobId record hrec hsome hterm with ⟨record', hrec', hstate, hres⟩
      have hnew : record' = record.update outcome now := by
        rw [heq.1] at hrec'
        exact (Option.some.inj (hrec'.symm.trans (Finmap.lookup_insert _)))
      subst hnew
      cases outcome with
      | none =>
          -- the job would be running again
          rw [← hstate] at hterm
          cases hterm
      | some w => exact hres.trans hv
  | _ => cases hu

/-- **Finality of job outcomes.** The outcomes of jobs are final along a run
exactly if a job that has a result is never marked running and never given
another result. -/
theorem outcomes_final {tr : List (Act × Out Bytes)} {s : CoreState Bytes}
    (h : (core cfg registry).Run tr s) :
    OutcomesFinal (core cfg registry) tr ↔ (core cfg registry).Conforms SameOutcome tr := by
  constructor
  · -- look at the two states around the step
    rintro hfinal p ⟨a, b⟩ q t htr hrun
    rcases Machine.Steps.mid (htr ▸ h) with ⟨t₀, t₁, hrun₀, hstep, -⟩
    have ht : t₀ = t := hrun₀.det hrun
    subst ht
    have hone : (core cfg registry).Steps t₀ [(a, b)] t₁ := Machine.Steps.snoc .refl hstep
    have hiff : ResultIffTerminal t₀ :=
      (hfinal p [] ((a, b) :: q) t₀ t₀ (by simp [htr]) hrun .refl).2
    have hkeep : KeepsOutcomes t₀ t₁ := (hfinal p [(a, b)] q t₀ t₁ (by simp [htr]) hrun hone).1
    exact sameOutcome_of_keeps hstep hiff hkeep
  · intro hC p q r s' t htr hs hsteps
    have hrun : (core cfg registry).Run (p ++ q) t := hs.trans hsteps
    have hCpq : (core cfg registry).Conforms SameOutcome (p ++ q) := (htr ▸ hC).of_append
    have hkept := kept_of_conforms hrun hCpq
    refine ⟨hkept.2 p q s' rfl hs, ?_⟩
    intro j record hrec
    exact (hkept.1 j record hrec).iff

/-- A job runs and finishes. -/
def oneOutcome : List Act :=
  submitted "j" ++ [.resultStored "j" .done] ++ scheduled "j" "x" 0 ++
  [.report 0 (plainReport "x" .running none), .resolved 0 (.ok ()), .stateUpdated 0 .done 4,
   .jobUpdated 0 4] ++
  reported 1 "x" .succeeded (some .empty) ++ [.jobUpdated 1 5]

theorem outcomes_final_oneOutcome : ∃ tr s,
    symbolicCore.Run tr s ∧
    (s.jobs.lookup "j").map (fun record => record.job.state) = some .succeeded ∧
    (OutcomesFinal symbolicCore tr ↔ symbolicCore.Conforms SameOutcome tr) ∧
    OutcomesFinal symbolicCore tr := by
  rcases Machine.run_of_exec symbolicCore oneOutcome
    (P := fun _ s => (s.jobs.lookup "j").map (fun record => record.job.state) = some .succeeded)
    (by decide +kernel) with ⟨tr, s, hrun, hacts, hstate⟩
  have hsame : symbolicCore.Conforms SameOutcome tr := by
    refine Machine.conforms_of_checks ?_
    rw [hacts]
    decide +kernel
  have hiff : OutcomesFinal symbolicCore tr ↔ symbolicCore.Conforms SameOutcome tr :=
    outcomes_final hrun
  exact ⟨tr, s, hrun, hstate, hiff, hiff.mpr hsame⟩

/-- A RUNNING report that is handled last takes the job back. -/
theorem outcome_undone_by_late_report : ¬ ∀ tr s,
    symbolicCore.Run tr s → OutcomesFinal symbolicCore tr := by
  intro hall
  rcases Machine.run_of_exec symbolicCore
    (oneOutcome ++ [.report 2 (plainReport "x" .running none), .resolved 2 (.ok ()),
      .stateUpdated 2 .done 6, .jobUpdated 2 6])
    (P := fun _ s => (s.jobs.lookup "j").any fun record =>
      record.result.isSome && !isTerminal record.job.state)
    (by decide +kernel) with ⟨tr, s, hrun, -, hstate⟩
  rcases (Option.any_eq_true _ _).mp hstate with ⟨record, hrec, hboth⟩
  rw [Bool.and_eq_true, Bool.not_eq_true'] at hboth
  -- the last state alone refutes it: RUNNING, with a result
  have hiff : ResultIffTerminal s :=
    (hall tr s hrun tr [] [] s s (by simp) hrun .refl).2
  have hterm := (hiff "j" record hrec).mp hboth.1
  rw [hboth.2] at hterm
  cases hterm

end ThreadWeave.Core
