import ThreadWeave.Core.Serial

/-!
# Retried reports

A `report_execution` call makes up to three writes. Each may fail, with or
without effect, and then the call returns an error and the caller may try again.
Every one of the writes does the same when it is made again, so whatever was
left half done, an attempt that succeeds leaves the stores as if it had been the
only one.

* `Stores` — what the stores hold, the times of the last update aside.
* `Written` — a value that a write has been made to, or not yet.
* `attempt_stores` — what one attempt can leave behind.
* `retries_converge` — any number of attempts, one of which succeeded.
-/

namespace ThreadWeave.Core

open Runs (HashMap Machine)

variable {Bytes : Type} {cfg : Config Bytes}

/-! ## Writes that may be made again -/

section Written

variable {V : Type*} {W : V → V} {v v' v'' : V}

/-- `v'` is `v`, or `v` after the write `W`. -/
def Written (W : V → V) (v v' : V) : Prop := v' = v ∨ v' = W v

theorem Written.trans (hW : ∀ v, W (W v) = W v) (h : Written W v v') (h' : Written W v' v'') :
    Written W v v'' := by
  rcases h with rfl | rfl
  · exact h'
  · rcases h' with rfl | rfl
    · exact Or.inr rfl
    · exact Or.inr (hW v)

/-- A write that was made once, early or late, is made for good. -/
theorem Written.made (hW : ∀ v, W (W v) = W v) (h : Written W v v') (h' : Written W v' v'')
    (hmade : v' = W v ∨ v'' = W v') : v'' = W v := by
  rcases hmade with rfl | rfl
  · rcases h' with rfl | rfl
    · rfl
    · exact hW v
  · rcases h with rfl | rfl
    · rfl
    · exact hW v

end Written

/-! ## What the stores hold -/

/-- A record without the time of its last update. -/
def ExecutionRecord.untimed (execution : ExecutionRecord) : ExecutionRecord :=
  { execution with updatedAt := 0 }

def JobRecord.untimed (record : JobRecord) : JobRecord :=
  { record with job := { record.job with updatedAt := none } }

@[ext] structure Stores where
  backend : HashMap String JobResult
  executions : HashMap String ExecutionRecord
  jobs : HashMap String JobRecord

def CoreState.stores (s : CoreState Bytes) : Stores where
  backend := s.backend
  executions := HashMap.mapValues ExecutionRecord.untimed s.executions
  jobs := HashMap.mapValues JobRecord.untimed s.jobs

/-- The new state of execution `x`. -/
def writeState (x : String) (state : ExecutionState) (m : HashMap String ExecutionRecord) :
    HashMap String ExecutionRecord :=
  match m.lookup x with
  | none => m
  | some execution => m.insert x { execution with state := state }

/-- The job of the execution, after its last step. -/
def writeJob (jobId : String) (outcome : Option JobResult) (m : HashMap String JobRecord) :
    HashMap String JobRecord :=
  match m.lookup jobId with
  | none => m
  | some record => m.insert jobId (record.update outcome 0).untimed

theorem storeOutcome_again (jobId : String) (outcome : Option JobResult)
    (backend : HashMap String JobResult) :
    storeOutcome (storeOutcome backend jobId outcome) jobId outcome =
      storeOutcome backend jobId outcome := by
  cases outcome with
  | none => rfl
  | some result => exact HashMap.insert_insert _ _ _ _

theorem writeState_again (x : String) (state : ExecutionState)
    (m : HashMap String ExecutionRecord) :
    writeState x state (writeState x state m) = writeState x state m := by
  cases he : m.lookup x with
  | none => simp only [writeState, he]
  | some execution =>
      simp only [writeState, he, Finmap.lookup_insert]
      exact HashMap.insert_insert _ _ _ _

/-- What a report makes of a job does not depend on when it was last updated, and
making it again changes nothing. -/
theorem update_untimed (record : JobRecord) (outcome : Option JobResult) (now : Timestamp) :
    (record.update outcome now).untimed = (record.untimed.update outcome 0).untimed := by
  cases outcome <;> rfl

theorem update_again (record : JobRecord) (outcome : Option JobResult) :
    (((record.update outcome 0).untimed).update outcome 0).untimed =
      (record.update outcome 0).untimed := by
  cases outcome with
  | none => rfl
  | some result =>
      simp [JobRecord.update, JobRecord.finished, JobRecord.untimed]

theorem writeJob_again (jobId : String) (outcome : Option JobResult)
    (m : HashMap String JobRecord) :
    writeJob jobId outcome (writeJob jobId outcome m) = writeJob jobId outcome m := by
  cases hr : m.lookup jobId with
  | none => simp only [writeJob, hr]
  | some record =>
      simp only [writeJob, hr, Finmap.lookup_insert, update_again]
      exact HashMap.insert_insert _ _ _ _

theorem writeState_eq {m : MemoryExecutionStore} {x : String} {execution : ExecutionRecord}
    (he : m.lookup x = some execution) (state : ExecutionState) (now : Timestamp) :
    HashMap.mapValues ExecutionRecord.untimed
        (m.insert x { execution with state := state, updatedAt := now }) =
      writeState x state (HashMap.mapValues ExecutionRecord.untimed m) := by
  have hlook : (HashMap.mapValues ExecutionRecord.untimed m).lookup x = some execution.untimed := by
    rw [HashMap.lookup_mapValues, he, Option.map_some]
  rw [HashMap.mapValues_insert, writeState, hlook]
  rfl

theorem writeJob_eq {jobs : Jobs} {jobId : String} {record : JobRecord}
    (hr : jobs.lookup jobId = some record) (outcome : Option JobResult) (now : Timestamp) :
    HashMap.mapValues JobRecord.untimed (jobs.insert jobId (record.update outcome now)) =
      writeJob jobId outcome (HashMap.mapValues JobRecord.untimed jobs) := by
  have hlook : (HashMap.mapValues JobRecord.untimed jobs).lookup jobId = some record.untimed := by
    rw [HashMap.lookup_mapValues, hr, Option.map_some]
  rw [HashMap.mapValues_insert, writeJob, hlook, update_untimed]

/-! ## One attempt -/

/-- What a report asks to be written: the state of its execution, and to which
job which outcome. -/
structure Plan where
  state : ExecutionState
  jobId : String
  outcome : Option JobResult

/-- The report passes every check and its execution is there. -/
structure Plan.For (plan : Plan) (cfg : Config Bytes) (m : Stores)
    (report : ReportExecutionRequest) : Prop where
  state : cfg.states.tryFrom report.state = some plan.state
  found : ∃ execution, m.executions.lookup report.executionId = some execution ∧
    execution.jobId = plan.jobId
  outcome : reportOutcome report plan.state = .ok plan.outcome

/-- All three writes. -/
def Plan.write (plan : Plan) (report : ReportExecutionRequest) (m : Stores) : Stores where
  backend := storeOutcome m.backend plan.jobId plan.outcome
  executions := writeState report.executionId plan.state m.executions
  jobs := writeJob plan.jobId plan.outcome m.jobs

/-- How far a call about `report` that began in `s` and now stands at a point has
got in `t`. -/
def Halfway (cfg : Config Bytes) (s : CoreState Bytes) (report : ReportExecutionRequest)
    (t : CoreState Bytes) : ReportPc → Prop
  | .resolving report' state =>
      report' = report ∧ cfg.states.tryFrom report.state = some state ∧
      t.backend = s.backend ∧ t.executions = s.executions ∧ t.jobs = s.jobs
  | .storing report' state jobId outcome =>
      report' = report ∧ Plan.For ⟨state, jobId, some outcome⟩ cfg s.stores report ∧
      t.backend = s.backend ∧ t.executions = s.executions ∧ t.jobs = s.jobs
  | .updating report' state jobId outcome =>
      report' = report ∧ Plan.For ⟨state, jobId, outcome⟩ cfg s.stores report ∧
      t.backend = storeOutcome s.backend jobId outcome ∧ t.executions = s.executions ∧
      t.jobs = s.jobs
  | .finishing report' jobId outcome =>
      report' = report ∧ t.jobs = s.jobs ∧
      t.backend = storeOutcome s.backend jobId outcome ∧
      ∃ state, Plan.For ⟨state, jobId, outcome⟩ cfg s.stores report ∧
        HashMap.mapValues ExecutionRecord.untimed t.executions =
          writeState report.executionId state
            (HashMap.mapValues ExecutionRecord.untimed s.executions)

/-- Every write of `plan` was made or not, and if the report was accepted all of
them were, for a job that is there. -/
structure Attempted (plan : Plan) (report : ReportExecutionRequest) (m m' : Stores)
    (accepted : Prop) : Prop where
  backend : Written (fun b => storeOutcome b plan.jobId plan.outcome) m.backend m'.backend
  executions : Written (writeState report.executionId plan.state) m.executions m'.executions
  jobs : Written (writeJob plan.jobId plan.outcome) m.jobs m'.jobs
  success : accepted → m' = plan.write report m ∧ plan.jobId ∈ m.jobs

/-- A report that asks for nothing is turned away; any other one leaves its
writes made or not. -/
def Leaves (cfg : Config Bytes) (report : ReportExecutionRequest) (m m' : Stores)
    (accepted : Prop) : Prop :=
  (m' = m ∧ ¬ accepted) ∨ ∃ plan : Plan, plan.For cfg m report ∧ Attempted plan report m m' accepted

section Attempt

variable {registry : MemoryWorkerRegistry} {s t s' : CoreState Bytes} {k : Nat}
  {report : ReportExecutionRequest}

theorem stores_eq (hb : s'.backend = s.backend) (he : s'.executions = s.executions)
    (hj : s'.jobs = s.jobs) : s'.stores = s.stores := by
  unfold CoreState.stores
  rw [hb, he, hj]

theorem stores_executions (h : s'.executions = s.executions) :
    s'.stores.executions = s.stores.executions := by
  unfold CoreState.stores
  rw [h]

theorem stores_jobs (h : s'.jobs = s.jobs) : s'.stores.jobs = s.stores.jobs := by
  unfold CoreState.stores
  rw [h]

theorem lookup_stores {x : String} {execution : ExecutionRecord}
    (h : s.executions.lookup x = some execution) :
    s.stores.executions.lookup x = some execution.untimed := by
  show (HashMap.mapValues _ s.executions).lookup x = _
  rw [HashMap.lookup_mapValues, h, Option.map_some]

theorem mem_stores_jobs {jobId : String} : jobId ∈ s.stores.jobs ↔ jobId ∈ s.jobs := by
  show jobId ∈ HashMap.mapValues _ s.jobs ↔ _
  rw [← Finmap.lookup_isSome, ← Finmap.lookup_isSome, HashMap.lookup_mapValues, Option.isSome_map]

/-- One step of a call that runs alone and goes on. -/
theorem Halfway.handles {a : Act} {o : Out Bytes} {pc' : ReportPc}
    (h : ∀ pc, t.reports.lookup k = some pc → Halfway cfg s report t pc)
    (ha : a.continues k) (hstep : Handles cfg t k a o s')
    (hpc' : s'.reports.lookup k = some pc') : Halfway cfg s report s' pc' := by
  cases hstep with
  | unknown report' hfree hstate => cases ha
  | opened report' state hfree hstate => cases ha
  | resolved report' state execution outcome hpc hexec hout =>
      rcases h _ hpc with ⟨rfl, hstate, hb, he, hj⟩
      simp only [Finmap.lookup_insert, Option.some.injEq] at hpc'
      subst hpc'
      have hplan : Plan.For ⟨state, execution.jobId, outcome⟩ cfg s.stores report' :=
        ⟨hstate, ⟨execution.untimed, lookup_stores (he ▸ hexec), rfl⟩, hout⟩
      cases outcome with
      | none => exact ⟨rfl, hplan, hb, he, hj⟩
      | some result => exact ⟨rfl, hplan, hb, he, hj⟩
  | stored report' state jobId outcome hpc =>
      rcases h _ hpc with ⟨rfl, hplan, hb, he, hj⟩
      simp only [Finmap.lookup_insert, Option.some.injEq] at hpc'
      subst hpc'
      refine ⟨rfl, hplan, ?_, he, hj⟩
      show t.backend.insert jobId outcome = s.backend.insert jobId outcome
      rw [hb]
  | updated report' state jobId outcome now execution hpc hexec =>
      rcases h _ hpc with ⟨rfl, hplan, hb, he, hj⟩
      simp only [Finmap.lookup_insert, Option.some.injEq] at hpc'
      subst hpc'
      refine ⟨rfl, hj, hb, state, hplan, ?_⟩
      rw [← he]
      exact writeState_eq hexec state now
  | _ =>
      -- the call has returned
      simp at hpc'

/-- The step with which a call returns. -/
theorem Halfway.returns {a : Act} {o : Out Bytes} {r : Except Status Unit}
    (h : ∀ pc, t.reports.lookup k = some pc → Halfway cfg s report t pc)
    (ha : a.continues k) (hstep : Handles cfg t k a o s') (hret : o.returns = some r) :
    Leaves cfg report s.stores s'.stores (r = .ok ()) := by
  cases hstep with
  | unknown report' hfree hstate => cases ha
  | opened report' state hfree hstate => cases ha
  | unresolved report' state error hpc =>
      rcases h _ hpc with ⟨-, -, hb, he, hj⟩
      cases hret
      exact Or.inl ⟨stores_eq hb he hj, by simp⟩
  | notFound report' state hpc hexec =>
      rcases h _ hpc with ⟨-, -, hb, he, hj⟩
      cases hret
      exact Or.inl ⟨stores_eq hb he hj, by simp⟩
  | invalid report' state execution status hpc hexec hout =>
      rcases h _ hpc with ⟨-, -, hb, he, hj⟩
      cases hret
      exact Or.inl ⟨stores_eq hb he hj, by simp⟩
  | resolved report' state execution outcome hpc hexec hout => cases hret
  | stored report' state jobId outcome hpc => cases hret
  | storeFailed report' state jobId outcome error hpc =>
      rcases h _ hpc with ⟨-, -, hb, he, hj⟩
      cases hret
      exact Or.inl ⟨stores_eq hb he hj, by simp⟩
  | storeLost report' state jobId outcome error hpc =>
      rcases h _ hpc with ⟨rfl, hplan, hb, he, hj⟩
      cases hret
      have hwritten : t.backend.insert jobId outcome = s.backend.insert jobId outcome := by
        rw [hb]
      exact Or.inr ⟨_, hplan, Or.inr hwritten, Or.inl (stores_executions he),
        Or.inl (stores_jobs hj), by simp⟩
  | updated report' state jobId outcome now execution hpc hexec => cases hret
  | updateFailed report' state jobId outcome fate now hpc hfate =>
      rcases h _ hpc with ⟨rfl, hplan, hb, he, hj⟩
      cases hret
      exact Or.inr ⟨_, hplan, Or.inr hb, Or.inl (stores_executions he),
        Or.inl (stores_jobs hj), by simp⟩
  | updateLost report' state jobId outcome error now execution hpc hexec =>
      rcases h _ hpc with ⟨rfl, hplan, hb, he, hj⟩
      cases hret
      rw [he] at hexec
      refine Or.inr ⟨_, hplan, Or.inr hb, Or.inr ?_, Or.inl (stores_jobs hj), by simp⟩
      show HashMap.mapValues _ (t.executions.insert _ _) = _
      rw [he]
      exact writeState_eq hexec state now
  | jobMissing report' jobId outcome now hpc hjob =>
      rcases h _ hpc with ⟨rfl, hj, hb, state, hplan, he⟩
      cases hret
      exact Or.inr ⟨_, hplan, Or.inr hb, Or.inr he, Or.inl (stores_jobs hj), by simp⟩
  | finished report' jobId outcome now record hpc hjob =>
      rcases h _ hpc with ⟨rfl, hj, hb, state, hplan, he⟩
      cases hret
      rw [hj] at hjob
      have hjobs : HashMap.mapValues JobRecord.untimed
          (t.jobs.insert jobId (record.update outcome now)) =
          writeJob jobId outcome s.stores.jobs := by
        rw [hj]
        exact writeJob_eq hjob outcome now
      have hmem : jobId ∈ s.stores.jobs :=
        mem_stores_jobs.mpr (Finmap.mem_of_lookup_eq_some hjob)
      exact Or.inr ⟨_, hplan, Or.inr hb, Or.inr he, Or.inr hjobs,
        fun _ => ⟨Stores.ext hb he hjobs, hmem⟩⟩

/-- What one attempt leaves behind, whatever the stores answered it. -/
theorem attempt_stores {tr : List (Act × Out Bytes)} {r : Except Status Unit}
    (h : Alone (core cfg registry) s k report r s' tr) :
    Leaves cfg report s.stores s'.stores (r = .ok ()) := by
  have hstart : ∀ state, cfg.states.tryFrom report.state = some state →
      Halfway cfg s report { s with reports := s.reports.insert k (.resolving report state) }
        (.resolving report state) := by
    intro state hstate
    exact ⟨rfl, hstate, rfl, rfl, rfl⟩
  rcases Alone.last_step hstart (fun _ _ _ _ _ => Halfway.handles) h with
    ⟨rfl, rfl⟩ | ⟨t, a, o, hhalf, ha, hreturn, hret⟩
  · exact Or.inl ⟨rfl, by simp⟩
  · exact Halfway.returns hhalf ha hreturn hret

end Attempt

/-! ## A series of attempts -/

section Series

variable {report : ReportExecutionRequest} {m m' m'' : Stores} {plan plan' : Plan}

/-- The report and the stores determine what is to be written. -/
theorem Plan.For.unique (h : plan.For cfg m report) (h' : plan'.For cfg m report) :
    plan = plan' := by
  rcases plan with ⟨state, jobId, outcome⟩
  rcases plan' with ⟨state', jobId', outcome'⟩
  obtain rfl : state = state' := Option.some.inj (h.state.symm.trans h'.state)
  obtain rfl : outcome = outcome' := Except.ok.inj (h.outcome.symm.trans h'.outcome)
  rcases h.found with ⟨execution, hexec, rfl⟩
  rcases h'.found with ⟨execution', hexec', rfl⟩
  obtain rfl : execution = execution' := Option.some.inj (hexec.symm.trans hexec')
  rfl

/-- A later attempt is asked for the same: no write changes the job of an
execution. -/
theorem Plan.For.later {accepted : Prop} (h : plan.For cfg m report)
    (hdid : Attempted plan report m m' accepted) : plan.For cfg m' report := by
  refine ⟨h.state, ?_, h.outcome⟩
  rcases h.found with ⟨execution, hexec, hjob⟩
  rcases hdid.executions with hsame | hwritten
  · exact ⟨execution, hsame ▸ hexec, hjob⟩
  · refine ⟨{ execution with state := plan.state }, ?_, hjob⟩
    rw [hwritten, writeState, hexec]
    exact Finmap.lookup_insert _

theorem mem_writeJob {jobId : String} {outcome : Option JobResult}
    {jobs : HashMap String JobRecord} : jobId ∈ writeJob jobId outcome jobs ↔ jobId ∈ jobs := by
  unfold writeJob
  split
  · rfl
  · rename_i record hrecord
    simp [Finmap.mem_of_lookup_eq_some hrecord]

theorem Attempted.trans {accepted accepted' : Prop} (h : Attempted plan report m m' accepted)
    (h' : Attempted plan report m' m'' accepted') :
    Attempted plan report m m'' (accepted ∨ accepted') where
  backend := h.backend.trans (storeOutcome_again _ _) h'.backend
  executions := h.executions.trans (writeState_again _ _) h'.executions
  jobs := h.jobs.trans (writeJob_again _ _) h'.jobs
  success := by
    intro haccepted
    have hmade : m' = plan.write report m ∨ m'' = plan.write report m' :=
      haccepted.imp (fun ha => (h.success ha).1) fun ha => (h'.success ha).1
    refine ⟨Stores.ext ?_ ?_ ?_, ?_⟩
    · exact h.backend.made (storeOutcome_again _ _) h'.backend
        (hmade.imp (congrArg Stores.backend) (congrArg Stores.backend))
    · exact h.executions.made (writeState_again _ _) h'.executions
        (hmade.imp (congrArg Stores.executions) (congrArg Stores.executions))
    · exact h.jobs.made (writeJob_again _ _) h'.jobs
        (hmade.imp (congrArg Stores.jobs) (congrArg Stores.jobs))
    · rcases haccepted with ha | ha
      · exact (h.success ha).2
      · have hmem : plan.jobId ∈ m'.jobs := (h'.success ha).2
        rcases h.jobs with hsame | hwritten
        · exact hsame ▸ hmem
        · rw [hwritten] at hmem
          exact mem_writeJob.mp hmem

theorem Leaves.trans {accepted accepted' : Prop} (h : Leaves cfg report m m' accepted)
    (h' : Leaves cfg report m' m'' accepted') :
    Leaves cfg report m m'' (accepted ∨ accepted') := by
  rcases h with ⟨rfl, hno⟩ | ⟨plan, hplan, hdid⟩
  · rw [or_iff_right hno]
    exact h'
  · have hlater : plan.For cfg m' report := hplan.later hdid
    rcases h' with ⟨rfl, hno⟩ | ⟨plan', hplan', hdid'⟩
    · rw [or_iff_left hno]
      exact Or.inr ⟨plan, hplan, hdid⟩
    · obtain rfl : plan = plan' := hlater.unique hplan'
      exact Or.inr ⟨plan, hplan, hdid.trans hdid'⟩

/-- Attempts at one report from `s` to `s'`, one after the other and with no
other request in between, and what they were answered. -/
inductive Attempts (M : Machine (CoreState Bytes) Act (Out Bytes))
    (report : ReportExecutionRequest) (s : CoreState Bytes) :
    List (Except Status Unit) → CoreState Bytes → Prop where
  | none : Attempts M report s [] s
  | again {rs : List (Except Status Unit)} {t s' : CoreState Bytes} {k : Nat}
      {r : Except Status Unit} {tr : List (Act × Out Bytes)} :
      Attempts M report s rs t → Alone M t k report r s' tr → Attempts M report s (rs ++ [r]) s'

variable {registry : MemoryWorkerRegistry} {s s' : CoreState Bytes}
  {rs : List (Except Status Unit)}

theorem attempts_stores (h : Attempts (core cfg registry) report s rs s') :
    Leaves cfg report s.stores s'.stores (.ok () ∈ rs) := by
  induction h with
  | none => exact Or.inl ⟨rfl, by simp⟩
  | @again rs t s' k r tr _ hlast ih =>
      have hboth := ih.trans (attempt_stores hlast)
      rwa [eq_comm (a := r), ← List.mem_singleton, ← List.mem_append] at hboth

/-- What is written once a report was accepted. -/
theorem Leaves.accepted {accepted : Prop} (h : Leaves cfg report m m' accepted)
    (ha : accepted) :
    ∃ plan : Plan, plan.For cfg m report ∧ m' = plan.write report m ∧ plan.jobId ∈ m.jobs := by
  rcases h with ⟨-, hno⟩ | ⟨plan, hplan, hdid⟩
  · exact absurd ha hno
  · exact ⟨plan, hplan, hdid.success ha⟩

/-- An undisturbed attempt is accepted where its execution and its job are there. -/
theorem reportExecution_accepted (hplan : plan.For cfg s.stores report)
    (hjob : plan.jobId ∈ s.stores.jobs) (updated finished : Timestamp) :
    (s.reportExecution cfg report updated finished).2 = .ok () := by
  rcases hplan with ⟨hstate, ⟨execution, hexec, hid⟩, hout⟩
  have hlook : (s.executions.lookup report.executionId).map ExecutionRecord.untimed =
      some execution := by
    rw [← HashMap.lookup_mapValues]
    exact hexec
  rcases Option.map_eq_some_iff.mp hlook with ⟨stored, hstored, rfl⟩
  have hmem : stored.jobId ∈ s.jobs := by
    rw [← mem_stores_jobs]
    exact hid ▸ hjob
  rcases updateJob_cases s.jobs stored.jobId plan.outcome finished with
    ⟨hnone, -⟩ | ⟨record, -, hup⟩
  · exact absurd hmem (Finmap.lookup_eq_none.mp hnone)
  · simp only [CoreState.reportExecution, hstate, hstored, hout, hup]

/-- However many attempts it took and whatever the failed ones left behind, once
one of them was accepted the stores hold what a single accepted attempt from the
start would have left, and further attempts change nothing. -/
theorem retries_converge (h : Attempts (core cfg registry) report s rs s')
    (haccepted : .ok () ∈ rs) :
    (∀ updated finished, (s.reportExecution cfg report updated finished).2 = .ok () ∧
      s'.stores = (s.reportExecution cfg report updated finished).1.stores) ∧
    (∀ k tr s₁, Alone (core cfg registry) s k report (.ok ()) s₁ tr → s'.stores = s₁.stores) ∧
    (∀ rs' s'', Attempts (core cfg registry) report s' rs' s'' → s''.stores = s'.stores) := by
  rcases (attempts_stores h).accepted haccepted with ⟨plan, hplan, hwritten, hjob⟩
  have hsingle : ∀ k tr s₁, Alone (core cfg registry) s k report (.ok ()) s₁ tr →
      s'.stores = s₁.stores := by
    intro k tr s₁ halone
    rcases (attempt_stores halone).accepted rfl with ⟨plan', hplan', hwritten', -⟩
    obtain rfl : plan = plan' := hplan.unique hplan'
    rw [hwritten, hwritten']
  refine ⟨?_, hsingle, ?_⟩
  · intro updated finished
    have hok := reportExecution_accepted hplan hjob updated finished
    obtain ⟨k, hfree⟩ := Infinite.exists_notMem_finset s.reports.keys
    obtain ⟨tr, halone⟩ := alone_reportExecution cfg registry report
      (fun hk => hfree (Finmap.mem_keys.mpr hk)) updated finished
    rw [hok] at halone
    exact ⟨hok, hsingle k tr _ halone⟩
  · intro rs' s'' hmore
    -- the attempts before and after make one longer series
    have hboth := (attempts_stores h).trans (attempts_stores hmore)
    rcases hboth.accepted (Or.inl haccepted) with ⟨plan', hplan', hwritten', -⟩
    obtain rfl : plan = plan' := hplan.unique hplan'
    rw [hwritten, hwritten']

end Series

/-- The result is stored; the execution store has applied the new state but its
answer is lost. -/
def lostUpdate : List Act :=
  [.report 1 (succeededWith [1]), .resolved 1 (.ok ()), .outcomeStored 1 .done,
   .stateUpdated 1 (.lost "timeout") 5]

theorem retries_converge_lostUpdate :
    ∃ s', Attempts symbolicCore (succeededWith [1]) assigned
        [.error ⟨.unavailable, "execution store is unavailable"⟩, .ok ()] s' ∧
      s'.stores = (assigned.reportExecution symbolicConfig (succeededWith [1]) 8 9).1.stores := by
  obtain ⟨tr, t, hsteps, hacts, hlast, hquiet, hok⟩ := Machine.exists_steps_of_exec symbolicCore
    assigned lostUpdate
    (P := fun tr t => (tr.getLast?.bind fun x => x.2.returns) =
        some (.error ⟨.unavailable, "execution store is unavailable"⟩) ∧ t.reports = ∅ ∧
      (t.reportExecution symbolicConfig (succeededWith [1]) 6 7).2 = .ok ())
    (by decide +kernel)
  have hfirst : Alone symbolicCore assigned 1 (succeededWith [1])
      (.error ⟨.unavailable, "execution store is unavailable"⟩) t tr := by
    refine ⟨hsteps, ?_, Option.bind_eq_some_iff.mp hlast⟩
    cases tr with
    | nil => simp [lostUpdate] at hacts
    | cons x rest =>
        rcases x with ⟨a, o⟩
        simp only [List.map_cons, lostUpdate, List.cons.injEq] at hacts
        refine ⟨o, rest, by rw [hacts.1], ?_⟩
        intro y hy
        have hmem := List.mem_map_of_mem (f := Prod.fst) hy
        rw [hacts.2] at hmem
        revert hmem
        generalize y.1 = a
        revert a
        decide
  obtain ⟨tr', hsecond⟩ := alone_reportExecution symbolicConfig (.new 30 (by decide))
    (succeededWith [1]) (s := t) (k := 2) (hquiet ▸ Finmap.notMem_empty) 6 7
  rw [hok] at hsecond
  have hseries := (Attempts.none.again hfirst).again hsecond
  exact ⟨_, hseries, ((retries_converge hseries (by simp)).1 8 9).2⟩

end ThreadWeave.Core
