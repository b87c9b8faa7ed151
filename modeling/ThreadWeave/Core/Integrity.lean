import ThreadWeave.Core.Machine

/-!
# Where references come from

Envelopes, calls in progress and execution records name jobs. The provenance
lemmas say where each of them can come from in one step; from them it follows
that whatever is named has been submitted, and that its envelope has been
published (`Known`), so that the rollback of `accept` never removes a job that
somebody names.
-/

namespace ThreadWeave.Core

open Runs (HashMap Machine)

variable {Bytes : Type} {cfg : Config Bytes}

/-! ## Provenance -/

/-- The job a `schedule_one` in progress has consumed. -/
def SchedulePc.jobId : SchedulePc Bytes → Option String
  | .creating _ assignment _ _ => some assignment.jobId
  | .publishing _ assignment _ => some assignment.jobId
  | _ => none

/-- The job a `report_execution` in progress has resolved. -/
def ReportPc.jobId : ReportPc → Option String
  | .resolving _ _ => none
  | .storing _ _ jobId _ => some jobId
  | .updating _ _ jobId _ => some jobId
  | .finishing _ jobId _ => some jobId

/-- The fields of an execution record that name something. -/
def ExecutionRecord.identity (e : ExecutionRecord) : String × String × String × String :=
  (e.executionId, e.jobId, e.assignmentId, e.workerId)

/-- An envelope on a queue was there before, or has just been published by an
`accept` or a `schedule_one`. -/
theorem mem_queues_of_takes {s s' : CoreState Bytes} {a : Act} {o : Out Bytes}
    (h : Takes cfg s a o s') {d : String} {env : BrokerEnvelope Bytes}
    (hmem : env ∈ s'.queues d) :
    env ∈ s.queues d ∨
    (∃ j request job, a = .published j (.ok ()) ∧
      s.accepts.lookup j = some (.publishing request job env) ∧ d = env.destination) ∨
    (∃ k workerId assignment submitted messageId now,
      s.schedules.lookup k = some (.publishing workerId assignment submitted) ∧
      env = assignEnvelope cfg workerId assignment submitted messageId now ∧
      d = workerDestination workerId) := by
  -- `push` adds one envelope to the list of its destination
  have hpush : ∀ (t : CoreState Bytes) envelope, t.queues = s.queues →
      env ∈ (t.push envelope).queues d →
      env ∈ s.queues d ∨ (env = envelope ∧ d = envelope.destination) := by
    intro t envelope ht hin
    simp only [CoreState.push, ht, Function.update_apply] at hin
    split_ifs at hin with hd
    · rcases List.mem_append.mp hin with hold | hnew
      · exact Or.inl (hd ▸ hold)
      · exact Or.inr ⟨List.mem_singleton.mp hnew, hd⟩
    · exact Or.inl hin
  -- a pop only removes one
  have hpop : ∀ submitted rest, s.queues cfg.taskDestination = submitted :: rest →
      env ∈ Function.update s.queues cfg.taskDestination rest d → env ∈ s.queues d := by
    intro submitted rest hqueue hin
    rw [Function.update_apply] at hin
    split_ifs at hin with hd
    · rw [hd, hqueue]
      exact List.mem_cons_of_mem _ hin
    · exact hin
  cases h with
  | published jobId request job envelope hpc =>
      rcases hpush s envelope rfl hmem with hold | ⟨rfl, hd⟩
      · exact Or.inl hold
      · exact Or.inr (Or.inl ⟨jobId, request, job, rfl, hpc, hd⟩)
  | undecodable k f asg x now workerId error submitted rest hpc hqueue hfresh hdecode =>
      exact Or.inl (hpop submitted rest hqueue hmem)
  | consumed k f asg x now workerId submitted rest request hpc hqueue hfresh hdecode =>
      exact Or.inl (hpop submitted rest hqueue hmem)
  | dispatched k messageId now workerId assignment submitted hpc hfresh =>
      rcases hpush (s.draw [messageId]) _ rfl hmem with hold | ⟨henv, hd⟩
      · exact Or.inl hold
      · exact Or.inr (Or.inr ⟨k, workerId, assignment, submitted, messageId, now, hpc, henv, hd⟩)
  | _ => exact Or.inl hmem

/-- Where a `schedule_one` that stands at `pc` comes from. -/
theorem schedules_of_takes {s s' : CoreState Bytes} {a : Act} {o : Out Bytes}
    (h : Takes cfg s a o s') {k : Nat} {pc : SchedulePc Bytes}
    (hpc : s'.schedules.lookup k = some pc) :
    s.schedules.lookup k = some pc ∨
    pc = .reading ∨
    (∃ workerId, pc = .consuming workerId ∧ s.schedules.lookup k = some .reading ∧
      s.registry.IsMember workerId s.clock ∧ a = .directoryRead k (.ok ())) ∨
    (∃ workerId submitted rest request fallbackId assignmentId executionId now,
      s.schedules.lookup k = some (.consuming workerId) ∧
      s.queues cfg.taskDestination = submitted :: rest ∧
      cfg.submitTask.decode submitted.payload = .ok request ∧
      pc = .creating workerId (assignmentFor request
        (submitted.correlationId.getD fallbackId) assignmentId executionId) submitted now ∧
      a = .consumed k fallbackId assignmentId executionId now) ∨
    (∃ workerId assignment submitted now,
      s.schedules.lookup k = some (.creating workerId assignment submitted now) ∧
      pc = .publishing workerId assignment submitted ∧ a = .created k (.ok ())) := by
  -- a call that ends
  have hgone : ∀ n, (s.schedules.erase n).lookup k = some pc →
      s.schedules.lookup k = some pc :=
    fun n hn => (HashMap.lookup_erase_some hn).2
  cases h with
  | scheduleOne n hfree =>
      rcases HashMap.lookup_insert_some hpc with ⟨-, rfl⟩ | ⟨-, hold⟩
      · exact Or.inr (Or.inl rfl)
      · exact Or.inl hold
  | chosen n workerId rest hn hread =>
      rcases HashMap.lookup_insert_some hpc with ⟨rfl, rfl⟩ | ⟨-, hold⟩
      · refine Or.inr (Or.inr (Or.inl ⟨workerId, rfl, hn, ?_, rfl⟩))
        rw [← MemoryWorkerRegistry.mem_availableWorkers, hread]
        exact List.mem_cons_self
      · exact Or.inl hold
  | consumed n f asg x now workerId submitted rest request hn hqueue hfresh hdecode =>
      rcases HashMap.lookup_insert_some hpc with ⟨rfl, rfl⟩ | ⟨-, hold⟩
      · exact Or.inr (Or.inr (Or.inr (Or.inl ⟨workerId, submitted, rest, request, f, asg, x, now,
          hn, hqueue, hdecode, rfl, rfl⟩)))
      · exact Or.inl hold
  | created n workerId assignment submitted now hn hnew =>
      rcases HashMap.lookup_insert_some hpc with ⟨rfl, rfl⟩ | ⟨-, hold⟩
      · exact Or.inr (Or.inr (Or.inr (Or.inr ⟨workerId, assignment, submitted, now, hn, rfl, rfl⟩)))
      · exact Or.inl hold
  | directoryFailed n error hn => exact Or.inl (hgone n hpc)
  | noWorker n hn hread => exact Or.inl (hgone n hpc)
  | consumeFailed n error workerId hn => exact Or.inl (hgone n hpc)
  | undecodable n f asg x now workerId error submitted rest hn hqueue hfresh hdecode =>
      exact Or.inl (hgone n hpc)
  | createFailed n answer error workerId assignment submitted now hn hcreate =>
      exact Or.inl (hgone n hpc)
  | dispatchFailed n messageId now error workerId assignment submitted hn hfresh =>
      exact Or.inl (hgone n hpc)
  | dispatched n messageId now workerId assignment submitted hn hfresh =>
      exact Or.inl (hgone n hpc)
  | _ => exact Or.inl hpc

/-- An execution record was there before under the same names, or has just
been created by a `schedule_one`. -/
theorem executions_of_takes {s s' : CoreState Bytes} {a : Act} {o : Out Bytes}
    (h : Takes cfg s a o s') {id : String} {e : ExecutionRecord}
    (he : s'.executions.lookup id = some e) :
    (∃ e₀, s.executions.lookup id = some e₀ ∧ e₀.identity = e.identity) ∨
    (∃ k workerId assignment submitted now,
      s.schedules.lookup k = some (.creating workerId assignment submitted now) ∧
      id = assignment.executionId ∧ e = executionFor assignment workerId now) := by
  -- `update_state` writes neither a name nor a new key
  have hupdate : ∀ (report : ReportExecutionRequest) (execution : ExecutionRecord) state now,
      s.executions.lookup report.executionId = some execution →
      (s.executions.insert report.executionId
        { execution with state := state, updatedAt := now }).lookup id = some e →
      ∃ e₀, s.executions.lookup id = some e₀ ∧ e₀.identity = e.identity := by
    intro report execution state now hexec hin
    rcases HashMap.lookup_insert_some hin with ⟨rfl, rfl⟩ | ⟨-, hold⟩
    · exact ⟨execution, hexec, rfl⟩
    · exact ⟨e, hold, rfl⟩
  cases h with
  | stateUpdated k now report state jobId outcome execution hpc hexec =>
      exact Or.inl (hupdate report execution state now hexec he)
  | stateLost k error now report state jobId outcome execution hpc hexec =>
      exact Or.inl (hupdate report execution state now hexec he)
  | created k workerId assignment submitted now hpc hnew =>
      rcases HashMap.lookup_insert_some he with ⟨rfl, rfl⟩ | ⟨-, hold⟩
      · exact Or.inr ⟨k, workerId, assignment, submitted, now, hpc, rfl, rfl⟩
      · exact Or.inl ⟨e, hold, rfl⟩
  | _ => exact Or.inl ⟨e, he, rfl⟩

/-- A record stays, under the same names. -/
theorem executions_stay {s s' : CoreState Bytes} {a : Act} {o : Out Bytes}
    (h : Takes cfg s a o s') {id : String} {e₀ : ExecutionRecord}
    (he : s.executions.lookup id = some e₀) :
    ∃ e, s'.executions.lookup id = some e ∧ e.identity = e₀.identity := by
  have hupdate : ∀ (report : ReportExecutionRequest) (execution : ExecutionRecord) state now,
      s.executions.lookup report.executionId = some execution →
      ∃ e, (s.executions.insert report.executionId
        { execution with state := state, updatedAt := now }).lookup id = some e ∧
        e.identity = e₀.identity := by
    intro report execution state now hexec
    rw [Runs.HashMap.lookup_insert_ite]
    split_ifs with hid
    · rw [← hid, he, Option.some.injEq] at hexec
      exact ⟨_, rfl, by rw [← hexec]; rfl⟩
    · exact ⟨e₀, he, rfl⟩
  cases h with
  | stateUpdated k now report state jobId outcome execution hpc hexec =>
      exact hupdate report execution state now hexec
  | stateLost k error now report state jobId outcome execution hpc hexec =>
      exact hupdate report execution state now hexec
  | created k workerId assignment submitted now hpc hnew =>
      -- `create` refuses an id that is taken
      refine ⟨e₀, ?_, rfl⟩
      have hne : id ≠ assignment.executionId := by
        rintro rfl
        exact hnew (Finmap.mem_of_lookup_eq_some he)
      rw [Finmap.lookup_insert_of_ne _ hne]
      exact he
  | _ => exact ⟨e₀, he, rfl⟩

/-- The job a report in progress is about was named by it before, or by the
execution record it has just found. -/
theorem reports_of_takes {s s' : CoreState Bytes} {a : Act} {o : Out Bytes}
    (h : Takes cfg s a o s') {k : Nat} {pc : ReportPc} {j : String}
    (hpc : s'.reports.lookup k = some pc) (hj : pc.jobId = some j) :
    (∃ pc₀, s.reports.lookup k = some pc₀ ∧ pc₀.jobId = some j) ∨
    (∃ id e, s.executions.lookup id = some e ∧ e.jobId = j) := by
  -- a call that ends
  have hgone : ∀ n, (s.reports.erase n).lookup k = some pc →
      ∃ pc₀, s.reports.lookup k = some pc₀ ∧ pc₀.jobId = some j := by
    intro n hn
    exact ⟨pc, (HashMap.lookup_erase_some hn).2, hj⟩
  cases h with
  | report n report state hfree hstate =>
      rcases HashMap.lookup_insert_some hpc with ⟨-, rfl⟩ | ⟨-, hold⟩
      · cases hj
      · exact Or.inl ⟨pc, hold, hj⟩
  | refused a n status ha => exact Or.inl (hgone n hpc)
  | resolvedRunning n report state execution hn hexec hout =>
      rcases HashMap.lookup_insert_some hpc with ⟨-, rfl⟩ | ⟨-, hold⟩
      · exact Or.inr ⟨_, execution, hexec, Option.some.inj hj⟩
      · exact Or.inl ⟨pc, hold, hj⟩
  | resolvedTerminal n report state execution outcome hn hexec hout =>
      rcases HashMap.lookup_insert_some hpc with ⟨-, rfl⟩ | ⟨-, hold⟩
      · exact Or.inr ⟨_, execution, hexec, Option.some.inj hj⟩
      · exact Or.inl ⟨pc, hold, hj⟩
  | outcomeStored n report state jobId outcome hn =>
      rcases HashMap.lookup_insert_some hpc with ⟨rfl, rfl⟩ | ⟨-, hold⟩
      · exact Or.inl ⟨_, hn, hj⟩
      · exact Or.inl ⟨pc, hold, hj⟩
  | stateUpdated n now report state jobId outcome execution hn hexec =>
      rcases HashMap.lookup_insert_some hpc with ⟨rfl, rfl⟩ | ⟨-, hold⟩
      · exact Or.inl ⟨_, hn, hj⟩
      · exact Or.inl ⟨pc, hold, hj⟩
  | outcomeLost n error report state jobId outcome hn => exact Or.inl (hgone n hpc)
  | stateLost n error now report state jobId outcome execution hn hexec =>
      exact Or.inl (hgone n hpc)
  | jobUpdated n now report jobId outcome record hn hjob => exact Or.inl (hgone n hpc)
  | _ => exact Or.inl ⟨pc, hpc, hj⟩

/-! ## Known jobs -/

/-- `j` is a job and its envelope has been published. -/
structure Known (s : CoreState Bytes) (j : String) : Prop where
  job : j ∈ s.jobs
  published : ∀ request job env, s.accepts.lookup j ≠ some (.publishing request job env)

/-- The same job, possibly further along. -/
def SameJob (job job' : Job) : Prop :=
  job = { job' with
    state := job.state
    updatedAt := job.updatedAt
    attemptNumber := job.attemptNumber }

theorem SameJob.update {record : JobRecord} {job : Job} (h : SameJob record.job job)
    (outcome : Option JobResult) (now : Timestamp) :
    SameJob (record.update outcome now).job job := by
  unfold SameJob at h ⊢
  cases outcome with
  | none => simp only [JobRecord.update, JobRecord.running]; rw [h]
  | some result => simp only [JobRecord.update, JobRecord.finished]; rw [h]

/-- The job of an `accept` in progress: nobody else has touched it before the
envelope is published, and it is never removed afterwards. -/
def Backed (cfg : Config Bytes) (s : CoreState Bytes) (j : String) : AcceptPc Bytes → Prop
  | .publishing request job env =>
      s.jobs.lookup j = some { job := job, result := none } ∧
      ∃ messageId now, job = newJob request j now ∧
        env = submitEnvelope cfg request j messageId now
  | .storing request job =>
      (∃ now, job = newJob request j now) ∧
      ∃ record, s.jobs.lookup j = some record ∧ SameJob record.job job

theorem Backed.mem_jobs {s : CoreState Bytes} {j : String} {pc : AcceptPc Bytes}
    (h : Backed cfg s j pc) : j ∈ s.jobs := by
  cases pc with
  | publishing request job env => exact Finmap.mem_of_lookup_eq_some h.1
  | storing request job =>
      rcases h.2 with ⟨record, hrec, -⟩
      exact Finmap.mem_of_lookup_eq_some hrec

theorem Backed.congr {s s' : CoreState Bytes} {j : String} {pc : AcceptPc Bytes}
    (h : Backed cfg s j pc) (hjobs : s'.jobs.lookup j = s.jobs.lookup j) :
    Backed cfg s' j pc := by
  cases pc with
  | publishing request job env => exact ⟨hjobs.trans h.1, h.2⟩
  | storing request job =>
      rcases h with ⟨hnew, record, hrec, hsame⟩
      exact ⟨hnew, record, hjobs.trans hrec, hsame⟩

/-- What the process names is known, and what it has stored was drawn. -/
structure Integrity (cfg : Config Bytes) (s : CoreState Bytes) : Prop where
  drawn : ∀ j ∈ s.jobs, j ∈ s.drawn
  accepting : ∀ j pc, s.accepts.lookup j = some pc → Backed cfg s j pc
  queued : ∀ d env, env ∈ s.queues d → ∃ j, env.correlationId = some j ∧ Known s j
  scheduled : ∀ k pc j, s.schedules.lookup k = some pc → pc.jobId = some j → Known s j
  executed : ∀ id e, s.executions.lookup id = some e → Known s e.jobId
  reported : ∀ k pc j, s.reports.lookup k = some pc → pc.jobId = some j → Known s j

theorem Fresh.not_mem_jobs {s : CoreState Bytes} {j : String} {ids : List String}
    (hdrawn : ∀ j ∈ s.jobs, j ∈ s.drawn) (hfresh : s.Fresh (j :: ids)) : j ∉ s.jobs := by
  intro hj
  exact (hfresh.2 j List.mem_cons_self).1 (hdrawn j hj)

/-- A known job stays known: the rollback only removes a job whose envelope
has not been published, and a new job has a new id. -/
theorem Known.takes {s s' : CoreState Bytes} {a : Act} {o : Out Bytes} {j : String}
    (hdrawn : ∀ j ∈ s.jobs, j ∈ s.drawn) (h : Takes cfg s a o s') (hj : Known s j) :
    Known s' j := by
  -- ending an `accept` publishes nothing
  have hgone : ∀ n request job env,
      (s.accepts.erase n).lookup j ≠ some (.publishing request job env) := by
    intro n request job env hn
    exact hj.published request job env (HashMap.lookup_erase_some hn).2
  cases h with
  | submit jobId messageId request now hfresh =>
      have hne : j ≠ jobId := by
        rintro rfl
        exact Fresh.not_mem_jobs hdrawn hfresh hj.job
      refine ⟨Finmap.mem_insert.mpr (Or.inr hj.job), ?_⟩
      intro request' job' env' hpc
      rcases HashMap.lookup_insert_some hpc with ⟨he, -⟩ | ⟨-, hold⟩
      · exact hne he
      · exact hj.published request' job' env' hold
  | publishFailed jobId error request job envelope hpc =>
      -- what is rolled back has not been published
      have hne : j ≠ jobId := by
        rintro rfl
        exact hj.published request job envelope hpc
      exact ⟨Finmap.mem_erase.mpr ⟨hne, hj.job⟩, hgone jobId⟩
  | published jobId request job envelope hpc =>
      refine ⟨hj.job, ?_⟩
      intro request' job' env' hpc'
      rcases HashMap.lookup_insert_some hpc' with ⟨-, he⟩ | ⟨-, hold⟩
      · cases he
      · exact hj.published request' job' env' hold
  | resultStored jobId request job hpc => exact ⟨hj.job, hgone jobId⟩
  | resultFailed jobId error request job hpc => exact ⟨hj.job, hgone jobId⟩
  | resultLost jobId error request job hpc => exact ⟨hj.job, hgone jobId⟩
  | jobUpdated k now report jobId outcome record hpc hjob =>
      exact ⟨Finmap.mem_insert.mpr (Or.inr hj.job), hj.published⟩
  | _ => exact ⟨hj.job, hj.published⟩

/-- Publishing makes a job known. -/
theorem known_of_published {s s' : CoreState Bytes} {o : Out Bytes} {j : String}
    (hi : Integrity cfg s) (h : Takes cfg s (.published j (.ok ())) o s') : Known s' j := by
  cases h with
  | published _ request job envelope hpc =>
      refine ⟨(hi.accepting j _ hpc).mem_jobs, ?_⟩
      intro request' job' env' hpc'
      rcases HashMap.lookup_insert_some hpc' with ⟨-, he⟩ | ⟨hne, -⟩
      · cases he
      · exact hne rfl
  | refused a k status ha => simp at ha

/-- A job was there before, or has just been submitted under a fresh id. -/
theorem jobs_of_takes {s s' : CoreState Bytes} {a : Act} {o : Out Bytes}
    (h : Takes cfg s a o s') {j : String} (hj : j ∈ s'.jobs) : j ∈ s.jobs ∨ j ∈ s'.drawn := by
  cases h with
  | submit jobId messageId request now hfresh =>
      rcases Finmap.mem_insert.mp hj with rfl | hold
      · exact Or.inr (by simp [CoreState.draw])
      · exact Or.inl hold
  | publishFailed jobId error request job envelope hpc => exact Or.inl (Finmap.mem_erase.mp hj).2
  | jobUpdated k now report jobId outcome record hpc hjob =>
      rcases Finmap.mem_insert.mp hj with rfl | hold
      · exact Or.inl (Finmap.mem_of_lookup_eq_some hjob)
      · exact Or.inl hold
  | _ => exact Or.inl hj

theorem drawn_stays {s s' : CoreState Bytes} {a : Act} {o : Out Bytes}
    (h : Takes cfg s a o s') {id : String} (hid : id ∈ s.drawn) : id ∈ s'.drawn := by
  have hdraw : ∀ ids, id ∈ (s.draw ids).drawn := fun ids => Finset.mem_union_left _ hid
  cases h with
  | submit => exact hdraw _
  | undecodable => exact hdraw _
  | consumed => exact hdraw _
  | dispatchFailed => exact hdraw _
  | dispatched => exact hdraw _
  | _ => exact hid

/-- An `accept` in progress keeps its job. -/
theorem accepting_takes {s s' : CoreState Bytes} {a : Act} {o : Out Bytes}
    (hi : Integrity cfg s) (h : Takes cfg s a o s') {j : String} {pc : AcceptPc Bytes}
    (hpc : s'.accepts.lookup j = some pc) : Backed cfg s' j pc := by
  have hgone : ∀ n, (s.accepts.erase n).lookup j = some pc → s'.jobs = s.jobs →
      Backed cfg s' j pc := by
    intro n hn hjobs
    exact (hi.accepting j pc (HashMap.lookup_erase_some hn).2).congr (by rw [hjobs])
  cases h with
  | submit jobId messageId request now hfresh =>
      rcases HashMap.lookup_insert_some hpc with ⟨rfl, rfl⟩ | ⟨hne, hp⟩
      · exact ⟨Finmap.lookup_insert _, messageId, now, rfl, rfl⟩
      · exact (hi.accepting j pc hp).congr (Finmap.lookup_insert_of_ne _ hne)
  | publishFailed jobId error request job envelope hn =>
      rcases HashMap.lookup_erase_some hpc with ⟨hne, hp⟩
      exact (hi.accepting j pc hp).congr (Finmap.lookup_erase_ne hne)
  | published jobId request job envelope hn =>
      -- until now nobody could name the job, so it is as `submit` left it
      rcases HashMap.lookup_insert_some hpc with ⟨rfl, rfl⟩ | ⟨-, hp⟩
      · rcases hi.accepting j _ hn with ⟨hjob, messageId, now, hnew, -⟩
        exact ⟨⟨now, hnew⟩, _, hjob, rfl⟩
      · exact (hi.accepting j pc hp).congr rfl
  | resultStored jobId request job hn => exact hgone jobId hpc rfl
  | resultFailed jobId error request job hn => exact hgone jobId hpc rfl
  | resultLost jobId error request job hn => exact hgone jobId hpc rfl
  | jobUpdated k now report jobId outcome record hn hjob =>
      have hback := hi.accepting j pc hpc
      by_cases hj : j = jobId
      · -- a report is about a job whose envelope has been published
        subst hj
        have hkn : Known s j := hi.reported k _ j hn rfl
        cases pc with
        | publishing request job env => exact absurd hpc (hkn.published request job env)
        | storing request job =>
            rcases hback with ⟨hnew, record', hrec', hsame⟩
            rw [hjob, Option.some.injEq] at hrec'
            subst hrec'
            exact ⟨hnew, _, Finmap.lookup_insert _, hsame.update outcome now⟩
      · exact hback.congr (Finmap.lookup_insert_of_ne _ hj)
  | _ => exact (hi.accepting j pc hpc).congr rfl

theorem integrity_step {s s' : CoreState Bytes} {a : Act} {o : Out Bytes}
    (hi : Integrity cfg s) (h : Takes cfg s a o s') : Integrity cfg s' := by
  have hknown : ∀ j, Known s j → Known s' j := fun j hj => hj.takes hi.drawn h
  refine ⟨?_, fun j pc hpc => accepting_takes hi h hpc, ?_, ?_, ?_, ?_⟩
  · intro j hj
    rcases jobs_of_takes h hj with hold | hnew
    · exact drawn_stays h (hi.drawn j hold)
    · exact hnew
  · intro d env hmem
    rcases mem_queues_of_takes h hmem with
      hold | ⟨j, request, job, rfl, hpc, -⟩ | ⟨k, w, asg, submitted, mid, now, hpc, rfl, -⟩
    -- it was there before, `accept` published it, or `schedule_one` did
    · rcases hi.queued d env hold with ⟨j, hj, hkn⟩
      exact ⟨j, hj, hknown j hkn⟩
    · rcases hi.accepting j _ hpc with ⟨-, mid, now, -, rfl⟩
      exact ⟨j, rfl, known_of_published hi h⟩
    · exact ⟨asg.jobId, rfl, hknown _ (hi.scheduled k _ _ hpc rfl)⟩
  · intro k pc j hpc hj
    rcases schedules_of_takes h hpc with
      hold | rfl | ⟨w, rfl, -⟩ |
      ⟨w, submitted, rest, request, f, asg, x, now, -, hqueue, -, rfl, -⟩ |
      ⟨w, asg, submitted, now, hn, rfl, -⟩
    · exact hknown j (hi.scheduled k pc j hold hj)
    · cases hj
    · cases hj
    · -- the consumed envelope names the job
      have hmem : submitted ∈ s.queues cfg.taskDestination := hqueue ▸ List.mem_cons_self
      rcases hi.queued _ submitted hmem with ⟨j', hj', hkn⟩
      have hjj : j' = j := by simpa [SchedulePc.jobId, assignmentFor, hj'] using hj
      exact hknown j (hjj ▸ hkn)
    · exact hknown j (hi.scheduled k _ j hn hj)
  · intro id e he
    rcases executions_of_takes h he with ⟨e₀, he₀, hid⟩ | ⟨k, w, asg, submitted, now, hpc, -, rfl⟩
    · have hjob : e₀.jobId = e.jobId := congrArg (fun x => x.2.1) hid
      exact hknown _ (hjob ▸ hi.executed id e₀ he₀)
    · exact hknown _ (hi.scheduled k _ _ hpc rfl)
  · intro k pc j hpc hj
    rcases reports_of_takes h hpc hj with ⟨pc₀, hpc₀, hj₀⟩ | ⟨id, e, he, rfl⟩
    · exact hknown j (hi.reported k pc₀ j hpc₀ hj₀)
    · exact hknown _ (hi.executed id e he)

theorem integrity_start (registry : MemoryWorkerRegistry) :
    Integrity cfg (CoreState.start Bytes registry) := by
  refine ⟨?_, ?_, ?_, ?_, ?_, ?_⟩
  all_goals simp [CoreState.start, Finmap.notMem_empty]

theorem core_integrity {registry : MemoryWorkerRegistry} {tr : List (Act × Out Bytes)}
    {s : CoreState Bytes} (h : (core cfg registry).Run tr s) : Integrity cfg s :=
  h.invariant (I := Integrity cfg) (integrity_start registry)
    fun _ _ _ _ hi hs => integrity_step hi (step_takes hs)

end ThreadWeave.Core
