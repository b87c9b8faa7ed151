import ThreadWeave.Runs.Machine
import ThreadWeave.Core.Stores

/-!
# The control plane as a machine

One process with any number of `accept`, `report_execution` and `schedule_one`
calls in progress. A call moves from one await point to the next; between two
of them it runs alone. Each external call (broker, result backend, execution
store, worker directory) is answered by one step, and the answer is part of
the action, so every pattern of failures is a run.

* A failing `publish`, `consume`, `create` or directory read has no effect.
* `store_result` and `update_state` may also fail after they took effect
  (`Fate.lost`).
* `consume` of an empty queue waits: the step is not enabled.
* Ids drawn from `Uuid::new_v4` are parameters of the action, not blank and
  never drawn before.

`Takes` lists what a step can do, one constructor for each branch of the code.
-/

namespace ThreadWeave.Core

open Runs (HashMap Machine)

/-! ## State -/

/-- How a call of a store ends. -/
inductive Fate where
  | done
  /-- an error, without effect -/
  | failed (error : String)
  /-- an error, although the call took effect -/
  | lost (error : String)
deriving DecidableEq, Repr

/-- An `accept` in progress, by the await it stands at. -/
inductive AcceptPc (Bytes : Type) where
  | publishing (request : SubmitTaskRequest) (job : Job) (envelope : BrokerEnvelope Bytes)
  | storing (request : SubmitTaskRequest) (job : Job)
deriving DecidableEq

/-- A `report_execution` in progress. The outcome is `none` in the RUNNING branch. -/
inductive ReportPc where
  | resolving (report : ReportExecutionRequest) (state : ExecutionState)
  | storing (report : ReportExecutionRequest) (state : ExecutionState) (jobId : String)
      (outcome : JobResult)
  | updating (report : ReportExecutionRequest) (state : ExecutionState) (jobId : String)
      (outcome : Option JobResult)
  /-- the store has been updated, the job has not -/
  | finishing (report : ReportExecutionRequest) (jobId : String) (outcome : Option JobResult)
deriving DecidableEq

/-- A `schedule_one` in progress. -/
inductive SchedulePc (Bytes : Type) where
  | reading
  | consuming (workerId : String)
  | creating (workerId : String) (assignment : AssignExecutionRequest)
      (submitted : BrokerEnvelope Bytes) (now : Timestamp)
  | publishing (workerId : String) (assignment : AssignExecutionRequest)
      (submitted : BrokerEnvelope Bytes)
deriving DecidableEq

structure CoreState (Bytes : Type) where
  jobs : Jobs
  backend : HashMap String JobResult
  executions : MemoryExecutionStore
  queues : String → List (BrokerEnvelope Bytes)
  registry : MemoryWorkerRegistry
  clock : Instant
  /-- the ids drawn so far -/
  drawn : Finset String
  /-- the calls in progress; an `accept` goes by the id of its job -/
  accepts : HashMap String (AcceptPc Bytes)
  reports : HashMap Nat ReportPc
  schedules : HashMap Nat (SchedulePc Bytes)

inductive Act where
  /-- `accept` up to its publish -/
  | submit (jobId messageId : String) (request : SubmitTaskRequest) (now : Timestamp)
  /-- the broker answers the publish of `accept` -/
  | published (jobId : String) (answer : Except String Unit)
  /-- the result backend answers `accept` -/
  | resultStored (jobId : String) (fate : Fate)
  /-- `report_execution` up to its lookup of the execution -/
  | report (k : Nat) (report : ReportExecutionRequest)
  | resolved (k : Nat) (answer : Except String Unit)
  /-- the result backend answers `report_execution` -/
  | outcomeStored (k : Nat) (fate : Fate)
  | stateUpdated (k : Nat) (fate : Fate) (now : Timestamp)
  | jobUpdated (k : Nat) (now : Timestamp)
  | scheduleOne (k : Nat)
  | directoryRead (k : Nat) (answer : Except String Unit)
  /-- `consume` pops the task queue; the ids and the time are drawn after it -/
  | consumed (k : Nat) (fallbackId assignmentId executionId : String) (now : Timestamp)
  | consumeFailed (k : Nat) (error : String)
  | created (k : Nat) (answer : Except String Unit)
  | dispatched (k : Nat) (messageId : String) (now : Timestamp) (answer : Except String Unit)
  | tick (elapsed : Duration)
  | register (registration : WorkerRegistration) (wall : Timestamp)
  | heartbeat (workerId generation : String) (wall : Timestamp)
deriving DecidableEq

inductive Out (Bytes : Type) where
  | silent
  /-- `accept` published its envelope -/
  | published (envelope : BrokerEnvelope Bytes)
  /-- `accept` returned -/
  | accepted (jobId : String) (r : Except Status SubmitTaskResponse)
  /-- `report_execution` stored an outcome, and possibly failed all the same -/
  | outcome (jobId : String) (outcome : JobResult) (failure : Option Status)
  /-- `report_execution` returned -/
  | reported (r : Except Status Unit)
  /-- `schedule_one` published and returned `Assigned` -/
  | dispatched (envelope : BrokerEnvelope Bytes) (workerId : String)
      (assignment : AssignExecutionRequest)
  /-- `schedule_one` returned anything else -/
  | scheduled (r : Except String DeferredReason)
  | registered (outcome : RegistrationOutcome)
  | beat (r : Except HeartbeatError Unit)
deriving DecidableEq

/-! ## Steps -/

namespace CoreState

variable {Bytes : Type} (cfg : Config Bytes)

/-- `Uuid::new_v4` for each of `ids`. -/
def Fresh (s : CoreState Bytes) (ids : List String) : Prop :=
  ids.Nodup ∧ ∀ id ∈ ids, id ∉ s.drawn ∧ Rust.isBlank id = false

instance (s : CoreState Bytes) (ids : List String) : Decidable (s.Fresh ids) :=
  inferInstanceAs (Decidable (_ ∧ _))

def draw (s : CoreState Bytes) (ids : List String) : CoreState Bytes :=
  { s with drawn := s.drawn ∪ ids.toFinset }

/-- `publish` takes effect: `rpush` to the list of the destination. -/
def push (s : CoreState Bytes) (envelope : BrokerEnvelope Bytes) : CoreState Bytes :=
  { s with
    queues := Function.update s.queues envelope.destination
      (s.queues envelope.destination ++ [envelope]) }

def submit (s : CoreState Bytes) (jobId messageId : String) (request : SubmitTaskRequest)
    (now : Timestamp) : Option (CoreState Bytes × Out Bytes) :=
  if s.Fresh [jobId, messageId] then
    let job := newJob request jobId now
    let envelope := submitEnvelope cfg request jobId messageId now
    some ({ s.draw [jobId, messageId] with
      jobs := s.jobs.insert jobId { job := job, result := none }
      accepts := s.accepts.insert jobId (.publishing request job envelope) }, .silent)
  else none

def published (s : CoreState Bytes) (jobId : String) (answer : Except String Unit) :
    Option (CoreState Bytes × Out Bytes) :=
  match s.accepts.lookup jobId with
  | some (.publishing request job envelope) =>
      match answer with
      | .error _ =>
          -- the rollback: `jobs.remove`, whoever has looked at the job meanwhile
          some ({ s with
            jobs := s.jobs.erase jobId
            accepts := s.accepts.erase jobId },
            .accepted jobId (.error ⟨.unavailable, "task broker is unavailable"⟩))
      | .ok _ =>
          some ({ s.push envelope with
            accepts := s.accepts.insert jobId (.storing request job) }, .published envelope)
  | _ => none

def resultStored (s : CoreState Bytes) (jobId : String) (fate : Fate) :
    Option (CoreState Bytes × Out Bytes) :=
  match s.accepts.lookup jobId with
  | some (.storing _ job) =>
      let refusal : Except Status SubmitTaskResponse :=
        .error ⟨.unavailable, "result backend is unavailable"⟩
      -- an error undoes neither the insert nor the publish
      match fate with
      | .done =>
          -- `store_result` overwrites what is stored under the job
          some ({ s with
            backend := s.backend.insert jobId (placeholder cfg)
            accepts := s.accepts.erase jobId },
            .accepted jobId (.ok { job := some job, result := some acceptedResult }))
      | .failed _ => some ({ s with accepts := s.accepts.erase jobId }, .accepted jobId refusal)
      | .lost _ =>
          some ({ s with
            backend := s.backend.insert jobId (placeholder cfg)
            accepts := s.accepts.erase jobId }, .accepted jobId refusal)
  | _ => none

def report (s : CoreState Bytes) (k : Nat) (report : ReportExecutionRequest) :
    Option (CoreState Bytes × Out Bytes) :=
  if k ∈ s.reports then none
  else
    match cfg.states.tryFrom report.state with
    | none => some (s, .reported (.error ⟨.invalidArgument, "unknown execution state"⟩))
    | some state =>
        some ({ s with reports := s.reports.insert k (.resolving report state) }, .silent)

/-- `report_execution` returns an error. -/
def refuse (s : CoreState Bytes) (k : Nat) (status : Status) : CoreState Bytes × Out Bytes :=
  ({ s with reports := s.reports.erase k }, .reported (.error status))

def resolved (s : CoreState Bytes) (k : Nat) (answer : Except String Unit) :
    Option (CoreState Bytes × Out Bytes) :=
  match s.reports.lookup k with
  | some (.resolving report state) =>
      match answer with
      | .error _ => some (s.refuse k ⟨.unavailable, "execution store is unavailable"⟩)
      | .ok _ =>
          match s.executions.lookup report.executionId with
          | none => some (s.refuse k ⟨.notFound, "execution not found"⟩)
          | some execution =>
              -- neither the sequence number nor the state of the record is looked at
              match reportOutcome report state with
              | .error status => some (s.refuse k status)
              | .ok none =>
                  some ({ s with
                    reports := s.reports.insert k
                      (.updating report state execution.jobId none) }, .silent)
              | .ok (some outcome) =>
                  some ({ s with
                    reports := s.reports.insert k
                      (.storing report state execution.jobId outcome) }, .silent)
  | _ => none

def outcomeStored (s : CoreState Bytes) (k : Nat) (fate : Fate) :
    Option (CoreState Bytes × Out Bytes) :=
  match s.reports.lookup k with
  | some (.storing report state jobId outcome) =>
      let refusal : Status := ⟨.unavailable, "result backend is unavailable"⟩
      match fate with
      | .done =>
          some ({ s with
            backend := s.backend.insert jobId outcome
            reports := s.reports.insert k (.updating report state jobId (some outcome)) },
            .outcome jobId outcome none)
      | .failed _ => some (s.refuse k refusal)
      | .lost _ =>
          some ({ s with
            backend := s.backend.insert jobId outcome
            reports := s.reports.erase k }, .outcome jobId outcome (some refusal))
  | _ => none

def stateUpdated (s : CoreState Bytes) (k : Nat) (fate : Fate) (now : Timestamp) :
    Option (CoreState Bytes × Out Bytes) :=
  match s.reports.lookup k with
  | some (.updating report state jobId outcome) =>
      let refusal : Status := ⟨.unavailable, "execution store is unavailable"⟩
      -- an execution that is not there is answered like a store that is down
      match fate, s.executions.updateState report.executionId state now with
      | .done, .ok executions =>
          some ({ s with
            executions := executions
            reports := s.reports.insert k (.finishing report jobId outcome) }, .silent)
      | .lost _, .ok executions =>
          some (({ s with executions := executions }).refuse k refusal)
      | _, _ => some (s.refuse k refusal)
  | _ => none

/-- `mark_job_running` or `store_job_result`, whichever the branch calls. -/
def updateJob (jobs : Jobs) (jobId : String) (outcome : Option JobResult) (now : Timestamp) :
    Except Status Jobs :=
  match outcome with
  | none => markJobRunning jobs jobId now
  | some result => storeJobResult jobs jobId result now

def jobUpdated (s : CoreState Bytes) (k : Nat) (now : Timestamp) :
    Option (CoreState Bytes × Out Bytes) :=
  match s.reports.lookup k with
  | some (.finishing _ jobId outcome) =>
      match updateJob s.jobs jobId outcome now with
      | .error status => some (s.refuse k status)
      | .ok jobs =>
          some ({ s with jobs := jobs, reports := s.reports.erase k }, .reported (.ok ()))
  | _ => none

def scheduleOne (s : CoreState Bytes) (k : Nat) : Option (CoreState Bytes × Out Bytes) :=
  if k ∈ s.schedules then none
  else some ({ s with schedules := s.schedules.insert k .reading }, .silent)

/-- `schedule_one` returns something other than `Assigned`. -/
def leave (s : CoreState Bytes) (k : Nat) (r : Except String DeferredReason) :
    CoreState Bytes × Out Bytes :=
  ({ s with schedules := s.schedules.erase k }, .scheduled r)

def directoryRead (s : CoreState Bytes) (k : Nat) (answer : Except String Unit) :
    Option (CoreState Bytes × Out Bytes) :=
  match s.schedules.lookup k with
  | some .reading =>
      match answer with
      | .error _ => some (s.leave k (.error "worker directory is unavailable"))
      | .ok _ =>
          let read := s.registry.availableWorkers s.clock
          -- `into_iter().next()` on the sorted ids
          match read.2 with
          | [] => some (({ s with registry := read.1 }).leave k (.ok .noWorkerAvailable))
          | workerId :: _ =>
              some ({ s with
                registry := read.1
                schedules := s.schedules.insert k (.consuming workerId) }, .silent)
  | _ => none

def consumed (s : CoreState Bytes) (k : Nat) (fallbackId assignmentId executionId : String)
    (now : Timestamp) : Option (CoreState Bytes × Out Bytes) :=
  match s.schedules.lookup k, s.queues cfg.taskDestination with
  | some (.consuming workerId), submitted :: rest =>
      if s.Fresh [fallbackId, assignmentId, executionId] then
        let s' : CoreState Bytes :=
          { s.draw [fallbackId, assignmentId, executionId] with
            queues := Function.update s.queues cfg.taskDestination rest }
        match cfg.submitTask.decode submitted.payload with
        | .error error => some (s'.leave k (.error ("invalid SubmitTaskRequest: " ++ error)))
        | .ok request =>
            -- the fallback is drawn in any case; it is used for an envelope without a job
            let jobId := submitted.correlationId.getD fallbackId
            let assignment := assignmentFor request jobId assignmentId executionId
            some ({ s' with
              schedules := s.schedules.insert k
                (.creating workerId assignment submitted now) }, .silent)
      else none
  | _, _ => none

def consumeFailed (s : CoreState Bytes) (k : Nat) (error : String) :
    Option (CoreState Bytes × Out Bytes) :=
  match s.schedules.lookup k with
  | some (.consuming _) => some (s.leave k (.error error))
  | _ => none

def created (s : CoreState Bytes) (k : Nat) (answer : Except String Unit) :
    Option (CoreState Bytes × Out Bytes) :=
  match s.schedules.lookup k with
  | some (.creating workerId assignment submitted now) =>
      match answer.bind fun _ => s.executions.create (executionFor assignment workerId now) with
      -- the envelope has left the queue and is not put back
      | .error error => some (s.leave k (.error ("execution store is unavailable: " ++ error)))
      | .ok executions =>
          some ({ s with
            executions := executions
            schedules := s.schedules.insert k (.publishing workerId assignment submitted) },
            .silent)
  | _ => none

def dispatched (s : CoreState Bytes) (k : Nat) (messageId : String) (now : Timestamp)
    (answer : Except String Unit) : Option (CoreState Bytes × Out Bytes) :=
  match s.schedules.lookup k with
  | some (.publishing workerId assignment submitted) =>
      if s.Fresh [messageId] then
        match answer with
        -- the record stays, in state ASSIGNED
        | .error error => some ((s.draw [messageId]).leave k (.error error))
        | .ok _ =>
            let envelope := assignEnvelope cfg workerId assignment submitted messageId now
            some ({ (s.draw [messageId]).push envelope with
              schedules := s.schedules.erase k }, .dispatched envelope workerId assignment)
      else none
  | _ => none

def step (s : CoreState Bytes) : Act → Option (CoreState Bytes × Out Bytes)
  | .submit jobId messageId request now => s.submit cfg jobId messageId request now
  | .published jobId answer => s.published jobId answer
  | .resultStored jobId fate => s.resultStored cfg jobId fate
  | .report k report => s.report cfg k report
  | .resolved k answer => s.resolved k answer
  | .outcomeStored k fate => s.outcomeStored k fate
  | .stateUpdated k fate now => s.stateUpdated k fate now
  | .jobUpdated k now => s.jobUpdated k now
  | .scheduleOne k => s.scheduleOne k
  | .directoryRead k answer => s.directoryRead k answer
  | .consumed k fallbackId assignmentId executionId now =>
      s.consumed cfg k fallbackId assignmentId executionId now
  | .consumeFailed k error => s.consumeFailed k error
  | .created k answer => s.created k answer
  | .dispatched k messageId now answer => s.dispatched cfg k messageId now answer
  | .tick elapsed => some ({ s with clock := s.clock + elapsed }, .silent)
  | .register registration wall =>
      let r := s.registry.register registration s.clock wall
      some ({ s with registry := r.1 }, .registered r.2)
  | .heartbeat workerId generation wall =>
      let r := s.registry.heartbeat workerId generation s.clock wall
      some ({ s with registry := r.1 }, .beat r.2)

end CoreState

/-- A control plane with empty stores. -/
def CoreState.start (Bytes : Type) (registry : MemoryWorkerRegistry) : CoreState Bytes where
  jobs := ∅
  backend := ∅
  executions := ∅
  queues := fun _ => []
  registry := registry
  clock := 0
  drawn := ∅
  accepts := ∅
  reports := ∅
  schedules := ∅

/-- One control-plane process, from its start. -/
def core {Bytes : Type} (cfg : Config Bytes) (registry : MemoryWorkerRegistry) :
    Machine (CoreState Bytes) Act (Out Bytes) where
  init := CoreState.start Bytes registry
  step := CoreState.step cfg

/-! ## A configuration to run -/

/-- Encoded messages, kept symbolic. -/
inductive Payload where
  | submitTask (request : SubmitTaskRequest)
  | assignExecution (assignment : AssignExecutionRequest)
deriving DecidableEq

def symbolicConfig : Config Payload where
  taskDestination := "tasks"
  submitTask :=
    { encodeToVec := .submitTask
      decode := fun
        | .submitTask request => .ok request
        | .assignExecution _ => .error "invalid wire type"
      decode_encodeToVec := fun _ => rfl }
  assignExecution :=
    { encodeToVec := .assignExecution
      decode := fun
        | .assignExecution assignment => .ok assignment
        | .submitTask _ => .error "invalid wire type"
      decode_encodeToVec := fun _ => rfl }
  encodeCommandResult := fun _ => [8, 1]
  states := numberedStates

theorem symbolicConfig_taskDestination (w : String) :
    symbolicConfig.taskDestination ≠ workerDestination w := by
  intro he
  have hlist := congrArg String.toList he
  simp [symbolicConfig, workerDestination] at hlist

/-- A control plane with memberships of 30 units of time. -/
def symbolicCore : Machine (CoreState Payload) Act (Out Payload) :=
  core symbolicConfig (.new 30 (by decide))

/-- A request with little in it. -/
def plainRequest : SubmitTaskRequest where
  applicationNamespace := "demo"
  taskName := "add"
  arguments := [1, 2]
  serializationFormat := "json"
  resources := none
  idempotencyKey := none
  metadata := none
  commandId := "c"
  task := none
  parentExecutionId := none

/-- Job `j` goes to worker `w` as execution `x`, by call `k` of `schedule_one`. -/
def scheduled (j x : String) (k : Nat) : List Act :=
  [.scheduleOne k, .directoryRead k (.ok ()), .consumed k (j ++ "-f") (j ++ "-a") x 2,
   .created k (.ok ()), .dispatched k (j ++ "-d") 3 (.ok ())]

/-- A worker that only has an id. -/
def plainWorker (workerId : String) : WorkerRegistration where
  workerId := workerId
  generation := "1"
  implementationVersion := "test"
  endpoint := ""

/-- A report on execution `x` as the worker builds it. -/
def plainReport (x : String) (state : ExecutionState) (outcome : Option JobResult) :
    ReportExecutionRequest where
  reportId := "r"
  assignmentId := "a"
  executionId := x
  sequenceNumber := 1
  state := numberedStates.into state
  outcome := outcome
  observedAt := none

/-! ## What a step can do -/

/-- The record after `mark_job_running` or `store_job_result`. -/
def JobRecord.update (record : JobRecord) (outcome : Option JobResult) (now : Timestamp) :
    JobRecord :=
  match outcome with
  | none => record.running now
  | some result => record.finished result now

theorem updateJob_cases (jobs : Jobs) (jobId : String) (outcome : Option JobResult)
    (now : Timestamp) :
    (jobs.lookup jobId = none ∧
      CoreState.updateJob jobs jobId outcome now = .error ⟨.notFound, "job not found"⟩) ∨
    (∃ record, jobs.lookup jobId = some record ∧
      CoreState.updateJob jobs jobId outcome now =
        .ok (jobs.insert jobId (record.update outcome now))) := by
  cases hrec : jobs.lookup jobId with
  | none => cases outcome <;> simp [CoreState.updateJob, markJobRunning, storeJobResult, hrec]
  | some record =>
      cases outcome <;>
        simp [CoreState.updateJob, markJobRunning, storeJobResult, hrec, JobRecord.update]

section Takes

variable {Bytes : Type} (cfg : Config Bytes)

/-- One step, by the branch of the code that is run. -/
inductive Takes (s : CoreState Bytes) : Act → Out Bytes → CoreState Bytes → Prop where
  | submit (jobId messageId : String) (request : SubmitTaskRequest) (now : Timestamp)
      (hfresh : s.Fresh [jobId, messageId]) :
      Takes s (.submit jobId messageId request now) .silent
        { s.draw [jobId, messageId] with
          jobs := s.jobs.insert jobId { job := newJob request jobId now, result := none }
          accepts := s.accepts.insert jobId (.publishing request (newJob request jobId now)
            (submitEnvelope cfg request jobId messageId now)) }
  | publishFailed (jobId error : String) (request : SubmitTaskRequest) (job : Job)
      (envelope : BrokerEnvelope Bytes)
      (hpc : s.accepts.lookup jobId = some (.publishing request job envelope)) :
      Takes s (.published jobId (.error error))
        (.accepted jobId (.error ⟨.unavailable, "task broker is unavailable"⟩))
        { s with jobs := s.jobs.erase jobId, accepts := s.accepts.erase jobId }
  | published (jobId : String) (request : SubmitTaskRequest) (job : Job)
      (envelope : BrokerEnvelope Bytes)
      (hpc : s.accepts.lookup jobId = some (.publishing request job envelope)) :
      Takes s (.published jobId (.ok ())) (.published envelope)
        { s.push envelope with accepts := s.accepts.insert jobId (.storing request job) }
  | resultStored (jobId : String) (request : SubmitTaskRequest) (job : Job)
      (hpc : s.accepts.lookup jobId = some (.storing request job)) :
      Takes s (.resultStored jobId .done)
        (.accepted jobId (.ok { job := some job, result := some acceptedResult }))
        { s with
          backend := s.backend.insert jobId (placeholder cfg)
          accepts := s.accepts.erase jobId }
  | resultFailed (jobId error : String) (request : SubmitTaskRequest) (job : Job)
      (hpc : s.accepts.lookup jobId = some (.storing request job)) :
      Takes s (.resultStored jobId (.failed error))
        (.accepted jobId (.error ⟨.unavailable, "result backend is unavailable"⟩))
        { s with accepts := s.accepts.erase jobId }
  | resultLost (jobId error : String) (request : SubmitTaskRequest) (job : Job)
      (hpc : s.accepts.lookup jobId = some (.storing request job)) :
      Takes s (.resultStored jobId (.lost error))
        (.accepted jobId (.error ⟨.unavailable, "result backend is unavailable"⟩))
        { s with
          backend := s.backend.insert jobId (placeholder cfg)
          accepts := s.accepts.erase jobId }
  | reportUnknown (k : Nat) (report : ReportExecutionRequest)
      (hstate : cfg.states.tryFrom report.state = none) :
      Takes s (.report k report)
        (.reported (.error ⟨.invalidArgument, "unknown execution state"⟩)) s
  | report (k : Nat) (report : ReportExecutionRequest) (state : ExecutionState)
      (hfree : k ∉ s.reports) (hstate : cfg.states.tryFrom report.state = some state) :
      Takes s (.report k report) .silent
        { s with reports := s.reports.insert k (.resolving report state) }
  /-- any error of `report_execution` that comes without an effect -/
  | refused (a : Act) (k : Nat) (status : Status)
      (ha : (∃ answer, a = .resolved k answer) ∨ (∃ error, a = .outcomeStored k (.failed error)) ∨
        (∃ fate now, a = .stateUpdated k fate now) ∨ ∃ now, a = .jobUpdated k now) :
      Takes s a (.reported (.error status)) { s with reports := s.reports.erase k }
  | resolvedRunning (k : Nat) (report : ReportExecutionRequest) (state : ExecutionState)
      (execution : ExecutionRecord)
      (hpc : s.reports.lookup k = some (.resolving report state))
      (hexec : s.executions.lookup report.executionId = some execution)
      (hout : reportOutcome report state = .ok none) :
      Takes s (.resolved k (.ok ())) .silent
        { s with
          reports := s.reports.insert k (.updating report state execution.jobId none) }
  | resolvedTerminal (k : Nat) (report : ReportExecutionRequest) (state : ExecutionState)
      (execution : ExecutionRecord) (outcome : JobResult)
      (hpc : s.reports.lookup k = some (.resolving report state))
      (hexec : s.executions.lookup report.executionId = some execution)
      (hout : reportOutcome report state = .ok (some outcome)) :
      Takes s (.resolved k (.ok ())) .silent
        { s with
          reports := s.reports.insert k (.storing report state execution.jobId outcome) }
  | outcomeStored (k : Nat) (report : ReportExecutionRequest) (state : ExecutionState)
      (jobId : String) (outcome : JobResult)
      (hpc : s.reports.lookup k = some (.storing report state jobId outcome)) :
      Takes s (.outcomeStored k .done) (.outcome jobId outcome none)
        { s with
          backend := s.backend.insert jobId outcome
          reports := s.reports.insert k (.updating report state jobId (some outcome)) }
  | outcomeLost (k : Nat) (error : String) (report : ReportExecutionRequest)
      (state : ExecutionState) (jobId : String) (outcome : JobResult)
      (hpc : s.reports.lookup k = some (.storing report state jobId outcome)) :
      Takes s (.outcomeStored k (.lost error))
        (.outcome jobId outcome (some ⟨.unavailable, "result backend is unavailable"⟩))
        { s with
          backend := s.backend.insert jobId outcome
          reports := s.reports.erase k }
  | stateUpdated (k : Nat) (now : Timestamp) (report : ReportExecutionRequest)
      (state : ExecutionState) (jobId : String) (outcome : Option JobResult)
      (execution : ExecutionRecord)
      (hpc : s.reports.lookup k = some (.updating report state jobId outcome))
      (hexec : s.executions.lookup report.executionId = some execution) :
      Takes s (.stateUpdated k .done now) .silent
        { s with
          executions := s.executions.insert report.executionId
            { execution with state := state, updatedAt := now }
          reports := s.reports.insert k (.finishing report jobId outcome) }
  | stateLost (k : Nat) (error : String) (now : Timestamp) (report : ReportExecutionRequest)
      (state : ExecutionState) (jobId : String) (outcome : Option JobResult)
      (execution : ExecutionRecord)
      (hpc : s.reports.lookup k = some (.updating report state jobId outcome))
      (hexec : s.executions.lookup report.executionId = some execution) :
      Takes s (.stateUpdated k (.lost error) now)
        (.reported (.error ⟨.unavailable, "execution store is unavailable"⟩))
        { s with
          executions := s.executions.insert report.executionId
            { execution with state := state, updatedAt := now }
          reports := s.reports.erase k }
  | jobUpdated (k : Nat) (now : Timestamp) (report : ReportExecutionRequest) (jobId : String)
      (outcome : Option JobResult) (record : JobRecord)
      (hpc : s.reports.lookup k = some (.finishing report jobId outcome))
      (hjob : s.jobs.lookup jobId = some record) :
      Takes s (.jobUpdated k now) (.reported (.ok ()))
        { s with
          jobs := s.jobs.insert jobId (record.update outcome now)
          reports := s.reports.erase k }
  | scheduleOne (k : Nat) (hfree : k ∉ s.schedules) :
      Takes s (.scheduleOne k) .silent { s with schedules := s.schedules.insert k .reading }
  | directoryFailed (k : Nat) (error : String) (hpc : s.schedules.lookup k = some .reading) :
      Takes s (.directoryRead k (.error error))
        (.scheduled (.error "worker directory is unavailable"))
        { s with schedules := s.schedules.erase k }
  | noWorker (k : Nat) (hpc : s.schedules.lookup k = some .reading)
      (hread : (s.registry.availableWorkers s.clock).2 = []) :
      Takes s (.directoryRead k (.ok ())) (.scheduled (.ok .noWorkerAvailable))
        { s with
          registry := (s.registry.availableWorkers s.clock).1
          schedules := s.schedules.erase k }
  | chosen (k : Nat) (workerId : String) (rest : List String)
      (hpc : s.schedules.lookup k = some .reading)
      (hread : (s.registry.availableWorkers s.clock).2 = workerId :: rest) :
      Takes s (.directoryRead k (.ok ())) .silent
        { s with
          registry := (s.registry.availableWorkers s.clock).1
          schedules := s.schedules.insert k (.consuming workerId) }
  | consumeFailed (k : Nat) (error workerId : String)
      (hpc : s.schedules.lookup k = some (.consuming workerId)) :
      Takes s (.consumeFailed k error) (.scheduled (.error error))
        { s with schedules := s.schedules.erase k }
  | undecodable (k : Nat) (fallbackId assignmentId executionId : String) (now : Timestamp)
      (workerId error : String) (submitted : BrokerEnvelope Bytes)
      (rest : List (BrokerEnvelope Bytes))
      (hpc : s.schedules.lookup k = some (.consuming workerId))
      (hqueue : s.queues cfg.taskDestination = submitted :: rest)
      (hfresh : s.Fresh [fallbackId, assignmentId, executionId])
      (hdecode : cfg.submitTask.decode submitted.payload = .error error) :
      Takes s (.consumed k fallbackId assignmentId executionId now)
        (.scheduled (.error ("invalid SubmitTaskRequest: " ++ error)))
        { s.draw [fallbackId, assignmentId, executionId] with
          queues := Function.update s.queues cfg.taskDestination rest
          schedules := s.schedules.erase k }
  | consumed (k : Nat) (fallbackId assignmentId executionId : String) (now : Timestamp)
      (workerId : String) (submitted : BrokerEnvelope Bytes)
      (rest : List (BrokerEnvelope Bytes)) (request : SubmitTaskRequest)
      (hpc : s.schedules.lookup k = some (.consuming workerId))
      (hqueue : s.queues cfg.taskDestination = submitted :: rest)
      (hfresh : s.Fresh [fallbackId, assignmentId, executionId])
      (hdecode : cfg.submitTask.decode submitted.payload = .ok request) :
      Takes s (.consumed k fallbackId assignmentId executionId now) .silent
        { s.draw [fallbackId, assignmentId, executionId] with
          queues := Function.update s.queues cfg.taskDestination rest
          schedules := s.schedules.insert k (.creating workerId
            (assignmentFor request (submitted.correlationId.getD fallbackId) assignmentId
              executionId) submitted now) }
  | createFailed (k : Nat) (answer : Except String Unit) (error workerId : String)
      (assignment : AssignExecutionRequest) (submitted : BrokerEnvelope Bytes) (now : Timestamp)
      (hpc : s.schedules.lookup k = some (.creating workerId assignment submitted now))
      (hcreate : (∃ e, answer = .error e) ∨ assignment.executionId ∈ s.executions) :
      Takes s (.created k answer) (.scheduled (.error error))
        { s with schedules := s.schedules.erase k }
  | created (k : Nat) (workerId : String) (assignment : AssignExecutionRequest)
      (submitted : BrokerEnvelope Bytes) (now : Timestamp)
      (hpc : s.schedules.lookup k = some (.creating workerId assignment submitted now))
      (hnew : assignment.executionId ∉ s.executions) :
      Takes s (.created k (.ok ())) .silent
        { s with
          executions := s.executions.insert assignment.executionId
            (executionFor assignment workerId now)
          schedules := s.schedules.insert k (.publishing workerId assignment submitted) }
  | dispatchFailed (k : Nat) (messageId : String) (now : Timestamp) (error workerId : String)
      (assignment : AssignExecutionRequest) (submitted : BrokerEnvelope Bytes)
      (hpc : s.schedules.lookup k = some (.publishing workerId assignment submitted))
      (hfresh : s.Fresh [messageId]) :
      Takes s (.dispatched k messageId now (.error error)) (.scheduled (.error error))
        { s.draw [messageId] with schedules := s.schedules.erase k }
  | dispatched (k : Nat) (messageId : String) (now : Timestamp) (workerId : String)
      (assignment : AssignExecutionRequest) (submitted : BrokerEnvelope Bytes)
      (hpc : s.schedules.lookup k = some (.publishing workerId assignment submitted))
      (hfresh : s.Fresh [messageId]) :
      Takes s (.dispatched k messageId now (.ok ()))
        (.dispatched (assignEnvelope cfg workerId assignment submitted messageId now) workerId
          assignment)
        { (s.draw [messageId]).push
            (assignEnvelope cfg workerId assignment submitted messageId now) with
          schedules := s.schedules.erase k }
  | tick (elapsed : Duration) :
      Takes s (.tick elapsed) .silent { s with clock := s.clock + elapsed }
  | register (registration : WorkerRegistration) (wall : Timestamp) :
      Takes s (.register registration wall)
        (.registered (s.registry.register registration s.clock wall).2)
        { s with registry := (s.registry.register registration s.clock wall).1 }
  | heartbeat (workerId generation : String) (wall : Timestamp) :
      Takes s (.heartbeat workerId generation wall)
        (.beat (s.registry.heartbeat workerId generation s.clock wall).2)
        { s with registry := (s.registry.heartbeat workerId generation s.clock wall).1 }

variable {cfg}

theorem resolved_takes {s s' : CoreState Bytes} {k : Nat} {answer : Except String Unit}
    {o : Out Bytes} (h : s.resolved k answer = some (s', o)) :
    Takes cfg s (.resolved k answer) o s' := by
  unfold CoreState.resolved at h
  split at h
  · rename_i report state hpc
    split at h
    · cases h
      exact .refused _ k _ (Or.inl ⟨_, rfl⟩)
    · split at h
      · cases h
        exact .refused _ k _ (Or.inl ⟨_, rfl⟩)
      · rename_i execution hexec
        split at h
        · cases h
          exact .refused _ k _ (Or.inl ⟨_, rfl⟩)
        · rename_i hout
          cases h
          exact .resolvedRunning k report state execution hpc hexec hout
        · rename_i outcome hout
          cases h
          exact .resolvedTerminal k report state execution outcome hpc hexec hout
  · cases h

theorem stateUpdated_takes {s s' : CoreState Bytes} {k : Nat} {fate : Fate} {now : Timestamp}
    {o : Out Bytes} (h : s.stateUpdated k fate now = some (s', o)) :
    Takes cfg s (.stateUpdated k fate now) o s' := by
  unfold CoreState.stateUpdated at h
  split at h
  · rename_i report state jobId outcome hpc
    -- whether the execution is there decides what the store answers
    cases hexec : s.executions.lookup report.executionId with
    | none =>
        simp only [MemoryExecutionStore.updateState, hexec] at h
        cases fate <;> cases h <;> exact .refused _ k _ (Or.inr (Or.inr (Or.inl ⟨_, _, rfl⟩)))
    | some execution =>
        simp only [MemoryExecutionStore.updateState, hexec] at h
        cases fate with
        | done =>
            cases h
            exact .stateUpdated k now report state jobId outcome execution hpc hexec
        | failed error =>
            cases h
            exact .refused _ k _ (Or.inr (Or.inr (Or.inl ⟨_, _, rfl⟩)))
        | lost error =>
            cases h
            exact .stateLost k error now report state jobId outcome execution hpc hexec
  · cases h

theorem jobUpdated_takes {s s' : CoreState Bytes} {k : Nat} {now : Timestamp} {o : Out Bytes}
    (h : s.jobUpdated k now = some (s', o)) : Takes cfg s (.jobUpdated k now) o s' := by
  unfold CoreState.jobUpdated at h
  split at h
  · rename_i report jobId outcome hpc
    rcases updateJob_cases s.jobs jobId outcome now with ⟨-, hup⟩ | ⟨record, hjob, hup⟩
    · rw [hup] at h
      cases h
      exact .refused _ k _ (Or.inr (Or.inr (Or.inr ⟨_, rfl⟩)))
    · rw [hup] at h
      cases h
      exact .jobUpdated k now report jobId outcome record hpc hjob
  · cases h

theorem directoryRead_takes {s s' : CoreState Bytes} {k : Nat} {answer : Except String Unit}
    {o : Out Bytes} (h : s.directoryRead k answer = some (s', o)) :
    Takes cfg s (.directoryRead k answer) o s' := by
  unfold CoreState.directoryRead at h
  split at h
  · rename_i hpc
    split at h
    · cases h
      exact .directoryFailed k _ hpc
    · dsimp only at h
      split at h
      · rename_i hread
        cases h
        exact .noWorker k hpc hread
      · rename_i workerId rest hread
        cases h
        exact .chosen k workerId rest hpc hread
  · cases h

theorem consumed_takes {s s' : CoreState Bytes} {k : Nat}
    {fallbackId assignmentId executionId : String} {now : Timestamp} {o : Out Bytes}
    (h : s.consumed cfg k fallbackId assignmentId executionId now = some (s', o)) :
    Takes cfg s (.consumed k fallbackId assignmentId executionId now) o s' := by
  unfold CoreState.consumed at h
  split at h
  · rename_i workerId submitted rest hpc hqueue
    split_ifs at h with hfresh
    dsimp only at h
    split at h
    · rename_i error hdecode
      cases h
      exact .undecodable k _ _ _ now workerId error submitted rest hpc hqueue hfresh hdecode
    · rename_i request hdecode
      cases h
      exact .consumed k _ _ _ now workerId submitted rest request hpc hqueue hfresh hdecode
  · cases h

theorem created_takes {s s' : CoreState Bytes} {k : Nat} {answer : Except String Unit}
    {o : Out Bytes} (h : s.created k answer = some (s', o)) :
    Takes cfg s (.created k answer) o s' := by
  unfold CoreState.created at h
  split at h
  · rename_i workerId assignment submitted now hpc
    cases answer with
    | error e =>
        cases h
        exact .createFailed k _ _ workerId assignment submitted now hpc (Or.inl ⟨e, rfl⟩)
    | ok u =>
        -- the store itself refuses an id it has
        by_cases hmem : assignment.executionId ∈ s.executions
        · simp only [Except.bind, MemoryExecutionStore.create, executionFor, hmem, if_true] at h
          cases h
          exact .createFailed k _ _ workerId assignment submitted now hpc (Or.inr hmem)
        · simp only [Except.bind, MemoryExecutionStore.create, executionFor, hmem, if_false] at h
          cases h
          exact .created k workerId assignment submitted now hpc hmem
  · cases h

/-- Every step runs one branch of the code. -/
theorem step_takes {s s' : CoreState Bytes} {a : Act} {o : Out Bytes}
    (h : s.step cfg a = some (s', o)) : Takes cfg s a o s' := by
  cases a with
  | submit jobId messageId request now =>
      simp only [CoreState.step, CoreState.submit] at h
      split_ifs at h with hfresh
      cases h
      exact .submit jobId messageId request now hfresh
  | published jobId answer =>
      simp only [CoreState.step, CoreState.published] at h
      split at h
      · rename_i request job envelope hpc
        cases answer with
        | error error =>
            cases h
            exact .publishFailed jobId error request job envelope hpc
        | ok u =>
            cases h
            exact .published jobId request job envelope hpc
      · cases h
  | resultStored jobId fate =>
      simp only [CoreState.step, CoreState.resultStored] at h
      split at h
      · rename_i request job hpc
        cases fate with
        | done =>
            cases h
            exact .resultStored jobId request job hpc
        | failed error =>
            cases h
            exact .resultFailed jobId error request job hpc
        | lost error =>
            cases h
            exact .resultLost jobId error request job hpc
      · cases h
  | report k report =>
      simp only [CoreState.step, CoreState.report] at h
      split_ifs at h with hfree
      split at h
      · rename_i hstate
        cases h
        exact .reportUnknown k report hstate
      · rename_i state hstate
        cases h
        exact .report k report state hfree hstate
  | resolved k answer => exact resolved_takes h
  | outcomeStored k fate =>
      simp only [CoreState.step, CoreState.outcomeStored] at h
      split at h
      · rename_i report state jobId outcome hpc
        cases fate with
        | done =>
            cases h
            exact .outcomeStored k report state jobId outcome hpc
        | failed error =>
            cases h
            exact .refused _ k _ (Or.inr (Or.inl ⟨error, rfl⟩))
        | lost error =>
            cases h
            exact .outcomeLost k error report state jobId outcome hpc
      · cases h
  | stateUpdated k fate now => exact stateUpdated_takes h
  | jobUpdated k now => exact jobUpdated_takes h
  | scheduleOne k =>
      simp only [CoreState.step, CoreState.scheduleOne] at h
      split_ifs at h with hfree
      cases h
      exact .scheduleOne k hfree
  | directoryRead k answer => exact directoryRead_takes h
  | consumed k fallbackId assignmentId executionId now => exact consumed_takes h
  | consumeFailed k error =>
      simp only [CoreState.step, CoreState.consumeFailed] at h
      split at h
      · rename_i workerId hpc
        cases h
        exact .consumeFailed k error workerId hpc
      · cases h
  | created k answer => exact created_takes h
  | dispatched k messageId now answer =>
      simp only [CoreState.step, CoreState.dispatched] at h
      split at h
      · rename_i workerId assignment submitted hpc
        split_ifs at h with hfresh
        cases answer with
        | error error =>
            cases h
            exact .dispatchFailed k messageId now error workerId assignment submitted hpc hfresh
        | ok u =>
            cases h
            exact .dispatched k messageId now workerId assignment submitted hpc hfresh
      · cases h
  | tick elapsed =>
      cases h
      exact .tick elapsed
  | register registration wall =>
      cases h
      exact .register registration wall
  | heartbeat workerId generation wall =>
      cases h
      exact .heartbeat workerId generation wall

end Takes

end ThreadWeave.Core
