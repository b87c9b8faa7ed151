import ThreadWeave.Registry

/-!
# What the control plane stores and sends

The records of `CoreExecutionService`, the execution store and the scheduler,
and the pure parts of `accept`, `report_execution` and `schedule_one`: the
messages they build and what they do to a store they have locked.
-/

namespace ThreadWeave.Core

open Runs (HashMap)

/-- What the control plane is started with, and the generated code it uses. -/
structure Config (Bytes : Type) where
  taskDestination : String
  submitTask : Codec Bytes SubmitTaskRequest
  assignExecution : Codec Bytes AssignExecutionRequest
  encodeCommandResult : CommandResult → List UInt8
  states : I32Enum ExecutionState

/-- `broker::worker_destination`. -/
def workerDestination (workerId : String) : String := "workers." ++ workerId

@[simp] theorem workerDestination_inj {w w' : String} :
    workerDestination w = workerDestination w' ↔ w = w' := by
  simp [workerDestination]

/-! ## The execution store -/

structure ExecutionRecord where
  executionId : String
  jobId : String
  assignmentId : String
  workerId : String
  state : ExecutionState
  createdAt : Timestamp
  updatedAt : Timestamp
deriving DecidableEq

abbrev MemoryExecutionStore := HashMap String ExecutionRecord

namespace MemoryExecutionStore

def create (m : MemoryExecutionStore) (execution : ExecutionRecord) :
    Except String MemoryExecutionStore :=
  if execution.executionId ∈ m then .error "execution already exists"
  else .ok (m.insert execution.executionId execution)

def updateState (m : MemoryExecutionStore) (executionId : String) (state : ExecutionState)
    (now : Timestamp) : Except String MemoryExecutionStore :=
  match m.lookup executionId with
  | none => .error "execution not found"
  | some execution =>
      .ok (m.insert executionId { execution with state := state, updatedAt := now })

end MemoryExecutionStore

/-! ## Jobs -/

structure JobRecord where
  job : Job
  result : Option JobResult
deriving DecidableEq

abbrev Jobs := HashMap String JobRecord

/-- The record after `mark_job_running`. -/
def JobRecord.running (record : JobRecord) (now : Timestamp) : JobRecord :=
  { record with job := { record.job with
    state := .running
    attemptNumber := 1
    updatedAt := some now } }

/-- The record after `store_job_result`. -/
def JobRecord.finished (record : JobRecord) (result : JobResult) (now : Timestamp) : JobRecord where
  job := { record.job with
    state := if result.failure.isSome then .failed else .succeeded
    attemptNumber := max record.job.attemptNumber 1
    updatedAt := some now }
  result := some result

def markJobRunning (jobs : Jobs) (jobId : String) (now : Timestamp) : Except Status Jobs :=
  match jobs.lookup jobId with
  | none => .error ⟨.notFound, "job not found"⟩
  | some record => .ok (jobs.insert jobId (record.running now))

def storeJobResult (jobs : Jobs) (jobId : String) (result : JobResult) (now : Timestamp) :
    Except Status Jobs :=
  match jobs.lookup jobId with
  | none => .error ⟨.notFound, "job not found"⟩
  | some record => .ok (jobs.insert jobId (record.finished result now))

/-! ## The messages of `accept` -/

/-- The job `accept` creates. -/
def newJob (request : SubmitTaskRequest) (jobId : String) (now : Timestamp) : Job where
  jobId := jobId
  applicationNamespace := request.applicationNamespace
  taskName := request.taskName
  state := .accepted
  createdAt := some now
  updatedAt := some now
  attemptNumber := 0
  metadata := request.metadata
  task := request.task
  parentExecutionId := request.parentExecutionId
  rootExecutionId := none

def submitTaskKind : String := "threadweave_protocols.execution.v1.SubmitTaskRequest"

def assignExecutionKind : String := "threadweave_protocols.runtime.v1.AssignExecutionRequest"

/-- The result of an accepted command. -/
def acceptedResult : CommandResult := { status := .accepted, error := none }

section Messages

variable {Bytes : Type} (cfg : Config Bytes)

/-- The envelope `accept` publishes. -/
def submitEnvelope (request : SubmitTaskRequest) (jobId messageId : String) (now : Timestamp) :
    BrokerEnvelope Bytes where
  messageId := messageId
  messageKind := submitTaskKind
  schemaVersion := "v1"
  source := "threadweave-api"
  destination := cfg.taskDestination
  createdAt := some now
  payload := cfg.submitTask.encodeToVec request
  contentType := some "application/protobuf"
  correlationId := some jobId
  causationId := request.parentExecutionId

/-- What `accept` writes to the result backend before it answers. -/
def placeholder : JobResult :=
  { JobResult.empty with
    payload := cfg.encodeCommandResult acceptedResult
    serializationFormat := "application/protobuf" }

/-! ## The messages of `schedule_one` -/

inductive DeferredReason where
  | noWorkerAvailable
deriving DecidableEq, Repr

/-- The task of a request without one: its name and its application. -/
def derivedTask (request : SubmitTaskRequest) : TaskIdentity where
  taskNamespace := request.applicationNamespace
  application :=
    ((request.metadata.bind fun metadata => metadata.entries.lookup "application")).getD ""
  name := request.taskName
  version := ""

def assignmentFor (request : SubmitTaskRequest) (jobId assignmentId executionId : String) :
    AssignExecutionRequest where
  assignmentId := assignmentId
  executionId := executionId
  jobId := jobId
  task := request.task <|> some (derivedTask request)
  arguments := request.arguments
  serializationFormat := request.serializationFormat
  reservedResources := request.resources
  deadline := none
  metadata := request.metadata

def executionFor (assignment : AssignExecutionRequest) (workerId : String) (now : Timestamp) :
    ExecutionRecord where
  executionId := assignment.executionId
  jobId := assignment.jobId
  assignmentId := assignment.assignmentId
  workerId := workerId
  state := .assigned
  createdAt := now
  updatedAt := now

/-- The envelope `schedule_one` publishes. -/
def assignEnvelope (workerId : String) (assignment : AssignExecutionRequest)
    (submitted : BrokerEnvelope Bytes) (messageId : String) (now : Timestamp) :
    BrokerEnvelope Bytes where
  messageId := messageId
  messageKind := assignExecutionKind
  schemaVersion := "v1"
  source := "threadweave-scheduler"
  destination := workerDestination workerId
  createdAt := some now
  payload := cfg.assignExecution.encodeToVec assignment
  contentType := some "application/protobuf"
  correlationId := some assignment.jobId
  causationId := some submitted.messageId

/-! ## The checks of `report_execution` -/

/-- What a resolved report asks for: `none` for RUNNING, the outcome to store
for a terminal report. -/
def reportOutcome (report : ReportExecutionRequest) (state : ExecutionState) :
    Except Status (Option JobResult) :=
  match state with
  | .running => .ok none
  | .succeeded | .failed =>
      match report.outcome with
      | none => .error ⟨.invalidArgument, "terminal report requires an outcome"⟩
      | some outcome =>
          if state = .failed ∧ outcome.failure.isNone then
            .error ⟨.invalidArgument, "failed report requires failure information"⟩
          else .ok (some { outcome with executionId := report.executionId })
  | _ => .error ⟨.invalidArgument, "unsupported execution report state"⟩

/-- What is wrong with the report itself is an invalid argument. -/
theorem reportOutcome_error {report : ReportExecutionRequest} {state : ExecutionState}
    {status : Status} (h : reportOutcome report state = .error status) :
    status.code = .invalidArgument := by
  unfold reportOutcome at h
  repeat' split at h
  all_goals cases h
  all_goals rfl

end Messages

end ThreadWeave.Core
