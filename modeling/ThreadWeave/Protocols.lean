import ThreadWeave.Runs.Table
import ThreadWeave.Rust.Text

/-!
# The protocol messages

The messages of the `threadweave-protocols` crate, with the fields that the
core, the scheduler and the worker read or write. The crate itself is an
external dependency: what its generated code does (`prost` encoding, the
`i32` values of its enumerations) is a parameter of the model, `Codec` and
`I32Enum`, that carries the laws the code relies on.
-/

namespace ThreadWeave

open Runs (HashMap)

/-- Nanoseconds since the Unix epoch (`SystemTime`, `prost_types::Timestamp`). -/
abbrev Timestamp := Int

/-- A reading of the monotonic clock, in nanoseconds (`Instant`). -/
abbrev Instant := Nat

/-- A difference of two `Instant`s. -/
abbrev Duration := Nat

/-- The last `Instant` there is: its seconds are an `i64`. -/
def Instant.last : Instant := 2 ^ 63 * 1000000000 - 1

/-- `unix_millis`: whole milliseconds since the epoch as a `u64`, 0 before the
epoch and saturating above. -/
def unixMillis (now : Timestamp) : Nat :=
  let millis := now.toNat / 1000000
  if millis < 2 ^ 64 then millis else 2 ^ 64 - 1

/-- `system_time`. -/
def systemTime (millis : Nat) : Timestamp := millis * 1000000

/-! ## Status -/

/-- `tonic::Code`. -/
inductive Code where
  | ok | cancelled | unknown | invalidArgument | deadlineExceeded | notFound
  | alreadyExists | permissionDenied | resourceExhausted | failedPrecondition
  | aborted | outOfRange | unimplemented | internal | unavailable | dataLoss
  | unauthenticated
deriving DecidableEq, Repr

/-- `tonic::Status`. -/
structure Status where
  code : Code
  message : String
deriving DecidableEq, Repr

instance decidableEqExcept {ε α : Type*} [DecidableEq ε] [DecidableEq α] :
    DecidableEq (Except ε α)
  | .ok a, .ok b => decidable_of_iff (a = b) (by rw [Except.ok.injEq])
  | .error e, .error f => decidable_of_iff (e = f) (by rw [Except.error.injEq])
  | .ok _, .error _ => isFalse nofun
  | .error _, .ok _ => isFalse nofun

/-! ## common.v1 -/

structure Metadata where
  entries : HashMap String String
deriving DecidableEq

structure Error where
  code : String
  message : String
  metadata : Option Metadata
deriving DecidableEq

structure ResourceRequirements where
  cpuMillicores : Nat
  memoryBytes : Nat
  requiredCapabilities : List String
deriving DecidableEq

/-! ## execution.v1 -/

structure TaskIdentity where
  taskNamespace : String
  application : String
  name : String
  version : String
deriving DecidableEq

structure SubmitTaskRequest where
  applicationNamespace : String
  taskName : String
  arguments : List UInt8
  serializationFormat : String
  resources : Option ResourceRequirements
  idempotencyKey : Option String
  metadata : Option Metadata
  commandId : String
  task : Option TaskIdentity
  parentExecutionId : Option String
deriving DecidableEq

/-- The job states the core writes. -/
inductive JobState where
  | accepted | running | succeeded | failed
deriving DecidableEq, Repr

structure Job where
  jobId : String
  applicationNamespace : String
  taskName : String
  state : JobState
  createdAt : Option Timestamp
  updatedAt : Option Timestamp
  attemptNumber : Nat
  metadata : Option Metadata
  task : Option TaskIdentity
  parentExecutionId : Option String
  rootExecutionId : Option String
deriving DecidableEq

structure JobResult where
  payload : List UInt8
  serializationFormat : String
  failure : Option Error
  executionId : String
deriving DecidableEq

/-- `JobResult::default()`. -/
def JobResult.empty : JobResult :=
  { payload := [], serializationFormat := "", failure := none, executionId := "" }

/-- The command statuses the core answers. -/
inductive CommandStatus where
  | accepted
deriving DecidableEq, Repr

structure CommandResult where
  status : CommandStatus
  error : Option Error
deriving DecidableEq

structure SubmitTaskResponse where
  job : Option Job
  result : Option CommandResult
deriving DecidableEq

/-- The execution states the source names; `other` stands for the remaining
values of the enumeration. -/
inductive ExecutionState where
  | assigned | running | succeeded | failed
  | other (value : Int)
deriving DecidableEq, Repr

/-! ## broker.v1 -/

/-- `BrokerEnvelope` over a type of encoded payloads. The fields that every
envelope of the pipeline leaves at `None` (expiry, trace context, routing
headers) are omitted. -/
structure BrokerEnvelope (Bytes : Type) where
  messageId : String
  messageKind : String
  schemaVersion : String
  source : String
  destination : String
  createdAt : Option Timestamp
  payload : Bytes
  contentType : Option String
  correlationId : Option String
  causationId : Option String
deriving DecidableEq

/-! ## runtime.v1 -/

structure AssignExecutionRequest where
  assignmentId : String
  executionId : String
  jobId : String
  task : Option TaskIdentity
  arguments : List UInt8
  serializationFormat : String
  reservedResources : Option ResourceRequirements
  deadline : Option Timestamp
  metadata : Option Metadata
deriving DecidableEq

structure CancelExecution where
  assignmentId : String
  executionId : String
  reason : Option String
deriving DecidableEq

structure ExecutionStarted where
  assignmentId : String
  executionId : String
  sequenceNumber : Nat
  observedAt : Option Timestamp
deriving DecidableEq

structure ExecutionProgress where
  assignmentId : String
  executionId : String
  sequenceNumber : Nat
  progress : Rust.Float
deriving DecidableEq

structure ExecutionMetrics where
  assignmentId : String
  executionId : String
  sequenceNumber : Nat
  executionMs : Option Nat
deriving DecidableEq

structure ExecutionCompleted where
  assignmentId : String
  executionId : String
  sequenceNumber : Nat
  result : Option JobResult
  observedAt : Option Timestamp
deriving DecidableEq

structure ExecutionFailed where
  assignmentId : String
  executionId : String
  sequenceNumber : Nat
  failure : Option Error
  observedAt : Option Timestamp
deriving DecidableEq

/-- `runtime_event::Payload`. -/
inductive EventPayload where
  | ready (runtimeId : String)
  | heartbeat (runtimeId : String) (sequenceNumber : Nat)
  | executionStarted (started : ExecutionStarted)
  | executionProgress (progress : ExecutionProgress)
  | executionMetrics (metrics : ExecutionMetrics)
  | executionCompleted (completed : ExecutionCompleted)
  | executionFailed (failed : ExecutionFailed)
deriving DecidableEq

structure RuntimeEvent where
  payload : Option EventPayload
deriving DecidableEq

structure ReportExecutionRequest where
  reportId : String
  assignmentId : String
  executionId : String
  sequenceNumber : Nat
  state : Int
  outcome : Option JobResult
  observedAt : Option Timestamp
deriving DecidableEq

structure WorkerRegistration where
  workerId : String
  generation : String
  implementationVersion : String
  endpoint : String
deriving DecidableEq

/-! ## Generated code -/

/-- `prost` for one message type: `decode` inverts `encode_to_vec`. -/
structure Codec (Bytes M : Type) where
  encodeToVec : M → Bytes
  decode : Bytes → Except String M
  decode_encodeToVec : ∀ m, decode (encodeToVec m) = .ok m

/-- The `i32` values of a protobuf enumeration: `try_from` inverts `into`. -/
structure I32Enum (E : Type) where
  into : E → Int
  tryFrom : Int → Option E
  tryFrom_into : ∀ e, tryFrom (into e) = some e

@[simp] theorem I32Enum.into_inj {E : Type} (enum : I32Enum E) {e e' : E} :
    enum.into e = enum.into e' ↔ e = e' := by
  constructor
  · intro h
    have hsome : some e = some e' := by
      rw [← enum.tryFrom_into e, ← enum.tryFrom_into e', h]
    exact Option.some.inj hsome
  · intro h
    rw [h]

/-- A numbering of the execution states, to run the model with. -/
def numberedStates : I32Enum ExecutionState where
  into
    | .assigned => 1
    | .running => 2
    | .succeeded => 3
    | .failed => 4
    | .other v => if v < 0 then v else v + 5
  tryFrom v :=
    if v = 1 then some .assigned
    else if v = 2 then some .running
    else if v = 3 then some .succeeded
    else if v = 4 then some .failed
    else if v < 0 then some (.other v)
    else if v < 5 then none
    else some (.other (v - 5))
  tryFrom_into e := by
    cases e with
    | other v =>
        dsimp only
        split_ifs <;> simp_all <;> omega
    | _ => rfl

end ThreadWeave
