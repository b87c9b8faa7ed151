import ThreadWeave.Runs.Machine
import ThreadWeave.Redis.Keyspace
import ThreadWeave.Rust.Decimal
import ThreadWeave.Core.Stores

/-!
# The execution store in Redis

`RedisExecutionStore` (`execution_store.rs`). A record is a hash of seven texts;
times are kept in milliseconds and numbers in decimal. `get` reads the fields by
position and parses them again.

* `Encodes` — the keyspace holds the records of an in-memory store, text by text.
* `create_encodes`, `updateState_encodes`, `get_encodes` — each operation on
  the one is the operation on the other.
* `memoryExecutions`, `redisExecutions` — the two stores, and their runs side by
  side.
-/

namespace ThreadWeave.Core

open Runs (HashMap Machine)
open Redis (Keyspace text)

/-- The store; `states` is the generated enumeration of execution states. -/
structure RedisExecutionStore where
  keyPrefix : String
  states : I32Enum ExecutionState

/-- The state is one of the enumeration, so that its number is an `i32`. -/
def FitsI32 (states : I32Enum ExecutionState) (state : ExecutionState) : Prop :=
  -2 ^ 31 ≤ states.into state ∧ states.into state < 2 ^ 31

instance (states : I32Enum ExecutionState) (state : ExecutionState) :
    Decidable (FitsI32 states state) :=
  inferInstanceAs (Decidable (_ ∧ _))

/-- The names of the seven fields, in the order in which they are read. -/
def recordFields : List String :=
  ["execution_id", "job_id", "assignment_id", "worker_id", "state", "created_at_ms",
   "updated_at_ms"]

/-- The reply of `HMGET` as texts. -/
def readTexts : List (Option ByteArray) → Except String (List (Option String))
  | [] => .ok []
  | none :: values => (readTexts values).map fun texts => none :: texts
  | some bytes :: values =>
      match String.fromUTF8? bytes with
      | none => .error "cannot read execution: invalid UTF-8"
      | some s => (readTexts values).map fun texts => some s :: texts

namespace RedisExecutionStore

def new (states : I32Enum ExecutionState) (keyPrefix : String) : RedisExecutionStore :=
  { keyPrefix := Rust.trimEndMatches keyPrefix ':', states := states }

variable (r : RedisExecutionStore)

def key (executionId : String) : String := r.keyPrefix ++ ":" ++ executionId

/-- The script of `create`: a key that exists is left alone. -/
def createScript (ks : Keyspace) (t : Instant) (key : String)
    (executionId jobId assignmentId workerId state createdAt updatedAt : ByteArray) :
    Keyspace × Int :=
  if ks.contains t key then (ks, 0)
  else
    (ks.hset t key
      [("execution_id", executionId), ("job_id", jobId), ("assignment_id", assignmentId),
       ("worker_id", workerId), ("state", state), ("created_at_ms", createdAt),
       ("updated_at_ms", updatedAt)], 1)

def create (ks : Keyspace) (execution : ExecutionRecord) (t : Instant) :
    Keyspace × Except String Unit :=
  let (ks, created) := createScript ks t (r.key execution.executionId)
    (text execution.executionId) (text execution.jobId) (text execution.assignmentId)
    (text execution.workerId) (text (toString (r.states.into execution.state)))
    (text (toString (unixMillis execution.createdAt)))
    (text (toString (unixMillis execution.updatedAt)))
  (ks, if created = 1 then .ok () else .error "execution already exists")

/-- The closure `field` of `get`. -/
def field (values : List (Option String)) (index : Nat) : Except String String :=
  match (values[index]?).bind id with
  | none => .error "execution record is missing a required field"
  | some value => .ok value

/-- The error of a value that does not parse. -/
def orError {α : Type} (message : String) : Option α → Except String α
  | none => .error message
  | some a => .ok a

/-- The record that the texts spell. -/
def parseRecord (values : List (Option String)) : Except String ExecutionRecord := do
  let stateValue ← orError "invalid execution state in Redis"
    (Rust.parseSigned 32 (← field values 4))
  let state ← orError "unknown execution state in Redis" (r.states.tryFrom stateValue)
  let createdAt ← orError "invalid execution created_at in Redis"
    (Rust.parseUnsigned 64 (← field values 5))
  let updatedAt ← orError "invalid execution updated_at in Redis"
    (Rust.parseUnsigned 64 (← field values 6))
  return {
    executionId := ← field values 0
    jobId := ← field values 1
    assignmentId := ← field values 2
    workerId := ← field values 3
    state := state
    createdAt := systemTime createdAt
    updatedAt := systemTime updatedAt }

def get (ks : Keyspace) (executionId : String) (t : Instant) :
    Except String (Option ExecutionRecord) := do
  let values ← readTexts (ks.hmget t (r.key executionId) recordFields)
  if ((values[0]?).bind id).isNone then return none
  return some (← r.parseRecord values)

/-- The script of `update_state`. -/
def updateStateScript (ks : Keyspace) (t : Instant) (key : String)
    (state updatedAt : ByteArray) : Keyspace × Int :=
  if ¬ ks.contains t key then (ks, 0)
  else (ks.hset t key [("state", state), ("updated_at_ms", updatedAt)], 1)

def updateState (ks : Keyspace) (executionId : String) (state : ExecutionState)
    (now : Timestamp) (t : Instant) : Keyspace × Except String Unit :=
  let (ks, updated) := updateStateScript ks t (r.key executionId)
    (text (toString (r.states.into state))) (text (toString (unixMillis now)))
  (ks, if updated = 1 then .ok () else .error "execution not found")

end RedisExecutionStore

/-! ## Records and hashes -/

/-- A record with its times as Redis keeps them. -/
def ExecutionRecord.rounded (execution : ExecutionRecord) : ExecutionRecord :=
  { execution with
    createdAt := systemTime (unixMillis execution.createdAt)
    updatedAt := systemTime (unixMillis execution.updatedAt) }

theorem unixMillis_lt (now : Timestamp) : unixMillis now < 2 ^ 64 := by
  unfold unixMillis
  dsimp only
  split_ifs with hlt
  · exact hlt
  · decide

namespace RedisExecutionStore

/-- The hash spells the record. -/
structure IsRecord (r : RedisExecutionStore) (entry : Redis.Entry) (execution : ExecutionRecord) :
    Prop where
  executionId : entry.fields.lookup "execution_id" = some (text execution.executionId)
  jobId : entry.fields.lookup "job_id" = some (text execution.jobId)
  assignmentId : entry.fields.lookup "assignment_id" = some (text execution.assignmentId)
  workerId : entry.fields.lookup "worker_id" = some (text execution.workerId)
  state : entry.fields.lookup "state" = some (text (toString (r.states.into execution.state)))
  createdAt : entry.fields.lookup "created_at_ms" =
    some (text (toString (unixMillis execution.createdAt)))
  updatedAt : entry.fields.lookup "updated_at_ms" =
    some (text (toString (unixMillis execution.updatedAt)))
  expireAt : entry.expireAt = none
  fits : FitsI32 r.states execution.state

/-- The keyspace holds the records of the in-memory store. -/
structure Encodes (r : RedisExecutionStore) (ks : Keyspace) (m : MemoryExecutionStore) : Prop where
  absent : ∀ id, m.lookup id = none → ks.lookup (r.key id) = none
  present : ∀ id execution, m.lookup id = some execution →
    ∃ entry, ks.lookup (r.key id) = some entry ∧ r.IsRecord entry execution

variable {r : RedisExecutionStore} {ks : Keyspace} {m : MemoryExecutionStore}

theorem key_inj {id id' : String} : r.key id = r.key id' ↔ id = id' := by
  simp [key]

theorem encodes_empty (r : RedisExecutionStore) : r.Encodes ∅ ∅ where
  absent id _ := Finmap.lookup_empty _
  present id execution h := by
    rw [Finmap.lookup_empty] at h
    cases h

/-- A record has no expiry, so it is found at any time. -/
theorem Encodes.find_of_some (h : r.Encodes ks m) {id : String} {execution : ExecutionRecord}
    (hlook : m.lookup id = some execution) (t : Instant) :
    ∃ entry, ks.find t (r.key id) = some entry ∧ r.IsRecord entry execution := by
  obtain ⟨entry, hentry, hrec⟩ := h.present id execution hlook
  refine ⟨entry, Keyspace.find_eq_some.mpr ⟨hentry, ?_⟩, hrec⟩
  unfold Redis.Entry.visibleAt
  rw [hrec.expireAt]
  rfl

theorem Encodes.find_of_none (h : r.Encodes ks m) {id : String} (hlook : m.lookup id = none)
    (t : Instant) : ks.find t (r.key id) = none := by
  unfold Keyspace.find
  rw [h.absent id hlook]
  rfl

theorem Encodes.contains (h : r.Encodes ks m) (id : String) (t : Instant) :
    ks.contains t (r.key id) = (m.lookup id).isSome := by
  unfold Keyspace.contains
  rcases hlook : m.lookup id with _ | execution
  · rw [h.find_of_none hlook]
    rfl
  · obtain ⟨entry, hfind, -⟩ := h.find_of_some hlook t
    rw [hfind]
    rfl

/-- Writing the hash of one record. -/
theorem Encodes.insert (h : r.Encodes ks m) {execution : ExecutionRecord} {id : String}
    {entry : Redis.Entry} (hrec : r.IsRecord entry execution) :
    r.Encodes (ks.insert (r.key id) entry) (m.insert id execution) where
  absent id' hnone := by
    rw [HashMap.lookup_insert_ite] at hnone
    split_ifs at hnone with hid
    rw [HashMap.lookup_insert_ite, if_neg (mt key_inj.mp hid)]
    exact h.absent id' hnone
  present id' execution' hsome := by
    rw [HashMap.lookup_insert_ite] at hsome
    split_ifs at hsome with hid
    · cases hsome
      rw [HashMap.lookup_insert_ite, if_pos (congrArg r.key hid)]
      exact ⟨entry, rfl, hrec⟩
    · rw [HashMap.lookup_insert_ite, if_neg (mt key_inj.mp hid)]
      exact h.present id' execution' hsome

/-! ## The operations -/

/-- The seven texts of a record, in the order of `recordFields`. -/
def texts (r : RedisExecutionStore) (execution : ExecutionRecord) : List (Option String) :=
  [some execution.executionId, some execution.jobId, some execution.assignmentId,
   some execution.workerId, some (toString (r.states.into execution.state)),
   some (toString (unixMillis execution.createdAt)),
   some (toString (unixMillis execution.updatedAt))]

theorem IsRecord.readTexts {entry : Redis.Entry} {execution : ExecutionRecord}
    (h : r.IsRecord entry execution) :
    readTexts (recordFields.map fun name => entry.fields.lookup name) =
      .ok (r.texts execution) := by
  simp only [recordFields, List.map_cons, List.map_nil, h.executionId, h.jobId, h.assignmentId,
    h.workerId, h.state, h.createdAt, h.updatedAt, Core.readTexts, Redis.fromUTF8?_text]
  rfl

/-- The texts spell the record, with its times rounded. -/
theorem parseRecord_texts {execution : ExecutionRecord} (hfits : FitsI32 r.states execution.state) :
    r.parseRecord (r.texts execution) = .ok execution.rounded := by
  have hstate := Rust.parseSigned_toString 32 hfits.1 hfits.2
  have hcreated := Rust.parseUnsigned_toString 64 (unixMillis_lt execution.createdAt)
  have hupdated := Rust.parseUnsigned_toString 64 (unixMillis_lt execution.updatedAt)
  have hfields : ∀ index value, (r.texts execution)[index]? = some (some value) →
      field (r.texts execution) index = .ok value := by
    intro index value hvalue
    unfold field
    rw [hvalue]
    rfl
  simp only [parseRecord, hfields 0 _ rfl, hfields 1 _ rfl, hfields 2 _ rfl, hfields 3 _ rfl,
    hfields 4 _ rfl, hfields 5 _ rfl, hfields 6 _ rfl, bind, Except.bind, hstate, hcreated,
    hupdated, r.states.tryFrom_into, orError]
  rfl

theorem get_encodes (h : r.Encodes ks m) (id : String) (t : Instant) :
    r.get ks id t = .ok ((m.lookup id).map ExecutionRecord.rounded) := by
  unfold get Keyspace.hmget Keyspace.hget
  rcases hlook : m.lookup id with _ | execution
  · rw [h.find_of_none hlook]
    rfl
  · obtain ⟨entry, hfind, hrec⟩ := h.find_of_some hlook t
    rw [hfind]
    simp only [Option.bind_some]
    rw [hrec.readTexts]
    show (do return some (← r.parseRecord (r.texts execution))) = _
    rw [parseRecord_texts hrec.fits]
    rfl

theorem create_encodes (h : r.Encodes ks m) {execution : ExecutionRecord}
    (hfits : FitsI32 r.states execution.state) (t : Instant) :
    (∃ e, MemoryExecutionStore.create m execution = .error e ∧
      r.create ks execution t = (ks, .error e)) ∨
    ∃ m' ks', MemoryExecutionStore.create m execution = .ok m' ∧
      r.create ks execution t = (ks', .ok ()) ∧ r.Encodes ks' m' := by
  have hcontains := h.contains execution.executionId t
  unfold MemoryExecutionStore.create create createScript
  rw [hcontains]
  rcases hlook : m.lookup execution.executionId with _ | old
  · have hnot : execution.executionId ∉ m := Finmap.lookup_eq_none.mp hlook
    right
    rw [if_neg hnot]
    refine ⟨_, _, rfl, rfl, h.insert ?_⟩
    rw [h.find_of_none hlook]
    exact ⟨rfl, rfl, rfl, rfl, rfl, rfl, rfl, rfl, hfits⟩
  · left
    rw [if_pos (Finmap.mem_of_lookup_eq_some hlook)]
    exact ⟨_, rfl, rfl⟩

theorem updateState_encodes (h : r.Encodes ks m) (id : String) {state : ExecutionState}
    (hfits : FitsI32 r.states state) (now : Timestamp) (t : Instant) :
    (∃ e, MemoryExecutionStore.updateState m id state now = .error e ∧
      r.updateState ks id state now t = (ks, .error e)) ∨
    ∃ m' ks', MemoryExecutionStore.updateState m id state now = .ok m' ∧
      r.updateState ks id state now t = (ks', .ok ()) ∧ r.Encodes ks' m' := by
  have hcontains := h.contains id t
  unfold MemoryExecutionStore.updateState updateState updateStateScript
  rw [hcontains]
  rcases hlook : m.lookup id with _ | execution
  · left
    exact ⟨_, rfl, rfl⟩
  · right
    obtain ⟨entry, hfind, hrec⟩ := h.find_of_some hlook t
    refine ⟨_, _, rfl, rfl, h.insert ?_⟩
    rw [hfind]
    -- two fields are new, the other five and the missing expiry stay
    constructor
    all_goals first
      | exact hfits
      | exact hrec.expireAt
      | simp [Redis.Entry.write, hrec.executionId, hrec.jobId, hrec.assignmentId, hrec.workerId,
          hrec.createdAt]

end RedisExecutionStore

/-! ## Runs -/

/-- An operation on an execution store. -/
inductive ExecutionStoreOp (states : I32Enum ExecutionState) where
  | create (execution : ExecutionRecord) (fits : FitsI32 states execution.state)
  | get (executionId : String)
  | updateState (executionId : String) (state : ExecutionState) (fits : FitsI32 states state)
      (now : Timestamp)

inductive ExecutionStoreAnswer where
  | created (result : Except String Unit)
  | got (result : Except String (Option ExecutionRecord))
  | updated (result : Except String Unit)
deriving DecidableEq

/-- The answer with the times of a record as Redis keeps them. -/
def ExecutionStoreAnswer.rounded : ExecutionStoreAnswer → ExecutionStoreAnswer
  | .got (.ok execution) => .got (.ok (execution.map ExecutionRecord.rounded))
  | answer => answer

/-- `MemoryExecutionStore`. -/
def memoryExecutions (states : I32Enum ExecutionState) :
    Machine MemoryExecutionStore (ExecutionStoreOp states) ExecutionStoreAnswer where
  init := ∅
  step m op :=
    match op with
    | .create execution _ =>
        match MemoryExecutionStore.create m execution with
        | .error e => some (m, .created (.error e))
        | .ok m => some (m, .created (.ok ()))
    | .get executionId => some (m, .got (.ok (m.lookup executionId)))
    | .updateState executionId state _ now =>
        match MemoryExecutionStore.updateState m executionId state now with
        | .error e => some (m, .updated (.error e))
        | .ok m => some (m, .updated (.ok ()))

/-- `RedisExecutionStore` on an empty keyspace; the first part of an action is
the time at which Redis runs it. -/
def redisExecutions (r : RedisExecutionStore) :
    Machine Keyspace (Instant × ExecutionStoreOp r.states) ExecutionStoreAnswer where
  init := ∅
  step ks action :=
    match action.2 with
    | .create execution _ =>
        let (ks, result) := r.create ks execution action.1
        some (ks, .created result)
    | .get executionId => some (ks, .got (r.get ks executionId action.1))
    | .updateState executionId state _ now =>
        let (ks, result) := r.updateState ks executionId state now action.1
        some (ks, .updated result)

section Refinement

variable {r : RedisExecutionStore} {ks ks' : Keyspace} {m : MemoryExecutionStore}

/-- One operation, on the two stores. -/
theorem executions_step (h : r.Encodes ks m) (action : Instant × ExecutionStoreOp r.states) :
    ∃ ks' m' answer, (redisExecutions r).step ks action = some (ks', answer.rounded) ∧
      (memoryExecutions r.states).step m action.2 = some (m', answer) ∧ r.Encodes ks' m' := by
  obtain ⟨t, op⟩ := action
  unfold redisExecutions memoryExecutions
  dsimp only
  cases op with
  | create execution fits =>
      rcases RedisExecutionStore.create_encodes h fits t with
        ⟨e, hmem, hredis⟩ | ⟨m', ks', hmem, hredis, hnext⟩
      · simp only [hmem, hredis]
        exact ⟨ks, m, _, rfl, rfl, h⟩
      · simp only [hmem, hredis]
        exact ⟨ks', m', _, rfl, rfl, hnext⟩
  | get executionId =>
      simp only [RedisExecutionStore.get_encodes h]
      exact ⟨ks, m, _, rfl, rfl, h⟩
  | updateState executionId state fits now =>
      rcases RedisExecutionStore.updateState_encodes h executionId fits now t with
        ⟨e, hmem, hredis⟩ | ⟨m', ks', hmem, hredis, hnext⟩
      · simp only [hmem, hredis]
        exact ⟨ks, m, _, rfl, rfl, h⟩
      · simp only [hmem, hredis]
        exact ⟨ks', m', _, rfl, rfl, hnext⟩

/-- The stores side by side, for any sequence of operations from stores that
hold the same records. -/
theorem executions_steps (h : r.Encodes ks m)
    (actions : List (Instant × ExecutionStoreOp r.states)) :
    ∃ tr ks' tr' m', (redisExecutions r).Steps ks tr ks' ∧
      (memoryExecutions r.states).Steps m tr' m' ∧ tr.map Prod.fst = actions ∧
      tr'.map Prod.fst = actions.map Prod.snd ∧
      tr.map Prod.snd = tr'.map (fun x => x.2.rounded) ∧ r.Encodes ks' m' := by
  induction actions using List.reverseRecOn with
  | nil => exact ⟨[], ks, [], m, .refl, .refl, rfl, rfl, rfl, h⟩
  | append_singleton actions action ih =>
      obtain ⟨tr, ks₁, tr', m₁, hks, hm, hacts, hacts', hans, henc⟩ := ih
      obtain ⟨ks₂, m₂, answer, hredis, hmem, hnext⟩ := executions_step henc action
      refine ⟨_, ks₂, _, m₂, hks.snoc hredis, hm.snoc hmem, ?_, ?_, ?_, hnext⟩
      · rw [List.map_append, hacts]
        rfl
      · rw [List.map_append, hacts', List.map_append]
        rfl
      · rw [List.map_append, hans, List.map_append]
        rfl

/-- Every run of the store in Redis has one of the in-memory store beside it. -/
theorem redisExecutions_encodes
    {tr : List ((Instant × ExecutionStoreOp r.states) × ExecutionStoreAnswer)}
    (h : (redisExecutions r).Run tr ks) :
    ∃ tr' m, (memoryExecutions r.states).Run tr' m ∧
      tr.map Prod.snd = tr'.map (fun x => x.2.rounded) ∧ r.Encodes ks m := by
  obtain ⟨tr₁, ks₁, tr', m, hks, hm, hacts, -, hans, henc⟩ :=
    executions_steps (RedisExecutionStore.encodes_empty r) (tr.map Prod.fst)
  obtain ⟨rfl, rfl⟩ := hks.eq_of_acts h hacts
  exact ⟨tr', m, hm, hans, henc⟩

/-- A read does not fail. -/
theorem redisExecutions_got
    {tr : List ((Instant × ExecutionStoreOp r.states) × ExecutionStoreAnswer)}
    (h : (redisExecutions r).Run tr ks) : ∀ x ∈ tr, ∀ e, x.2 ≠ .got (.error e) := by
  refine h.forall_mem (I := fun ks => ∃ m, r.Encodes ks m)
    (Q := fun x => ∀ e, x.2 ≠ .got (.error e)) ⟨∅, RedisExecutionStore.encodes_empty r⟩ ?_
  rintro ks ⟨t, op⟩ ks' answer ⟨m, henc⟩ hstep
  obtain ⟨ks₁, m', answer₁, hredis, -, hnext⟩ := executions_step henc (t, op)
  have hks : ks₁ = ks' := by
    rw [hstep, Option.some.injEq, Prod.mk.injEq] at hredis
    exact hredis.1.symm
  refine ⟨⟨m', hks ▸ hnext⟩, ?_⟩
  rintro e (rfl : answer = .got (.error e))
  unfold redisExecutions at hstep
  cases op with
  | create execution fits => cases hstep
  | get executionId =>
      dsimp only at hstep
      rw [RedisExecutionStore.get_encodes henc] at hstep
      cases hstep
  | updateState executionId state fits now => cases hstep

end Refinement

/-! ## What never changes -/

/-- The part of a record that is written once. -/
def SameExecution (execution execution' : ExecutionRecord) : Prop :=
  execution'.executionId = execution.executionId ∧ execution'.jobId = execution.jobId ∧
  execution'.assignmentId = execution.assignmentId ∧
  execution'.workerId = execution.workerId ∧ execution'.createdAt = execution.createdAt

theorem SameExecution.refl (execution : ExecutionRecord) : SameExecution execution execution :=
  ⟨rfl, rfl, rfl, rfl, rfl⟩

theorem SameExecution.trans {e e' e'' : ExecutionRecord} (h : SameExecution e e')
    (h' : SameExecution e' e'') : SameExecution e e'' :=
  ⟨h'.1.trans h.1, h'.2.1.trans h.2.1, h'.2.2.1.trans h.2.2.1, h'.2.2.2.1.trans h.2.2.2.1,
    h'.2.2.2.2.trans h.2.2.2.2⟩

theorem SameExecution.rounded {e e' : ExecutionRecord} (h : SameExecution e e') :
    SameExecution e.rounded e'.rounded := by
  refine ⟨h.1, h.2.1, h.2.2.1, h.2.2.2.1, ?_⟩
  show systemTime (unixMillis e'.createdAt) = systemTime (unixMillis e.createdAt)
  rw [h.2.2.2.2]

section Immutable

variable {states : I32Enum ExecutionState} {m m' : MemoryExecutionStore}

theorem sameExecution_step {op : ExecutionStoreOp states} {answer : ExecutionStoreAnswer}
    (hstep : (memoryExecutions states).step m op = some (m', answer)) {id : String}
    {execution : ExecutionRecord} (hlook : m.lookup id = some execution) :
    ∃ execution', m'.lookup id = some execution' ∧ SameExecution execution execution' := by
  unfold memoryExecutions at hstep
  dsimp only at hstep
  cases op with
  | create created fits =>
      dsimp only at hstep
      unfold MemoryExecutionStore.create at hstep
      split_ifs at hstep with hmem
      · cases hstep
        exact ⟨execution, hlook, .refl execution⟩
      · cases hstep
        -- the new record has another id
        have hne : id ≠ created.executionId := by
          intro heq
          exact hmem (heq ▸ Finmap.mem_of_lookup_eq_some hlook)
        rw [HashMap.lookup_insert_ite, if_neg hne]
        exact ⟨execution, hlook, .refl execution⟩
  | get executionId =>
      cases hstep
      exact ⟨execution, hlook, .refl execution⟩
  | updateState executionId state fits now =>
      dsimp only at hstep
      unfold MemoryExecutionStore.updateState at hstep
      rcases hold : m.lookup executionId with _ | old
      · rw [hold] at hstep
        cases hstep
        exact ⟨execution, hlook, .refl execution⟩
      · rw [hold] at hstep
        cases hstep
        rw [HashMap.lookup_insert_ite]
        split_ifs with hid
        · rw [hid, hold, Option.some.injEq] at hlook
          subst hlook
          exact ⟨_, rfl, rfl, rfl, rfl, rfl, rfl⟩
        · exact ⟨execution, hlook, .refl execution⟩

theorem sameExecution_steps {q : List (ExecutionStoreOp states × ExecutionStoreAnswer)}
    (h : (memoryExecutions states).Steps m q m') {id : String} {execution : ExecutionRecord}
    (hlook : m.lookup id = some execution) :
    ∃ execution', m'.lookup id = some execution' ∧ SameExecution execution execution' := by
  induction h with
  | refl => exact ⟨execution, hlook, .refl execution⟩
  | snoc _ hstep ih =>
      obtain ⟨execution₁, hlook₁, hsame₁⟩ := ih
      obtain ⟨execution₂, hlook₂, hsame₂⟩ := sameExecution_step hstep hlook₁
      exact ⟨execution₂, hlook₂, hsame₁.trans hsame₂⟩

end Immutable

/-- The store in Redis refines the in-memory one: for every sequence of
operations, the two give the same answers, up to rounding times to the
millisecond; a record that was created reads back as it was, and no read ever
fails; and in neither store does any operation change a record's ids or its
creation time. -/
theorem redis_executions_refine_memory (r : RedisExecutionStore) :
    (∀ actions, ∃ tr ks tr' m, (redisExecutions r).Run tr ks ∧
      (memoryExecutions r.states).Run tr' m ∧ tr.map Prod.fst = actions ∧
      tr'.map Prod.fst = actions.map Prod.snd ∧
      tr.map Prod.snd = tr'.map fun x => x.2.rounded) ∧
    (∀ tr ks, (redisExecutions r).Run tr ks →
      (∀ x ∈ tr, ∀ e, x.2 ≠ .got (.error e)) ∧
      (∀ execution t t', FitsI32 r.states execution.state →
        (r.create ks execution t).2 = .ok () →
        r.get (r.create ks execution t).1 execution.executionId t' =
          .ok (some execution.rounded)) ∧
      ∀ q ks' id t t' execution, (redisExecutions r).Steps ks q ks' →
        r.get ks id t = .ok (some execution) →
        ∃ execution', r.get ks' id t' = .ok (some execution') ∧
          SameExecution execution execution') ∧
    (∀ m q m' id execution, (memoryExecutions r.states).Steps m q m' →
      m.lookup id = some execution →
      ∃ execution', m'.lookup id = some execution' ∧ SameExecution execution execution') := by
  refine ⟨?_, ?_, ?_⟩
  · intro actions
    obtain ⟨tr, ks, tr', m, hks, hm, hacts, hacts', hans, -⟩ :=
      executions_steps (RedisExecutionStore.encodes_empty r) actions
    exact ⟨tr, ks, tr', m, hks, hm, hacts, hacts', hans⟩
  · intro tr ks hrun
    obtain ⟨tr', m, hm, hans, henc⟩ := redisExecutions_encodes hrun
    refine ⟨?_, ?_, ?_⟩
    · exact redisExecutions_got hrun
    · intro execution t t' hfits hok
      rcases RedisExecutionStore.create_encodes henc hfits t with
        ⟨e, -, hredis⟩ | ⟨m', ks', hmem, hredis, hnext⟩
      · rw [hredis] at hok
        cases hok
      · rw [hredis, RedisExecutionStore.get_encodes hnext]
        unfold MemoryExecutionStore.create at hmem
        split_ifs at hmem
        cases hmem
        rw [Finmap.lookup_insert]
        rfl
    · intro q ks' id t t' execution hsteps hget
      obtain ⟨q', ks₁, tr₁, m', hks, hm', hacts, -, -, henc'⟩ :=
        executions_steps henc (q.map Prod.fst)
      obtain ⟨rfl, rfl⟩ := hks.eq_of_acts hsteps hacts
      rw [RedisExecutionStore.get_encodes henc, Except.ok.injEq, Option.map_eq_some_iff] at hget
      obtain ⟨stored, hlook, rfl⟩ := hget
      obtain ⟨stored', hlook', hsame⟩ := sameExecution_steps hm' hlook
      refine ⟨stored'.rounded, ?_, hsame.rounded⟩
      rw [RedisExecutionStore.get_encodes henc', hlook']
      rfl
  · intro m q m' id execution hsteps hlook
    exact sameExecution_steps hsteps hlook

/-- A record created 1.5 ms after the epoch. -/
def plainRecord : ExecutionRecord where
  executionId := "x"
  jobId := "j"
  assignmentId := "a"
  workerId := "w"
  state := .assigned
  createdAt := 1500000
  updatedAt := 1500000

def numberedStore : RedisExecutionStore := { keyPrefix := "tw", states := numberedStates }

/-- A record is created twice, updated before the epoch, and read. -/
def oneRecordActions : List (Instant × ExecutionStoreOp numberedStore.states) :=
  [(0, .updateState "x" .running (by decide) 0), (1, .create plainRecord (by decide)),
   (2, .create plainRecord (by decide)), (3, .updateState "x" .running (by decide) (-7)),
   (4, .get "x"), (5, .get "y")]

theorem redis_executions_refine_memory_oneRecord : ∃ tr ks,
    (redisExecutions numberedStore).Run tr ks ∧ tr.map Prod.fst = oneRecordActions ∧
    tr.map Prod.snd = [.updated (.error "execution not found"), .created (.ok ()),
      .created (.error "execution already exists"), .updated (.ok ()),
      .got (.ok (some { plainRecord with
        state := .running
        createdAt := 1000000
        updatedAt := 0 })), .got (.ok none)] ∧
    ∀ x ∈ tr, ∀ e, x.2 ≠ .got (.error e) := by
  obtain ⟨tr, ks, hrun, hacts, hans⟩ :=
    Machine.run_of_exec (redisExecutions numberedStore) oneRecordActions
      (P := fun tr _ => tr.map Prod.snd = [.updated (.error "execution not found"),
        .created (.ok ()), .created (.error "execution already exists"), .updated (.ok ()),
        .got (.ok (some { plainRecord with
          state := .running
          createdAt := 1000000
          updatedAt := 0 })), .got (.ok none)]) (by decide +kernel)
  exact ⟨tr, ks, hrun, hacts, hans,
    ((redis_executions_refine_memory numberedStore).2.1 tr ks hrun).1⟩

end ThreadWeave.Core
