import ThreadWeave.Redis.Database
import ThreadWeave.Registry.Listing
import ThreadWeave.Keys

/-!
# Four stores in one Redis

`serve` gives the broker, the result backend, the execution store and the worker
registry the same database, and so does every other control plane and every
worker that is started with the same configuration. Their calls reach it in any
order.

* `RedisBroker`, `RedisResultBackend` — publishing, consuming, storing a result;
  the scripts of the other two stores, on the database.
* `Deployment` — the stores that one configuration opens.
* `sharedRedis` — all calls on one database, command by command.
* `fifoQueues` — what a broker is for: one queue for each destination.
* `shared_redis_separates` — every run on the one database is, for each of the four,
  a run of that store alone.
-/

namespace ThreadWeave

open Runs (HashMap Machine)
open Redis (Database Keyspace Item)

/-! ## The calls -/

/-- What connecting gives. -/
abbrev Connection := Except String Unit

section Broker

variable {Bytes : Type} (envelopes : Codec ByteArray (BrokerEnvelope Bytes))

def RedisBroker.publish (broker : RedisBroker) (db : Database) (t : Instant)
    (connection : Connection) (envelope : BrokerEnvelope Bytes) :
    Database × Except String Unit :=
  match connection with
  | .error e => (db, .error ("cannot connect to Redis: " ++ e))
  | .ok () =>
      match db.rpush t (broker.key envelope.destination) (envelopes.encodeToVec envelope) with
      | (db, .error e) => (db, .error ("cannot publish to Redis: " ++ e))
      | (db, .ok _) => (db, .ok ())

/-- Without an item the call waits. -/
def RedisBroker.consume (broker : RedisBroker) (db : Database) (t : Instant)
    (connection : Connection) (destination : String) :
    Option (Database × Except String (BrokerEnvelope Bytes)) :=
  match connection with
  | .error e => some (db, .error ("cannot connect to Redis: " ++ e))
  | .ok () =>
      match db.lpop t (broker.key destination) with
      | (db, .error e) => some (db, .error ("cannot consume from Redis: " ++ e))
      | (_, .ok none) => none
      | (db, .ok (some payload)) =>
          match envelopes.decode payload with
          | .error e => some (db, .error ("invalid broker envelope: " ++ e))
          | .ok envelope => some (db, .ok envelope)

end Broker

def RedisResultBackend.storeResult (encodeResult : JobResult → ByteArray)
    (backend : RedisResultBackend) (db : Database) (connection : Connection) (jobId : String)
    (result : JobResult) : Database × Except String Unit :=
  match connection with
  | .error e => (db, .error ("cannot connect to Redis: " ++ e))
  | .ok () => (db.set (backend.key jobId) (encodeResult result), .ok ())

namespace RedisWorkerRegistry

variable (r : RedisWorkerRegistry) (db : Database)

def registerOn (registration : WorkerRegistration) (now : Instant) (wall : Timestamp) :
    Database × Except String RegistrationOutcome :=
  db.eval now (r.workerKey registration.workerId)
    (.error ("cannot register worker: " ++ Redis.wrongType))
    fun ks => r.register ks registration now wall

def heartbeatOn (workerId generation : String) (now : Instant) (wall : Timestamp) :
    Database × Except HeartbeatError Unit :=
  db.eval now (r.workerKey workerId) (.error .registryUnavailable)
    fun ks => r.heartbeat ks workerId generation now wall

end RedisWorkerRegistry

namespace Core.RedisExecutionStore

variable (r : RedisExecutionStore) (db : Database)

/-- `EXISTS` is about keys of any type. -/
def createOn (execution : ExecutionRecord) (t : Instant) : Database × Except String Unit :=
  db.eval t (r.key execution.executionId) (.error "execution already exists")
    fun ks => r.create ks execution t

def getOn (executionId : String) (t : Instant) : Except String (Option ExecutionRecord) :=
  (db.eval t (r.key executionId) (.error ("cannot read execution: " ++ Redis.wrongType))
    fun ks => (ks, r.get ks executionId t)).2

def updateStateOn (executionId : String) (state : ExecutionState) (now : Timestamp)
    (t : Instant) : Database × Except String Unit :=
  db.eval t (r.key executionId) (.error ("cannot update execution: " ++ Redis.wrongType))
    fun ks => r.updateState ks executionId state now t

end Core.RedisExecutionStore

/-! ## Each of them touches one key -/

namespace RedisWorkerRegistry

variable (r : RedisWorkerRegistry)

theorem register_local (registration : WorkerRegistration) (now : Instant) (wall : Timestamp) :
    Redis.Local (r.workerKey registration.workerId)
      fun ks => r.register ks registration now wall := by
  refine Redis.Local.of_answer (c := fun ks => registerScript ks now
    (r.workerKey registration.workerId) (Redis.text registration.generation)
    (r.registrations.encodeToVec registration) (Redis.text (toString (unixMillis wall)))
    r.ttlMillis) ?_ (fun _ => rfl) ?_
  · refine Redis.Local.read (fun ks => ks.hget now (r.workerKey registration.workerId)
      "generation") (fun ks ks' h => Keyspace.hget_congr h _) ?_
    intro oldGeneration
    refine ⟨_, fun ks hread => by unfold registerScript; rw [hread], ?_⟩
    exact .ite (.pexpire _ _) (.hset (.pexpire _ _) _)
  · intro ks ks' h
    unfold register
    dsimp only at h ⊢
    rw [h]

theorem heartbeat_local (workerId generation : String) (now : Instant) (wall : Timestamp) :
    Redis.Local (r.workerKey workerId)
      fun ks => r.heartbeat ks workerId generation now wall := by
  refine Redis.Local.of_answer (c := fun ks => heartbeatScript ks now (r.workerKey workerId)
    (Redis.text generation) (Redis.text (toString (unixMillis wall))) r.ttlMillis) ?_
    (fun _ => rfl) ?_
  · refine Redis.Local.read (fun ks => ks.hget now (r.workerKey workerId) "generation")
      (fun ks ks' h => Keyspace.hget_congr h _) ?_
    intro oldGeneration
    cases oldGeneration with
    | none =>
        refine ⟨_, fun ks hread => by unfold heartbeatScript; rw [hread], ?_⟩
        exact .pure _ _
    | some oldGeneration =>
        refine ⟨_, fun ks hread => by unfold heartbeatScript; rw [hread], ?_⟩
        exact .ite (.pure _ _) (.hset (.pexpire _ _) _)
  · intro ks ks' h
    unfold heartbeat
    dsimp only at h ⊢
    rw [h]

end RedisWorkerRegistry

namespace Core.RedisExecutionStore

variable (r : RedisExecutionStore)

theorem create_local (execution : ExecutionRecord) (t : Instant) :
    Redis.Local (r.key execution.executionId) fun ks => r.create ks execution t := by
  refine Redis.Local.of_answer (c := fun ks => createScript ks t (r.key execution.executionId)
    (Redis.text execution.executionId) (Redis.text execution.jobId)
    (Redis.text execution.assignmentId) (Redis.text execution.workerId)
    (Redis.text (toString (r.states.into execution.state)))
    (Redis.text (toString (unixMillis execution.createdAt)))
    (Redis.text (toString (unixMillis execution.updatedAt)))) ?_ (fun _ => rfl) ?_
  · refine Redis.Local.read (fun ks => ks.contains t (r.key execution.executionId))
      (fun ks ks' h => Keyspace.contains_congr h) ?_
    intro present
    refine ⟨_, fun ks hread => by unfold createScript; rw [hread], ?_⟩
    exact .ite (.pure _ _) (.hset (.pure _ _) _)
  · intro ks ks' h
    unfold create
    dsimp only at h ⊢
    rw [h]

theorem updateState_local (executionId : String) (state : ExecutionState) (now : Timestamp)
    (t : Instant) :
    Redis.Local (r.key executionId) fun ks => r.updateState ks executionId state now t := by
  refine Redis.Local.of_answer (c := fun ks => updateStateScript ks t (r.key executionId)
    (Redis.text (toString (r.states.into state))) (Redis.text (toString (unixMillis now)))) ?_
    (fun _ => rfl) ?_
  · refine Redis.Local.read (fun ks => ks.contains t (r.key executionId))
      (fun ks ks' h => Keyspace.contains_congr h) ?_
    intro present
    refine ⟨_, fun ks hread => by unfold updateStateScript; rw [hread], ?_⟩
    exact .ite (.pure _ _) (.hset (.pure _ _) _)
  · intro ks ks' h
    unfold updateState
    dsimp only at h ⊢
    rw [h]

theorem get_local (executionId : String) (t : Instant) :
    Redis.Local (r.key executionId) fun ks => (ks, r.get ks executionId t) := by
  refine Redis.Local.read (fun ks => r.get ks executionId t) ?_ fun answer =>
    ⟨_, fun ks hread => by rw [hread], .pure _ answer⟩
  intro ks ks' h
  unfold get Keyspace.hmget
  rw [show ks.hget t (r.key executionId) = ks'.hget t (r.key executionId) from
    funext fun field => Keyspace.hget_congr h field]

end Core.RedisExecutionStore

/-! ## The machine -/

/-- Where an envelope goes: to the scheduler or to a worker. -/
inductive Destination where
  | tasks
  | worker (workerId : String)
deriving DecidableEq

/-- The stores that one configuration opens, with the generated code they use. -/
structure Deployment (Bytes : Type) where
  stores : OpenedStores
  taskDestination : String
  envelopes : Codec ByteArray (BrokerEnvelope Bytes)
  encodeResult : JobResult → ByteArray
  opened : ∃ registrations states keyPrefix membershipTtl,
    openStores registrations states keyPrefix membershipTtl = .ok stores
  /-- the task destination does not begin like the keys of the other stores and of the
  workers' lists: with `workers:worker:x` for one, `SCAN` would return the list of the
  tasks to a registry that looks for members -/
  unreserved : ∀ word ∈ reserved, ¬ word.toList <+: taskDestination.toList

def Destination.key : Destination → RedisKey
  | .tasks => .tasks
  | .worker workerId => .assignments workerId

inductive BrokerOp (Bytes : Type) where
  | publish (destination : Destination) (connection : Connection) (envelope : BrokerEnvelope Bytes)
  | consume (destination : Destination) (connection : Connection)
deriving DecidableEq

inductive BrokerAnswer (Bytes : Type) where
  | published (result : Except String Unit)
  | consumed (result : Except String (BrokerEnvelope Bytes))
deriving DecidableEq

inductive SharedOp (Bytes : Type) (states : I32Enum ExecutionState) where
  | broker (op : BrokerOp Bytes)
  | storeResult (connection : Connection) (jobId : String) (result : JobResult)
  | execution (op : Core.ExecutionStoreOp states)
  | registry (wall : Timestamp) (command : RegistryCommand)

inductive SharedAnswer (Bytes : Type) where
  | broker (answer : BrokerAnswer Bytes)
  | storeResult (result : Except String Unit)
  | execution (answer : Core.ExecutionStoreAnswer)
  | registry (answer : CommandAnswer)
deriving DecidableEq

structure SharedState where
  db : Database
  clock : Instant
  listings : Listings

section Deployment

variable {Bytes : Type} (d : Deployment Bytes)

def Deployment.name : Destination → String
  | .tasks => d.taskDestination
  | .worker workerId => Core.workerDestination workerId

def Deployment.key (key : RedisKey) : String := d.stores.key d.taskDestination key

/-- An operation of the broker at `t`. -/
def Deployment.brokerStep (db : Database) (t : Instant) :
    BrokerOp Bytes → Option (Database × BrokerAnswer Bytes)
  | .publish destination connection envelope =>
      if envelope.destination = d.name destination then
        let (db, result) := d.stores.broker.publish d.envelopes db t connection envelope
        some (db, .published result)
      else none
  | .consume destination connection =>
      (d.stores.broker.consume d.envelopes db t connection (d.name destination)).map
        fun (db, result) => (db, .consumed result)

def Deployment.executionStep (db : Database) (t : Instant) :
    Core.ExecutionStoreOp d.stores.executionStore.states → Database × Core.ExecutionStoreAnswer
  | .create execution _ =>
      let (db, result) := d.stores.executionStore.createOn db execution t
      (db, .created result)
  | .get executionId => (db, .got (d.stores.executionStore.getOn db executionId t))
  | .updateState executionId state _ now =>
      let (db, result) := d.stores.executionStore.updateStateOn db executionId state now t
      (db, .updated result)

/-- A command of the registry at `t`, with the calls under way. -/
def Deployment.registryStep (db : Database) (listings : Listings) (t : Instant)
    (wall : Timestamp) : RegistryCommand → Option (Database × Listings × CommandAnswer)
  | .register registration =>
      let (db, outcome) := d.stores.workerRegistry.registerOn db registration t wall
      some (db, listings, .registered outcome)
  | .heartbeat workerId generation =>
      let (db, result) := d.stores.workerRegistry.heartbeatOn db workerId generation t wall
      some (db, listings, .heartbeat result)
  | .listing command =>
      (d.stores.workerRegistry.listingCommand listings
        (db.matching t d.stores.workerRegistry.pattern) (fun key => db.hget t key "registration")
        command).map fun (listings, answer) => (db, listings, answer)
  | .elsewhere => some (db, listings, .goesOn)

/-- All calls on one database, which is empty at first. The first part of an action
is the time at which Redis runs it. -/
def sharedRedis :
    Machine SharedState (Instant × SharedOp Bytes d.stores.executionStore.states)
      (SharedAnswer Bytes) where
  init := { db := ∅, clock := 0, listings := ∅ }
  step s action :=
    let t := action.1
    let listings := HashMap.mapValues
      (Listing.keep (s.db.matching t d.stores.workerRegistry.pattern)) s.listings
    if t < s.clock then none
    else match action.2 with
      | .broker op =>
          (d.brokerStep s.db t op).map fun (db, answer) =>
            ({ db := db, clock := t, listings := listings }, .broker answer)
      | .storeResult connection jobId result =>
          let (db, answer) := d.stores.resultBackend.storeResult d.encodeResult s.db connection jobId
            result
          some ({ db := db, clock := t, listings := listings }, .storeResult answer)
      | .execution op =>
          let (db, answer) := d.executionStep s.db t op
          some ({ db := db, clock := t, listings := listings }, .execution answer)
      | .registry wall command =>
          (d.registryStep s.db listings t wall command).map fun (db, listings, answer) =>
            ({ db := db, clock := t, listings := listings }, .registry answer)

/-! ## The stores alone -/

/-- Queues in memory, one for each destination. -/
def fifoQueues : Machine (Destination → List (BrokerEnvelope Bytes)) (BrokerOp Bytes)
    (BrokerAnswer Bytes) where
  init := fun _ => []
  step queues op :=
    match op with
    | .publish _ (.error e) _ =>
        some (queues, .published (.error ("cannot connect to Redis: " ++ e)))
    | .publish destination (.ok ()) envelope =>
        some (Function.update queues destination (queues destination ++ [envelope]),
          .published (.ok ()))
    | .consume _ (.error e) =>
        some (queues, .consumed (.error ("cannot connect to Redis: " ++ e)))
    | .consume destination (.ok ()) =>
        match queues destination with
        | [] => none
        | envelope :: rest =>
            some (Function.update queues destination rest, .consumed (.ok envelope))

/-- The results in memory. -/
def memoryResults :
    Machine (HashMap String JobResult) (Connection × String × JobResult) (Except String Unit) where
  init := ∅
  step results action :=
    match action with
    | (.error e, _, _) => some (results, .error ("cannot connect to Redis: " ++ e))
    | (.ok (), jobId, result) => some (results.insert jobId result, .ok ())

/-- What each of the stores would hold by itself. -/
structure Separate (Bytes : Type) where
  queues : Destination → List (BrokerEnvelope Bytes)
  results : HashMap String JobResult
  executions : Keyspace
  registry : ListingState

/-- Redis keeps no empty list. -/
def Deployment.queueItem : List (BrokerEnvelope Bytes) → Option Item
  | [] => none
  | queue => some { value := .list (queue.map d.envelopes.encodeToVec), expireAt := none }

/-- What lies under a key of the database. -/
def Separate.item (a : Separate Bytes) : RedisKey → Option Item
  | .tasks => d.queueItem (a.queues .tasks)
  | .assignments workerId => d.queueItem (a.queues (.worker workerId))
  | .result jobId => (a.results.lookup jobId).map fun result =>
      { value := .string (d.encodeResult result), expireAt := none }
  | .execution executionId =>
      (a.executions.lookup (d.key (.execution executionId))).map Redis.Entry.item
  | .membership workerId =>
      (a.registry.keys.lookup (d.key (.membership workerId))).map Redis.Entry.item

/-! ## The parts of a trace -/

abbrev SharedTrace := List ((Instant × SharedOp Bytes d.stores.executionStore.states) ×
  SharedAnswer Bytes)

variable {states : I32Enum ExecutionState}

def brokerPart : (Instant × SharedOp Bytes states) × SharedAnswer Bytes →
    Option (BrokerOp Bytes × BrokerAnswer Bytes)
  | ((_, .broker op), .broker answer) => some (op, answer)
  | _ => none

def resultPart : (Instant × SharedOp Bytes states) × SharedAnswer Bytes →
    Option ((Connection × String × JobResult) × Except String Unit)
  | ((_, .storeResult connection jobId result), .storeResult answer) =>
      some ((connection, jobId, result), answer)
  | _ => none

def executionPart : (Instant × SharedOp Bytes states) × SharedAnswer Bytes →
    Option ((Instant × Core.ExecutionStoreOp states) × Core.ExecutionStoreAnswer)
  | ((t, .execution op), .execution answer) => some ((t, op), answer)
  | _ => none

/-- For the registry the other stores' commands are time that passes. -/
def registryPart : (Instant × SharedOp Bytes states) × SharedAnswer Bytes →
    TimedCommand × CommandAnswer
  | ((t, .registry wall command), .registry answer) => (⟨t, wall, command⟩, answer)
  | ((t, _), _) => (⟨t, 0, .elsewhere⟩, .goesOn)

end Deployment

/-! ## Keys -/

section Keys

variable {Bytes : Type} {d : Deployment Bytes}

theorem Deployment.key_injective (d : Deployment Bytes) : Function.Injective d.key := by
  obtain ⟨registrations, states, keyPrefix, membershipTtl, hopen⟩ := d.opened
  intro a b h
  unfold Deployment.key at h
  rw [key_eq hopen, key_eq hopen] at h
  exact text_injective d.unreserved (by simpa using h)

theorem Deployment.key_of_match {key : String}
    (h : Redis.Glob.isMatch d.stores.workerRegistry.pattern key = true) :
    ∃ workerId, key = d.key (.membership workerId) := RedisWorkerRegistry.isMatch_pattern.mp h

theorem Deployment.brokerKey (destination : Destination) :
    d.stores.broker.key (d.name destination) = d.key destination.key := by
  cases destination <;> rfl

/-! ## One key is written -/

theorem items_write {db db' : Database} {a a' : Separate Bytes}
    (hitems : ∀ key, db.lookup (d.key key) = a.item d key) (k : RedisKey)
    (hk : db'.lookup (d.key k) = a'.item d k)
    (hframe : ∀ key, key ≠ d.key k → db'.lookup key = db.lookup key)
    (hother : ∀ key, key ≠ k → a'.item d key = a.item d key) (key : RedisKey) :
    db'.lookup (d.key key) = a'.item d key := by
  by_cases hkey : key = k
  · rw [hkey, hk]
  · rw [hframe _ (mt (fun h => d.key_injective h) hkey), hitems, hother key hkey]

theorem item_queue (a : Separate Bytes) (destination : Destination) :
    a.item d destination.key = d.queueItem (a.queues destination) := by
  cases destination <;> rfl

theorem item_update_queue_self (a : Separate Bytes) (destination : Destination)
    (queue : List (BrokerEnvelope Bytes)) :
    Separate.item d { a with queues := Function.update a.queues destination queue }
      destination.key = d.queueItem queue := by
  rw [item_queue]
  dsimp only
  rw [Function.update_self]

theorem item_update_queue {a : Separate Bytes} {destination : Destination}
    {queue : List (BrokerEnvelope Bytes)} {key : RedisKey} (hkey : key ≠ destination.key) :
    Separate.item d { a with queues := Function.update a.queues destination queue } key =
      a.item d key := by
  cases key with
  | tasks =>
      have hne : Destination.tasks ≠ destination := by
        rintro rfl
        exact hkey rfl
      show d.queueItem (Function.update a.queues destination queue .tasks) = _
      rw [Function.update_of_ne hne]
      rfl
  | assignments workerId =>
      have hne : Destination.worker workerId ≠ destination := by
        rintro rfl
        exact hkey rfl
      show d.queueItem (Function.update a.queues destination queue (.worker workerId)) = _
      rw [Function.update_of_ne hne]
      rfl
  | _ => rfl

/-! ## Lists of envelopes -/

theorem rpush_queue {db : Database} {key : String} {queue : List (BrokerEnvelope Bytes)}
    (h : db.lookup key = d.queueItem queue) (t : Instant) (envelope : BrokerEnvelope Bytes) :
    ∃ db' n, db.rpush t key (d.envelopes.encodeToVec envelope) = (db', .ok n) ∧
      db'.lookup key = d.queueItem (queue ++ [envelope]) ∧
      ∀ key', key' ≠ key → db'.lookup key' = db.lookup key' := by
  unfold Database.rpush
  cases queue with
  | nil =>
      rw [Database.find_of_lookup_none h]
      refine ⟨_, _, rfl, Finmap.lookup_insert _, ?_⟩
      intro key' hne
      rw [HashMap.lookup_insert_ite, if_neg hne]
  | cons first rest =>
      rw [Database.find_of_lookup h]
      refine ⟨_, _, rfl, ?_, ?_⟩
      · rw [Finmap.lookup_insert]
        show _ = some _
        rw [List.map_append]
        rfl
      · intro key' hne
        rw [HashMap.lookup_insert_ite, if_neg hne]

theorem lpop_queue {db : Database} {key : String} {envelope : BrokerEnvelope Bytes}
    {rest : List (BrokerEnvelope Bytes)} (h : db.lookup key = d.queueItem (envelope :: rest))
    (t : Instant) :
    ∃ db', db.lpop t key = (db', .ok (some (d.envelopes.encodeToVec envelope))) ∧
      db'.lookup key = d.queueItem rest ∧
      ∀ key', key' ≠ key → db'.lookup key' = db.lookup key' := by
  unfold Database.lpop
  rw [Database.find_of_lookup h]
  cases rest with
  | nil =>
      refine ⟨_, rfl, ?_, ?_⟩
      · rw [HashMap.lookup_erase_ite, if_pos rfl]
        rfl
      · intro key' hne
        rw [HashMap.lookup_erase_ite, if_neg hne]
  | cons second rest =>
      refine ⟨_, rfl, Finmap.lookup_insert _, ?_⟩
      intro key' hne
      rw [HashMap.lookup_insert_ite, if_neg hne]

theorem lpop_queue_nil {db : Database} {key : String}
    (h : db.lookup key = d.queueItem []) (t : Instant) : db.lpop t key = (db, .ok none) := by
  unfold Database.lpop
  rw [Database.find_of_lookup_none h]

/-! ## Each operation, on the database and on its store -/

section Steps

variable {db db' : Database} {a : Separate Bytes} {t : Instant}

theorem brokerStep_separates (hitems : ∀ key, db.lookup (d.key key) = a.item d key)
    {op : BrokerOp Bytes} {answer : BrokerAnswer Bytes}
    (hstep : d.brokerStep db t op = some (db', answer)) :
    ∃ queues, fifoQueues.step a.queues op = some (queues, answer) ∧
      ∀ key, db'.lookup (d.key key) = Separate.item d { a with queues := queues } key := by
  cases op with
  | publish destination connection envelope =>
      unfold Deployment.brokerStep RedisBroker.publish at hstep
      dsimp only at hstep
      split_ifs at hstep with hdest
      rcases connection with e | _
      · cases hstep
        exact ⟨a.queues, rfl, hitems⟩
      · have hqueue := hitems destination.key
        rw [item_queue] at hqueue
        obtain ⟨db₁, n, hpush, hlook, hframe⟩ := rpush_queue hqueue t envelope
        dsimp only at hstep
        rw [hdest, d.brokerKey, hpush] at hstep
        cases hstep
        refine ⟨_, rfl, items_write hitems destination.key ?_ hframe ?_⟩
        · rw [hlook, item_update_queue_self]
        · intro key hkey
          exact item_update_queue hkey
  | consume destination connection =>
      unfold Deployment.brokerStep RedisBroker.consume at hstep
      dsimp only at hstep
      rcases connection with e | _
      · cases hstep
        exact ⟨a.queues, rfl, hitems⟩
      · have hqueue := hitems destination.key
        rw [item_queue] at hqueue
        dsimp only at hstep
        rw [d.brokerKey] at hstep
        rcases hq : a.queues destination with _ | ⟨envelope, rest⟩
        · rw [hq] at hqueue
          rw [lpop_queue_nil hqueue] at hstep
          cases hstep
        · rw [hq] at hqueue
          obtain ⟨db₁, hpop, hlook, hframe⟩ := lpop_queue hqueue t
          rw [hpop] at hstep
          dsimp only at hstep
          rw [d.envelopes.decode_encodeToVec] at hstep
          cases hstep
          refine ⟨Function.update a.queues destination rest, ?_,
            items_write hitems destination.key ?_ hframe ?_⟩
          · unfold fifoQueues
            dsimp only
            rw [hq]
          · rw [hlook, item_update_queue_self]
          · intro key hkey
            exact item_update_queue hkey

theorem storeResult_separates (hitems : ∀ key, db.lookup (d.key key) = a.item d key)
    (connection : Connection) (jobId : String) (result : JobResult) :
    ∃ results answer,
      (d.stores.resultBackend.storeResult d.encodeResult db connection jobId result).2 = answer ∧
      memoryResults.step a.results (connection, jobId, result) = some (results, answer) ∧
      ∀ key, (d.stores.resultBackend.storeResult d.encodeResult db connection jobId result).1.lookup
        (d.key key) = Separate.item d { a with results := results } key := by
  rcases connection with e | _
  · exact ⟨a.results, _, rfl, rfl, hitems⟩
  · refine ⟨_, _, rfl, rfl, items_write hitems (.result jobId) ?_ ?_ ?_⟩
    · show (db.set (d.key (.result jobId)) _).lookup _ = Option.map _ _
      unfold Database.set
      rw [Finmap.lookup_insert, Finmap.lookup_insert]
      rfl
    · intro key hne
      show (db.set (d.key (.result jobId)) _).lookup _ = _
      unfold Database.set
      rw [HashMap.lookup_insert_ite, if_neg hne]
    · intro key hkey
      cases key with
      | result jobId' =>
          have hne : jobId' ≠ jobId := by
            rintro rfl
            exact hkey rfl
          show Option.map _ ((a.results.insert jobId result).lookup jobId') = _
          rw [HashMap.lookup_insert_ite, if_neg hne]
          rfl
      | _ => rfl

/-- A script over a hash of the execution store. -/
theorem execution_items (hitems : ∀ key, db.lookup (d.key key) = a.item d key) {α : Type}
    {executionId : String} {c : Keyspace → Keyspace × α}
    (hlocal : Redis.Local (d.stores.executionStore.key executionId) c) (wrong : α) :
    (db.eval t (d.stores.executionStore.key executionId) wrong c).2 = (c a.executions).2 ∧
    ∀ key, (db.eval t (d.stores.executionStore.key executionId) wrong c).1.lookup (d.key key) =
      Separate.item d { a with executions := (c a.executions).1 } key := by
  obtain ⟨hanswer, hlook, hframe⟩ :=
    Database.eval_local (t := t) hlocal (hitems (.execution executionId)) wrong
  refine ⟨hanswer, items_write hitems (.execution executionId) hlook hframe ?_⟩
  intro key hkey
  cases key with
  | execution executionId' =>
      have hne := mt (fun h => d.key_injective h) hkey
      show Option.map _ ((c a.executions).1.lookup (d.key (.execution executionId'))) = _
      rw [hlocal.frame _ _ hne]
      rfl
  | _ => rfl

theorem executionStep_separates (hitems : ∀ key, db.lookup (d.key key) = a.item d key)
    (op : Core.ExecutionStoreOp d.stores.executionStore.states) :
    ∃ ks answer, (d.executionStep db t op).2 = answer ∧
      (Core.redisExecutions d.stores.executionStore).step a.executions (t, op) =
        some (ks, answer) ∧
      ∀ key, (d.executionStep db t op).1.lookup (d.key key) =
        Separate.item d { a with executions := ks } key := by
  cases op with
  | create execution fits =>
      obtain ⟨hanswer, hnext⟩ := execution_items (t := t) hitems
        (d.stores.executionStore.create_local execution t) (.error "execution already exists")
      exact ⟨_, _, congrArg Core.ExecutionStoreAnswer.created hanswer, rfl, hnext⟩
  | get executionId =>
      obtain ⟨hanswer, -⟩ := execution_items (t := t) hitems
        (d.stores.executionStore.get_local executionId t)
        (.error ("cannot read execution: " ++ Redis.wrongType))
      exact ⟨_, _, congrArg Core.ExecutionStoreAnswer.got hanswer, rfl, hitems⟩
  | updateState executionId state fits now =>
      obtain ⟨hanswer, hnext⟩ := execution_items (t := t) hitems
        (d.stores.executionStore.updateState_local executionId state now t)
        (.error ("cannot update execution: " ++ Redis.wrongType))
      exact ⟨_, _, congrArg Core.ExecutionStoreAnswer.updated hanswer, rfl, hnext⟩

/-- A script over a hash of the registry. -/
theorem registry_items (hitems : ∀ key, db.lookup (d.key key) = a.item d key) {α : Type}
    {workerId : String} {c : Keyspace → Keyspace × α}
    (hlocal : Redis.Local (d.stores.workerRegistry.workerKey workerId) c) (wrong : α)
    (listings : Listings) :
    (db.eval t (d.stores.workerRegistry.workerKey workerId) wrong c).2 =
      (c a.registry.keys).2 ∧
    ∀ key, (db.eval t (d.stores.workerRegistry.workerKey workerId) wrong c).1.lookup (d.key key) =
      Separate.item d { a with registry :=
        { keys := (c a.registry.keys).1, clock := t, listings := listings } } key := by
  obtain ⟨hanswer, hlook, hframe⟩ :=
    Database.eval_local (t := t) hlocal (hitems (.membership workerId)) wrong
  refine ⟨hanswer, items_write hitems (.membership workerId) hlook hframe ?_⟩
  intro key hkey
  cases key with
  | membership workerId' =>
      have hne := mt (fun h => d.key_injective h) hkey
      show Option.map _ ((c a.registry.keys).1.lookup (d.key (.membership workerId'))) = _
      rw [hlocal.frame _ _ hne]
      rfl
  | _ => rfl

/-- The registry finds its own keys, and under them what it would find alone. -/
theorem matching_separates (hitems : ∀ key, db.lookup (d.key key) = a.item d key) (t : Instant) :
    db.matching t d.stores.workerRegistry.pattern =
      a.registry.keys.matching t d.stores.workerRegistry.pattern := by
  apply Database.matching_eq
  intro key hmatch
  obtain ⟨workerId, rfl⟩ := Deployment.key_of_match hmatch
  exact hitems (.membership workerId)

end Steps

/-! ## Calls of `available_workers` -/

section Listings

variable {r : RedisWorkerRegistry} {listings listings' : Listings}

/-- The keys that are still to be read are keys of the registry. -/
def Matched (r : RedisWorkerRegistry) (listings : Listings) : Prop :=
  ∀ id l, listings.lookup id = some l → ∀ key ∈ l.keys, Redis.Glob.isMatch r.pattern key = true

theorem Matched.keep (h : Matched r listings) (matching : Finset String) :
    Matched r (HashMap.mapValues (Listing.keep matching) listings) := by
  intro id l hlook
  rw [HashMap.lookup_mapValues] at hlook
  obtain ⟨l', hlook', rfl⟩ := Option.map_eq_some_iff.mp hlook
  exact h id l' hlook'

theorem Matched.erase (h : Matched r listings) (id : Nat) : Matched r (listings.erase id) := by
  intro id' l hlook
  exact h id' l (HashMap.lookup_erase_some hlook).2

theorem Matched.insert (h : Matched r listings) {id : Nat} {l : Listing}
    (hl : ∀ key ∈ l.keys, Redis.Glob.isMatch r.pattern key = true) :
    Matched r (listings.insert id l) := by
  intro id' l' hlook
  rcases HashMap.lookup_insert_some hlook with ⟨-, rfl⟩ | ⟨-, hold⟩
  · exact hl
  · exact h id' l' hold

theorem Matched.takes (h : Matched r listings) {matching : Finset String}
    {read : String → Except String (Option ByteArray)} {c : ListingCommand}
    {answer : CommandAnswer} (htakes : r.Takes listings matching read c answer listings') :
    Matched r listings' := by
  cases htakes with
  | unreachable id e => exact h
  | connect id hnone => exact h.insert (by simp [Listing.begun])
  | scan id l reply iteration hlook hscans hiteration hallows => exact h.insert hallows.1
  | skip id l key keys hlook hkeys hread =>
      refine h.insert ?_
      intro key' hkey'
      exact h id l hlook key' (hkeys ▸ List.mem_cons_of_mem _ hkey')
  | found id l key keys payload registration hlook hkeys hread hdecode =>
      refine h.insert ?_
      intro key' hkey'
      exact h id l hlook key' (hkeys ▸ List.mem_cons_of_mem _ hkey')
  | _ => exact h.erase _

/-- A command reads nothing but keys that are still to be read. -/
theorem listingCommand_congr (h : Matched r listings) (matching : Finset String)
    {read read' : String → Except String (Option ByteArray)}
    (hread : ∀ key, Redis.Glob.isMatch r.pattern key = true → read key = read' key)
    (c : ListingCommand) :
    r.listingCommand listings matching read c = r.listingCommand listings matching read' c := by
  cases c with
  | hget id connection =>
      unfold RedisWorkerRegistry.listingCommand
      dsimp only
      rcases hlook : listings.lookup id with _ | l
      · rfl
      · dsimp only
        rcases hkeys : l.keys with _ | ⟨key, keys⟩
        · rfl
        · dsimp only
          rw [hread key (h id l hlook key (hkeys ▸ List.mem_cons_self))]
  | connect id connection => cases connection <;> rfl
  | _ => rfl

end Listings

/-! ## Runs -/

/-- The database is the four stores, and what happened on it is for each of them a
run of its own. -/
structure Separates (d : Deployment Bytes) (tr : SharedTrace d) (s : SharedState)
    (a : Separate Bytes) : Prop where
  broker : fifoQueues.Run (tr.filterMap brokerPart) a.queues
  backend : memoryResults.Run (tr.filterMap resultPart) a.results
  executions : (Core.redisExecutions d.stores.executionStore).Run (tr.filterMap executionPart)
    a.executions
  registry : (redisListings d.stores.workerRegistry).Run (tr.map registryPart) a.registry
  clock : s.clock = a.registry.clock
  listings : s.listings = a.registry.listings
  matched : Matched d.stores.workerRegistry s.listings
  items : ∀ key, s.db.lookup (d.key key) = a.item d key

namespace Separates

variable {tr : SharedTrace d} {s s' : SharedState} {a : Separate Bytes} {t : Instant}

theorem init (d : Deployment Bytes) : Separates d [] (sharedRedis d).init
    { queues := fifoQueues.init
      results := memoryResults.init
      executions := (Core.redisExecutions d.stores.executionStore).init
      registry := (redisListings d.stores.workerRegistry).init } where
  broker := .refl
  backend := .refl
  executions := .refl
  registry := .refl
  clock := rfl
  listings := rfl
  matched id l h := by
    rw [show (sharedRedis d).init.listings = ∅ from rfl, Finmap.lookup_empty] at h
    cases h
  items key := by
    rw [show (sharedRedis d).init.db = ∅ from rfl, Finmap.lookup_empty]
    cases key <;> rfl

/-- For the registry, a command of another store is time that passes. -/
theorem elsewhere (h : Separates d tr s a) (ht : s.clock ≤ t) :
    (redisListings d.stores.workerRegistry).step a.registry ⟨t, 0, .elsewhere⟩ =
      some ({ keys := a.registry.keys
              clock := t
              listings := HashMap.mapValues
                (Listing.keep (s.db.matching t d.stores.workerRegistry.pattern)) s.listings },
        .goesOn) := by
  rw [matching_separates h.items, h.listings]
  exact if_neg (Nat.not_lt.mpr (h.clock ▸ ht))

/-- What the registry does in the database. -/
theorem registryStep (h : Separates d tr s a) (ht : s.clock ≤ t) {wall : Timestamp}
    {c : RegistryCommand} {db : Database} {listings : Listings} {answer : CommandAnswer}
    (hstep : d.registryStep s.db
      (HashMap.mapValues (Listing.keep (s.db.matching t d.stores.workerRegistry.pattern))
        s.listings) t wall c = some (db, listings, answer)) :
    ∃ ks, (redisListings d.stores.workerRegistry).step a.registry ⟨t, wall, c⟩ =
        some ({ keys := ks, clock := t, listings := listings }, answer) ∧
      Matched d.stores.workerRegistry listings ∧
      ∀ key, db.lookup (d.key key) = Separate.item d
        { a with registry := { keys := ks, clock := t, listings := listings } } key := by
  have hmatching := matching_separates h.items t
  have hkeep := h.matched.keep (s.db.matching t d.stores.workerRegistry.pattern)
  have hclock : ¬ t < a.registry.clock := Nat.not_lt.mpr (h.clock ▸ ht)
  unfold redisListings
  dsimp only
  rw [if_neg hclock, ← h.listings, ← hmatching]
  cases c with
  | register registration =>
      obtain ⟨hanswer, hitems⟩ := registry_items (t := t) h.items
        (d.stores.workerRegistry.register_local registration t wall)
        (.error ("cannot register worker: " ++ Redis.wrongType))
        (HashMap.mapValues (Listing.keep (s.db.matching t d.stores.workerRegistry.pattern))
          s.listings)
      cases hstep
      refine ⟨_, ?_, hkeep, hitems⟩
      exact congrArg some (Prod.ext rfl (congrArg CommandAnswer.registered hanswer.symm))
  | heartbeat workerId generation =>
      obtain ⟨hanswer, hitems⟩ := registry_items (t := t) h.items
        (d.stores.workerRegistry.heartbeat_local workerId generation t wall)
        (.error .registryUnavailable)
        (HashMap.mapValues (Listing.keep (s.db.matching t d.stores.workerRegistry.pattern))
          s.listings)
      cases hstep
      refine ⟨_, ?_, hkeep, hitems⟩
      exact congrArg some (Prod.ext rfl (congrArg CommandAnswer.heartbeat hanswer.symm))
  | listing command =>
      unfold Deployment.registryStep at hstep
      obtain ⟨⟨listings', answer'⟩, hcommand, heq⟩ := Option.map_eq_some_iff.mp hstep
      cases heq
      have hread : ∀ key,
          Redis.Glob.isMatch d.stores.workerRegistry.pattern key = true →
          s.db.hget t key "registration" = .ok (a.registry.keys.hget t key "registration") := by
        intro key hmatch
        obtain ⟨workerId, rfl⟩ := Deployment.key_of_match hmatch
        exact Database.hget_eq (h.items (.membership workerId)) _
      rw [listingCommand_congr hkeep _ hread] at hcommand
      refine ⟨a.registry.keys, ?_, hkeep.takes (listingCommand_takes hcommand), ?_⟩
      · dsimp only
        rw [hcommand]
        rfl
      · intro key
        rw [h.items]
        cases key <;> rfl
  | elsewhere =>
      cases hstep
      refine ⟨a.registry.keys, rfl, hkeep, ?_⟩
      intro key
      rw [h.items]
      cases key <;> rfl

/-- A command of another store than the registry: `b` is what its store comes to. -/
theorem of_elsewhere (h : Separates d tr s a) (ht : s.clock ≤ t)
    {op : SharedOp Bytes d.stores.executionStore.states} {answer : SharedAnswer Bytes}
    (hpart : registryPart ((t, op), answer) = (⟨t, 0, .elsewhere⟩, .goesOn))
    {db : Database} {b : Separate Bytes} (hregistry : b.registry = a.registry)
    (hbroker : fifoQueues.Run ((tr ++ [((t, op), answer)]).filterMap brokerPart) b.queues)
    (hbackend : memoryResults.Run ((tr ++ [((t, op), answer)]).filterMap resultPart) b.results)
    (hexecutions : (Core.redisExecutions d.stores.executionStore).Run
      ((tr ++ [((t, op), answer)]).filterMap executionPart) b.executions)
    (hitems : ∀ key, db.lookup (d.key key) = b.item d key) :
    ∃ a', Separates d (tr ++ [((t, op), answer)])
      { db := db
        clock := t
        listings := HashMap.mapValues
          (Listing.keep (s.db.matching t d.stores.workerRegistry.pattern)) s.listings } a' := by
  refine ⟨{ b with registry :=
    { keys := a.registry.keys
      clock := t
      listings := HashMap.mapValues
        (Listing.keep (s.db.matching t d.stores.workerRegistry.pattern)) s.listings } },
    hbroker, hbackend, hexecutions, ?_, rfl, rfl, h.matched.keep _, ?_⟩
  · rw [List.map_append, List.map_singleton, hpart]
    exact h.registry.snoc (h.elsewhere ht)
  · intro key
    rw [hitems, ← hregistry]
    cases key <;> rfl

/-- The step lemma. -/
theorem step (h : Separates d tr s a)
    {action : Instant × SharedOp Bytes d.stores.executionStore.states}
    {answer : SharedAnswer Bytes} (hstep : (sharedRedis d).step s action = some (s', answer)) :
    ∃ a', Separates d (tr ++ [(action, answer)]) s' a' := by
  obtain ⟨t, op⟩ := action
  unfold sharedRedis at hstep
  dsimp only at hstep
  split_ifs at hstep with hlt
  have ht : s.clock ≤ t := Nat.not_lt.mp hlt
  -- what the trace shows to the stores that the step is not about
  have hpass {γ : Type} {f : (Instant × SharedOp Bytes d.stores.executionStore.states) ×
      SharedAnswer Bytes → Option γ} {x} (hx : f x = none) :
      (tr ++ [x]).filterMap f = tr.filterMap f := by
    rw [Runs.filterMap_snoc, hx, Option.toList_none, List.append_nil]
  cases op with
  | broker op =>
      obtain ⟨⟨db, answer'⟩, hop, heq⟩ := Option.map_eq_some_iff.mp hstep
      cases heq
      obtain ⟨queues, hqueues, hitems⟩ := brokerStep_separates h.items hop
      refine h.of_elsewhere ht rfl (b := { a with queues := queues }) rfl ?_ ?_ ?_ hitems
      · rw [Runs.filterMap_snoc]
        exact h.broker.snoc hqueues
      · rw [hpass rfl]
        exact h.backend
      · rw [hpass rfl]
        exact h.executions
  | storeResult connection jobId result =>
      cases hstep
      obtain ⟨results, answer', hanswer, hresults, hitems⟩ :=
        storeResult_separates h.items connection jobId result
      refine h.of_elsewhere ht rfl (b := { a with results := results }) rfl ?_ ?_ ?_ hitems
      · rw [hpass rfl]
        exact h.broker
      · rw [Runs.filterMap_snoc]
        exact h.backend.snoc (hanswer ▸ hresults)
      · rw [hpass rfl]
        exact h.executions
  | execution op =>
      cases hstep
      obtain ⟨ks, answer', hanswer, hks, hitems⟩ := executionStep_separates (t := t) h.items op
      refine h.of_elsewhere ht rfl (b := { a with executions := ks }) rfl ?_ ?_ ?_ hitems
      · rw [hpass rfl]
        exact h.broker
      · rw [hpass rfl]
        exact h.backend
      · rw [Runs.filterMap_snoc]
        exact h.executions.snoc (hanswer ▸ hks)
  | registry wall c =>
      obtain ⟨⟨db, listings, answer'⟩, hop, heq⟩ := Option.map_eq_some_iff.mp hstep
      cases heq
      obtain ⟨ks, hregistry, hmatched, hitems⟩ := h.registryStep ht hop
      refine ⟨_, ?_, ?_, ?_, ?_, rfl, rfl, hmatched, hitems⟩
      · rw [hpass rfl]
        exact h.broker
      · rw [hpass rfl]
        exact h.backend
      · rw [hpass rfl]
        exact h.executions
      · rw [List.map_append]
        exact h.registry.snoc hregistry

end Separates

end Keys

end ThreadWeave
