import ThreadWeave.Core.RedisStore
import ThreadWeave.Registry.Redis

/-!
# The keys in Redis

`serve` (`api/grpc.rs`) gives the broker, the result backend, the execution
store and the worker registry one Redis and one key prefix. Each builds its keys
from it in its own way; the registry finds its own ones by a pattern.

* `RedisKey` — the keys that are ever used, and `OpenedStores.key` their texts.
* `key_eq` — behind the common prefix and its colon each kind has its own words.
* `worker_scan` — the pattern selects the keys of the registry and no other.
-/

namespace ThreadWeave

/-! ## What `serve` opens -/

structure RedisBroker where
  keyPrefix : String

def RedisBroker.key (broker : RedisBroker) (destination : String) : String :=
  broker.keyPrefix ++ ":" ++ destination

structure RedisResultBackend where
  keyPrefix : String

def RedisResultBackend.key (backend : RedisResultBackend) (jobId : String) : String :=
  backend.keyPrefix ++ ":" ++ jobId

structure OpenedStores where
  broker : RedisBroker
  resultBackend : RedisResultBackend
  workerRegistry : RedisWorkerRegistry
  executionStore : Core.RedisExecutionStore

/-- The stores of `serve`, on the broker that `run_server` passes to it. -/
def openStores (registrations : Codec ByteArray WorkerRegistration)
    (states : I32Enum ExecutionState) (keyPrefix : String) (membershipTtl : Duration) :
    Except String OpenedStores :=
  match RedisWorkerRegistry.new registrations (keyPrefix ++ ":workers") membershipTtl with
  | .error error => .error error
  | .ok workerRegistry =>
      .ok
        { broker := { keyPrefix := keyPrefix }
          resultBackend := { keyPrefix := keyPrefix ++ ":results" }
          workerRegistry := workerRegistry
          executionStore := Core.RedisExecutionStore.new states (keyPrefix ++ ":executions") }

/-- The keys a deployment uses. -/
inductive RedisKey where
  | tasks
  | assignments (workerId : String)
  | result (jobId : String)
  | execution (executionId : String)
  | membership (workerId : String)
deriving DecidableEq

def OpenedStores.key (stores : OpenedStores) (taskDestination : String) : RedisKey → String
  | .tasks => stores.broker.key taskDestination
  | .assignments workerId => stores.broker.key (Core.workerDestination workerId)
  | .result jobId => stores.resultBackend.key jobId
  | .execution executionId => stores.executionStore.key executionId
  | .membership workerId => stores.workerRegistry.workerKey workerId

/-! ## Keys behind the common prefix -/

/-- What stands in a key behind the prefix of the broker. -/
def RedisKey.text (taskDestination : String) : RedisKey → String
  | .tasks => taskDestination
  | .assignments workerId => "workers." ++ workerId
  | .result jobId => "results:" ++ jobId
  | .execution executionId => "executions:" ++ executionId
  | .membership workerId => "workers:worker:" ++ workerId

theorem trimEndMatches_append {s t : String} {c d : Char} {cs : List Char}
    (ht : t.toList = cs ++ [d]) (hd : d ≠ c) : Rust.trimEndMatches (s ++ t) c = s ++ t := by
  unfold Rust.trimEndMatches
  rw [String.toList_append, ht, ← List.append_assoc, List.reverse_append, List.reverse_singleton,
    List.singleton_append, List.dropWhile_cons_of_neg (by simpa using hd)]
  rw [← String.toList_inj, String.toList_append, ht]
  simp

section Opened

variable {registrations : Codec ByteArray WorkerRegistration} {states : I32Enum ExecutionState}
  {keyPrefix : String} {membershipTtl : Duration} {stores : OpenedStores}

theorem workerRegistry_keyPrefix
    (h : openStores registrations states keyPrefix membershipTtl = .ok stores) :
    stores.workerRegistry.keyPrefix = keyPrefix ++ ":workers" := by
  have htrim : Rust.trimEndMatches (keyPrefix ++ ":workers") ':' = keyPrefix ++ ":workers" := by
    have hlast : ":workers".toList = [':', 'w', 'o', 'r', 'k', 'e', 'r'] ++ ['s'] := by decide
    exact trimEndMatches_append hlast (by decide)
  unfold openStores RedisWorkerRegistry.new at h
  split at h
  · cases h
  · rename_i registry hnew
    cases h
    split_ifs at hnew
    cases hnew
    exact htrim

/-- The prefixes end in a letter, so trimming their colons leaves them alone. -/
theorem key_eq (h : openStores registrations states keyPrefix membershipTtl = .ok stores)
    (taskDestination : String) (key : RedisKey) :
    stores.key taskDestination key = keyPrefix ++ ":" ++ key.text taskDestination := by
  have hregistry := workerRegistry_keyPrefix h
  have htrim : Rust.trimEndMatches (keyPrefix ++ ":executions") ':' =
      keyPrefix ++ ":executions" := by
    have hlast : ":executions".toList =
        [':', 'e', 'x', 'e', 'c', 'u', 't', 'i', 'o', 'n'] ++ ['s'] := by decide
    exact trimEndMatches_append hlast (by decide)
  unfold openStores at h
  split at h
  · cases h
  · cases h
    cases key with
    | tasks => rfl
    | assignments workerId => rfl
    | result jobId =>
        show keyPrefix ++ ":results" ++ ":" ++ jobId = keyPrefix ++ ":" ++ ("results:" ++ jobId)
        rw [← String.toList_inj]
        simp
    | execution executionId =>
        show Rust.trimEndMatches (keyPrefix ++ ":executions") ':' ++ ":" ++ executionId =
          keyPrefix ++ ":" ++ ("executions:" ++ executionId)
        rw [htrim, ← String.toList_inj]
        simp
    | membership workerId =>
        show RedisWorkerRegistry.workerKey _ workerId =
          keyPrefix ++ ":" ++ ("workers:worker:" ++ workerId)
        rw [RedisWorkerRegistry.workerKey, hregistry, ← String.toList_inj]
        simp

end Opened

/-- How the keys of the other kinds begin. -/
def reserved : List String := ["results:", "executions:", "workers:", "workers."]

theorem text_reserved (taskDestination : String) {key : RedisKey} (h : key ≠ .tasks) :
    ∃ word ∈ reserved, word.toList <+: (key.text taskDestination).toList := by
  cases key with
  | tasks => exact absurd rfl h
  | assignments workerId =>
      refine ⟨"workers.", by decide, workerId.toList, ?_⟩
      simp [RedisKey.text]
  | result jobId =>
      refine ⟨"results:", by decide, jobId.toList, ?_⟩
      simp [RedisKey.text]
  | execution executionId =>
      refine ⟨"executions:", by decide, executionId.toList, ?_⟩
      simp [RedisKey.text]
  | membership workerId =>
      refine ⟨"workers:", by decide, "worker:".toList ++ workerId.toList, ?_⟩
      simp [RedisKey.text]

/-- Keys of different kinds begin differently, keys of one kind end differently. -/
theorem text_injective {taskDestination : String}
    (hdest : ∀ word ∈ reserved, ¬ word.toList <+: taskDestination.toList) :
    Function.Injective (RedisKey.text taskDestination) := by
  have htasks {key : RedisKey} (h : key.text taskDestination = taskDestination) :
      key = .tasks := by
    by_contra hne
    rcases text_reserved taskDestination hne with ⟨word, hword, hprefix⟩
    rw [h] at hprefix
    exact hdest word hword hprefix
  intro a b h
  by_cases ha : a = .tasks
  · subst ha
    exact (htasks h.symm).symm
  · by_cases hb : b = .tasks
    · subst hb
      exact htasks h
    · have hlist := congrArg String.toList h
      cases a with
      | tasks => exact absurd rfl ha
      | assignments workerId =>
          cases b with
          | tasks => exact absurd rfl hb
          | assignments workerId' => simpa [RedisKey.text] using h
          | _ => simp [RedisKey.text] at hlist
      | result jobId =>
          cases b with
          | tasks => exact absurd rfl hb
          | result jobId' => simpa [RedisKey.text] using h
          | _ => simp [RedisKey.text] at hlist
      | execution executionId =>
          cases b with
          | tasks => exact absurd rfl hb
          | execution executionId' => simpa [RedisKey.text] using h
          | _ => simp [RedisKey.text] at hlist
      | membership workerId =>
          cases b with
          | tasks => exact absurd rfl hb
          | membership workerId' => simpa [RedisKey.text] using h
          | _ => simp [RedisKey.text] at hlist

/-- The pattern of a registry matches what starts with its prefix and `:worker:`,
as it stands there. The keys that `serve` uses for one prefix are all different,
and of these the pattern matches the memberships alone. -/
theorem worker_scan :
    (∀ (registry : RedisWorkerRegistry) (key : String),
      Redis.Glob.isMatch registry.pattern key = true ↔
        (registry.keyPrefix ++ ":worker:").toList <+: key.toList) ∧
    (∀ (registrations : Codec ByteArray WorkerRegistration) (states : I32Enum ExecutionState)
      (keyPrefix : String) (membershipTtl : Duration) (stores : OpenedStores)
      (taskDestination : String),
      openStores registrations states keyPrefix membershipTtl = .ok stores →
      (∀ word ∈ reserved, ¬ word.toList <+: taskDestination.toList) →
      Function.Injective (stores.key taskDestination) ∧
      ∀ key, Redis.Glob.isMatch stores.workerRegistry.pattern (stores.key taskDestination key) =
        true ↔ ∃ workerId, key = .membership workerId) := by
  refine ⟨?_, ?_⟩
  · intro registry key
    exact RedisWorkerRegistry.isMatch_pattern_toList
  · intro registrations states keyPrefix membershipTtl stores taskDestination hopen hdest
    have hinjective : Function.Injective (stores.key taskDestination) := by
      intro a b h
      rw [key_eq hopen, key_eq hopen] at h
      exact text_injective hdest (by simpa using h)
    refine ⟨hinjective, ?_⟩
    intro key
    rw [RedisWorkerRegistry.isMatch_pattern]
    constructor
    · rintro ⟨w, hw⟩
      exact ⟨w, hinjective hw⟩
    · rintro ⟨w, rfl⟩
      exact ⟨w, rfl⟩

theorem worker_scan_brackets :
    ∃ stores, openStores framedRegistrations numberedStates "tw[*]" 30000000000 = .ok stores ∧
      Redis.Glob.isMatch stores.workerRegistry.pattern (stores.key "tasks" (.membership "w")) =
        true ∧
      Redis.Glob.isMatch stores.workerRegistry.pattern (stores.key "tasks" .tasks) = false := by
  have hmatch := (worker_scan.2 framedRegistrations numberedStates "tw[*]" 30000000000 _ "tasks"
    rfl (by decide)).2
  refine ⟨_, rfl, (hmatch (.membership "w")).mpr ⟨"w", rfl⟩, ?_⟩
  rw [Bool.eq_false_iff, ne_eq, hmatch .tasks]
  rintro ⟨w, hw⟩
  cases hw

end ThreadWeave
