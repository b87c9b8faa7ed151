import Mathlib.Data.String.Basic
import Mathlib.Data.Finset.Sort
import ThreadWeave.Protocols
import ThreadWeave.Rust.RwLock

/-!
# Worker membership

`MemoryWorkerRegistry` (`worker_registry.rs`). Every operation takes the write
lock over its whole body, so each is one function of the registry and of the
clock: `now` is the monotonic reading that decides about expiry, `wall` the
time of day that is only recorded.

* `register`, `heartbeat`, `availableWorkers` — the bodies, where the expiry
  times they write are times that an `Instant` can hold.
* `guardedRegister`, `guardedHeartbeat` — the bodies with the panic of
  `Instant + Duration`, which poisons the lock.
* `mem_availableWorkers` — the directory lists the members.
-/

namespace ThreadWeave

open Runs (HashMap)

structure RegisteredWorker where
  registration : WorkerRegistration
  registeredAt : Timestamp
  lastHeartbeatAt : Option Timestamp
deriving DecidableEq

structure MemoryEntry where
  worker : RegisteredWorker
  expiresAt : Instant
deriving DecidableEq

inductive RegistrationOutcome where
  | new | idempotent | replaced
deriving DecidableEq, Repr

inductive HeartbeatError where
  | unknownWorker | staleGeneration | registryUnavailable
deriving DecidableEq, Repr

/-- The registry; `new` asserts that the TTL is positive. -/
structure MemoryWorkerRegistry where
  workers : HashMap String MemoryEntry
  membershipTtl : Duration
  membershipTtl_pos : 0 < membershipTtl
deriving DecidableEq

namespace MemoryWorkerRegistry

def new (membershipTtl : Duration) (hpos : 0 < membershipTtl) : MemoryWorkerRegistry :=
  { workers := ∅, membershipTtl := membershipTtl, membershipTtl_pos := hpos }

/-- `Instant::now() + self.membership_ttl`. Beyond `Instant.last` there is no such
time, and the addition panics. -/
def expiry (r : MemoryWorkerRegistry) (now : Instant) : Instant := now + r.membershipTtl

/-- The entry of a worker whose membership has not expired. -/
def unexpired (r : MemoryWorkerRegistry) (workerId : String) (now : Instant) :
    Option MemoryEntry :=
  (r.workers.lookup workerId).filter fun entry => now < entry.expiresAt

def register (r : MemoryWorkerRegistry) (registration : WorkerRegistration) (now : Instant)
    (wall : Timestamp) : MemoryWorkerRegistry × RegistrationOutcome :=
  let fresh : MemoryEntry :=
    { worker := { registration := registration, registeredAt := wall, lastHeartbeatAt := none }
      expiresAt := r.expiry now }
  match r.unexpired registration.workerId now with
  -- an expired entry counts as none and is overwritten
  | none => ({ r with workers := r.workers.insert registration.workerId fresh }, .new)
  | some entry =>
      if entry.worker.registration.generation = registration.generation then
        -- the registration that is stored stays the first one
        let renewed : MemoryEntry := { entry with expiresAt := r.expiry now }
        ({ r with workers := r.workers.insert registration.workerId renewed }, .idempotent)
      else
        ({ r with workers := r.workers.insert registration.workerId fresh }, .replaced)

def heartbeat (r : MemoryWorkerRegistry) (workerId generation : String) (now : Instant)
    (wall : Timestamp) : MemoryWorkerRegistry × Except HeartbeatError Unit :=
  match r.unexpired workerId now with
  | none => (r, .error .unknownWorker)
  | some entry =>
      if entry.worker.registration.generation ≠ generation then
        (r, .error .staleGeneration)
      else
        let renewed : MemoryEntry :=
          { worker := { entry.worker with lastHeartbeatAt := some wall }
            expiresAt := r.expiry now }
        ({ r with workers := r.workers.insert workerId renewed }, .ok ())

def availableWorkers (r : MemoryWorkerRegistry) (now : Instant) :
    MemoryWorkerRegistry × List String :=
  -- reading also removes what has expired
  let workers := HashMap.retain (fun _ entry => decide (now < entry.expiresAt)) r.workers
  ({ r with workers := workers }, workers.keys.sort (· ≤ ·))

/-! ## Under the guard -/

/-- `register`. Each way through it calls `expiry`, before anything is written. -/
def guardedRegister (r : MemoryWorkerRegistry) (registration : WorkerRegistration)
    (now : Instant) (wall : Timestamp) :
    Rust.Guarded MemoryWorkerRegistry (Except String RegistrationOutcome) :=
  if r.expiry now ≤ Instant.last then
    let (registry, outcome) := r.register registration now wall
    .returned registry (.ok outcome)
  else .panicked r

/-- `heartbeat`. Where it is accepted, `last_heartbeat_at` is set before `expiry`
is called. -/
def guardedHeartbeat (r : MemoryWorkerRegistry) (workerId generation : String) (now : Instant)
    (wall : Timestamp) : Rust.Guarded MemoryWorkerRegistry (Except HeartbeatError Unit) :=
  match r.unexpired workerId now with
  | none => .returned r (.error .unknownWorker)
  | some entry =>
      if entry.worker.registration.generation ≠ generation then
        .returned r (.error .staleGeneration)
      else
        let worker : RegisteredWorker := { entry.worker with lastHeartbeatAt := some wall }
        if r.expiry now ≤ Instant.last then
          let renewed : MemoryEntry := { worker := worker, expiresAt := r.expiry now }
          .returned { r with workers := r.workers.insert workerId renewed } (.ok ())
        else
          let touched : MemoryEntry := { entry with worker := worker }
          .panicked { r with workers := r.workers.insert workerId touched }

/-- A heartbeat of `workerId` is accepted. -/
def Accepts (r : MemoryWorkerRegistry) (workerId generation : String) (now : Instant) : Prop :=
  ∃ entry, r.unexpired workerId now = some entry ∧
    entry.worker.registration.generation = generation

theorem guardedRegister_of_le {r : MemoryWorkerRegistry} {now : Instant}
    (h : r.expiry now ≤ Instant.last) (registration : WorkerRegistration) (wall : Timestamp) :
    r.guardedRegister registration now wall =
      .returned (r.register registration now wall).1
        (.ok (r.register registration now wall).2) := by
  rw [guardedRegister, if_pos h]

theorem guardedRegister_of_lt {r : MemoryWorkerRegistry} {now : Instant}
    (h : Instant.last < r.expiry now) (registration : WorkerRegistration) (wall : Timestamp) :
    r.guardedRegister registration now wall = .panicked r := by
  rw [guardedRegister, if_neg (Nat.not_le.mpr h)]

theorem guardedHeartbeat_returned {r : MemoryWorkerRegistry} {workerId generation : String}
    {now : Instant} (h : r.Accepts workerId generation now → r.expiry now ≤ Instant.last)
    (wall : Timestamp) :
    r.guardedHeartbeat workerId generation now wall =
      .returned (r.heartbeat workerId generation now wall).1
        (r.heartbeat workerId generation now wall).2 := by
  unfold guardedHeartbeat heartbeat
  split
  · rfl
  · rename_i entry hsome
    split_ifs with hgen hle
    · rfl
    · rfl
    · exact absurd (h ⟨entry, hsome, not_ne_iff.mp hgen⟩) hle

theorem guardedHeartbeat_panicked {r : MemoryWorkerRegistry} {workerId generation : String}
    {now : Instant} (h : r.Accepts workerId generation now) (hlt : Instant.last < r.expiry now)
    (wall : Timestamp) :
    ∃ registry, r.guardedHeartbeat workerId generation now wall = .panicked registry := by
  rcases h with ⟨entry, hsome, hgen⟩
  unfold guardedHeartbeat
  rw [hsome]
  dsimp only
  rw [if_neg (not_ne_iff.mpr hgen), if_neg (Nat.not_le.mpr hlt)]
  exact ⟨_, rfl⟩

theorem guardedHeartbeat_error {r registry : MemoryWorkerRegistry} {workerId generation : String}
    {now : Instant} {wall : Timestamp} {e : HeartbeatError}
    (h : r.guardedHeartbeat workerId generation now wall = .returned registry (.error e)) :
    registry = r := by
  unfold guardedHeartbeat at h
  split at h
  · cases h
    rfl
  · dsimp only at h
    split_ifs at h
    · cases h
      rfl
    · cases h

/-! ## Membership -/

/-- `workerId` is an unexpired member at `now`. -/
def IsMember (r : MemoryWorkerRegistry) (workerId : String) (now : Instant) : Prop :=
  ∃ entry, r.workers.lookup workerId = some entry ∧ now < entry.expiresAt

theorem unexpired_eq_some {r : MemoryWorkerRegistry} {workerId : String} {now : Instant}
    {entry : MemoryEntry} : r.unexpired workerId now = some entry ↔
      r.workers.lookup workerId = some entry ∧ now < entry.expiresAt := by
  simp [unexpired, Option.filter_eq_some_iff]

instance (r : MemoryWorkerRegistry) (workerId : String) (now : Instant) :
    Decidable (r.IsMember workerId now) :=
  decidable_of_iff ((r.unexpired workerId now).isSome) (by
    simp only [Option.isSome_iff_exists, unexpired_eq_some, IsMember])

/-- `register` writes one entry, which lasts a full TTL. -/
theorem register_eq (r : MemoryWorkerRegistry) (registration : WorkerRegistration)
    (now : Instant) (wall : Timestamp) :
    ∃ entry, entry.expiresAt = r.expiry now ∧ (r.register registration now wall).1 =
      { r with workers := r.workers.insert registration.workerId entry } := by
  unfold register
  dsimp only
  split
  · exact ⟨_, rfl, rfl⟩
  · split_ifs
    · exact ⟨_, rfl, rfl⟩
    · exact ⟨_, rfl, rfl⟩

/-- `heartbeat` is refused, or renews one entry for a full TTL. -/
theorem heartbeat_eq (r : MemoryWorkerRegistry) (workerId generation : String) (now : Instant)
    (wall : Timestamp) :
    (r.heartbeat workerId generation now wall).1 = r ∨
    ∃ entry, entry.expiresAt = r.expiry now ∧ (r.heartbeat workerId generation now wall).1 =
      { r with workers := r.workers.insert workerId entry } := by
  unfold heartbeat
  split
  · exact Or.inl rfl
  · split_ifs
    · exact Or.inl rfl
    · exact Or.inr ⟨_, rfl, rfl⟩

/-- The directory lists exactly the members. -/
theorem mem_availableWorkers {r : MemoryWorkerRegistry} {workerId : String} {now : Instant} :
    workerId ∈ (r.availableWorkers now).2 ↔ r.IsMember workerId now := by
  unfold availableWorkers IsMember
  simp only [Finset.mem_sort, Finmap.mem_keys, Finmap.mem_iff, Runs.HashMap.lookup_retain,
    Option.filter_eq_some_iff, decide_eq_true_eq]

/-- Reading the directory drops the expired entries and no other. -/
theorem availableWorkers_lookup {r : MemoryWorkerRegistry} {workerId : String} {now : Instant}
    {entry : MemoryEntry} :
    (r.availableWorkers now).1.workers.lookup workerId = some entry ↔
      r.workers.lookup workerId = some entry ∧ now < entry.expiresAt := by
  unfold availableWorkers
  simp only [Runs.HashMap.lookup_retain, Option.filter_eq_some_iff, decide_eq_true_eq]

end MemoryWorkerRegistry

end ThreadWeave
