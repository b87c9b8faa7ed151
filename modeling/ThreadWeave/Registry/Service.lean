import ThreadWeave.Registry.Redis
import ThreadWeave.Rust.Decimal
import ThreadWeave.Rust.Str

/-!
# Registrations and heartbeats at the control plane

`register_worker` and `report_heartbeat` of `api/grpc.rs`, over any registry. A
heartbeat does not name its worker and generation in two fields but in one
text, `worker_incarnation_id`: the length of the worker id in bytes, a colon,
and then both ids with nothing between them. A `usize` has 64 bits.

* `parseWorkerIncarnationId_eq` — which texts are read, and as what.
* `incarnation_ids` — reading never panics, inverts writing, and so a heartbeat
  reaches the pair that it was sent for.
-/

namespace ThreadWeave

/-! ## Incarnation ids -/

def workerIncarnationId (workerId generation : String) : String :=
  toString workerId.utf8ByteSize ++ ":" ++ workerId ++ generation

def parseWorkerIncarnationId (value : String) : Except Rust.Panic (Option (String × String)) :=
  match Rust.splitOnce value ":" with
  | none => .ok none
  | some (length, identity) =>
      match Rust.parseUnsigned 64 length with
      | none => .ok none
      | some workerLength =>
          if workerLength = 0 ∨ identity.utf8ByteSize ≤ workerLength ∨
              Rust.isCharBoundary identity workerLength = false then
            .ok none
          else
            match Rust.splitAt identity workerLength with
            | .error panic => .error panic
            | .ok (workerId, generation) =>
                .ok (if generation.isEmpty then none else some (workerId, generation))

/-! ## Messages -/

structure RegisterWorkerRequest where
  registration : Option WorkerRegistration
deriving DecidableEq

structure RegisterWorkerResponse where
  accepted : Bool
  leaseId : Option String
deriving DecidableEq

structure RuntimeHeartbeat where
  runtimeId : String
  sequenceNumber : Nat
  availableResources : Option ResourceRequirements
  observedAt : Option Timestamp
deriving DecidableEq

structure ReportHeartbeatRequest where
  heartbeat : Option RuntimeHeartbeat
deriving DecidableEq

structure ReportHeartbeatResponse where
  accepted : Bool
deriving DecidableEq

/-! ## The two calls -/

/-- The trait `WorkerRegistry`, with the clock readings that a call takes. -/
structure WorkerRegistry (σ : Type) where
  register : σ → WorkerRegistration → Instant → Timestamp → σ × Except String RegistrationOutcome
  heartbeat : σ → String → String → Instant → Timestamp → σ × Except HeartbeatError Unit

def MemoryWorkerRegistry.service : WorkerRegistry MemoryWorkerRegistry where
  register r registration now wall :=
    ((r.register registration now wall).1, .ok (r.register registration now wall).2)
  heartbeat := MemoryWorkerRegistry.heartbeat

def RedisWorkerRegistry.service (r : RedisWorkerRegistry) : WorkerRegistry Redis.Keyspace where
  register := r.register
  heartbeat := r.heartbeat

namespace WorkerRegistry

variable {σ : Type} (registry : WorkerRegistry σ)

def registerWorker (s : σ) (request : RegisterWorkerRequest) (now : Instant)
    (wall : Timestamp) : σ × Except Status RegisterWorkerResponse :=
  match request.registration with
  | none => (s, .error ⟨.invalidArgument, "registration is required"⟩)
  | some registration =>
      if Rust.isBlank registration.workerId then
        (s, .error ⟨.invalidArgument, "worker_id is required"⟩)
      else if Rust.isBlank registration.generation then
        (s, .error ⟨.invalidArgument, "generation is required"⟩)
      else
        match registry.register s registration now wall with
        | (s, .error error) => (s, .error ⟨.internal, error⟩)
        | (s, .ok _) => (s, .ok { accepted := true, leaseId := none })

/-- The status a refused heartbeat is answered with. -/
def heartbeatStatus : HeartbeatError → Status
  | .unknownWorker => ⟨.notFound, "worker is not registered"⟩
  | .staleGeneration => ⟨.failedPrecondition, "worker generation is stale"⟩
  | .registryUnavailable => ⟨.unavailable, "worker registry is unavailable"⟩

/-- The answer to a heartbeat, from the answer of the registry. -/
def heartbeatAnswer : Except HeartbeatError Unit → Except Status ReportHeartbeatResponse
  | .error error => .error (heartbeatStatus error)
  | .ok () => .ok { accepted := true }

def reportHeartbeat (s : σ) (request : ReportHeartbeatRequest) (now : Instant)
    (wall : Timestamp) : Except Rust.Panic (σ × Except Status ReportHeartbeatResponse) :=
  match request.heartbeat with
  | none => .ok (s, .error ⟨.invalidArgument, "heartbeat is required"⟩)
  | some heartbeat =>
      match parseWorkerIncarnationId heartbeat.runtimeId with
      | .error panic => .error panic
      | .ok none =>
          .ok (s, .error ⟨.invalidArgument,
            "heartbeat runtime_id must identify a worker generation"⟩)
      | .ok (some (workerId, generation)) =>
          let r := registry.heartbeat s workerId generation now wall
          .ok (r.1, heartbeatAnswer r.2)

end WorkerRegistry

/-! ## Reading and writing incarnation ids -/

theorem parseWorkerIncarnationId_of_split {value length identity : String}
    (hsplit : Rust.splitOnce value ":" = some (length, identity)) {w g : String} :
    parseWorkerIncarnationId value = .ok (some (w, g)) ↔
      Rust.parseUnsigned 64 length = some w.utf8ByteSize ∧ identity = w ++ g ∧ w ≠ "" ∧
      g ≠ "" := by
  unfold parseWorkerIncarnationId
  rw [hsplit]
  dsimp only
  cases hlen : Rust.parseUnsigned 64 length with
  | none => simp
  | some n =>
      dsimp only
      rw [Option.some.injEq]
      split_ifs with hguard
      · simp only [Except.ok.injEq, reduceCtorEq, false_iff, not_and, not_not]
        rintro rfl rfl hw
        -- each of the three tests fails on a length that fits
        have hpos : w.utf8ByteSize ≠ 0 := fun h => hw (String.utf8ByteSize_eq_zero_iff.mp h)
        have hsplitAt : Rust.splitAt (w ++ g) w.utf8ByteSize = .ok (w, g) :=
          Rust.splitAt_eq_ok.mpr ⟨rfl, rfl⟩
        have hbound : Rust.isCharBoundary (w ++ g) w.utf8ByteSize = true :=
          Rust.isCharBoundary_iff.mpr ⟨w, g, hsplitAt⟩
        rw [String.utf8ByteSize_append, hbound] at hguard
        have hg : g.utf8ByteSize = 0 := by
          rcases hguard with h | h | h
          · exact absurd h hpos
          · omega
          · cases h
        exact String.utf8ByteSize_eq_zero_iff.mp hg
      · simp only [not_or, Bool.not_eq_false] at hguard
        rcases Rust.isCharBoundary_iff.mp hguard.2.2 with ⟨a, b, hcut⟩
        rcases Rust.splitAt_eq_ok.mp hcut with ⟨rfl, rfl⟩
        rw [hcut]
        have hb : b.isEmpty = false := by
          rw [String.isEmpty_eq_false_iff]
          rintro rfl
          simp at hguard
        simp only [hb, Bool.false_eq_true, if_false, Except.ok.injEq, Option.some.injEq,
          Prod.mk.injEq]
        constructor
        · rintro ⟨rfl, rfl⟩
          refine ⟨rfl, rfl, ?_, ?_⟩
          · rintro rfl
            simp at hguard
          · rintro rfl
            simp at hb
        · rintro ⟨hsize, happ, -, -⟩
          have hsame : Rust.splitAt (a ++ b) a.utf8ByteSize = .ok (w, g) :=
            Rust.splitAt_eq_ok.mpr ⟨happ, hsize.symm⟩
          rw [hcut] at hsame
          simpa using hsame

theorem toList_colon : ":".toList = [':'] := by
  decide

/-- The texts that are read, and as which pair. -/
theorem parseWorkerIncarnationId_eq {value w g : String} :
    parseWorkerIncarnationId value = .ok (some (w, g)) ↔
      ∃ d, value = d ++ ":" ++ w ++ g ∧ ':' ∉ d.toList ∧
        Rust.parseUnsigned 64 d = some w.utf8ByteSize ∧ w ≠ "" ∧ g ≠ "" := by
  constructor
  · intro h
    cases hsplit : Rust.splitOnce value ":" with
    | none => simp [parseWorkerIncarnationId, hsplit] at h
    | some p =>
        rcases p with ⟨d, identity⟩
        rcases (parseWorkerIncarnationId_of_split hsplit).mp h with ⟨hlen, rfl, hw, hg⟩
        rcases (Rust.splitOnce_char toList_colon).mp hsplit with ⟨hvalue, hd⟩
        refine ⟨d, ?_, hd, hlen, hw, hg⟩
        rw [hvalue, ← String.append_assoc]
  · rintro ⟨d, rfl, hd, hlen, hw, hg⟩
    have hsplit : Rust.splitOnce (d ++ ":" ++ w ++ g) ":" = some (d, w ++ g) :=
      (Rust.splitOnce_char toList_colon).mpr ⟨String.append_assoc .., hd⟩
    exact (parseWorkerIncarnationId_of_split hsplit).mpr ⟨hlen, rfl, hw, hg⟩

/-- The guards leave no position at which `split_at` panics. -/
theorem parseWorkerIncarnationId_returns (value : String) :
    ∃ r, parseWorkerIncarnationId value = .ok r := by
  unfold parseWorkerIncarnationId
  cases Rust.splitOnce value ":" with
  | none => exact ⟨_, rfl⟩
  | some p =>
      rcases p with ⟨length, identity⟩
      dsimp only
      cases Rust.parseUnsigned 64 length with
      | none => exact ⟨_, rfl⟩
      | some n =>
          dsimp only
          split_ifs with hguard
          · exact ⟨_, rfl⟩
          · simp only [not_or, Bool.not_eq_false] at hguard
            rcases Rust.isCharBoundary_iff.mp hguard.2.2 with ⟨a, b, hcut⟩
            rw [hcut]
            exact ⟨_, rfl⟩

/-- The length of a string is written without a colon and fits a `usize`. -/
theorem parse_workerIncarnationId {w g : Rust.Str} (hw : w.1 ≠ "") (hg : g.1 ≠ "") :
    parseWorkerIncarnationId (workerIncarnationId w g) = .ok (some (w.1, g.1)) := by
  have hfits : w.1.utf8ByteSize < 2 ^ 64 := lt_trans w.2 (by decide)
  refine parseWorkerIncarnationId_eq.mpr
    ⟨_, rfl, ?_, Rust.parseUnsigned_toString 64 hfits, hw, hg⟩
  intro hcolon
  have hdigit : ':'.isDigit = true := Rust.isDigit_of_mem_toString hcolon
  exact absurd hdigit (by decide)

theorem ne_empty_of_isBlank {s : String} (h : Rust.isBlank s = false) : s ≠ "" := by
  rintro rfl
  simp [Rust.isBlank, Rust.trimChars] at h

namespace WorkerRegistry

variable {σ : Type} (registry : WorkerRegistry σ)

/-- What `register_worker` has checked of a registration it accepts. -/
theorem registerWorker_accepted {s s' : σ} {registration : WorkerRegistration} {now : Instant}
    {wall : Timestamp} {response : RegisterWorkerResponse}
    (h : registry.registerWorker s ⟨some registration⟩ now wall = (s', .ok response)) :
    Rust.isBlank registration.workerId = false ∧ Rust.isBlank registration.generation = false := by
  unfold registerWorker at h
  dsimp only at h
  split_ifs at h with hworker hgeneration
  · simp at h
  · simp at h
  · exact ⟨Bool.eq_false_iff.mpr hworker, Bool.eq_false_iff.mpr hgeneration⟩

theorem reportHeartbeat_routed (s : σ) {heartbeat : RuntimeHeartbeat} {w g : Rust.Str}
    (hw : w.1 ≠ "") (hg : g.1 ≠ "") (hid : heartbeat.runtimeId = workerIncarnationId w g)
    (now : Instant) (wall : Timestamp) :
    registry.reportHeartbeat s ⟨some heartbeat⟩ now wall =
      .ok ((registry.heartbeat s w g now wall).1,
        heartbeatAnswer (registry.heartbeat s w g now wall).2) := by
  simp only [reportHeartbeat, hid, parse_workerIncarnationId hw hg]

end WorkerRegistry

/-- Which texts are incarnation ids, of whom, and that no text makes reading
panic; ids of different pairs differ, and the heartbeats of a worker that was
registered reach its own pair in the registry, whichever registry that is. -/
theorem incarnation_ids :
    (∀ value w g, parseWorkerIncarnationId value = .ok (some (w, g)) ↔
      ∃ d, value = d ++ ":" ++ w ++ g ∧ ':' ∉ d.toList ∧
        Rust.parseUnsigned 64 d = some w.utf8ByteSize ∧ w ≠ "" ∧ g ≠ "") ∧
    (∀ value panic, parseWorkerIncarnationId value ≠ .error panic) ∧
    (∀ w g : Rust.Str, w.1 ≠ "" → g.1 ≠ "" →
      parseWorkerIncarnationId (workerIncarnationId w g) = .ok (some (w.1, g.1))) ∧
    (∀ w g w' g' : Rust.Str, w.1 ≠ "" → g.1 ≠ "" → w'.1 ≠ "" → g'.1 ≠ "" →
      workerIncarnationId w g = workerIncarnationId w' g' → w = w' ∧ g = g') ∧
    (∀ (σ : Type) (registry : WorkerRegistry σ) (s s' : σ) (registration : WorkerRegistration)
      (now : Instant) (wall : Timestamp) (response : RegisterWorkerResponse) (w g : Rust.Str),
      registration.workerId = w.1 → registration.generation = g.1 →
      registry.registerWorker s ⟨some registration⟩ now wall = (s', .ok response) →
      ∀ (t : σ) (heartbeat : RuntimeHeartbeat) (now' : Instant) (wall' : Timestamp),
        heartbeat.runtimeId = workerIncarnationId w g →
        registry.reportHeartbeat t ⟨some heartbeat⟩ now' wall' =
          .ok ((registry.heartbeat t w g now' wall').1,
            WorkerRegistry.heartbeatAnswer (registry.heartbeat t w g now' wall').2)) := by
  refine ⟨fun _ _ _ => parseWorkerIncarnationId_eq, ?_,
    fun _ _ hw hg => parse_workerIncarnationId hw hg, ?_, ?_⟩
  · intro value panic h
    rcases parseWorkerIncarnationId_returns value with ⟨r, hr⟩
    rw [hr] at h
    cases h
  · intro w g w' g' hw hg hw' hg' h
    have hread := parse_workerIncarnationId hw hg
    rw [h, parse_workerIncarnationId hw' hg', Except.ok.injEq, Option.some.injEq,
      Prod.mk.injEq] at hread
    exact ⟨Subtype.ext hread.1.symm, Subtype.ext hread.2.symm⟩
  · intro σ registry s s' registration now wall response w g hworker hgeneration hreg t heartbeat
      now' wall' hid
    have hblank := registry.registerWorker_accepted hreg
    rw [hworker, hgeneration] at hblank
    exact registry.reportHeartbeat_routed t (ne_empty_of_isBlank hblank.1)
      (ne_empty_of_isBlank hblank.2) hid now' wall'

theorem incarnation_ids_multibyte :
    workerIncarnationId "é:1" "2" = "4:é:12" ∧
      parseWorkerIncarnationId "4:é:12" = .ok (some ("é:1", "2")) := by
  have htext : workerIncarnationId "é:1" "2" = "4:é:12" := by decide +kernel
  have hread := incarnation_ids.2.2.1 ⟨"é:1", by decide⟩ ⟨"2", by decide⟩ (by decide) (by decide)
  rw [htext] at hread
  exact ⟨htext, hread⟩

end ThreadWeave
