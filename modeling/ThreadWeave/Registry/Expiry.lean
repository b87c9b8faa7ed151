import ThreadWeave.Registry.Redis

/-!
# Memberships that end

A worker that stops must not stay a member: its key goes when the TTL is over,
and with it the membership. The TTL is a configured number of seconds. It is cut
down to milliseconds, and `PEXPIRE` runs after the hash was written.

* `RegistersLawfully` — what one `register` leaves behind.
* `TakesTtl` — when it does so: the TTL is not too short, and where it is too
  long for Redis the worker has a key already.
* `memberships_expire` — the two agree, and along a run of such calls every key
  of a worker has its time.
-/

namespace ThreadWeave

open Runs (HashMap Machine)
open Redis (Keyspace)

namespace RedisWorkerRegistry

variable {r : RedisWorkerRegistry} {ks : Keyspace} {t : Instant}

/-- An accepted worker has a key with an expiry time; one that was not accepted
has a key only if it had one before. -/
structure RegistersLawfully (r : RedisWorkerRegistry) (ks : Keyspace) (t : Instant)
    (registration : WorkerRegistration) (wall : Timestamp) : Prop where
  accepted : ∀ outcome, (r.register ks registration t wall).2 = .ok outcome →
    ∃ entry, (r.register ks registration t wall).1.find t (r.workerKey registration.workerId) =
      some entry ∧ entry.expireAt.isSome
  refused : ∀ error, (r.register ks registration t wall).2 = .error error →
    (r.register ks registration t wall).1.contains t (r.workerKey registration.workerId) = true →
    ks.contains t (r.workerKey registration.workerId) = true

/-- A TTL that Redis takes is of a millisecond at least; with one that it does
not take, the worker is a member already. -/
structure TakesTtl (r : RedisWorkerRegistry) (ks : Keyspace) (t : Instant) (w : String) :
    Prop where
  positive : Keyspace.ExpiryFits t r.ttlMillis → 0 < r.ttlMillis
  member : ¬ Keyspace.ExpiryFits t r.ttlMillis → ks.contains t (r.workerKey w) = true

/-! ## `register` -/

section Script

variable {key : String} {generation registration registeredAt : ByteArray} {millis : Nat}

/-- A TTL that Redis takes: the key has a time, or is deleted at once, and the
worker is accepted all the same. -/
theorem registerScript_of_fits (ks : Keyspace) (hfits : Keyspace.ExpiryFits t millis) :
    ∃ ks' n, registerScript ks t key generation registration registeredAt millis = (ks', .ok n) ∧
      (n = 0 ∨ n = 1 ∨ n = 2) ∧ (millis = 0 → ks'.contains t key = false) ∧
      (0 < millis → ∃ entry, ks'.find t key = some entry ∧ entry.expireAt.isSome) := by
  unfold registerScript
  dsimp only
  by_cases hold : ks.hget t key "generation" = some generation
  · have hkey := Keyspace.contains_of_hget hold
    rcases Keyspace.pexpire_of_contains hkey hfits with ⟨ks', hok, hafter⟩
    rw [if_pos hold, hok]
    exact ⟨ks', 1, rfl, by simp, hafter⟩
  · rw [if_neg hold]
    generalize [("generation", generation), ("registration", registration),
      ("registered_at_ms", registeredAt), ("last_heartbeat_at_ms", Redis.text "")] = values
    have hkey := ks.contains_hset t key values
    rcases Keyspace.pexpire_of_contains hkey hfits with ⟨ks', hok, hafter⟩
    rw [hok]
    refine ⟨ks', _, rfl, ?_, hafter⟩
    split_ifs
    · simp
    · simp

/-- A TTL that Redis does not take: the script ends there, and the hash that it
wrote before stays. -/
theorem registerScript_of_not_fits (ks : Keyspace) (hfits : ¬ Keyspace.ExpiryFits t millis) :
    ∃ ks' e, registerScript ks t key generation registration registeredAt millis =
      (ks', .error e) ∧ ks'.contains t key = true := by
  unfold registerScript
  dsimp only
  by_cases hold : ks.hget t key "generation" = some generation
  · have hkey := Keyspace.contains_of_hget hold
    obtain ⟨e, herr⟩ : ∃ e, ks.pexpire t key millis = .error e :=
      Keyspace.pexpire_of_not_fits hfits
    rw [if_pos hold, herr]
    exact ⟨ks, e, rfl, hkey⟩
  · rw [if_neg hold]
    generalize [("generation", generation), ("registration", registration),
      ("registered_at_ms", registeredAt), ("last_heartbeat_at_ms", Redis.text "")] = values
    have hkey := ks.contains_hset t key values
    obtain ⟨e, herr⟩ : ∃ e, (ks.hset t key values).pexpire t key millis = .error e :=
      Keyspace.pexpire_of_not_fits hfits
    rw [herr]
    exact ⟨_, e, rfl, hkey⟩

/-- The keys stay expiring where the hash that a failed script leaves was there
before. -/
theorem registerScript_expiring (h : ks.Expiring)
    (hmember : ¬ Keyspace.ExpiryFits t millis → ks.contains t key = true) :
    (registerScript ks t key generation registration registeredAt millis).1.Expiring := by
  unfold registerScript
  dsimp only
  by_cases hold : ks.hget t key "generation" = some generation
  · rw [if_pos hold]
    rcases hok : ks.pexpire t key millis with e | ks'
    · exact h
    · have hkey := Keyspace.contains_of_hget hold
      exact .of_pexpire (fun key' entry _ hlook => h key' entry hlook) hkey hok
  · rw [if_neg hold]
    generalize [("generation", generation), ("registration", registration),
      ("registered_at_ms", registeredAt), ("last_heartbeat_at_ms", Redis.text "")] = values
    rcases hok : (ks.hset t key values).pexpire t key millis with e | ks'
    · refine h.hset (hmember ?_) values
      intro hfits
      rcases Keyspace.pexpire_of_contains (ks.contains_hset t key values) hfits with
        ⟨ks', hok', -⟩
      rw [hok] at hok'
      cases hok'
    · exact h.hset_pexpire hok

/-- A heartbeat writes into a hash that is there, so nothing is left without a
time even where `PEXPIRE` fails. -/
theorem heartbeatScript_expiring {heartbeatAt : ByteArray} (h : ks.Expiring) :
    (heartbeatScript ks t key generation heartbeatAt millis).1.Expiring := by
  unfold heartbeatScript
  rcases hold : ks.hget t key "generation" with _ | old
  · exact h
  · have hkey := Keyspace.contains_of_hget hold
    dsimp only
    split_ifs
    · exact h
    · generalize [("last_heartbeat_at_ms", heartbeatAt)] = values
      rcases hok : (ks.hset t key values).pexpire t key millis with e | ks'
      · exact h.hset hkey values
      · exact h.hset_pexpire hok

end Script

/-- What a caller of `register` and the next commands see, in the two cases. -/
theorem register_of_fits (ks : Keyspace) (hfits : Keyspace.ExpiryFits t r.ttlMillis)
    (registration : WorkerRegistration) (wall : Timestamp) :
    ∃ ks' outcome, r.register ks registration t wall = (ks', .ok outcome) ∧
      (r.ttlMillis = 0 → ks'.contains t (r.workerKey registration.workerId) = false) ∧
      (0 < r.ttlMillis → ∃ entry, ks'.find t (r.workerKey registration.workerId) = some entry ∧
        entry.expireAt.isSome) := by
  unfold register
  rcases registerScript_of_fits ks hfits with ⟨ks', n, hscript, hn, hafter⟩
  rw [hscript]
  rcases hn with rfl | rfl | rfl
  · exact ⟨ks', .new, rfl, hafter⟩
  · exact ⟨ks', .idempotent, rfl, hafter⟩
  · exact ⟨ks', .replaced, rfl, hafter⟩

theorem register_of_not_fits (ks : Keyspace) (hfits : ¬ Keyspace.ExpiryFits t r.ttlMillis)
    (registration : WorkerRegistration) (wall : Timestamp) :
    ∃ ks' e, r.register ks registration t wall = (ks', .error e) ∧
      ks'.contains t (r.workerKey registration.workerId) = true := by
  unfold register
  rcases registerScript_of_not_fits ks hfits with ⟨ks', e, hscript, hkey⟩
  rw [hscript]
  exact ⟨ks', _, rfl, hkey⟩

/-- The law holds exactly where Redis takes the TTL as it is meant. -/
theorem registersLawfully_iff {registration : WorkerRegistration} {wall : Timestamp} :
    r.RegistersLawfully ks t registration wall ↔ r.TakesTtl ks t registration.workerId := by
  by_cases hfits : Keyspace.ExpiryFits t r.ttlMillis
  · rcases register_of_fits ks hfits registration wall with
      ⟨ks', outcome, hregister, hzero, hpos⟩
    constructor
    · intro hlaw
      refine ⟨fun _ => ?_, fun hnot => absurd hfits hnot⟩
      have haccepted := hlaw.accepted outcome (by rw [hregister])
      rw [hregister] at haccepted
      rcases haccepted with ⟨entry, hfind, -⟩
      apply Nat.pos_of_ne_zero
      intro hmillis
      have hgone := hzero hmillis
      unfold Keyspace.contains at hgone
      rw [hfind] at hgone
      cases hgone
    · intro htakes
      refine ⟨?_, ?_⟩
      · intro _ _
        rw [hregister]
        exact hpos (htakes.positive hfits)
      · intro error herror
        rw [hregister] at herror
        cases herror
  · rcases register_of_not_fits ks hfits registration wall with
      ⟨ks', e, hregister, hkey⟩
    constructor
    · intro hlaw
      refine ⟨fun hfits' => absurd hfits' hfits, fun _ => ?_⟩
      exact hlaw.refused _ (by rw [hregister]) (by rw [hregister]; exact hkey)
    · intro htakes
      refine ⟨?_, ?_⟩
      · intro outcome hok
        rw [hregister] at hok
        cases hok
      · intro _ _ _
        exact htakes.member hfits

end RedisWorkerRegistry

/-! ## Runs -/

section Runs

variable {r : RedisWorkerRegistry}

/-- A call of `register` finds a TTL that Redis takes as it is meant. -/
def RegistersInTime (r : RedisWorkerRegistry) (s : RedisRegistryState)
    (call : RedisRegistryCall) : Prop :=
  ∀ registration, call.op = .register registration →
    r.TakesTtl s.keys call.now registration.workerId

/-- One call leaves no key without a time. -/
theorem expiring_step {s s' : RedisRegistryState} {call : RedisRegistryCall}
    {answer : RegistryAnswer} (h : s.keys.Expiring) (htakes : RegistersInTime r s call)
    (hstep : (redisRegistry r).step s call = some (s', answer)) : s'.keys.Expiring := by
  rcases call with ⟨⟨now, wall, op⟩, scan⟩
  unfold redisRegistry at hstep
  dsimp only at hstep
  split at hstep
  · cases hstep
  · rcases op with registration | ⟨workerId, generation⟩ | _
    · cases hstep
      exact RedisWorkerRegistry.registerScript_expiring h (htakes registration rfl).member
    · cases hstep
      exact RedisWorkerRegistry.heartbeatScript_expiring h
    · dsimp only at hstep
      split at hstep
      · rcases Option.map_eq_some_iff.mp hstep with ⟨workerIds, -, hnext⟩
        cases hnext
        exact h
      · cases hstep

theorem expiring_run {tr : List (RedisRegistryCall × RegistryAnswer)} {s : RedisRegistryState}
    (h : (redisRegistry r).Run tr s)
    (hconforms : (redisRegistry r).Conforms (RegistersInTime r) tr) : s.keys.Expiring := by
  refine Machine.Run.history_conforms (P := fun _ s => s.keys.Expiring) ?_ ?_ h hconforms
  · exact Keyspace.expiring_empty
  · intro _ s call s' answer _ hexpiring htakes hstep
    exact expiring_step hexpiring htakes hstep

/-- Every membership ends, and a registration that fails makes none, exactly for
the calls whose TTL Redis takes as it is meant; and in every state that a run of
such calls reaches, every worker's key has an expiry time. -/
theorem memberships_expire (r : RedisWorkerRegistry) :
    (∀ ks t registration wall, r.RegistersLawfully ks t registration wall ↔
      r.TakesTtl ks t registration.workerId) ∧
    ∀ tr s, (redisRegistry r).Run tr s →
      (redisRegistry r).Conforms (RegistersInTime r) tr →
      ∀ w entry, s.keys.lookup (r.workerKey w) = some entry → entry.expireAt.isSome := by
  constructor
  · intro ks t registration wall
    exact RedisWorkerRegistry.registersLawfully_iff
  · intro tr s hrun hconforms w entry hlook
    exact expiring_run hrun hconforms (r.workerKey w) entry hlook

end Runs

/-- A worker registers twice, the second time under another generation. -/
def replacedCalls : List RedisRegistryCall :=
  [⟨⟨0, 0, .register (plainRegistration "a" "one" "1")⟩, []⟩,
   ⟨⟨5000000, 0, .register (plainRegistration "a" "two" "1")⟩, []⟩]

theorem memberships_expire_replaced : ∃ tr s,
    (redisRegistry tenMillisRegistry).Run tr s ∧ tr.map Prod.fst = replacedCalls ∧
    ∃ entry, s.keys.lookup (tenMillisRegistry.workerKey "a") = some entry ∧
      entry.expireAt.isSome := by
  rcases Machine.run_of_exec (redisRegistry tenMillisRegistry) replacedCalls
    (P := fun _ s => (s.keys.lookup (tenMillisRegistry.workerKey "a")).isSome)
    (by decide +kernel) with ⟨tr, s, hrun, hcalls, hkey⟩
  rcases Option.isSome_iff_exists.mp hkey with ⟨entry, hentry⟩
  have hfits : ∀ call ∈ replacedCalls,
      Keyspace.ExpiryFits call.now tenMillisRegistry.ttlMillis := by decide +kernel
  have hconforms : (redisRegistry tenMillisRegistry).Conforms
      (RegistersInTime tenMillisRegistry) tr := by
    rintro p x q t rfl - registration -
    have hx : Keyspace.ExpiryFits x.1.now tenMillisRegistry.ttlMillis :=
      hfits x.1 (hcalls ▸ by simp)
    exact ⟨fun _ => by decide, fun hnot => absurd hx hnot⟩
  exact ⟨tr, s, hrun, hcalls, entry, hentry,
    (memberships_expire tenMillisRegistry).2 tr s hrun hconforms "a" entry hentry⟩

/-- The longest TTL that can be configured, `u64::MAX` seconds. -/
def longestTtlRegistry : RedisWorkerRegistry :=
  { keyPrefix := "threadweave:workers", membershipTtl := (2 ^ 64 - 1) * 1000000000,
    registrations := framedRegistrations }

/-- Its first registration fails, and the worker is a member for ever. -/
theorem membership_without_expiry :
    RedisWorkerRegistry.new framedRegistrations "threadweave:workers"
      ((2 ^ 64 - 1) * 1000000000) = .ok longestTtlRegistry ∧
    ¬ longestTtlRegistry.RegistersLawfully ∅ 0 (plainRegistration "a" "one" "1") 0 ∧
    ∃ tr s, (redisRegistry longestTtlRegistry).Run tr s ∧
      (s.keys.lookup (longestTtlRegistry.workerKey "a")).map Redis.Entry.expireAt =
        some none := by
  refine ⟨?_, ?_, ?_⟩
  · unfold RedisWorkerRegistry.new
    rw [if_neg (by decide)]
    have htrim : Rust.trimEndMatches "threadweave:workers" ':' = "threadweave:workers" := by
      decide
    rw [htrim]
    rfl
  · rw [RedisWorkerRegistry.registersLawfully_iff]
    intro htakes
    have hmember := htakes.member (by decide)
    revert hmember
    decide
  · rcases Machine.run_of_exec (redisRegistry longestTtlRegistry)
      [⟨⟨0, 0, .register (plainRegistration "a" "one" "1")⟩, []⟩]
      (P := fun _ s => (s.keys.lookup (longestTtlRegistry.workerKey "a")).map
        Redis.Entry.expireAt = some none) (by decide +kernel) with ⟨tr, s, hrun, -, hkey⟩
    exact ⟨tr, s, hrun, hkey⟩

end ThreadWeave
