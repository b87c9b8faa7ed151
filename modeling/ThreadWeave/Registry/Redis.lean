import Mathlib.Data.List.Destutter
import ThreadWeave.Redis.Keyspace
import ThreadWeave.Registry.History

/-!
# The registry in Redis

`RedisWorkerRegistry` (`worker_registry.rs`). A worker is a hash under its own
key, and Redis itself drops the key when the membership expires. Each script is
one function of the keyspace; `available_workers` iterates over the keys with
`SCAN`, whose replies are an argument here.

* `Holds` — the keyspace is a table of registrations, and each operation is a
  step of that table.
* `redisRegistry` — the registry with a clock. It answers as history
  determines, as the in-memory registry does.
-/

namespace ThreadWeave

open Runs (HashMap Machine)
open Redis (Keyspace ScanReply text)

/-- The registry; `client` is the connection to a keyspace, which the
operations take as an argument. -/
structure RedisWorkerRegistry where
  keyPrefix : String
  membershipTtl : Duration
  registrations : Codec ByteArray WorkerRegistration

/-- `escape_redis_pattern`. -/
def escapeRedisPattern (value : String) : String :=
  let cs := Rust.replaceChar '\\' ['\\', '\\'] value.toList
  let cs := Rust.replaceChar '*' ['\\', '*'] cs
  let cs := Rust.replaceChar '?' ['\\', '?'] cs
  let cs := Rust.replaceChar '[' ['\\', '['] cs
  String.ofList cs

namespace RedisWorkerRegistry

def new (registrations : Codec ByteArray WorkerRegistration) (keyPrefix : String)
    (membershipTtl : Duration) : Except String RedisWorkerRegistry :=
  if membershipTtl = 0 then .error "worker membership TTL must be positive"
  else .ok
    { keyPrefix := Rust.trimEndMatches keyPrefix ':'
      membershipTtl := membershipTtl
      registrations := registrations }

variable (r : RedisWorkerRegistry)

def workerKey (workerId : String) : String := r.keyPrefix ++ ":worker:" ++ workerId

def ttlMillis : Nat :=
  let millis := r.membershipTtl / 1000000
  if millis < 2 ^ 64 then millis else 2 ^ 64 - 1

/-! ## `register` -/

/-- The script of `register`. A command that fails ends it, what was written
before stays. -/
def registerScript (ks : Keyspace) (t : Instant) (key : String)
    (generation registration registeredAt : ByteArray) (ttlMillis : Nat) :
    Keyspace × Except String Int :=
  let oldGeneration := ks.hget t key "generation"
  if oldGeneration = some generation then
    match ks.pexpire t key ttlMillis with
    | .error e => (ks, .error e)
    | .ok ks => (ks, .ok 1)
  else
    let ks := ks.hset t key
      [("generation", generation), ("registration", registration),
       ("registered_at_ms", registeredAt), ("last_heartbeat_at_ms", text "")]
    match ks.pexpire t key ttlMillis with
    | .error e => (ks, .error e)
    | .ok ks => (ks, .ok (if oldGeneration.isSome then 2 else 0))

def register (ks : Keyspace) (registration : WorkerRegistration) (now : Instant)
    (wall : Timestamp) : Keyspace × Except String RegistrationOutcome :=
  let (ks, result) := registerScript ks now (r.workerKey registration.workerId)
    (text registration.generation) (r.registrations.encodeToVec registration)
    (text (toString (unixMillis wall))) r.ttlMillis
  (ks, match result with
    | .error e => .error ("cannot register worker: " ++ e)
    | .ok 0 => .ok .new
    | .ok 1 => .ok .idempotent
    | .ok 2 => .ok .replaced
    | .ok _ => .error "invalid Redis registration response")

/-! ## `heartbeat` -/

/-- The script of `heartbeat`. -/
def heartbeatScript (ks : Keyspace) (t : Instant) (key : String)
    (generation heartbeatAt : ByteArray) (ttlMillis : Nat) : Keyspace × Except String Int :=
  match ks.hget t key "generation" with
  | none => (ks, .ok 0)
  | some oldGeneration =>
      if oldGeneration ≠ generation then (ks, .ok 1)
      else
        let ks := ks.hset t key [("last_heartbeat_at_ms", heartbeatAt)]
        match ks.pexpire t key ttlMillis with
        | .error e => (ks, .error e)
        | .ok ks => (ks, .ok 2)

def heartbeat (ks : Keyspace) (workerId generation : String) (now : Instant)
    (wall : Timestamp) : Keyspace × Except HeartbeatError Unit :=
  let (ks, result) := heartbeatScript ks now (r.workerKey workerId) (text generation)
    (text (toString (unixMillis wall))) r.ttlMillis
  (ks, match result with
    | .error _ => .error .registryUnavailable
    | .ok 0 => .error .unknownWorker
    | .ok 1 => .error .staleGeneration
    | .ok 2 => .ok ()
    | .ok _ => .error .registryUnavailable)

/-! ## `available_workers` -/

def pattern : String := escapeRedisPattern r.keyPrefix ++ ":worker:*"

/-- The worker ids of one batch of keys; a key without a registration is
skipped. -/
def readKeys (ks : Keyspace) (now : Instant) : List String → Except String (List String)
  | [] => .ok []
  | key :: keys =>
      match ks.hget now key "registration" with
      | none => readKeys ks now keys
      | some payload =>
          match r.registrations.decode payload with
          | .error e => .error ("invalid worker registration in Redis: " ++ e)
          | .ok registration =>
              (readKeys ks now keys).map fun workerIds => registration.workerId :: workerIds

/-- The loop over the replies of `SCAN`; `none` where it still waits for one. -/
def scanLoop (ks : Keyspace) (now : Instant) (workerIds : List String) :
    List ScanReply → Option (Except String (List String))
  | [] => none
  | (next, keys) :: replies =>
      match r.readKeys ks now keys with
      | .error e => some (.error e)
      | .ok ids =>
          if next = 0 then some (.ok (workerIds ++ ids))
          else scanLoop ks now (workerIds ++ ids) replies

/-- Sorted, and then without the repetitions that stand next to each other. -/
def availableWorkers (ks : Keyspace) (now : Instant) (replies : List ScanReply) :
    Option (Except String (List String)) :=
  (r.scanLoop ks now [] replies).map fun result =>
    result.map fun workerIds => (workerIds.insertionSort (· ≤ ·)).destutter (· ≠ ·)

end RedisWorkerRegistry

/-! ## The keys -/

/-- What the escape does to one character. -/
def escapeRedisChar (c : Char) : List Char :=
  if c = '\\' ∨ c = '*' ∨ c = '?' ∨ c = '[' then ['\\', c] else [c]

theorem toList_escapeRedisPattern (value : String) :
    (escapeRedisPattern value).toList = value.toList.flatMap escapeRedisChar := by
  unfold escapeRedisPattern Rust.replaceChar
  simp only [String.toList_ofList, List.flatMap_assoc]
  congr 1
  funext c
  unfold escapeRedisChar
  by_cases h₁ : c = '\\'
  · subst h₁
    decide
  · by_cases h₂ : c = '*'
    · subst h₂
      decide
    · by_cases h₃ : c = '?'
      · subst h₃
        decide
      · by_cases h₄ : c = '['
        · subst h₄
          decide
        · simp [h₁, h₂, h₃, h₄]

/-- An escaped text stands for its own characters. -/
theorem tokens_escape (cs rest : List Char) :
    Redis.Glob.tokens none (cs.flatMap escapeRedisChar ++ rest) =
      cs.map .char ++ Redis.Glob.tokens none rest := by
  induction cs with
  | nil => rfl
  | cons c cs ih =>
      rw [List.flatMap_cons, List.append_assoc, List.map_cons, List.cons_append, ← ih]
      unfold escapeRedisChar
      split_ifs with hc
      · rfl
      · obtain ⟨h₁, h₂, h₃, h₄⟩ : c ≠ '\\' ∧ c ≠ '*' ∧ c ≠ '?' ∧ c ≠ '[' := by
          simpa only [not_or] using hc
        rw [List.singleton_append]
        simp [Redis.Glob.tokens, h₁, h₄]

/-- The escape treats a text and its bytes alike: the bytes of a character beyond
ASCII are none that are escaped. -/
theorem bytes_escape (cs : List Char) :
    Redis.Glob.bytes (cs.flatMap escapeRedisChar) =
      (Redis.Glob.bytes cs).flatMap escapeRedisChar := by
  unfold Redis.Glob.bytes
  rw [List.flatMap_assoc, List.flatMap_assoc]
  congr 1
  funext c
  by_cases hc : c = '\\' ∨ c = '*' ∨ c = '?' ∨ c = '['
  · rcases hc with rfl | rfl | rfl | rfl
    · decide
    · decide
    · decide
    · decide
  · have hplain : escapeRedisChar c = [c] := if_neg hc
    rw [hplain, List.flatMap_singleton]
    have hkept : ∀ d ∈ (String.utf8EncodeChar c).map Char.ofUInt8, escapeRedisChar d = [d] := by
      rcases Redis.Glob.bytes_char c with hself | habove
      · rw [hself, List.forall_mem_singleton]
        exact hplain
      · intro d hd
        have hd' := habove d hd
        refine if_neg ?_
        rintro (rfl | rfl | rfl | rfl)
        · exact absurd hd' (by decide)
        · exact absurd hd' (by decide)
        · exact absurd hd' (by decide)
        · exact absurd hd' (by decide)
    rw [List.flatMap_congr hkept, List.flatMap_singleton']

namespace RedisWorkerRegistry

variable {r : RedisWorkerRegistry}

theorem workerKey_inj {w w' : String} : r.workerKey w = r.workerKey w' ↔ w = w' := by
  simp [workerKey]

/-- The pattern stands for the prefix as it is written, whatever stands in that. -/
theorem isMatch_pattern_toList {key : String} :
    Redis.Glob.isMatch r.pattern key = true ↔
      (r.keyPrefix ++ ":worker:").toList <+: key.toList := by
  have htail : Redis.Glob.tokens none (Redis.Glob.bytes ":worker:*".toList) =
      (Redis.Glob.bytes ":worker:".toList).map .char ++ [.anyText] := by decide
  unfold Redis.Glob.isMatch pattern
  rw [String.toList_append, toList_escapeRedisPattern, Redis.Glob.bytes_append, bytes_escape,
    tokens_escape, htail, ← List.append_assoc, ← List.map_append, ← Redis.Glob.bytes_append,
    ← String.toList_append, Redis.Glob.matchTokens_chars_anyText, Redis.Glob.bytes_prefix]

/-- The registry scans for the keys that it could have written. -/
theorem isMatch_pattern {key : String} :
    Redis.Glob.isMatch r.pattern key = true ↔ ∃ w, key = r.workerKey w := by
  rw [isMatch_pattern_toList]
  constructor
  · rintro ⟨rest, hrest⟩
    refine ⟨String.ofList rest, ?_⟩
    rw [← String.toList_inj, ← hrest]
    simp [workerKey]
  · rintro ⟨w, rfl⟩
    exact ⟨w.toList, by simp [workerKey]⟩

/-- Every key of the registry matches the pattern it scans for. -/
theorem isMatch_workerKey (w : String) : Redis.Glob.isMatch r.pattern (r.workerKey w) = true :=
  isMatch_pattern.mpr ⟨w, rfl⟩

/-! ## What the keyspace holds -/

/-- The hash of a registered worker. -/
structure IsEntry (r : RedisWorkerRegistry) (entry : Redis.Entry)
    (registration : WorkerRegistration) (expiresAt : Instant) : Prop where
  generation : entry.fields.lookup "generation" = some (text registration.generation)
  registration : entry.fields.lookup "registration" =
    some (r.registrations.encodeToVec registration)
  expireAt : entry.expireAt = some expiresAt

/-- The keyspace is the table: a hash for each entry, under its worker's key,
and no other key. -/
structure Holds (r : RedisWorkerRegistry) (ks : Keyspace) (table : RegistryTable) : Prop where
  absent : ∀ w, table w = none → ks.lookup (r.workerKey w) = none
  present : ∀ w registration expiresAt, table w = some (registration, expiresAt) →
    ∃ entry, ks.lookup (r.workerKey w) = some entry ∧ r.IsEntry entry registration expiresAt
  keys : ∀ key entry, ks.lookup key = some entry → ∃ w, key = r.workerKey w

variable {ks : Keyspace} {table : RegistryTable}

theorem holds_empty (r : RedisWorkerRegistry) : r.Holds ∅ fun _ => none where
  absent w _ := Finmap.lookup_empty _
  present w registration expiresAt h := by cases h
  keys key entry h := by
    rw [Finmap.lookup_empty] at h
    cases h

theorem Holds.find_of_alive (h : r.Holds ks table) {w : String} {t : Instant}
    {registration : WorkerRegistration} (halive : table.alive w t = some registration) :
    ∃ entry expiresAt, ks.find t (r.workerKey w) = some entry ∧
      r.IsEntry entry registration expiresAt := by
  obtain ⟨expiresAt, htable, hlt⟩ := RegistryTable.alive_eq_some.mp halive
  obtain ⟨entry, hlook, hentry⟩ := h.present w registration expiresAt htable
  refine ⟨entry, expiresAt, Keyspace.find_eq_some.mpr ⟨hlook, ?_⟩, hentry⟩
  simpa [Redis.Entry.visibleAt, hentry.expireAt] using hlt

theorem Holds.find_of_not_alive (h : r.Holds ks table) {w : String} {t : Instant}
    (halive : table.alive w t = none) : ks.find t (r.workerKey w) = none := by
  rw [Option.eq_none_iff_forall_ne_some]
  intro entry hfind
  obtain ⟨hlook, hvis⟩ := Keyspace.find_eq_some.mp hfind
  rcases htable : table w with _ | ⟨registration, expiresAt⟩
  · rw [h.absent w htable] at hlook
    cases hlook
  · obtain ⟨entry', hlook', hentry⟩ := h.present w registration expiresAt htable
    rw [hlook, Option.some.injEq] at hlook'
    subst hlook'
    have hlt : t < expiresAt := by
      simpa [Redis.Entry.visibleAt, hentry.expireAt] using hvis
    have hsome := RegistryTable.alive_eq_some.mpr ⟨expiresAt, htable, hlt⟩
    rw [halive] at hsome
    cases hsome

theorem Holds.hget_generation (h : r.Holds ks table) (w : String) (t : Instant) :
    ks.hget t (r.workerKey w) "generation" =
      (table.alive w t).map fun registration => text registration.generation := by
  unfold Keyspace.hget
  rcases halive : table.alive w t with _ | registration
  · rw [h.find_of_not_alive halive]
    rfl
  · obtain ⟨entry, _, hfind, hentry⟩ := h.find_of_alive halive
    rw [hfind]
    exact hentry.generation

theorem Holds.hget_registration (h : r.Holds ks table) (w : String) (t : Instant) :
    ks.hget t (r.workerKey w) "registration" =
      (table.alive w t).map r.registrations.encodeToVec := by
  unfold Keyspace.hget
  rcases halive : table.alive w t with _ | registration
  · rw [h.find_of_not_alive halive]
    rfl
  · obtain ⟨entry, _, hfind, hentry⟩ := h.find_of_alive halive
    rw [hfind]
    exact hentry.registration

/-- Writing the hash of one worker is `renew`. -/
theorem Holds.renew (h : r.Holds ks table) {ks' : Keyspace} {registration : WorkerRegistration}
    {entry : Redis.Entry} {ttl : Duration} {now : Instant}
    (hlook : ks'.lookup (r.workerKey registration.workerId) = some entry)
    (hentry : r.IsEntry entry registration (now + ttl))
    (hother : ∀ key, key ≠ r.workerKey registration.workerId → ks'.lookup key = ks.lookup key) :
    r.Holds ks' (table.renew registration ttl now) where
  absent w hnone := by
    by_cases hw : w = registration.workerId
    · rw [hw, RegistryTable.renew_self] at hnone
      cases hnone
    · rw [RegistryTable.renew_of_ne hw] at hnone
      rw [hother _ (mt workerKey_inj.mp hw)]
      exact h.absent w hnone
  present w registration' expiresAt hsome := by
    by_cases hw : w = registration.workerId
    · subst hw
      rw [RegistryTable.renew_self] at hsome
      cases hsome
      exact ⟨entry, hlook, hentry⟩
    · rw [RegistryTable.renew_of_ne hw] at hsome
      rw [hother _ (mt workerKey_inj.mp hw)]
      exact h.present w registration' expiresAt hsome
  keys key entry' hkey := by
    by_cases hk : key = r.workerKey registration.workerId
    · exact ⟨_, hk⟩
    · exact h.keys key entry' (hother key hk ▸ hkey)

/-! ## What the operations do -/

section Steps

variable {millis : Nat}

theorem ttlMillis_eq (hmillis : r.membershipTtl = millis * 1000000) (hmax : millis < 2 ^ 63) :
    r.ttlMillis = millis := by
  unfold ttlMillis
  dsimp only
  rw [hmillis, Nat.mul_div_cancel _ (by decide), if_pos (lt_trans hmax (by decide))]

/-- The hash of another generation, or none: everything is written anew. -/
theorem registerScript_write {t : Instant} {key : String}
    (generation registration registeredAt : ByteArray) (hpos : 0 < millis)
    (hfits : Keyspace.ExpiryFits t millis)
    (hold : ks.hget t key "generation" ≠ some generation) :
    ∃ ks' entry,
      registerScript ks t key generation registration registeredAt millis =
        (ks', .ok (if (ks.hget t key "generation").isSome then 2 else 0)) ∧
      ks'.lookup key = some entry ∧ entry.fields.lookup "generation" = some generation ∧
      entry.fields.lookup "registration" = some registration ∧
      entry.expireAt = some (t + millis * 1000000) ∧
      ∀ key', key' ≠ key → ks'.lookup key' = ks.lookup key' := by
  unfold registerScript
  dsimp only
  rw [if_neg hold]
  generalize hvalues : [("generation", generation), ("registration", registration),
    ("registered_at_ms", registeredAt), ("last_heartbeat_at_ms", text "")] = values
  obtain ⟨ks', hok, hlook, hother⟩ := ks.hset_pexpire t key values hpos hfits
  rw [hok]
  refine ⟨ks', _, rfl, hlook, ?_, ?_, rfl, hother⟩
  · subst hvalues
    simp [Redis.Entry.write]
  · subst hvalues
    simp [Redis.Entry.write]

/-- The same generation: the hash stays and lives on. -/
theorem registerScript_same {t : Instant} {key : String} {entry : Redis.Entry}
    (generation registration registeredAt : ByteArray) (hpos : 0 < millis)
    (hfits : Keyspace.ExpiryFits t millis)
    (hfind : ks.find t key = some entry)
    (hgen : entry.fields.lookup "generation" = some generation) :
    ∃ ks',
      registerScript ks t key generation registration registeredAt millis = (ks', .ok 1) ∧
      ks'.lookup key = some { entry with expireAt := some (t + millis * 1000000) } ∧
      ∀ key', key' ≠ key → ks'.lookup key' = ks.lookup key' := by
  have hold : ks.hget t key "generation" = some generation := by
    unfold Keyspace.hget
    rw [hfind]
    exact hgen
  unfold registerScript
  dsimp only
  rw [if_pos hold, Keyspace.pexpire_of_find hfind hpos hfits]
  refine ⟨_, rfl, ?_, ?_⟩
  · rw [HashMap.lookup_insert_ite, if_pos rfl]
  · intro key' hkey
    rw [HashMap.lookup_insert_ite, if_neg hkey]

/-- An accepted heartbeat: one field is written, the hash lives on. -/
theorem heartbeatScript_write {t : Instant} {key : String} {entry : Redis.Entry}
    (generation heartbeatAt : ByteArray) (hpos : 0 < millis) (hfits : Keyspace.ExpiryFits t millis)
    (hfind : ks.find t key = some entry)
    (hgen : entry.fields.lookup "generation" = some generation) :
    ∃ ks' entry',
      heartbeatScript ks t key generation heartbeatAt millis = (ks', .ok 2) ∧
      ks'.lookup key = some entry' ∧ entry'.fields.lookup "generation" = some generation ∧
      entry'.fields.lookup "registration" = entry.fields.lookup "registration" ∧
      entry'.expireAt = some (t + millis * 1000000) ∧
      ∀ key', key' ≠ key → ks'.lookup key' = ks.lookup key' := by
  have hold : ks.hget t key "generation" = some generation := by
    unfold Keyspace.hget
    rw [hfind]
    exact hgen
  unfold heartbeatScript
  rw [hold]
  dsimp only
  rw [if_neg (not_not.mpr rfl)]
  obtain ⟨ks', hok, hlook, hother⟩ :=
    ks.hset_pexpire t key [("last_heartbeat_at_ms", heartbeatAt)] hpos hfits
  rw [hok]
  rw [hfind] at hlook
  refine ⟨ks', _, rfl, hlook, ?_, ?_, rfl, hother⟩
  · simpa [Redis.Entry.write, HashMap.lookup_insert_ite] using hgen
  · simp [Redis.Entry.write]

section

variable {now : Instant}

theorem register_step (hmillis : r.membershipTtl = millis * 1000000) (hpos : 0 < millis)
    (hfits : Keyspace.ExpiryFits now millis)
    (h : r.Holds ks table)
    (hids : ∀ w registration, table.alive w now = some registration → registration.workerId = w)
    (registration : WorkerRegistration) (wall : Timestamp) :
    ∃ table', table.Step r.membershipTtl now (.register registration)
        (.registered (r.register ks registration now wall).2) table' ∧
      r.Holds (r.register ks registration now wall).1 table' := by
  have hgeneration := h.hget_generation registration.workerId now
  unfold register
  dsimp only
  rw [ttlMillis_eq hmillis hfits.lt]
  rcases halive : table.alive registration.workerId now with _ | old
  · -- no live hash: a new one is written
    rw [halive] at hgeneration
    obtain ⟨ks', entry, hscript, hlook, hgen, hreg, hexp, hother⟩ :=
      registerScript_write (text registration.generation)
        (r.registrations.encodeToVec registration) (text (toString (unixMillis wall))) hpos hfits
        (by rw [hgeneration]; simp)
    rw [hscript, hgeneration]
    refine ⟨_, .new registration halive, h.renew hlook ⟨hgen, hreg, ?_⟩ hother⟩
    rw [hexp, hmillis]
  · rw [halive] at hgeneration
    by_cases hsame : old.generation = registration.generation
    · -- the live hash is the one of this generation
      obtain ⟨entry, expiresAt, hfind, hentry⟩ := h.find_of_alive halive
      obtain ⟨ks', hscript, hlook, hother⟩ :=
        registerScript_same (text registration.generation)
          (r.registrations.encodeToVec registration) (text (toString (unixMillis wall))) hpos hfits
          hfind (by rw [hentry.generation, hsame])
      rw [hscript]
      have hid := hids _ _ halive
      have hrenewed : r.IsEntry
          { entry with expireAt := some (now + millis * 1000000) } old
          (now + r.membershipTtl) :=
        ⟨hentry.generation, hentry.registration, by rw [hmillis]⟩
      exact ⟨_, .idempotent registration old halive hid hsame,
        h.renew (hid ▸ hlook) hrenewed (hid ▸ hother)⟩
    · obtain ⟨ks', entry, hscript, hlook, hgen, hreg, hexp, hother⟩ :=
        registerScript_write (text registration.generation)
          (r.registrations.encodeToVec registration) (text (toString (unixMillis wall))) hpos hfits
          (by rw [hgeneration]; simpa using hsame)
      rw [hscript, hgeneration]
      refine ⟨_, .replaced registration old halive hsame, h.renew hlook ⟨hgen, hreg, ?_⟩ hother⟩
      rw [hexp, hmillis]

theorem heartbeat_step (hmillis : r.membershipTtl = millis * 1000000) (hpos : 0 < millis)
    (hfits : Keyspace.ExpiryFits now millis)
    (h : r.Holds ks table)
    (hids : ∀ w registration, table.alive w now = some registration → registration.workerId = w)
    (workerId generation : String) (wall : Timestamp) :
    ∃ table', table.Step r.membershipTtl now (.heartbeat workerId generation)
        (.heartbeat (r.heartbeat ks workerId generation now wall).2) table' ∧
      r.Holds (r.heartbeat ks workerId generation now wall).1 table' := by
  have hgeneration := h.hget_generation workerId now
  unfold heartbeat
  dsimp only
  rw [ttlMillis_eq hmillis hfits.lt]
  rcases halive : table.alive workerId now with _ | old
  · rw [halive] at hgeneration
    unfold heartbeatScript
    rw [hgeneration]
    exact ⟨table, .unknownWorker workerId generation halive, h⟩
  · rw [halive] at hgeneration
    by_cases hsame : old.generation = generation
    · obtain ⟨entry, expiresAt, hfind, hentry⟩ := h.find_of_alive halive
      obtain ⟨ks', entry', hscript, hlook, hgen, hreg, hexp, hother⟩ :=
        heartbeatScript_write (text generation) (text (toString (unixMillis wall))) hpos hfits
          hfind (by rw [hentry.generation, hsame])
      rw [hscript]
      have hid := hids _ _ halive
      subst hsame
      refine ⟨_, .beat workerId _ old halive hid rfl, ?_⟩
      refine h.renew (hid ▸ hlook) ⟨hgen, hreg.trans hentry.registration, ?_⟩ (hid ▸ hother)
      rw [hexp, hmillis]
    · unfold heartbeatScript
      rw [hgeneration]
      dsimp only [Option.map_some]
      rw [if_pos (by simpa using hsame)]
      exact ⟨table, .staleGeneration workerId generation old halive hsame, h⟩

/-- The ids of the live workers among the keys. -/
theorem readKeys_eq (now : Instant) (h : r.Holds ks table) (keys : List String) :
    ∃ ids, r.readKeys ks now keys = .ok ids ∧
      ∀ w, w ∈ ids ↔ ∃ w' registration, r.workerKey w' ∈ keys ∧
        table.alive w' now = some registration ∧ registration.workerId = w := by
  induction keys with
  | nil => exact ⟨[], rfl, by simp⟩
  | cons key keys ih =>
      obtain ⟨ids, hids, hmem⟩ := ih
      unfold readKeys
      rcases hget : ks.hget now key "registration" with _ | payload
      · refine ⟨ids, hids, ?_⟩
        intro w
        rw [hmem]
        constructor
        · rintro ⟨w', registration, hkey, halive⟩
          exact ⟨w', registration, List.mem_cons_of_mem _ hkey, halive⟩
        · rintro ⟨w', registration, hkey, halive, hid⟩
          rcases List.mem_cons.mp hkey with hhead | htail
          · rw [← hhead, h.hget_registration, halive] at hget
            cases hget
          · exact ⟨w', registration, htail, halive, hid⟩
      · obtain ⟨w₀, rfl⟩ : ∃ w₀, key = r.workerKey w₀ := by
          unfold Keyspace.hget at hget
          obtain ⟨entry, hfind, -⟩ := Option.bind_eq_some_iff.mp hget
          exact h.keys key entry (Keyspace.find_eq_some.mp hfind).1
        rw [h.hget_registration] at hget
        obtain ⟨registration₀, halive₀, rfl⟩ := Option.map_eq_some_iff.mp hget
        dsimp only
        rw [r.registrations.decode_encodeToVec, hids]
        refine ⟨registration₀.workerId :: ids, rfl, ?_⟩
        intro w
        rw [List.mem_cons, hmem]
        constructor
        · rintro (rfl | ⟨w', registration, hkey, halive⟩)
          · exact ⟨w₀, registration₀, List.mem_cons_self, halive₀, rfl⟩
          · exact ⟨w', registration, List.mem_cons_of_mem _ hkey, halive⟩
        · rintro ⟨w', registration, hkey, halive, hid⟩
          rcases List.mem_cons.mp hkey with hhead | htail
          · rw [workerKey_inj] at hhead
            rw [hhead, halive₀] at halive
            cases halive
            exact Or.inl hid.symm
          · exact Or.inr ⟨w', registration, htail, halive, hid⟩

/-- The loop ends with the iteration and has read every key that it returned. -/
theorem scanLoop_eq (now : Instant) (h : r.Holds ks table) {replies : List ScanReply}
    (hends : Redis.EndsScan replies) (workerIds : List String) :
    ∃ ids, r.scanLoop ks now workerIds replies = some (.ok ids) ∧
      ∀ w, w ∈ ids ↔ w ∈ workerIds ∨ ∃ reply ∈ replies, ∃ w' registration,
        r.workerKey w' ∈ reply.2 ∧ table.alive w' now = some registration ∧
        registration.workerId = w := by
  induction replies generalizing workerIds with
  | nil => exact hends.elim
  | cons reply replies ih =>
      obtain ⟨next, keys⟩ := reply
      obtain ⟨ids, hids, hmem⟩ := readKeys_eq now h keys
      unfold scanLoop
      rw [hids]
      dsimp only
      rcases replies with _ | ⟨reply', replies⟩
      · have hnext : next = 0 := hends
        rw [if_pos hnext]
        refine ⟨workerIds ++ ids, rfl, ?_⟩
        intro w
        rw [List.mem_append, hmem]
        simp
      · obtain ⟨hnext, hrest⟩ : next ≠ 0 ∧ Redis.EndsScan (reply' :: replies) := hends
        obtain ⟨all, hall, hmemAll⟩ := ih hrest (workerIds ++ ids)
        rw [if_neg hnext]
        refine ⟨all, hall, ?_⟩
        intro w
        rw [hmemAll, List.mem_append, hmem, or_assoc, List.exists_mem_cons_iff _ (_, keys)]

/-- Sorting and dropping neighbours that are equal leaves an increasing list of
the same elements. -/
theorem sort_dedup (l : List String) :
    ((l.insertionSort (· ≤ ·)).destutter (· ≠ ·)).Pairwise (· < ·) ∧
    ∀ w, w ∈ (l.insertionSort (· ≤ ·)).destutter (· ≠ ·) ↔ w ∈ l := by
  have hsorted : (l.insertionSort (· ≤ ·)).Pairwise (· ≤ ·) := List.pairwise_insertionSort _ l
  rw [hsorted.destutter_eq_dedup]
  constructor
  · have hle := hsorted.sublist (List.dedup_sublist _)
    exact (hle.and (List.nodup_dedup _)).imp fun hlt => lt_of_le_of_ne hlt.1 hlt.2
  · intro w
    rw [List.mem_dedup, List.mem_insertionSort]

theorem availableWorkers_step (h : r.Holds ks table)
    (hids : ∀ w registration, table.alive w now = some registration → registration.workerId = w)
    {replies : List ScanReply} (hscan : Redis.FullScan ks now r.pattern replies) :
    ∃ ids, r.availableWorkers ks now replies = some (.ok ids) ∧
      table.Step r.membershipTtl now .availableWorkers (.available (.ok ids)) table := by
  obtain ⟨found, hfound, hmem⟩ := scanLoop_eq now h hscan.1 []
  unfold availableWorkers
  rw [hfound]
  obtain ⟨hsorted, hsame⟩ := sort_dedup found
  refine ⟨_, rfl, .listed _ table hsorted ?_ fun w => Or.inl rfl⟩
  intro w
  rw [hsame, hmem]
  constructor
  · rintro (hnil | ⟨reply, -, w', registration, -, halive, hid⟩)
    · cases hnil
    · rw [← hid, hids _ _ halive, halive]
      rfl
  · intro hsome
    obtain ⟨registration, halive⟩ := Option.isSome_iff_exists.mp hsome
    obtain ⟨entry, _, hfind, -⟩ := h.find_of_alive halive
    have hkey : r.workerKey w ∈ ks.keys := by
      rw [Finmap.mem_keys, Finmap.mem_iff]
      exact ⟨entry, (Keyspace.find_eq_some.mp hfind).1⟩
    obtain ⟨reply, hreply, hret⟩ := hscan.2 (r.workerKey w) hkey (by
      rw [Keyspace.contains, hfind, isMatch_workerKey]
      rfl)
    exact Or.inr ⟨reply, hreply, w, registration, hret, halive, hids _ _ halive⟩

end

end Steps

end RedisWorkerRegistry

/-! ## Runs -/

/-- A call with the replies that `SCAN` gives during it. -/
structure RedisRegistryCall extends RegistryCall where
  scan : List ScanReply
deriving DecidableEq

/-- The keyspace and the last reading of the clock. -/
structure RedisRegistryState where
  keys : Keyspace
  clock : Instant
deriving DecidableEq

/-- `RedisWorkerRegistry` on an empty keyspace, called at times that do not
decrease; a listing iterates over all keys. -/
def redisRegistry (r : RedisWorkerRegistry) :
    Machine RedisRegistryState RedisRegistryCall RegistryAnswer where
  init := { keys := ∅, clock := 0 }
  step s call :=
    if call.now < s.clock then none
    else match call.op with
      | .register registration =>
          let (keys, outcome) := r.register s.keys registration call.now call.wall
          some ({ keys := keys, clock := call.now }, .registered outcome)
      | .heartbeat workerId generation =>
          let (keys, result) := r.heartbeat s.keys workerId generation call.now call.wall
          some ({ keys := keys, clock := call.now }, .heartbeat result)
      | .availableWorkers =>
          if Redis.FullScan s.keys call.now r.pattern call.scan then
            (r.availableWorkers s.keys call.now call.scan).map fun workerIds =>
              ({ keys := s.keys, clock := call.now }, .available workerIds)
          else none

/-- The keyspace holds what the history says. -/
def RedisReflects (r : RedisWorkerRegistry) (s : RedisRegistryState)
    (h : RegistryHistory × Instant) : Prop :=
  s.clock = h.2 ∧ ∃ table, r.Holds s.keys table ∧ Reflects r.membershipTtl h.1 h.2 table

/-- What the caller sees of a call: not how `SCAN` went about it. -/
def seen (x : RedisRegistryCall × RegistryAnswer) : RegistryCall × RegistryAnswer :=
  (x.1.toRegistryCall, x.2)

section Redis

variable {r : RedisWorkerRegistry} {millis : Nat} {s s' : RedisRegistryState}
  {call : RedisRegistryCall} {answer : RegistryAnswer} {hist : RegistryHistory × Instant}

theorem RedisReflects.init (r : RedisWorkerRegistry) :
    RedisReflects r (redisRegistry r).init (historyRegistry r.membershipTtl).init :=
  ⟨rfl, _, r.holds_empty, Reflects.nil _⟩

/-- Every call is answered, by a step of the table it holds. -/
theorem redisRegistry_table (hmillis : r.membershipTtl = millis * 1000000)
    (hpos : 0 < millis) (hfits : Keyspace.ExpiryFits call.now millis) {table : RegistryTable}
    (hholds : r.Holds s.keys table)
    (hids : ∀ w registration, table.alive w call.now = some registration →
      registration.workerId = w)
    (hclock : s.clock ≤ call.now)
    (hscan : call.op = .availableWorkers →
      Redis.FullScan s.keys call.now r.pattern call.scan) :
    ∃ s' answer table', (redisRegistry r).step s call = some (s', answer) ∧
      s'.clock = call.now ∧ r.Holds s'.keys table' ∧
      table.Step r.membershipTtl call.now call.op answer table' := by
  obtain ⟨⟨now, wall, op⟩, scan⟩ := call
  unfold redisRegistry
  dsimp only
  rw [if_neg (Nat.not_lt.mpr hclock)]
  rcases op with registration | ⟨workerId, generation⟩ | _
  · obtain ⟨table', hstep, hholds'⟩ :=
      RedisWorkerRegistry.register_step hmillis hpos hfits hholds hids registration wall
    exact ⟨_, _, table', rfl, rfl, hholds', hstep⟩
  · obtain ⟨table', hstep, hholds'⟩ :=
      RedisWorkerRegistry.heartbeat_step hmillis hpos hfits hholds hids workerId generation wall
    exact ⟨_, _, table', rfl, rfl, hholds', hstep⟩
  · obtain ⟨ids, hok, hstep⟩ :=
      RedisWorkerRegistry.availableWorkers_step hholds hids (hscan rfl)
    dsimp only
    rw [if_pos (hscan rfl), hok]
    exact ⟨_, _, table, rfl, rfl, hholds, hstep⟩

/-- Every call is answered as the specification answers it. -/
theorem redisReflects_step (hmillis : r.membershipTtl = millis * 1000000)
    (hpos : 0 < millis) (call : RedisRegistryCall)
    (hfits : Keyspace.ExpiryFits call.now millis) (hr : RedisReflects r s hist)
    (hclock : s.clock ≤ call.now)
    (hscan : call.op = .availableWorkers →
      Redis.FullScan s.keys call.now r.pattern call.scan) :
    ∃ s' answer hist', (redisRegistry r).step s call = some (s', answer) ∧
      (historyRegistry r.membershipTtl).step hist call.toRegistryCall = some (hist', answer) ∧
      RedisReflects r s' hist' := by
  obtain ⟨heq, table, hholds, hreflects⟩ := hr
  rw [heq] at hclock
  have hids : ∀ w registration, table.alive w call.now = some registration →
      registration.workerId = w := by
    intro w registration halive
    exact RegistryHistory.workerId_of_current (hreflects.member hclock halive).2
  obtain ⟨s', answer, table', hstep, hclock', hholds', htable⟩ :=
    redisRegistry_table hmillis hpos hfits hholds hids (heq ▸ hclock) hscan
  obtain ⟨hans, hnext⟩ := hreflects.step hclock htable
  exact ⟨s', answer, _, hstep, historyRegistry_step.mpr ⟨hclock, hans, rfl⟩, hclock',
    table', hholds', hnext⟩

/-- Only a call in time, with a full iteration, is taken. -/
theorem redisRegistry_enabled (hstep : (redisRegistry r).step s call = some (s', answer)) :
    s.clock ≤ call.now ∧ (call.op = .availableWorkers →
      Redis.FullScan s.keys call.now r.pattern call.scan) := by
  unfold redisRegistry at hstep
  dsimp only at hstep
  by_cases hlt : call.now < s.clock
  · rw [if_pos hlt] at hstep
    cases hstep
  · rw [if_neg hlt] at hstep
    refine ⟨Nat.not_lt.mp hlt, ?_⟩
    intro hop
    rw [hop] at hstep
    dsimp only at hstep
    split_ifs at hstep with hscan
    exact hscan

theorem redis_run (hmillis : r.membershipTtl = millis * 1000000) (hpos : 0 < millis)
    {tr : List (RedisRegistryCall × RegistryAnswer)} (h : (redisRegistry r).Run tr s)
    (hfits : ∀ x ∈ tr, Keyspace.ExpiryFits x.1.now millis) :
    ∃ hist, (historyRegistry r.membershipTtl).Run (tr.map seen) hist ∧
      RedisReflects r s hist := by
  refine h.simulation_where (C := fun _ call => Keyspace.ExpiryFits call.now millis)
    (RedisReflects.init r) ?_ ?_
  · intro p s hist call s' answer _ _ hr hcall hstep
    obtain ⟨hclock, hscan⟩ := redisRegistry_enabled hstep
    obtain ⟨s₁, answer₁, hist', hstep₁, hspec, hr'⟩ :=
      redisReflects_step hmillis hpos call hcall hr hclock hscan
    rw [hstep, Option.some.injEq, Prod.mk.injEq] at hstep₁
    obtain ⟨rfl, rfl⟩ := hstep₁
    exact ⟨hist', hspec, hr'⟩
  · rintro p call answer q rfl
    exact hfits (call, answer) (by simp)

/-- Every run of the specification is one of Redis, with some iterations. -/
theorem redis_run_of_history (hmillis : r.membershipTtl = millis * 1000000)
    (hpos : 0 < millis) {tr : RegistryHistory}
    (h : (historyRegistry r.membershipTtl).Run tr hist)
    (hfits : ∀ x ∈ tr, Keyspace.ExpiryFits x.1.now millis) :
    ∃ tr' s, (redisRegistry r).Run tr' s ∧ tr'.map seen = tr ∧ RedisReflects r s hist := by
  induction h with
  | refl => exact ⟨[], _, .refl, rfl, RedisReflects.init r⟩
  | @snoc tr hist₀ hist₁ call answer _ hstep ih =>
      obtain ⟨tr', s, hrun, htr, hr⟩ := ih fun x hx => hfits x (List.mem_append_left _ hx)
      obtain ⟨replies, hscan⟩ := Redis.exists_fullScan s.keys call.now r.pattern
      obtain ⟨hclock, -, -⟩ := historyRegistry_step.mp hstep
      obtain ⟨s₁, answer₁, hist', hstep₁, hspec, hr'⟩ :=
        redisReflects_step hmillis hpos ⟨call, replies⟩ (hfits (call, answer) (by simp)) hr
          (hr.1 ▸ hclock) fun _ => hscan
      rw [hstep, Option.some.injEq, Prod.mk.injEq] at hspec
      obtain ⟨rfl, rfl⟩ := hspec
      refine ⟨_, s₁, hrun.snoc hstep₁, ?_, hr'⟩
      rw [List.map_append, htr]
      rfl

/-- Where `PEXPIRE` takes a TTL of that many milliseconds, an `Instant` holds the end
of the membership. -/
theorem instant_of_expiryFits {now : Instant} (h : Keyspace.ExpiryFits now millis) :
    now + millis * 1000000 ≤ Instant.last := by
  simp only [Keyspace.ExpiryFits, Instant.last, Instant] at h ⊢
  omega

/-- The Redis registry refines the in-memory one, for every TTL of a whole
number of milliseconds that `PEXPIRE` takes at the times of the calls: what it
answers is a run of the in-memory registry; every run of that is one of Redis;
and no call is left without an answer, whatever the replies of `SCAN`. -/
theorem redis_refines_memory (r : RedisWorkerRegistry) (millis : Nat)
    (hmillis : r.membershipTtl = millis * 1000000) (hpos : 0 < r.membershipTtl) :
    (∀ tr s, (redisRegistry r).Run tr s → (∀ x ∈ tr, Keyspace.ExpiryFits x.1.now millis) →
      ∃ s', (memoryRegistry r.membershipTtl hpos).Run (tr.map seen) s') ∧
    (∀ tr s', (memoryRegistry r.membershipTtl hpos).Run tr s' →
      (∀ x ∈ tr, Keyspace.ExpiryFits x.1.now millis) →
      ∃ tr' s, (redisRegistry r).Run tr' s ∧ tr'.map seen = tr) ∧
    ∀ tr s call, (redisRegistry r).Run tr s → (∀ x ∈ tr, Keyspace.ExpiryFits x.1.now millis) →
      s.clock ≤ call.now → Keyspace.ExpiryFits call.now millis →
      (call.op = .availableWorkers →
        Redis.FullScan s.keys call.now r.pattern call.scan) →
      ∃ s' answer, (redisRegistry r).step s call = some (s', answer) := by
  have hmillis_pos : 0 < millis := Nat.pos_of_mul_pos_right (hmillis ▸ hpos)
  have hintime {now : Instant} (h : Keyspace.ExpiryFits now millis) :
      now + r.membershipTtl ≤ Instant.last := hmillis ▸ instant_of_expiryFits h
  refine ⟨?_, ?_, ?_⟩
  · intro tr s h hfits
    obtain ⟨hist, hspec, -⟩ := redis_run hmillis hmillis_pos h hfits
    have htimes : RegistryHistory.RenewsInTime r.membershipTtl (tr.map seen) := by
      refine .of_forall fun x hx => ?_
      rcases List.mem_map.mp hx with ⟨y, hy, rfl⟩
      exact hintime (hfits y hy)
    obtain ⟨s', hrun, -⟩ := memory_run_of_history hpos hspec htimes
    exact ⟨s', hrun⟩
  · intro tr s' h hfits
    obtain ⟨hist, hspec, -⟩ := memory_run h (.of_forall fun x hx => hintime (hfits x hx))
    obtain ⟨tr', s, hrun, hseen, -⟩ := redis_run_of_history hmillis hmillis_pos hspec hfits
    exact ⟨tr', s, hrun, hseen⟩
  · intro tr s call h hfits hclock hcall hscan
    obtain ⟨hist, -, hr⟩ := redis_run hmillis hmillis_pos h hfits
    obtain ⟨s', answer, -, hstep, -⟩ :=
      redisReflects_step hmillis hmillis_pos call hcall hr hclock hscan
    exact ⟨s', answer, hstep⟩

end Redis

/-! ## A run -/

/-- A string with its length before it. -/
def frame (s : String) : List UInt8 :=
  List.replicate (text s).data.toList.length 1 ++ 0 :: (text s).data.toList

def unframe (bytes : List UInt8) : Option (String × List UInt8) :=
  let length := (bytes.takeWhile (· == 1)).length
  let rest := bytes.drop (length + 1)
  (String.fromUTF8? ⟨(rest.take length).toArray⟩).map fun s => (s, rest.drop length)

theorem unframe_frame (s : String) (bytes : List UInt8) :
    unframe (frame s ++ bytes) = some (s, bytes) := by
  have hlength : ((frame s ++ bytes).takeWhile (· == 1)).length =
      (text s).data.toList.length := by
    unfold frame
    simp
  have hrest : (frame s ++ bytes).drop ((text s).data.toList.length + 1) =
      (text s).data.toList ++ bytes := by
    unfold frame
    simp [List.drop_append]
  unfold unframe
  dsimp only
  rw [hlength, hrest, List.take_left, List.drop_left, Array.toArray_toList]
  show (String.fromUTF8? (text s)).map _ = _
  rw [Redis.fromUTF8?_text]
  rfl

/-- An encoding of registrations to run the model with. -/
def framedRegistrations : Codec ByteArray WorkerRegistration where
  encodeToVec m := ⟨(frame m.workerId ++ (frame m.generation ++
    (frame m.implementationVersion ++ frame m.endpoint))).toArray⟩
  decode bytes :=
    match unframe bytes.data.toList with
    | none => .error "invalid worker_id"
    | some (workerId, bytes) =>
      match unframe bytes with
      | none => .error "invalid generation"
      | some (generation, bytes) =>
        match unframe bytes with
        | none => .error "invalid implementation_version"
        | some (implementationVersion, bytes) =>
          match unframe bytes with
          | none => .error "invalid endpoint"
          | some (endpoint, _) =>
              .ok { workerId := workerId, generation := generation,
                    implementationVersion := implementationVersion, endpoint := endpoint }
  decode_encodeToVec m := by
    have hlast := unframe_frame m.endpoint []
    rw [List.append_nil] at hlast
    simp only [unframe_frame, hlast]

/-- A registry whose key prefix is full of pattern characters, with a TTL of
10 ms. -/
def tenMillisRegistry : RedisWorkerRegistry :=
  { keyPrefix := "tw[*]", membershipTtl := 10000000, registrations := framedRegistrations }

/-- Two workers; the listing comes in two batches and repeats a key. -/
def scannedCalls : List RedisRegistryCall :=
  [⟨⟨0, 0, .register (plainRegistration "b" "one" "1")⟩, []⟩,
   ⟨⟨1000000, 0, .register (plainRegistration "a" "one" "1")⟩, []⟩,
   ⟨⟨5000000, 0, .register (plainRegistration "b" "two" "1")⟩, []⟩,
   ⟨⟨9000000, 0, .heartbeat "b" "two"⟩, []⟩,
   ⟨⟨10000000, 0, .availableWorkers⟩,
    [(7, ["tw[*]:worker:b", "tw[*]:worker:a"]), (0, ["tw[*]:worker:b"])]⟩,
   ⟨⟨11000000, 0, .heartbeat "a" "one"⟩, []⟩]

def scannedAnswers : List RegistryAnswer :=
  [.registered (.ok .new), .registered (.ok .new), .registered (.ok .replaced),
   .heartbeat (.ok ()), .available (.ok ["a", "b"]), .heartbeat (.error .unknownWorker)]

theorem redis_refines_memory_scanned : ∃ tr s,
    (redisRegistry tenMillisRegistry).Run tr s ∧ tr.map Prod.fst = scannedCalls ∧
    tr.map Prod.snd = scannedAnswers ∧
    ∃ s', (memoryRegistry tenMillisRegistry.membershipTtl (by decide)).Run (tr.map seen) s' := by
  obtain ⟨tr, s, hrun, hcalls, hans, hfits⟩ :=
    Machine.run_of_exec (redisRegistry tenMillisRegistry) scannedCalls
      (P := fun tr _ => tr.map Prod.snd = scannedAnswers ∧
        ∀ x ∈ tr, Keyspace.ExpiryFits x.1.now 10) (by decide +kernel)
  exact ⟨tr, s, hrun, hcalls, hans,
    (redis_refines_memory tenMillisRegistry 10 rfl (by decide)).1 tr s hrun hfits⟩

end ThreadWeave
