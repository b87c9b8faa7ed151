import ThreadWeave.Redis.Scan
import ThreadWeave.Registry.Redis

/-!
# Listing the workers while they come and go

`RedisWorkerRegistry::available_workers` is no single command: it asks `SCAN` for
one batch of keys after another and reads each of them with `HGET`. Workers
register, send heartbeats and expire between any two of these commands, and any
number of calls are under way at once.

* `Listing` — the locals of one call.
* `redisListings` — the registry at the granularity of Redis commands.
* `Gathers` — what a call that is under way has found, in terms of who was a
  member since it began.
* `listing_between` — the list that a call returns.
-/

namespace ThreadWeave

open Runs (HashMap Machine)
open Redis (Keyspace Iteration ScanReply)

/-! ## Commands -/

/-- The locals of a call of `available_workers`: the cursor of the last reply, the
keys of it that are still to be read, and what was found. -/
structure Listing where
  iteration : Option Iteration
  cursor : Nat
  keys : List String
  workerIds : List String
deriving DecidableEq

def Listing.begun : Listing := { iteration := none, cursor := 0, keys := [], workerIds := [] }

/-- The batch is read and it was not the last one. -/
def Listing.Scans (l : Listing) : Prop := l.keys = [] ∧ (l.iteration = none ∨ l.cursor ≠ 0)

instance Listing.decidableScans (l : Listing) : Decidable l.Scans :=
  inferInstanceAs (Decidable (_ ∧ _))

/-- The batch is read and it was the last one. -/
def Listing.Done (l : Listing) : Prop := l.keys = [] ∧ l.iteration ≠ none ∧ l.cursor = 0

instance Listing.decidableDone (l : Listing) : Decidable l.Done :=
  inferInstanceAs (Decidable (_ ∧ _ ∧ _))

def Listing.keep (matching : Finset String) (l : Listing) : Listing :=
  { l with iteration := l.iteration.map fun iteration => iteration.keep matching }

/-- How a call of `available_workers` goes on. -/
inductive ListingCommand where
  | connect (id : Nat) (connection : Except String Unit)
  | scan (id : Nat) (reply : Except String ScanReply)
  | hget (id : Nat) (connection : Except String Unit)
  | finish (id : Nat)
deriving DecidableEq

/-- What reaches Redis; `elsewhere` is a command about other keys. -/
inductive RegistryCommand where
  | register (registration : WorkerRegistration)
  | heartbeat (workerId generation : String)
  | listing (command : ListingCommand)
  | elsewhere
deriving DecidableEq

structure TimedCommand where
  now : Instant
  wall : Timestamp
  command : RegistryCommand
deriving DecidableEq

inductive CommandAnswer where
  | registered (outcome : Except String RegistrationOutcome)
  | heartbeat (result : Except HeartbeatError Unit)
  | goesOn
  | listed (workerIds : Except String (List String))
deriving DecidableEq

/-- The calls that are under way. -/
abbrev Listings := HashMap Nat Listing

namespace RedisWorkerRegistry

variable (r : RedisWorkerRegistry)

/-- The reply of `SCAN` to the call `id`. -/
def scanReply (listings : Listings) (matching : Finset String) (id : Nat) (l : Listing) :
    Except String ScanReply → Option (Listings × CommandAnswer)
  | .error e => some (listings.erase id, .listed (.error ("cannot list workers: " ++ e)))
  | .ok reply =>
      let iteration := l.iteration.getD (.begin matching)
      if iteration.Allows r.pattern reply then
        some (listings.insert id
          { l with iteration := some (iteration.reply reply.2)
                   cursor := reply.1
                   keys := reply.2 }, .goesOn)
      else none

/-- The reply of `HGET` to the call `id`; `keys` are left of its batch. -/
def readReply (listings : Listings) (id : Nat) (l : Listing) (keys : List String) :
    Except String (Option ByteArray) → Listings × CommandAnswer
  | .error e => (listings.erase id, .listed (.error ("cannot read worker: " ++ e)))
  | .ok none => (listings.insert id { l with keys := keys }, .goesOn)
  | .ok (some payload) =>
      match r.registrations.decode payload with
      | .error e =>
          (listings.erase id, .listed (.error ("invalid worker registration in Redis: " ++ e)))
      | .ok registration =>
          (listings.insert id
            { l with keys := keys, workerIds := l.workerIds ++ [registration.workerId] }, .goesOn)

/-- One command of `available_workers`: `matching` are the keys that are there, and
`read` is what `HGET` answers for the registration under a key. -/
def listingCommand (listings : Listings) (matching : Finset String)
    (read : String → Except String (Option ByteArray)) :
    ListingCommand → Option (Listings × CommandAnswer)
  | .connect _ (.error e) => some (listings, .listed (.error ("cannot connect to Redis: " ++ e)))
  | .connect id (.ok ()) =>
      -- every call has locals of its own
      if id ∈ listings then none else some (listings.insert id .begun, .goesOn)
  | .scan id reply =>
      match listings.lookup id with
      | none => none
      | some l => if l.Scans then r.scanReply listings matching id l reply else none
  | .hget id connection =>
      match listings.lookup id with
      | none => none
      | some l =>
          match l.keys with
          | [] => none
          | key :: keys =>
              some (r.readReply listings id l keys (connection.bind fun _ => read key))
  | .finish id =>
      match listings.lookup id with
      | none => none
      | some l =>
          if l.Done then
            some (listings.erase id,
              .listed (.ok ((l.workerIds.insertionSort (· ≤ ·)).destutter (· ≠ ·))))
          else none

end RedisWorkerRegistry

structure ListingState where
  keys : Keyspace
  clock : Instant
  listings : Listings
deriving DecidableEq

/-- The registry on an empty keyspace, command by command. When a command runs, time
has passed, and keys may have expired. -/
def redisListings (r : RedisWorkerRegistry) :
    Machine ListingState TimedCommand CommandAnswer where
  init := { keys := ∅, clock := 0, listings := ∅ }
  step s a :=
    let matching := s.keys.matching a.now r.pattern
    let listings := HashMap.mapValues (Listing.keep matching) s.listings
    if a.now < s.clock then none
    else match a.command with
      | .register registration =>
          let (keys, outcome) := r.register s.keys registration a.now a.wall
          some ({ keys := keys, clock := a.now, listings := listings }, .registered outcome)
      | .heartbeat workerId generation =>
          let (keys, result) := r.heartbeat s.keys workerId generation a.now a.wall
          some ({ keys := keys, clock := a.now, listings := listings }, .heartbeat result)
      | .listing command =>
          (r.listingCommand listings matching
            (fun key => .ok (s.keys.hget a.now key "registration")) command).map fun (listings, answer) =>
              ({ keys := s.keys, clock := a.now, listings := listings }, answer)
      | .elsewhere => some ({ keys := s.keys, clock := a.now, listings := listings }, .goesOn)

/-! ## What a command does -/

/-- The commands of a call that are taken, and what they leave. -/
inductive RedisWorkerRegistry.Takes (r : RedisWorkerRegistry) (listings : Listings)
    (matching : Finset String) (read : String → Except String (Option ByteArray)) :
    ListingCommand → CommandAnswer → Listings → Prop where
  | unreachable (id : Nat) (e : String) :
      Takes r listings matching read (.connect id (.error e))
        (.listed (.error ("cannot connect to Redis: " ++ e))) listings
  | connect (id : Nat) : listings.lookup id = none →
      Takes r listings matching read (.connect id (.ok ())) .goesOn (listings.insert id .begun)
  | scanFails (id : Nat) (e : String) :
      Takes r listings matching read (.scan id (.error e))
        (.listed (.error ("cannot list workers: " ++ e))) (listings.erase id)
  | scan (id : Nat) (l : Listing) (reply : ScanReply) (iteration : Iteration) :
      listings.lookup id = some l → l.Scans →
      iteration = l.iteration.getD (.begin matching) → iteration.Allows r.pattern reply →
      Takes r listings matching read (.scan id (.ok reply)) .goesOn
        (listings.insert id { l with iteration := some (iteration.reply reply.2)
                                     cursor := reply.1
                                     keys := reply.2 })
  | hgetFails (id : Nat) (e : String) :
      Takes r listings matching read (.hget id (.error e))
        (.listed (.error ("cannot read worker: " ++ e))) (listings.erase id)
  | unreadable (id : Nat) (key e : String) : read key = .error e →
      Takes r listings matching read (.hget id (.ok ()))
        (.listed (.error ("cannot read worker: " ++ e))) (listings.erase id)
  | skip (id : Nat) (l : Listing) (key : String) (keys : List String) :
      listings.lookup id = some l → l.keys = key :: keys → read key = .ok none →
      Takes r listings matching read (.hget id (.ok ())) .goesOn
        (listings.insert id { l with keys := keys })
  | invalid (id : Nat) (key e : String) (payload : ByteArray) :
      read key = .ok (some payload) → r.registrations.decode payload = .error e →
      Takes r listings matching read (.hget id (.ok ()))
        (.listed (.error ("invalid worker registration in Redis: " ++ e))) (listings.erase id)
  | found (id : Nat) (l : Listing) (key : String) (keys : List String) (payload : ByteArray)
      (registration : WorkerRegistration) :
      listings.lookup id = some l → l.keys = key :: keys → read key = .ok (some payload) →
      r.registrations.decode payload = .ok registration →
      Takes r listings matching read (.hget id (.ok ())) .goesOn
        (listings.insert id
          { l with keys := keys, workerIds := l.workerIds ++ [registration.workerId] })
  | finish (id : Nat) (l : Listing) : listings.lookup id = some l → l.Done →
      Takes r listings matching read (.finish id)
        (.listed (.ok ((l.workerIds.insertionSort (· ≤ ·)).destutter (· ≠ ·))))
        (listings.erase id)

theorem listingCommand_takes {r : RedisWorkerRegistry} {listings listings' : Listings}
    {matching : Finset String} {read : String → Except String (Option ByteArray)}
    {c : ListingCommand} {answer : CommandAnswer}
    (h : r.listingCommand listings matching read c = some (listings', answer)) :
    r.Takes listings matching read c answer listings' := by
  unfold RedisWorkerRegistry.listingCommand at h
  cases c with
  | connect id connection =>
      rcases connection with e | _
      · cases h
        exact .unreachable id e
      · dsimp only at h
        split_ifs at h with hmem
        cases h
        exact .connect id (Finmap.lookup_eq_none.mpr hmem)
  | scan id reply =>
      dsimp only at h
      rcases hlook : listings.lookup id with _ | l
      · rw [hlook] at h
        cases h
      · rw [hlook] at h
        dsimp only at h
        split_ifs at h with hscans
        unfold RedisWorkerRegistry.scanReply at h
        rcases reply with e | reply
        · cases h
          exact .scanFails id e
        · dsimp only at h
          split_ifs at h with hallows
          cases h
          exact .scan id l reply _ hlook hscans rfl hallows
  | hget id connection =>
      dsimp only at h
      rcases hlook : listings.lookup id with _ | l
      · rw [hlook] at h
        cases h
      · rw [hlook] at h
        dsimp only at h
        rcases hkeys : l.keys with _ | ⟨key, keys⟩
        · rw [hkeys] at h
          cases h
        · rw [hkeys] at h
          unfold RedisWorkerRegistry.readReply at h
          rcases connection with e | _
          · cases h
            exact .hgetFails id e
          · dsimp only [Except.bind] at h
            rcases hread : read key with e | _ | payload
            · rw [hread] at h
              cases h
              exact .unreadable id key e hread
            · rw [hread] at h
              cases h
              exact .skip id l key keys hlook hkeys hread
            · rw [hread] at h
              dsimp only at h
              rcases hdecode : r.registrations.decode payload with e | registration
              · rw [hdecode] at h
                cases h
                exact .invalid id key e payload hread hdecode
              · rw [hdecode] at h
                cases h
                exact .found id l key keys payload registration hlook hkeys hread hdecode
  | finish id =>
      dsimp only at h
      rcases hlook : listings.lookup id with _ | l
      · rw [hlook] at h
        cases h
      · rw [hlook] at h
        dsimp only at h
        split_ifs at h with hdone
        cases h
        exact .finish id l hlook hdone

/-- The calls under way, as the time at which the next command runs leaves them. -/
def ListingState.observed (r : RedisWorkerRegistry) (s : ListingState) (now : Instant) : Listings :=
  HashMap.mapValues (Listing.keep (s.keys.matching now r.pattern)) s.listings

theorem redisListings_listing {r : RedisWorkerRegistry} {s s' : ListingState} {now : Instant}
    {wall : Timestamp} {c : ListingCommand} {answer : CommandAnswer}
    (h : (redisListings r).step s ⟨now, wall, .listing c⟩ = some (s', answer)) :
    s.clock ≤ now ∧ ∃ listings,
      r.Takes (s.observed r now) (s.keys.matching now r.pattern)
        (fun key => .ok (s.keys.hget now key "registration")) c answer listings ∧
      s' = { keys := s.keys, clock := now, listings := listings } := by
  unfold redisListings at h
  dsimp only at h
  split_ifs at h with hlt
  obtain ⟨⟨listings, answer'⟩, hcommand, heq⟩ := Option.map_eq_some_iff.mp h
  cases heq
  exact ⟨Nat.not_lt.mp hlt, listings, listingCommand_takes hcommand, rfl⟩

/-! ## Who was a member meanwhile -/

abbrev ListingTrace := List (TimedCommand × CommandAnswer)

/-- A registration or a heartbeat, as a call with its answer. -/
def asCall : TimedCommand × CommandAnswer → Option (RegistryCall × RegistryAnswer)
  | (⟨now, wall, .register registration⟩, .registered outcome) =>
      some (⟨now, wall, .register registration⟩, .registered outcome)
  | (⟨now, wall, .heartbeat workerId generation⟩, .heartbeat result) =>
      some (⟨now, wall, .heartbeat workerId generation⟩, .heartbeat result)
  | _ => none

/-- The registrations and heartbeats of a trace. -/
def calls (tr : ListingTrace) : RegistryHistory := tr.filterMap asCall

/-- `workerId` was a member when one of the commands of `q` was about to run, after
those of `p` had. -/
def Sometime (ttl : Duration) (p q : ListingTrace) (workerId : String) : Prop :=
  ∃ q₀ x q₁, q = q₀ ++ x :: q₁ ∧ (calls (p ++ q₀)).MemberAt ttl workerId x.1.now

/-- `workerId` was a member when any of the commands of `q` was about to run. -/
def Throughout (ttl : Duration) (p q : ListingTrace) (workerId : String) : Prop :=
  ∀ q₀ x q₁, q = q₀ ++ x :: q₁ → (calls (p ++ q₀)).MemberAt ttl workerId x.1.now

/-- `q` is what happened since the call `id` began. -/
def Since (id : Nat) (q : ListingTrace) : Prop :=
  ∃ x q', q = x :: q' ∧ x.1.command = .listing (.connect id (.ok ())) ∧
    ∀ y ∈ q', y.1.command ≠ .listing (.connect id (.ok ()))

section Meanwhile

variable {ttl : Duration} {p q : ListingTrace} {x : TimedCommand × CommandAnswer} {w : String}

theorem Sometime.snoc (h : Sometime ttl p q w) (x : TimedCommand × CommandAnswer) :
    Sometime ttl p (q ++ [x]) w := by
  obtain ⟨q₀, y, q₁, rfl, hmember⟩ := h
  exact ⟨q₀, y, q₁ ++ [x], by simp, hmember⟩

theorem Sometime.last (h : (calls (p ++ q)).MemberAt ttl w x.1.now) :
    Sometime ttl p (q ++ [x]) w :=
  ⟨q, x, [], rfl, h⟩

theorem Throughout.of_snoc (h : Throughout ttl p (q ++ [x]) w) : Throughout ttl p q w := by
  intro q₀ y q₁ hq
  exact h q₀ y (q₁ ++ [x]) (by simp [hq])

theorem Throughout.last (h : Throughout ttl p (q ++ [x]) w) :
    (calls (p ++ q)).MemberAt ttl w x.1.now := h q x [] rfl

theorem Since.snoc {id : Nat} (h : Since id q) (hx : x.1.command ≠ .listing (.connect id (.ok ()))) :
    Since id (q ++ [x]) := by
  obtain ⟨y, q', rfl, hy, hq'⟩ := h
  refine ⟨y, q' ++ [x], by simp, hy, ?_⟩
  intro z hz
  rcases List.mem_append.mp hz with hold | hnew
  · exact hq' z hold
  · rw [List.mem_singleton] at hnew
    exact hnew ▸ hx

/-- What happened since a call began ends with the last command. -/
theorem Since.last {id : Nat} {tr : ListingTrace} (h : Since id q) (htr : tr ++ [x] = p ++ q) :
    ∃ q₀, q = q₀ ++ [x] ∧ tr = p ++ q₀ := by
  obtain ⟨y, q', rfl, -, -⟩ := h
  rcases List.eq_nil_or_concat (y :: q') with hnil | ⟨q₀, z, hq⟩
  · cases hnil
  · rw [hq, List.concat_eq_append, ← List.append_assoc] at htr
    obtain ⟨htr₀, hz⟩ := List.append_inj' htr rfl
    rw [List.singleton_inj] at hz
    exact ⟨q₀, by rw [hq, List.concat_eq_append, hz], htr₀⟩

end Meanwhile

/-- What a call has gathered since it began: who is found was a member meanwhile;
whoever was a member all the time has stayed in the iteration, and is found as
soon as its key was returned and read. -/
structure Gathers (r : RedisWorkerRegistry) (p q : ListingTrace) (l : Listing) : Prop where
  found : ∀ w ∈ l.workerIds, Sometime r.membershipTtl p q w
  stayed : ∀ w, Throughout r.membershipTtl p q w →
    ∀ iteration ∈ l.iteration, r.workerKey w ∈ iteration.stayed
  complete : ∀ iteration ∈ l.iteration, l.cursor = 0 →
    ∀ key ∈ iteration.stayed, key ∈ iteration.returned
  read : ∀ w, Throughout r.membershipTtl p q w → ∀ iteration ∈ l.iteration,
    r.workerKey w ∈ iteration.returned → r.workerKey w ∈ l.keys ∨ w ∈ l.workerIds

namespace Gathers

variable {r : RedisWorkerRegistry} {p q : ListingTrace} {l : Listing}

theorem begun (r : RedisWorkerRegistry) (p q : ListingTrace) : Gathers r p q .begun where
  found w hw := by cases hw
  stayed w _ iteration hit := by cases hit
  complete iteration hit := by cases hit
  read w _ iteration hit := by cases hit

/-- Another command runs, after some time: the members are still matching. -/
theorem keep (h : Gathers r p q l) {x : TimedCommand × CommandAnswer} {matching : Finset String}
    (hmatching : ∀ w, (calls (p ++ q)).MemberAt r.membershipTtl w x.1.now →
      r.workerKey w ∈ matching) : Gathers r p (q ++ [x]) (l.keep matching) where
  found w hw := (h.found w hw).snoc x
  stayed w hw iteration hit := by
    obtain ⟨iteration', hit', rfl⟩ := Option.map_eq_some_iff.mp hit
    rw [Redis.Iteration.keep_stayed]
    exact ⟨h.stayed w hw.of_snoc iteration' hit', hmatching w hw.last⟩
  complete iteration hit hcursor key hkey := by
    obtain ⟨iteration', hit', rfl⟩ := Option.map_eq_some_iff.mp hit
    rw [Redis.Iteration.keep_stayed] at hkey
    exact h.complete iteration' hit' hcursor key hkey.1
  read w hw iteration hit hkey := by
    obtain ⟨iteration', hit', rfl⟩ := Option.map_eq_some_iff.mp hit
    exact h.read w hw.of_snoc iteration' hit' hkey

/-- A reply of `SCAN` to a call that has read all before it. -/
theorem scan (h : Gathers r p q l) (hscans : l.Scans) {matching : Finset String}
    (hmatching : ∀ w, Throughout r.membershipTtl p q w → r.workerKey w ∈ matching)
    {reply : ScanReply} {iteration : Iteration}
    (hiteration : iteration = l.iteration.getD (.begin matching))
    (hallows : iteration.Allows r.pattern reply) :
    Gathers r p q { l with iteration := some (iteration.reply reply.2)
                           cursor := reply.1
                           keys := reply.2 } where
  found := h.found
  stayed w hw iteration' hit := by
    cases hit
    show r.workerKey w ∈ iteration.stayed
    rcases hold : l.iteration with _ | old
    · rw [hold] at hiteration
      subst hiteration
      exact hmatching w hw
    · rw [hold] at hiteration
      subst hiteration
      exact h.stayed w hw iteration hold
  complete iteration' hit hcursor key hkey := by
    cases hit
    exact hallows.2 hcursor key hkey
  read w hw iteration' hit hkey := by
    cases hit
    rcases List.mem_append.mp hkey with hbefore | hnow
    · right
      rcases hold : l.iteration with _ | old
      · rw [hold] at hiteration
        subst hiteration
        cases hbefore
      · rw [hold] at hiteration
        subst hiteration
        rcases h.read w hw iteration hold hbefore with hleft | hfound
        · rw [hscans.1] at hleft
          cases hleft
        · exact hfound
    · exact Or.inl hnow

/-- A key is read: who has it and was a member all the time is found. -/
theorem hget (h : Gathers r p q l) {key : String} {keys : List String}
    (hkeys : l.keys = key :: keys) (ids : List String) (hids : ∀ w ∈ ids, Sometime r.membershipTtl p q w)
    (hread : ∀ w, Throughout r.membershipTtl p q w → r.workerKey w = key → w ∈ ids) :
    Gathers r p q { l with keys := keys, workerIds := l.workerIds ++ ids } where
  found w hw := by
    rcases List.mem_append.mp hw with hold | hnew
    · exact h.found w hold
    · exact hids w hnew
  stayed := h.stayed
  complete := h.complete
  read w hw iteration hit hkey := by
    rcases h.read w hw iteration hit hkey with hleft | hfound
    · rw [hkeys] at hleft
      rcases List.mem_cons.mp hleft with hhead | htail
      · exact Or.inr (List.mem_append_right _ (hread w hw hhead))
      · exact Or.inl htail
    · exact Or.inr (List.mem_append_left _ hfound)

/-- A call that is done has found all who were members all the time. -/
theorem done (h : Gathers r p q l) (hdone : l.Done) {w : String}
    (hw : Throughout r.membershipTtl p q w) : w ∈ l.workerIds := by
  obtain ⟨hkeys, hiteration, hcursor⟩ := hdone
  obtain ⟨iteration, hit⟩ := Option.ne_none_iff_exists'.mp hiteration
  have hstayed := h.stayed w hw iteration hit
  have hreturned := h.complete iteration hit hcursor _ hstayed
  rcases h.read w hw iteration hit hreturned with hleft | hfound
  · rw [hkeys] at hleft
    cases hleft
  · exact hfound

end Gathers

/-! ## Runs -/

/-- The keyspace holds what the registrations and heartbeats so far say, and every
call that is under way has gathered accordingly. -/
structure ListingInv (r : RedisWorkerRegistry) (tr : ListingTrace) (s : ListingState) : Prop where
  registry : ∃ table, r.Holds s.keys table ∧ Reflects r.membershipTtl (calls tr) s.clock table
  listings : ∀ id l, s.listings.lookup id = some l →
    ∃ p q, tr = p ++ q ∧ Since id q ∧ Gathers r p q l

theorem calls_snoc (tr : ListingTrace) (x : TimedCommand × CommandAnswer) :
    calls (tr ++ [x]) = calls tr ++ (asCall x).toList := Runs.filterMap_snoc asCall tr x

theorem Reflects.later {ttl : Duration} {tr : RegistryHistory} {clock t : Instant}
    {table : RegistryTable} (h : Reflects ttl tr clock table) (ht : clock ≤ t) :
    Reflects ttl tr t table where
  stored := h.stored
  kept w hmember := h.kept w (hmember.mono ht)

section Runs

variable {r : RedisWorkerRegistry} {millis : Nat} {tr : ListingTrace} {s s' : ListingState}

/-- The key of a member is there. -/
theorem matching_of_member {ks : Keyspace} {table : RegistryTable} {hist : RegistryHistory}
    {clock t : Instant} (hholds : r.Holds ks table)
    (hreflects : Reflects r.membershipTtl hist clock table) (ht : clock ≤ t) {w : String}
    (hmember : hist.MemberAt r.membershipTtl w t) : r.workerKey w ∈ ks.matching t r.pattern := by
  rcases halive : table.alive w t with _ | registration
  · exact absurd hmember (hreflects.not_member ht halive)
  · obtain ⟨entry, _, hfind, -⟩ := hholds.find_of_alive halive
    rw [Keyspace.mem_matching]
    refine ⟨?_, RedisWorkerRegistry.isMatch_workerKey w⟩
    unfold Keyspace.contains
    rw [hfind]
    rfl

/-- What `HGET` finds under any key: the registration in force of a member. -/
theorem member_of_hget {ks : Keyspace} {table : RegistryTable} {hist : RegistryHistory}
    {clock t : Instant} (hholds : r.Holds ks table)
    (hreflects : Reflects r.membershipTtl hist clock table) (ht : clock ≤ t) {key : String}
    {payload : ByteArray} (hget : ks.hget t key "registration" = some payload) :
    ∃ registration, payload = r.registrations.encodeToVec registration ∧
      key = r.workerKey registration.workerId ∧
      hist.MemberAt r.membershipTtl registration.workerId t := by
  have hkey : ∃ w, key = r.workerKey w := by
    unfold Keyspace.hget at hget
    obtain ⟨entry, hfind, -⟩ := Option.bind_eq_some_iff.mp hget
    exact hholds.keys key entry (Keyspace.find_eq_some.mp hfind).1
  obtain ⟨w, rfl⟩ := hkey
  rw [hholds.hget_registration] at hget
  obtain ⟨registration, halive, rfl⟩ := Option.map_eq_some_iff.mp hget
  obtain ⟨hmember, hcurrent⟩ := hreflects.member ht halive
  have hid := RegistryHistory.workerId_of_current hcurrent
  exact ⟨registration, rfl, by rw [hid], hid ▸ hmember⟩

theorem ListingInv.init (r : RedisWorkerRegistry) : ListingInv r [] (redisListings r).init where
  registry := ⟨_, r.holds_empty, Reflects.nil _⟩
  listings id l h := by
    rw [show (redisListings r).init.listings = ∅ from rfl, Finmap.lookup_empty] at h
    cases h

/-- The calls under way, when the next command runs. -/
theorem ListingInv.observed (h : ListingInv r tr s) {x : TimedCommand × CommandAnswer}
    (hclock : s.clock ≤ x.1.now) {id : Nat} {l : Listing}
    (hlook : (s.observed r x.1.now).lookup id = some l)
    (hx : x.1.command ≠ .listing (.connect id (.ok ()))) :
    ∃ p q, tr ++ [x] = p ++ q ∧ Since id q ∧ Gathers r p q l := by
  obtain ⟨table, hholds, hreflects⟩ := h.registry
  unfold ListingState.observed at hlook
  rw [HashMap.lookup_mapValues] at hlook
  obtain ⟨l', hlook', rfl⟩ := Option.map_eq_some_iff.mp hlook
  obtain ⟨p, q, htr, hsince, hgathers⟩ := h.listings id l' hlook'
  refine ⟨p, q ++ [x], by rw [htr, List.append_assoc], hsince.snoc hx, hgathers.keep ?_⟩
  intro w hmember
  rw [← htr] at hmember
  exact matching_of_member hholds hreflects hclock hmember

/-- A registration or a heartbeat is a step of the registry, and leaves the calls
under way alone. -/
theorem ListingInv.of_call (h : ListingInv r tr s) {now : Instant} {wall : Timestamp}
    {c : RegistryCommand} {answer : CommandAnswer} {op : RegistryOp} {reply : RegistryAnswer}
    (hclock : s.clock ≤ now)
    (hcall : asCall (⟨now, wall, c⟩, answer) = some (⟨now, wall, op⟩, reply)) {ks : Keyspace}
    (hstep : ∀ table, r.Holds s.keys table →
      (∀ w registration, table.alive w now = some registration → registration.workerId = w) →
      ∃ table', table.Step r.membershipTtl now op reply table' ∧ r.Holds ks table') :
    ListingInv r (tr ++ [(⟨now, wall, c⟩, answer)])
      { keys := ks, clock := now, listings := s.observed r now } where
  registry := by
    obtain ⟨table, hholds, hreflects⟩ := h.registry
    obtain ⟨table', htable, hholds'⟩ := hstep table hholds (by
      intro w registration halive
      exact RegistryHistory.workerId_of_current (hreflects.member hclock halive).2)
    obtain ⟨-, hreflects'⟩ :=
      hreflects.step (show s.clock ≤ (RegistryCall.mk now wall op).now from hclock) htable
    refine ⟨table', hholds', ?_⟩
    rw [calls_snoc, hcall]
    exact hreflects'
  listings id l hlook := by
    refine h.observed (x := (⟨now, wall, c⟩, answer)) hclock hlook ?_
    rintro rfl
    cases hcall

/-- Where no membership is written: it is enough to say what becomes of the calls
under way. -/
theorem ListingInv.of_listings (h : ListingInv r tr s) {x : TimedCommand × CommandAnswer}
    (hclock : s.clock ≤ x.1.now) (hcall : asCall x = none) {listings : Listings}
    (hlistings : ∀ id l, listings.lookup id = some l →
      ((s.observed r x.1.now).lookup id = some l ∧
        x.1.command ≠ .listing (.connect id (.ok ()))) ∨
      ∃ p q, tr ++ [x] = p ++ q ∧ Since id q ∧ Gathers r p q l) :
    ListingInv r (tr ++ [x]) { keys := s.keys, clock := x.1.now, listings := listings } where
  registry := by
    obtain ⟨table, hholds, hreflects⟩ := h.registry
    refine ⟨table, hholds, ?_⟩
    rw [calls_snoc, hcall, Option.toList_none, List.append_nil]
    exact hreflects.later hclock
  listings id l hlook := by
    rcases hlistings id l hlook with ⟨hold, hx⟩ | hnew
    · exact h.observed hclock hold hx
    · exact hnew

/-- A command that ends one call. -/
theorem ListingInv.close (h : ListingInv r tr s) {x : TimedCommand × CommandAnswer}
    (hclock : s.clock ≤ x.1.now) (hcall : asCall x = none)
    (hx : ∀ id, x.1.command ≠ .listing (.connect id (.ok ()))) (id : Nat) :
    ListingInv r (tr ++ [x])
      { keys := s.keys, clock := x.1.now, listings := (s.observed r x.1.now).erase id } := by
  refine h.of_listings hclock hcall ?_
  intro id' l hlook
  exact Or.inl ⟨(HashMap.lookup_erase_some hlook).2, hx id'⟩

/-- A command that moves one call on. -/
theorem ListingInv.update (h : ListingInv r tr s) {x : TimedCommand × CommandAnswer}
    (hclock : s.clock ≤ x.1.now) (hcall : asCall x = none)
    (hx : ∀ id, x.1.command ≠ .listing (.connect id (.ok ()))) {id : Nat} {l l' : Listing}
    (hlook : (s.observed r x.1.now).lookup id = some l)
    (hnext : ∀ p q, tr ++ [x] = p ++ q → Since id q → Gathers r p q l → Gathers r p q l') :
    ListingInv r (tr ++ [x])
      { keys := s.keys, clock := x.1.now, listings := (s.observed r x.1.now).insert id l' } := by
  refine h.of_listings hclock hcall ?_
  intro id' l₁ hlook'
  rcases HashMap.lookup_insert_some hlook' with ⟨rfl, rfl⟩ | ⟨-, hold⟩
  · obtain ⟨p, q, htr, hsince, hgathers⟩ := h.observed hclock hlook (hx _)
    exact Or.inr ⟨p, q, htr, hsince, hnext p q htr hsince hgathers⟩
  · exact Or.inl ⟨hold, hx id'⟩

theorem ListingInv.listing (h : ListingInv r tr s) {now : Instant} {wall : Timestamp}
    {c : ListingCommand} {answer : CommandAnswer} {listings : Listings} (hclock : s.clock ≤ now)
    (htakes : r.Takes (s.observed r now) (s.keys.matching now r.pattern)
      (fun key => .ok (s.keys.hget now key "registration")) c answer listings) :
    ListingInv r (tr ++ [(⟨now, wall, .listing c⟩, answer)])
      { keys := s.keys, clock := now, listings := listings } := by
  obtain ⟨table, hholds, hreflects⟩ := h.registry
  cases htakes with
  | unreachable id e =>
      refine h.of_listings hclock rfl ?_
      intro id' l hlook
      exact Or.inl ⟨hlook, nofun⟩
  | connect id hnone =>
      refine h.of_listings hclock rfl ?_
      intro id' l hlook
      rcases HashMap.lookup_insert_some hlook with ⟨rfl, rfl⟩ | ⟨hne, hold⟩
      · exact Or.inr ⟨tr, [_], rfl, ⟨_, [], rfl, rfl, by simp⟩, .begun r tr _⟩
      · refine Or.inl ⟨hold, ?_⟩
        simpa using Ne.symm hne
  | scanFails id e => exact h.close hclock rfl (by simp) id
  | scan id l reply iteration hlook hscans hiteration hallows =>
      refine h.update hclock rfl (by simp) hlook ?_
      intro p q htr hsince hgathers
      refine hgathers.scan hscans ?_ hiteration hallows
      intro w hw
      obtain ⟨q₀, rfl, rfl⟩ := hsince.last htr
      exact matching_of_member hholds hreflects hclock hw.last
  | hgetFails id e => exact h.close hclock rfl (by simp) id
  | unreadable id key e hread => exact h.close hclock rfl (by simp) id
  | skip id l key keys hlook hkeys hread =>
      rw [Except.ok.injEq] at hread
      refine h.update hclock rfl (by simp) hlook ?_
      intro p q htr hsince hgathers
      have hnext := hgathers.hget hkeys [] (by simp) ?_
      · rwa [List.append_nil] at hnext
      · rintro w hw rfl
        obtain ⟨q₀, rfl, rfl⟩ := hsince.last htr
        rw [hholds.hget_registration, Option.map_eq_none_iff] at hread
        exact absurd hw.last (hreflects.not_member hclock hread)
  | invalid id key e payload hread hdecode => exact h.close hclock rfl (by simp) id
  | found id l key keys payload registration hlook hkeys hread hdecode =>
      rw [Except.ok.injEq] at hread
      refine h.update hclock rfl (by simp) hlook ?_
      intro p q htr hsince hgathers
      obtain ⟨registration', rfl, rfl, hmember⟩ :=
        member_of_hget hholds hreflects hclock hread
      rw [r.registrations.decode_encodeToVec, Except.ok.injEq] at hdecode
      subst hdecode
      obtain ⟨q₀, rfl, rfl⟩ := hsince.last htr
      refine hgathers.hget hkeys _ ?_ ?_
      · intro w hw
        rw [List.mem_singleton] at hw
        exact hw ▸ Sometime.last hmember
      · intro w _ hkey
        rw [RedisWorkerRegistry.workerKey_inj] at hkey
        exact List.mem_singleton.mpr hkey
  | finish id l hlook hdone => exact h.close hclock rfl (by simp) id

/-- The step lemma. -/
theorem ListingInv.step (hmillis : r.membershipTtl = millis * 1000000) (hpos : 0 < millis)
    (h : ListingInv r tr s) {a : TimedCommand} {answer : CommandAnswer}
    (hfits : Keyspace.ExpiryFits a.now millis)
    (hstep : (redisListings r).step s a = some (s', answer)) :
    ListingInv r (tr ++ [(a, answer)]) s' := by
  obtain ⟨now, wall, c⟩ := a
  have hclock : s.clock ≤ now := by
    by_contra hlt
    rw [show (redisListings r).step s ⟨now, wall, c⟩ = none from
      if_pos (Nat.not_le.mp hlt)] at hstep
    cases hstep
  cases c with
  | listing c =>
      obtain ⟨-, listings, htakes, rfl⟩ := redisListings_listing hstep
      exact h.listing hclock htakes
  | register registration =>
      unfold redisListings at hstep
      dsimp only at hstep
      rw [if_neg (Nat.not_lt.mpr hclock)] at hstep
      cases hstep
      refine h.of_call hclock rfl ?_
      intro table hholds hids
      exact RedisWorkerRegistry.register_step hmillis hpos hfits hholds hids registration wall
  | heartbeat workerId generation =>
      unfold redisListings at hstep
      dsimp only at hstep
      rw [if_neg (Nat.not_lt.mpr hclock)] at hstep
      cases hstep
      refine h.of_call hclock rfl ?_
      intro table hholds hids
      exact RedisWorkerRegistry.heartbeat_step hmillis hpos hfits hholds hids workerId generation
        wall
  | elsewhere =>
      unfold redisListings at hstep
      dsimp only at hstep
      rw [if_neg (Nat.not_lt.mpr hclock)] at hstep
      cases hstep
      refine h.of_listings (x := (⟨now, wall, .elsewhere⟩, .goesOn)) hclock rfl ?_
      intro id l hlook
      exact Or.inl ⟨hlook, nofun⟩

theorem listing_run (hmillis : r.membershipTtl = millis * 1000000) (hpos : 0 < millis)
    (hrun : (redisListings r).Run tr s) (hfits : ∀ x ∈ tr, Keyspace.ExpiryFits x.1.now millis) :
    ListingInv r tr s := by
  induction hrun with
  | refl => exact ListingInv.init r
  | @snoc tr s s' a answer _ hstep ih =>
      have hinv := ih fun x hx => hfits x (List.mem_append_left _ hx)
      exact hinv.step hmillis hpos (hfits (a, answer) (by simp)) hstep

/-- Only a command that fails makes a call fail: what is read always decodes. -/
theorem ListingInv.listed_error (h : ListingInv r tr s) {now : Instant} {wall : Timestamp}
    {c : ListingCommand} {e : String}
    (hstep : (redisListings r).step s ⟨now, wall, .listing c⟩ = some (s', .listed (.error e))) :
    ∃ id e', c = .connect id (.error e') ∨ c = .scan id (.error e') ∨
      c = .hget id (.error e') := by
  obtain ⟨hclock, listings, htakes, -⟩ := redisListings_listing hstep
  obtain ⟨table, hholds, hreflects⟩ := h.registry
  generalize hanswer : CommandAnswer.listed (.error e) = answer at htakes
  cases htakes with
  | unreachable id e' => exact ⟨id, e', Or.inl rfl⟩
  | scanFails id e' => exact ⟨id, e', Or.inr (Or.inl rfl)⟩
  | hgetFails id e' => exact ⟨id, e', Or.inr (Or.inr rfl)⟩
  | unreadable id key e' hread => cases hread
  | invalid id key e' payload hread hdecode =>
      rw [Except.ok.injEq] at hread
      obtain ⟨registration, rfl, -, -⟩ := member_of_hget hholds hreflects hclock hread
      rw [r.registrations.decode_encodeToVec] at hdecode
      cases hdecode
  | _ => cases hanswer

/-- What a call returns. -/
theorem ListingInv.listed_ok (h : ListingInv r tr s) {now : Instant} {wall : Timestamp} {id : Nat}
    {result : Except String (List String)}
    (hstep : (redisListings r).step s ⟨now, wall, .listing (.finish id)⟩ =
      some (s', .listed result)) :
    ∃ ids p q, result = .ok ids ∧ tr = p ++ q ∧ Since id q ∧ ids.Pairwise (· < ·) ∧
      (∀ w ∈ ids, Sometime r.membershipTtl p q w) ∧
      ∀ w, Throughout r.membershipTtl p
        (q ++ [(⟨now, wall, .listing (.finish id)⟩, .listed result)]) w → w ∈ ids := by
  obtain ⟨hclock, listings, htakes, -⟩ := redisListings_listing hstep
  obtain ⟨table, hholds, hreflects⟩ := h.registry
  rcases htakes with _ | _ | _ | _ | _ | _ | _ | _ | _ | ⟨_, l, hlook, hdone⟩
  unfold ListingState.observed at hlook
  rw [HashMap.lookup_mapValues] at hlook
  obtain ⟨l', hlook', hkeep⟩ := Option.map_eq_some_iff.mp hlook
  obtain ⟨p, q, rfl, hsince, hgathers⟩ := h.listings id l' hlook'
  obtain ⟨hsorted, hmem⟩ := RedisWorkerRegistry.sort_dedup l.workerIds
  subst hkeep
  refine ⟨_, p, q, rfl, rfl, hsince, hsorted, ?_, ?_⟩
  · intro w hw
    exact hgathers.found w ((hmem w).mp hw)
  · intro w hw
    refine (hmem w).mpr ((hgathers.keep ?_).done hdone hw)
    intro w' hmember
    exact matching_of_member hholds hreflects hclock hmember

end Runs

/-- What a call of `available_workers` returns while workers come and go: an
increasing list; whoever is on it was a member at some moment since the call
began, and whoever was a member at every moment until it returned is on it. A
call fails only if one of its commands does. -/
theorem listing_between (r : RedisWorkerRegistry) (millis : Nat)
    (hmillis : r.membershipTtl = millis * 1000000) (hpos : 0 < millis) (tr : ListingTrace)
    (s : ListingState) (hrun : (redisListings r).Run tr s)
    (hfits : ∀ x ∈ tr, Keyspace.ExpiryFits x.1.now millis) :
    (∀ p now wall id result q,
      tr = p ++ (⟨now, wall, .listing (.finish id)⟩, .listed result) :: q →
      ∃ ids p₀ q₀, result = .ok ids ∧ p = p₀ ++ q₀ ∧ Since id q₀ ∧ ids.Pairwise (· < ·) ∧
        (∀ w ∈ ids, Sometime r.membershipTtl p₀ q₀ w) ∧
        ∀ w, Throughout r.membershipTtl p₀
          (q₀ ++ [(⟨now, wall, .listing (.finish id)⟩, .listed result)]) w → w ∈ ids) ∧
    (∀ now wall c e, (⟨now, wall, .listing c⟩, .listed (.error e)) ∈ tr →
      ∃ id e', c = .connect id (.error e') ∨ c = .scan id (.error e') ∨
        c = .hget id (.error e')) := by
  have hmid : ∀ p x q, tr = p ++ x :: q → ∃ s₁ s₂, ListingInv r p s₁ ∧
      (redisListings r).step s₁ x.1 = some (s₂, x.2) := by
    rintro p x q rfl
    obtain ⟨s₁, s₂, hp, hstep, -⟩ := Machine.Steps.mid hrun
    exact ⟨s₁, s₂, listing_run hmillis hpos hp fun x hx => hfits x (List.mem_append_left _ hx),
      hstep⟩
  constructor
  · intro p now wall id result q htr
    obtain ⟨s₁, s₂, hinv, hstep⟩ := hmid p _ q htr
    exact hinv.listed_ok hstep
  · intro now wall c e hx
    obtain ⟨p, q, htr⟩ := List.append_of_mem hx
    obtain ⟨s₁, s₂, hinv, hstep⟩ := hmid p _ q htr
    exact hinv.listed_error hstep

/-- Two workers, one of which expires after its key was returned and before it is
read, and a third that registers behind the back of the iteration. -/
def changingCommands : List TimedCommand :=
  [⟨0, 0, .register (plainRegistration "b" "one" "1")⟩,
   ⟨4000000, 0, .register (plainRegistration "a" "one" "1")⟩,
   ⟨5000000, 0, .listing (.connect 1 (.ok ()))⟩,
   ⟨6000000, 0, .listing (.scan 1 (.ok (7, ["tw[*]:worker:b"])))⟩,
   ⟨7000000, 0, .register (plainRegistration "c" "one" "1")⟩,
   ⟨11000000, 0, .listing (.hget 1 (.ok ()))⟩,
   ⟨12000000, 0, .listing (.scan 1 (.ok (0, ["tw[*]:worker:a", "tw[*]:worker:a"])))⟩,
   ⟨12000000, 0, .listing (.hget 1 (.ok ()))⟩,
   ⟨13000000, 0, .listing (.hget 1 (.ok ()))⟩,
   ⟨13000000, 0, .listing (.finish 1)⟩]

def changingAnswers : List CommandAnswer :=
  [.registered (.ok .new), .registered (.ok .new), .goesOn, .goesOn, .registered (.ok .new),
   .goesOn, .goesOn, .goesOn, .goesOn, .listed (.ok ["a"])]

theorem listing_between_changing : ∃ tr s,
    (redisListings tenMillisRegistry).Run tr s ∧ tr.map Prod.fst = changingCommands ∧
    tr.map Prod.snd = changingAnswers ∧
    ∀ now wall c e, (⟨now, wall, .listing c⟩, .listed (.error e)) ∈ tr →
      ∃ id e', c = .connect id (.error e') ∨ c = .scan id (.error e') ∨
        c = .hget id (.error e') := by
  obtain ⟨tr, s, hrun, hcommands, hans, hfits⟩ :=
    Machine.run_of_exec (redisListings tenMillisRegistry) changingCommands
      (P := fun tr _ => tr.map Prod.snd = changingAnswers ∧
        ∀ x ∈ tr, Keyspace.ExpiryFits x.1.now 10) (by decide +kernel)
  exact ⟨tr, s, hrun, hcommands, hans,
    (listing_between tenMillisRegistry 10 rfl (by decide) tr s hrun hfits).2⟩

end ThreadWeave
