import ThreadWeave.Runs.Machine
import ThreadWeave.Registry

/-!
# Membership is determined by history

What a worker registry answers, said without a registry: from the calls made
so far and their answers alone. A worker is a member at `t` iff its latest
renewal (a registration, or an accepted heartbeat) is less than a TTL old; its
registration is the one of its latest `New` or `Replaced` answer.

* `expected` — the answer that history determines.
* `Table.Step` — what one operation may do to a table of registrations with
  expiry times, in terms of the entries that are still alive.
* `Reflects` — a table holds what history says, `Reflects.step` — a step keeps
  that and its answer is the expected one.
* `memoryRegistry` — `MemoryWorkerRegistry` behind its lock, with a clock; each of
  its operations is such a step, unless it panics, and `memory_run_iff` — its runs
  without a panic are exactly the timed sequences of calls with their expected
  answers.
* `RenewsInTime` — no call renews a membership so late, or for so long, that there
  is no `Instant` for its end; `membership_by_history` — exactly then history
  determines everything.
-/

namespace ThreadWeave

open Runs (HashMap)

/-! ## Calls and answers -/

inductive RegistryOp where
  | register (registration : WorkerRegistration)
  | heartbeat (workerId generation : String)
  | availableWorkers
deriving DecidableEq

/-- One call, with the clock readings it takes. -/
structure RegistryCall where
  now : Instant
  wall : Timestamp
  op : RegistryOp
deriving DecidableEq

inductive RegistryAnswer where
  | registered (outcome : Except String RegistrationOutcome)
  | heartbeat (result : Except HeartbeatError Unit)
  | available (workerIds : Except String (List String))
  /-- the call panicked -/
  | panicked
deriving DecidableEq

/-- The calls made so far, with their answers. -/
abbrev RegistryHistory := List (RegistryCall × RegistryAnswer)

namespace RegistryHistory

/-- The worker whose membership an entry renewed. -/
def renewed : RegistryCall × RegistryAnswer → Option String
  | (⟨_, _, .register registration⟩, .registered (.ok _)) => some registration.workerId
  | (⟨_, _, .heartbeat workerId _⟩, .heartbeat (.ok ())) => some workerId
  | _ => none

/-- The registration an entry put in place. -/
def installed : RegistryCall × RegistryAnswer → Option WorkerRegistration
  | (⟨_, _, .register registration⟩, .registered (.ok .new)) => some registration
  | (⟨_, _, .register registration⟩, .registered (.ok .replaced)) => some registration
  | _ => none

/-- When `workerId` last registered or sent an accepted heartbeat. -/
def lastRenewal (tr : RegistryHistory) (workerId : String) : Option Instant :=
  (tr.filter fun x => renewed x = some workerId).getLast?.map fun x => x.1.now

/-- The registration of the latest `New` or `Replaced` answer for `workerId`. -/
def current (tr : RegistryHistory) (workerId : String) : Option WorkerRegistration :=
  ((tr.filterMap installed).filter fun registration => registration.workerId = workerId).getLast?

/-- `workerId` is a member at `t`: its latest renewal is less than a TTL old. -/
def MemberAt (ttl : Duration) (tr : RegistryHistory) (workerId : String) (t : Instant) : Prop :=
  ∃ u ∈ tr.lastRenewal workerId, t < u + ttl

instance (ttl : Duration) (tr : RegistryHistory) (workerId : String) (t : Instant) :
    Decidable (MemberAt ttl tr workerId t) :=
  inferInstanceAs (Decidable (∃ u ∈ tr.lastRenewal workerId, t < u + ttl))

/-- The members at `t`, in increasing order. -/
def members (ttl : Duration) (tr : RegistryHistory) (t : Instant) : List String :=
  ((tr.filterMap renewed).dedup.filter fun workerId =>
    MemberAt ttl tr workerId t).insertionSort (· ≤ ·)

/-- The generation of the registration in force. -/
def generation (tr : RegistryHistory) (workerId : String) : Option String :=
  (tr.current workerId).map WorkerRegistration.generation

/-- The answer to a call after the history `tr`. -/
def expected (ttl : Duration) (tr : RegistryHistory) (call : RegistryCall) : RegistryAnswer :=
  match call.op with
  | .register registration =>
      .registered (.ok
        (if ¬ MemberAt ttl tr registration.workerId call.now then .new
        else if tr.generation registration.workerId = some registration.generation then
          .idempotent
        else .replaced))
  | .heartbeat workerId generation =>
      .heartbeat
        (if ¬ MemberAt ttl tr workerId call.now then .error .unknownWorker
        else if tr.generation workerId = some generation then .ok ()
        else .error .staleGeneration)
  | .availableWorkers => .available (.ok (tr.members ttl call.now))

/-- After the history `tr` the call is to renew a membership: it is a registration,
or a heartbeat of a member under the generation in force. -/
def Renews (ttl : Duration) (tr : RegistryHistory) (call : RegistryCall) : Prop :=
  match call.op with
  | .register _ => True
  | .heartbeat workerId generation =>
      MemberAt ttl tr workerId call.now ∧ tr.generation workerId = some generation
  | .availableWorkers => False

/-- Every call that is to renew a membership is made at a time from which a TTL on
there still is an `Instant`. -/
def RenewsInTime (ttl : Duration) (tr : RegistryHistory) : Prop :=
  ∀ p call answer q, tr = p ++ (call, answer) :: q → Renews ttl p call →
    call.now + ttl ≤ Instant.last

/-! ## How history grows -/

theorem lastRenewal_snoc (tr : RegistryHistory) (x : RegistryCall × RegistryAnswer)
    (workerId : String) :
    lastRenewal (tr ++ [x]) workerId =
      if renewed x = some workerId then some x.1.now else tr.lastRenewal workerId := by
  unfold lastRenewal
  rw [List.filter_append, List.filter_singleton]
  by_cases h : renewed x = some workerId
  · simp [h]
  · simp [h]

theorem current_snoc (tr : RegistryHistory) (x : RegistryCall × RegistryAnswer)
    (workerId : String) :
    current (tr ++ [x]) workerId =
      ((installed x).filter fun registration => registration.workerId = workerId).or
        (tr.current workerId) := by
  unfold current
  rw [Runs.filterMap_snoc, List.filter_append, List.getLast?_append]
  rcases installed x with _ | registration
  · simp
  · by_cases hid : registration.workerId = workerId
    · simp [hid, Option.filter_some]
    · simp [hid, Option.filter_some]

/-- Only an entry that renews a membership puts a registration in place. -/
theorem renewed_of_installed {x : RegistryCall × RegistryAnswer}
    {registration : WorkerRegistration} (h : installed x = some registration) :
    renewed x = some registration.workerId := by
  unfold installed at h
  split at h
  · cases h
    rfl
  · cases h
    rfl
  · cases h

/-- An entry that does not renew `workerId` leaves its registration alone. -/
theorem current_snoc_of_not_renewed {tr : RegistryHistory} {x : RegistryCall × RegistryAnswer}
    {workerId : String} (h : renewed x ≠ some workerId) :
    current (tr ++ [x]) workerId = tr.current workerId := by
  rw [current_snoc]
  rcases hx : installed x with _ | registration
  · rfl
  · have hid : registration.workerId ≠ workerId := by
      intro hid
      exact h (hid ▸ renewed_of_installed hx)
    simp [hid, Option.filter_some]

theorem renewed_of_lastRenewal {tr : RegistryHistory} {workerId : String} {u : Instant}
    (h : tr.lastRenewal workerId = some u) : workerId ∈ tr.filterMap renewed := by
  unfold lastRenewal at h
  obtain ⟨x, hx, -⟩ := Option.map_eq_some_iff.mp h
  have hmem := List.mem_of_getLast? hx
  simp only [List.mem_filter, decide_eq_true_eq] at hmem
  exact List.mem_filterMap.mpr ⟨x, hmem⟩

theorem workerId_of_current {tr : RegistryHistory} {workerId : String}
    {registration : WorkerRegistration} (h : tr.current workerId = some registration) :
    registration.workerId = workerId := by
  have hmem := List.mem_of_getLast? h
  simp only [List.mem_filter, decide_eq_true_eq] at hmem
  exact hmem.2

/-- A member at `t` was one before, as long as nothing happens in between. -/
theorem MemberAt.mono {ttl : Duration} {tr : RegistryHistory} {workerId : String}
    {s t : Instant} (h : MemberAt ttl tr workerId t) (hst : s ≤ t) :
    MemberAt ttl tr workerId s := by
  obtain ⟨u, hu, hlt⟩ := h
  exact ⟨u, hu, lt_of_le_of_lt hst hlt⟩

theorem memberAt_snoc_of_not_renewed {ttl : Duration} {tr : RegistryHistory}
    {x : RegistryCall × RegistryAnswer} {workerId : String} {t : Instant}
    (h : renewed x ≠ some workerId) :
    MemberAt ttl (tr ++ [x]) workerId t ↔ MemberAt ttl tr workerId t := by
  unfold MemberAt
  rw [lastRenewal_snoc, if_neg h]

theorem mem_members {ttl : Duration} {tr : RegistryHistory} {t : Instant} {workerId : String} :
    workerId ∈ tr.members ttl t ↔ MemberAt ttl tr workerId t := by
  unfold members
  simp only [List.mem_insertionSort, List.mem_filter, List.mem_dedup, decide_eq_true_eq,
    and_iff_right_iff_imp]
  rintro ⟨u, hu, -⟩
  exact renewed_of_lastRenewal hu

theorem members_sorted (ttl : Duration) (tr : RegistryHistory) (t : Instant) :
    (tr.members ttl t).Pairwise (· < ·) := by
  have hle : (tr.members ttl t).Pairwise (· ≤ ·) := List.pairwise_insertionSort _ _
  have hne : (tr.members ttl t).Nodup := by
    unfold members
    rw [(List.perm_insertionSort _ _).nodup_iff]
    exact (List.nodup_dedup _).filter _
  exact (hle.and hne).imp fun h => lt_of_le_of_ne h.1 h.2

/-- The list of the members is the only increasing list of them. -/
theorem eq_members {ttl : Duration} {tr : RegistryHistory} {t : Instant} {ids : List String}
    (hsorted : ids.Pairwise (· < ·)) (hmem : ∀ w, w ∈ ids ↔ MemberAt ttl tr w t) :
    ids = tr.members ttl t := by
  have hmem' : ∀ w, w ∈ ids ↔ w ∈ tr.members ttl t := by
    intro w
    rw [hmem, mem_members]
  have hperm : ids.Perm (tr.members ttl t) := by
    apply (List.perm_ext_iff_of_nodup _ _).mpr hmem'
    · exact hsorted.imp ne_of_lt
    · exact (members_sorted ttl tr t).imp ne_of_lt
  exact hperm.eq_of_pairwise (fun a b _ _ hab hba => absurd hba (lt_asymm hab))
    hsorted (members_sorted ttl tr t)

theorem RenewsInTime.nil (ttl : Duration) : RenewsInTime ttl [] := by
  intro p call answer q hsplit
  simp at hsplit

theorem RenewsInTime.of_append {ttl : Duration} {p q : RegistryHistory}
    (h : RenewsInTime ttl (p ++ q)) : RenewsInTime ttl p := by
  rintro u call answer v rfl
  exact h u call answer (v ++ q) (by simp)

theorem RenewsInTime.snoc {ttl : Duration} {p : RegistryHistory} {call : RegistryCall}
    {answer : RegistryAnswer} (h : RenewsInTime ttl p)
    (hlast : Renews ttl p call → call.now + ttl ≤ Instant.last) :
    RenewsInTime ttl (p ++ [(call, answer)]) := by
  intro u call' answer' v hsplit
  obtain ⟨rfl, hx, -⟩ | ⟨v', -, hp⟩ := Runs.snoc_eq_append_cons hsplit
  · cases hx
    exact hlast
  · exact h u call' answer' v' hp

/-- It is enough that a TTL fits after every call. -/
theorem RenewsInTime.of_forall {ttl : Duration} {tr : RegistryHistory}
    (h : ∀ x ∈ tr, x.1.now + ttl ≤ Instant.last) : RenewsInTime ttl tr := by
  rintro p call answer q rfl -
  exact h (call, answer) (by simp)

end RegistryHistory

/-! ## Tables of registrations -/

/-- The registrations a registry keeps, with the time each expires. -/
abbrev RegistryTable := String → Option (WorkerRegistration × Instant)

namespace RegistryTable

/-- The registration of a worker that has not expired at `t`. -/
def alive (table : RegistryTable) (workerId : String) (t : Instant) :
    Option WorkerRegistration :=
  ((table workerId).filter fun entry => t < entry.2).map Prod.fst

/-- The table after `registration` is written under its worker for a TTL. -/
def renew (table : RegistryTable) (registration : WorkerRegistration) (ttl : Duration)
    (now : Instant) : RegistryTable :=
  Function.update table registration.workerId (some (registration, now + ttl))

/-- What one operation at `now` may answer, and what it leaves. A table may
drop entries that are no longer alive, but only while the workers are listed. -/
inductive Step (ttl : Duration) (table : RegistryTable) (now : Instant) :
    RegistryOp → RegistryAnswer → RegistryTable → Prop where
  | new (registration : WorkerRegistration) :
      table.alive registration.workerId now = none →
      Step ttl table now (.register registration) (.registered (.ok .new))
        (table.renew registration ttl now)
  | idempotent (registration old : WorkerRegistration) :
      table.alive registration.workerId now = some old →
      old.workerId = registration.workerId → old.generation = registration.generation →
      Step ttl table now (.register registration) (.registered (.ok .idempotent))
        (table.renew old ttl now)
  | replaced (registration old : WorkerRegistration) :
      table.alive registration.workerId now = some old →
      old.generation ≠ registration.generation →
      Step ttl table now (.register registration) (.registered (.ok .replaced))
        (table.renew registration ttl now)
  | unknownWorker (workerId generation : String) :
      table.alive workerId now = none →
      Step ttl table now (.heartbeat workerId generation) (.heartbeat (.error .unknownWorker)) table
  | staleGeneration (workerId generation : String) (old : WorkerRegistration) :
      table.alive workerId now = some old → old.generation ≠ generation →
      Step ttl table now (.heartbeat workerId generation) (.heartbeat (.error .staleGeneration))
        table
  | beat (workerId generation : String) (old : WorkerRegistration) :
      table.alive workerId now = some old → old.workerId = workerId →
      old.generation = generation →
      Step ttl table now (.heartbeat workerId generation) (.heartbeat (.ok ()))
        (table.renew old ttl now)
  | listed (ids : List String) (rest : RegistryTable) :
      ids.Pairwise (· < ·) → (∀ w, w ∈ ids ↔ (table.alive w now).isSome) →
      (∀ w, rest w = table w ∨ rest w = none ∧ table.alive w now = none) →
      Step ttl table now .availableWorkers (.available (.ok ids)) rest

theorem alive_eq_some {table : RegistryTable} {workerId : String} {t : Instant}
    {registration : WorkerRegistration} : table.alive workerId t = some registration ↔
      ∃ expiresAt, table workerId = some (registration, expiresAt) ∧ t < expiresAt := by
  simp [alive, Option.filter_eq_some_iff]

theorem renew_self (table : RegistryTable) (registration : WorkerRegistration) (ttl : Duration)
    (now : Instant) :
    table.renew registration ttl now registration.workerId = some (registration, now + ttl) :=
  Function.update_self _ _ _

theorem renew_of_ne {table : RegistryTable} {registration : WorkerRegistration} {ttl : Duration}
    {now : Instant} {workerId : String} (h : workerId ≠ registration.workerId) :
    table.renew registration ttl now workerId = table workerId :=
  Function.update_of_ne h _ _

end RegistryTable

open RegistryHistory

/-- The table holds what the history says: an entry is the registration in
force and expires a TTL after its latest renewal, and whoever is a member has
an entry. -/
structure Reflects (ttl : Duration) (tr : RegistryHistory) (clock : Instant)
    (table : RegistryTable) : Prop where
  stored : ∀ w registration expiresAt, table w = some (registration, expiresAt) →
    tr.current w = some registration ∧
    ∃ u, tr.lastRenewal w = some u ∧ expiresAt = u + ttl
  kept : ∀ w, MemberAt ttl tr w clock → (table w).isSome

namespace Reflects

variable {ttl : Duration} {tr : RegistryHistory} {clock : Instant} {table : RegistryTable}

theorem nil (ttl : Duration) : Reflects ttl [] 0 fun _ => none where
  stored w registration expiresAt h := by cases h
  kept w := by
    rintro ⟨u, hu, -⟩
    cases hu

/-- From the clock on, the table's live entries are the members with the
registration in force. -/
theorem alive_eq (h : Reflects ttl tr clock table) {t : Instant} (ht : clock ≤ t) (w : String) :
    table.alive w t = if MemberAt ttl tr w t then tr.current w else none := by
  split_ifs with hmember
  · have hsome := h.kept w (hmember.mono ht)
    obtain ⟨u, hu, hlt⟩ := hmember
    obtain ⟨⟨registration, expiresAt⟩, hentry⟩ := Option.isSome_iff_exists.mp hsome
    obtain ⟨hcurrent, u', hu', rfl⟩ := h.stored w registration expiresAt hentry
    have huu : u' = u := Option.some.inj (hu'.symm.trans hu)
    rw [hcurrent, RegistryTable.alive_eq_some]
    exact ⟨_, hentry, huu ▸ hlt⟩
  · rw [Option.eq_none_iff_forall_ne_some]
    intro registration halive
    obtain ⟨expiresAt, hentry, hlt⟩ := RegistryTable.alive_eq_some.mp halive
    obtain ⟨-, u, hu, rfl⟩ := h.stored w registration expiresAt hentry
    exact hmember ⟨u, hu, hlt⟩

theorem not_member (h : Reflects ttl tr clock table) {t : Instant} (ht : clock ≤ t) {w : String}
    (halive : table.alive w t = none) : ¬ MemberAt ttl tr w t := by
  intro hmember
  have hsome := h.kept w (hmember.mono ht)
  obtain ⟨⟨registration, expiresAt⟩, hentry⟩ := Option.isSome_iff_exists.mp hsome
  obtain ⟨hcurrent, -⟩ := h.stored w registration expiresAt hentry
  rw [h.alive_eq ht, if_pos hmember, hcurrent] at halive
  cases halive

theorem member (h : Reflects ttl tr clock table) {t : Instant} (ht : clock ≤ t) {w : String}
    {registration : WorkerRegistration} (halive : table.alive w t = some registration) :
    MemberAt ttl tr w t ∧ tr.current w = some registration := by
  rw [h.alive_eq ht] at halive
  split_ifs at halive with hmember
  exact ⟨hmember, halive⟩

/-- An entry that renews `registration`'s worker, and makes or leaves
`registration` the one in force, is what `renew` writes. -/
theorem renew (h : Reflects ttl tr clock table) {x : RegistryCall × RegistryAnswer}
    {registration : WorkerRegistration} (hclock : clock ≤ x.1.now)
    (hrenewed : renewed x = some registration.workerId)
    (hcurrent : current (tr ++ [x]) registration.workerId = some registration) :
    Reflects ttl (tr ++ [x]) x.1.now (table.renew registration ttl x.1.now) where
  stored w registration' expiresAt hentry := by
    by_cases hw : w = registration.workerId
    · subst hw
      rw [RegistryTable.renew_self] at hentry
      cases hentry
      exact ⟨hcurrent, x.1.now, by rw [lastRenewal_snoc, if_pos hrenewed], rfl⟩
    · have hother : renewed x ≠ some w := by
        rw [hrenewed]
        exact fun heq => hw (Option.some.inj heq).symm
      rw [RegistryTable.renew_of_ne hw] at hentry
      rw [current_snoc_of_not_renewed hother, lastRenewal_snoc, if_neg hother]
      exact h.stored w registration' expiresAt hentry
  kept w hmember := by
    by_cases hw : w = registration.workerId
    · rw [hw, RegistryTable.renew_self]
      rfl
    · have hother : renewed x ≠ some w := by
        rw [hrenewed]
        exact fun heq => hw (Option.some.inj heq).symm
      rw [memberAt_snoc_of_not_renewed hother] at hmember
      rw [RegistryTable.renew_of_ne hw]
      exact h.kept w (hmember.mono hclock)

/-- An entry that renews nobody may drop what is no longer alive. -/
theorem pass (h : Reflects ttl tr clock table) {x : RegistryCall × RegistryAnswer}
    {rest : RegistryTable} (hclock : clock ≤ x.1.now) (hrenewed : renewed x = none)
    (hrest : ∀ w, rest w = table w ∨ rest w = none ∧ table.alive w x.1.now = none) :
    Reflects ttl (tr ++ [x]) x.1.now rest where
  stored w registration expiresAt hentry := by
    have hother : renewed x ≠ some w := by simp [hrenewed]
    rw [current_snoc_of_not_renewed hother, lastRenewal_snoc, if_neg hother]
    rcases hrest w with hsame | ⟨hdropped, -⟩
    · exact h.stored w registration expiresAt (hsame ▸ hentry)
    · rw [hdropped] at hentry
      cases hentry
  kept w hmember := by
    rw [memberAt_snoc_of_not_renewed (by simp [hrenewed])] at hmember
    rcases hrest w with hsame | ⟨-, hdead⟩
    · rw [hsame]
      exact h.kept w (hmember.mono hclock)
    · exact absurd hmember (h.not_member hclock hdead)

/-- A step gives the expected answer, and the table goes on reflecting the
history. -/
theorem step (h : Reflects ttl tr clock table) {call : RegistryCall} {answer : RegistryAnswer}
    {table' : RegistryTable} (hclock : clock ≤ call.now)
    (hstep : table.Step ttl call.now call.op answer table') :
    answer = expected ttl tr call ∧ Reflects ttl (tr ++ [(call, answer)]) call.now table' := by
  obtain ⟨now, wall, op⟩ := call
  unfold expected
  cases hstep with
  | new registration halive =>
      have hnot := h.not_member hclock halive
      refine ⟨by simp [hnot], h.renew hclock rfl ?_⟩
      simp [current_snoc, installed, Option.filter_some]
  | idempotent registration old halive hid hgen =>
      obtain ⟨hmember, hcurrent⟩ := h.member hclock halive
      refine ⟨by simp [hmember, generation, hcurrent, hgen], h.renew hclock ?_ ?_⟩
      · rw [hid]
        rfl
      · rw [hid, current_snoc]
        simpa [installed] using hcurrent
  | replaced registration old halive hgen =>
      obtain ⟨hmember, hcurrent⟩ := h.member hclock halive
      refine ⟨by simp [hmember, generation, hcurrent, hgen], h.renew hclock rfl ?_⟩
      simp [current_snoc, installed, Option.filter_some]
  | unknownWorker workerId gen halive =>
      have hnot := h.not_member hclock halive
      exact ⟨by simp [hnot], h.pass hclock rfl fun w => Or.inl rfl⟩
  | staleGeneration workerId gen old halive hgen =>
      obtain ⟨hmember, hcurrent⟩ := h.member hclock halive
      exact ⟨by simp [hmember, generation, hcurrent, hgen],
        h.pass hclock rfl fun w => Or.inl rfl⟩
  | beat workerId gen old halive hid hgen =>
      obtain ⟨hmember, hcurrent⟩ := h.member hclock halive
      refine ⟨by simp [hmember, generation, hcurrent, hgen], h.renew hclock ?_ ?_⟩
      · rw [hid]
        rfl
      · rw [hid, current_snoc]
        simpa [installed] using hcurrent
  | listed ids rest hsorted hmem hrest =>
      refine ⟨?_, h.pass hclock rfl hrest⟩
      have hids : ids = tr.members ttl now := by
        apply eq_members hsorted
        intro w
        rw [hmem, h.alive_eq hclock]
        constructor
        · intro hsome
          split_ifs at hsome with hmember
          · exact hmember
          · cases hsome
        · intro hmember
          obtain ⟨r, hr⟩ : ∃ r, table.alive w now = some r := by
            rw [← Option.ne_none_iff_exists']
            exact fun hnone => h.not_member hclock hnone hmember
          rw [← h.alive_eq hclock, hr]
          rfl
      rw [hids]

end Reflects

/-! ## The registry that only keeps its history -/

open Runs (Machine)

/-- The specification: every answer is the one history determines. The clock
does not run backwards. -/
def historyRegistry (ttl : Duration) :
    Machine (RegistryHistory × Instant) RegistryCall RegistryAnswer where
  init := ([], 0)
  step s call :=
    if call.now < s.2 then none
    else
      let answer := expected ttl s.1 call
      some ((s.1 ++ [(call, answer)], call.now), answer)

section Spec

variable {ttl : Duration} {tr : RegistryHistory} {s : RegistryHistory × Instant}

theorem historyRegistry_step {s' : RegistryHistory × Instant} {call : RegistryCall}
    {answer : RegistryAnswer} :
    (historyRegistry ttl).step s call = some (s', answer) ↔
      s.2 ≤ call.now ∧ answer = expected ttl s.1 call ∧
      s' = (s.1 ++ [(call, answer)], call.now) := by
  unfold historyRegistry
  dsimp only
  split_ifs with hlt
  · simp [Nat.not_le.mpr hlt]
  · rw [Option.some.injEq, Prod.mk.injEq]
    constructor
    · rintro ⟨rfl, rfl⟩
      exact ⟨Nat.not_lt.mp hlt, rfl, rfl⟩
    · rintro ⟨-, rfl, rfl⟩
      exact ⟨rfl, rfl⟩

/-- The state of the specification is the history. -/
theorem historyRegistry_fst (h : (historyRegistry ttl).Run tr s) : s.1 = tr := by
  apply h.history (P := fun tr s => s.1 = tr) rfl
  intro tr s a t b _ htr hs
  obtain ⟨-, -, rfl⟩ := historyRegistry_step.mp hs
  rw [htr]

/-- Every answer in a run is the expected one. -/
theorem historyRegistry_answers (h : (historyRegistry ttl).Run tr s)
    {p q : RegistryHistory} {call : RegistryCall} {answer : RegistryAnswer}
    (htr : tr = p ++ (call, answer) :: q) : answer = expected ttl p call := by
  subst htr
  obtain ⟨t, t', hp, hs, -⟩ := Machine.Steps.mid h
  obtain ⟨-, hans, -⟩ := historyRegistry_step.mp hs
  rw [← historyRegistry_fst hp]
  exact hans

end Spec

section Listing

variable {ttl : Duration} {p q : RegistryHistory} {x : RegistryCall × RegistryAnswer}

/-- A listing renews nobody and puts no registration in place. -/
theorem listing_quiet (hx : x.1.op = .availableWorkers) :
    renewed x = none ∧ installed x = none := by
  obtain ⟨⟨now, wall, op⟩, answer⟩ := x
  subst hx
  exact ⟨rfl, rfl⟩

theorem generation_append_listing (hx : x.1.op = .availableWorkers) (w : String) :
    generation (p ++ x :: q) w = generation (p ++ q) w := by
  unfold generation current
  rw [List.filterMap_append, List.filterMap_append, List.filterMap_cons_none (listing_quiet hx).2]

theorem memberAt_append_listing (hx : x.1.op = .availableWorkers) (w : String) (t : Instant) :
    MemberAt ttl (p ++ x :: q) w t ↔ MemberAt ttl (p ++ q) w t := by
  unfold MemberAt lastRenewal
  rw [List.filter_append, List.filter_append,
    List.filter_cons_of_neg (by simp [(listing_quiet hx).1])]

/-- What a listing answered does not enter the history of any worker. -/
theorem expected_append_listing (hx : x.1.op = .availableWorkers) (call : RegistryCall) :
    expected ttl (p ++ x :: q) call = expected ttl (p ++ q) call := by
  have hmembers : members ttl (p ++ x :: q) call.now = members ttl (p ++ q) call.now := by
    apply eq_members (members_sorted ttl _ _)
    intro w
    rw [mem_members, memberAt_append_listing hx]
  unfold expected
  rcases call.op with registration | ⟨workerId, gen⟩ | _
  · simp only [generation_append_listing hx, memberAt_append_listing hx]
  · simp only [generation_append_listing hx, memberAt_append_listing hx]
  · simp only [hmembers]

theorem renews_append_listing (hx : x.1.op = .availableWorkers) (call : RegistryCall) :
    Renews ttl (p ++ x :: q) call ↔ Renews ttl (p ++ q) call := by
  unfold Renews
  rcases call.op with registration | ⟨workerId, gen⟩ | _
  · exact Iff.rfl
  · simp only [generation_append_listing hx, memberAt_append_listing hx]
  · exact Iff.rfl

/-- Without a listing, the other calls renew as they did. -/
theorem renewsInTime_drop_listing (h : RenewsInTime ttl (p ++ x :: q))
    (hx : x.1.op = .availableWorkers) : RenewsInTime ttl (p ++ q) := by
  intro u call answer v hsplit hrenews
  rcases List.append_eq_append_iff.mp hsplit with ⟨l, rfl, hq⟩ | ⟨l, rfl, hv⟩
  · -- the call comes after the listing
    refine h (p ++ x :: l) call answer v ?_ ((renews_append_listing hx call).mpr hrenews)
    rw [hq, List.append_assoc, List.cons_append]
  · cases l with
    | nil =>
        refine h (u ++ [x]) call answer v ?_ ?_
        · rw [List.nil_append] at hv
          simp [hv]
        · exact (renews_append_listing (q := []) hx call).mpr (by simpa using hrenews)
    | cons y l =>
        rw [List.cons_append, List.cons.injEq] at hv
        refine h u call answer (l ++ x :: q) ?_ hrenews
        simp [← hv.1]

end Listing

section Spec

variable {ttl : Duration} {tr : RegistryHistory} {s : RegistryHistory × Instant}

/-- A listing can be left out of a run: no later answer depends on it. -/
theorem historyRegistry_drop_listing {p q : RegistryHistory}
    {x : RegistryCall × RegistryAnswer} (hx : x.1.op = .availableWorkers)
    (h : (historyRegistry ttl).Run (p ++ x :: q) s) :
    ∃ s', (historyRegistry ttl).Run (p ++ q) s' ∧ s'.2 ≤ s.2 := by
  induction q using List.reverseRecOn generalizing s with
  | nil =>
      obtain ⟨t, t', hp, hs, hq⟩ := Machine.Steps.mid h
      have hst : t' = s := Machine.Steps.det .refl hq
      obtain ⟨hclock, -, rfl⟩ := historyRegistry_step.mp hs
      rw [List.append_nil]
      exact ⟨t, hp, hst ▸ hclock⟩
  | append_singleton q y ih =>
      rw [← List.cons_append, ← List.append_assoc] at h
      obtain ⟨t, t', hp, hs, hq⟩ := Machine.Steps.mid h
      have hst : t' = s := Machine.Steps.det .refl hq
      obtain ⟨u, hu, hle⟩ := ih hp
      obtain ⟨hclock, hans, rfl⟩ := historyRegistry_step.mp hs
      rw [historyRegistry_fst hp, expected_append_listing hx] at hans
      refine ⟨(u.1 ++ [y], y.1.now), ?_, hst ▸ le_refl y.1.now⟩
      rw [← List.append_assoc]
      refine hu.snoc (historyRegistry_step.mpr ⟨le_trans hle hclock, ?_, rfl⟩)
      rw [historyRegistry_fst hu]
      exact hans

end Spec

/-! ## The in-memory registry -/

/-- The answer of a registry whose lock is poisoned. -/
def RegistryOp.refusal : RegistryOp → RegistryAnswer
  | .register _ => .registered (.error "worker registry lock is poisoned")
  | .heartbeat _ _ => .heartbeat (.error .registryUnavailable)
  | .availableWorkers => .available (.error "worker registry lock is poisoned")

namespace MemoryWorkerRegistry

/-- One call, where it does not panic. -/
def perform (r : MemoryWorkerRegistry) (call : RegistryCall) :
    MemoryWorkerRegistry × RegistryAnswer :=
  match call.op with
  | .register registration =>
      let (registry, outcome) := r.register registration call.now call.wall
      (registry, .registered (.ok outcome))
  | .heartbeat workerId generation =>
      let (registry, result) := r.heartbeat workerId generation call.now call.wall
      (registry, .heartbeat result)
  | .availableWorkers =>
      let (registry, workerIds) := r.availableWorkers call.now
      (registry, .available (.ok workerIds))

/-- One call, behind the lock. -/
def locked (lock : Rust.RwLock MemoryWorkerRegistry) (call : RegistryCall) :
    Rust.RwLock MemoryWorkerRegistry × RegistryAnswer :=
  match call.op with
  | .register registration =>
      let (lock, outcome) := lock.write (.error "worker registry lock is poisoned")
        fun r => r.guardedRegister registration call.now call.wall
      (lock, outcome.elim .panicked .registered)
  | .heartbeat workerId generation =>
      let (lock, result) := lock.write (.error .registryUnavailable)
        fun r => r.guardedHeartbeat workerId generation call.now call.wall
      (lock, result.elim .panicked .heartbeat)
  | .availableWorkers =>
      let (lock, workerIds) := lock.write (.error "worker registry lock is poisoned")
        fun r => .returned (r.availableWorkers call.now).1 (.ok (r.availableWorkers call.now).2)
      (lock, workerIds.elim .panicked .available)

/-- The call comes as far as `expiry`. -/
def Renews (r : MemoryWorkerRegistry) (call : RegistryCall) : Prop :=
  match call.op with
  | .register _ => True
  | .heartbeat workerId generation => r.Accepts workerId generation call.now
  | .availableWorkers => False

section Locked

variable {lock : Rust.RwLock MemoryWorkerRegistry} {call : RegistryCall}

theorem locked_returned (hlock : lock.poisoned = false)
    (hfits : lock.value.Renews call → lock.value.expiry call.now ≤ Instant.last) :
    locked lock call =
      ({ value := (lock.value.perform call).1, poisoned := false },
        (lock.value.perform call).2) := by
  obtain ⟨now, wall, op⟩ := call
  cases op with
  | register registration =>
      have hwrite := lock.write_returned hlock (.error "worker registry lock is poisoned")
        (fun r => r.guardedRegister registration now wall)
        (guardedRegister_of_le (hfits trivial) registration wall)
      simp only [locked, perform, hwrite, Option.elim_some]
  | heartbeat workerId generation =>
      have hwrite := lock.write_returned hlock (.error .registryUnavailable)
        (fun r => r.guardedHeartbeat workerId generation now wall)
        (guardedHeartbeat_returned hfits wall)
      simp only [locked, perform, hwrite, Option.elim_some]
  | availableWorkers =>
      have hwrite := lock.write_returned hlock
        (.error "worker registry lock is poisoned" : Except String (List String))
        (fun r => .returned (r.availableWorkers now).1 (.ok (r.availableWorkers now).2)) rfl
      simp only [locked, perform, hwrite, Option.elim_some]

theorem locked_panicked (hlock : lock.poisoned = false) (hrenews : lock.value.Renews call)
    (hlate : Instant.last < lock.value.expiry call.now) : (locked lock call).2 = .panicked := by
  obtain ⟨now, wall, op⟩ := call
  cases op with
  | register registration =>
      have hwrite := lock.write_panicked hlock (.error "worker registry lock is poisoned")
        (fun r => r.guardedRegister registration now wall)
        (guardedRegister_of_lt hlate registration wall)
      simp only [locked, hwrite, Option.elim_none]
  | heartbeat workerId generation =>
      obtain ⟨registry, hbody⟩ := guardedHeartbeat_panicked hrenews hlate wall
      have hwrite := lock.write_panicked hlock (.error .registryUnavailable)
        (fun r => r.guardedHeartbeat workerId generation now wall) hbody
      simp only [locked, hwrite, Option.elim_none]
  | availableWorkers => exact hrenews.elim

theorem locked_poisoned (hlock : lock.poisoned = true) :
    locked lock call = (lock, call.op.refusal) := by
  obtain ⟨now, wall, op⟩ := call
  cases op with
  | register registration =>
      simp only [locked, Rust.RwLock.write_poisoned hlock, Option.elim_some, RegistryOp.refusal]
  | heartbeat workerId generation =>
      simp only [locked, Rust.RwLock.write_poisoned hlock, Option.elim_some, RegistryOp.refusal]
  | availableWorkers =>
      simp only [locked, Rust.RwLock.write_poisoned hlock, Option.elim_some, RegistryOp.refusal]

/-- A heartbeat that is answered with an error leaves the registry alone. -/
theorem locked_heartbeat_error {e : HeartbeatError}
    (h : (locked lock call).2 = .heartbeat (.error e)) : (locked lock call).1 = lock := by
  obtain ⟨now, wall, op⟩ := call
  cases op with
  | register registration =>
      simp only [locked] at h
      generalize lock.write _ _ = r at h
      obtain ⟨lock', _ | outcome⟩ := r
      · cases h
      · cases h
  | heartbeat workerId generation =>
      simp only [locked] at h ⊢
      generalize hwrite : lock.write _ _ = r at h ⊢
      obtain ⟨lock', _ | result⟩ := r
      · cases h
      · obtain rfl : result = .error e := RegistryAnswer.heartbeat.inj h
        obtain ⟨rfl, -⟩ | ⟨hpoisoned, hbody⟩ := Rust.RwLock.write_answered hwrite
        · rfl
        · have hvalue : lock'.value = lock.value := guardedHeartbeat_error hbody
          cases lock
          cases lock'
          cases hpoisoned
          cases hvalue
          rfl
  | availableWorkers =>
      simp only [locked] at h
      generalize lock.write _ _ = r at h
      obtain ⟨lock', _ | workerIds⟩ := r
      · cases h
      · cases h

end Locked

end MemoryWorkerRegistry

/-- A registry and the last reading of the monotonic clock. -/
structure MemoryRegistryState where
  registry : Rust.RwLock MemoryWorkerRegistry
  clock : Instant
deriving DecidableEq

/-- `MemoryWorkerRegistry`, called at clock readings that do not decrease. -/
def memoryRegistry (ttl : Duration) (hpos : 0 < ttl) :
    Machine MemoryRegistryState RegistryCall RegistryAnswer where
  init := { registry := .new (.new ttl hpos), clock := 0 }
  step s call :=
    if call.now < s.clock then none
    else
      let (registry, answer) := MemoryWorkerRegistry.locked s.registry call
      some ({ registry := registry, clock := call.now }, answer)

namespace MemoryWorkerRegistry

/-- The registrations and expiry times a registry holds. -/
def table (r : MemoryWorkerRegistry) : RegistryTable :=
  fun w => (r.workers.lookup w).map fun entry => (entry.worker.registration, entry.expiresAt)

theorem alive_table (r : MemoryWorkerRegistry) (w : String) (now : Instant) :
    r.table.alive w now = (r.unexpired w now).map fun entry => entry.worker.registration := by
  unfold RegistryTable.alive table unexpired
  rcases r.workers.lookup w with _ | entry
  · rfl
  · by_cases hlt : now < entry.expiresAt
    · simp [Option.filter_some, hlt]
    · simp [Option.filter_some, hlt]

/-- Inserting an entry for a full TTL under its worker is `renew`. -/
theorem table_insert (r : MemoryWorkerRegistry) (w : String) (entry : MemoryEntry)
    (now : Instant) (hid : entry.worker.registration.workerId = w)
    (hexp : entry.expiresAt = r.expiry now) :
    table { r with workers := r.workers.insert w entry } =
      r.table.renew entry.worker.registration r.membershipTtl now := by
  subst hid
  funext w'
  unfold table RegistryTable.renew
  rw [HashMap.lookup_insert_ite, Function.update_apply]
  split_ifs
  · rw [Option.map_some, hexp]
    rfl
  · rfl

section Steps

variable {r : MemoryWorkerRegistry}

theorem register_step
    (hids : ∀ w entry, r.workers.lookup w = some entry → entry.worker.registration.workerId = w)
    (registration : WorkerRegistration) (now : Instant) (wall : Timestamp) :
    r.table.Step r.membershipTtl now (.register registration)
      (.registered (.ok (r.register registration now wall).2))
      (r.register registration now wall).1.table := by
  have halive := r.alive_table registration.workerId now
  unfold register
  dsimp only
  split
  · rename_i hnone
    rw [hnone] at halive
    dsimp only
    rw [table_insert r _ _ now]
    · exact .new registration halive
    · rfl
    · rfl
  · rename_i entry hsome
    have hid := hids _ _ (unexpired_eq_some.mp hsome).1
    rw [hsome] at halive
    split_ifs with hgen
    · dsimp only
      rw [table_insert r _ _ now]
      · exact .idempotent registration _ halive hid hgen
      · exact hid
      · rfl
    · dsimp only
      rw [table_insert r _ _ now]
      · exact .replaced registration _ halive hgen
      · rfl
      · rfl

theorem heartbeat_step
    (hids : ∀ w entry, r.workers.lookup w = some entry → entry.worker.registration.workerId = w)
    (workerId generation : String) (now : Instant) (wall : Timestamp) :
    r.table.Step r.membershipTtl now (.heartbeat workerId generation)
      (.heartbeat (r.heartbeat workerId generation now wall).2)
      (r.heartbeat workerId generation now wall).1.table := by
  have halive := r.alive_table workerId now
  unfold heartbeat
  split
  · rename_i hnone
    rw [hnone] at halive
    exact .unknownWorker workerId generation halive
  · rename_i entry hsome
    have hid := hids _ _ (unexpired_eq_some.mp hsome).1
    rw [hsome] at halive
    split_ifs with hgen
    · exact .staleGeneration workerId generation _ halive hgen
    · dsimp only
      rw [table_insert r _ _ now]
      · exact .beat workerId generation _ halive hid (not_ne_iff.mp hgen)
      · exact hid
      · rfl

theorem availableWorkers_step (now : Instant) :
    r.table.Step r.membershipTtl now .availableWorkers
      (.available (.ok (r.availableWorkers now).2)) (r.availableWorkers now).1.table := by
  apply RegistryTable.Step.listed
  · exact (Finset.sortedLT_sort _).pairwise
  · intro w
    rw [mem_availableWorkers, alive_table, Option.isSome_map, Option.isSome_iff_exists]
    simp only [unexpired_eq_some, IsMember]
  · intro w
    unfold availableWorkers table RegistryTable.alive
    dsimp only
    rw [HashMap.lookup_retain]
    rcases r.workers.lookup w with _ | entry
    · exact Or.inl rfl
    · by_cases hlt : now < entry.expiresAt
      · simp [Option.filter_some, hlt]
      · simp [Option.filter_some, hlt]

theorem register_ttl (registration : WorkerRegistration) (now : Instant) (wall : Timestamp) :
    (r.register registration now wall).1.membershipTtl = r.membershipTtl := by
  obtain ⟨entry, -, heq⟩ := r.register_eq registration now wall
  rw [heq]

theorem heartbeat_ttl (workerId generation : String) (now : Instant) (wall : Timestamp) :
    (r.heartbeat workerId generation now wall).1.membershipTtl = r.membershipTtl := by
  rcases r.heartbeat_eq workerId generation now wall with heq | ⟨entry, -, heq⟩
  · rw [heq]
  · rw [heq]

/-- One call is a step of the table. -/
theorem perform_step
    (hids : ∀ w entry, r.workers.lookup w = some entry → entry.worker.registration.workerId = w)
    (call : RegistryCall) :
    (r.perform call).1.membershipTtl = r.membershipTtl ∧
    r.table.Step r.membershipTtl call.now call.op (r.perform call).2 (r.perform call).1.table := by
  obtain ⟨now, wall, op⟩ := call
  cases op with
  | register registration =>
      exact ⟨register_ttl registration now wall, register_step hids registration now wall⟩
  | heartbeat workerId generation =>
      exact ⟨heartbeat_ttl workerId generation now wall,
        heartbeat_step hids workerId generation now wall⟩
  | availableWorkers => exact ⟨rfl, availableWorkers_step now⟩

end Steps

end MemoryWorkerRegistry

section Memory

variable {ttl : Duration} {hpos : 0 < ttl} {tr : RegistryHistory}
  {s s' : MemoryRegistryState} {call : RegistryCall} {answer : RegistryAnswer}

theorem memoryRegistry_step :
    (memoryRegistry ttl hpos).step s call = some (s', answer) ↔
      s.clock ≤ call.now ∧ MemoryWorkerRegistry.locked s.registry call = (s'.registry, answer) ∧
      s'.clock = call.now := by
  unfold memoryRegistry
  dsimp only
  split_ifs with hlt
  · simp [Nat.not_le.mpr hlt]
  · rw [Option.some.injEq, Prod.mk.injEq, and_iff_right (Nat.not_lt.mp hlt)]
    constructor
    · rintro ⟨rfl, rfl⟩
      exact ⟨rfl, rfl⟩
    · rintro ⟨hlocked, hclock⟩
      rw [hlocked, ← hclock]
      exact ⟨rfl, rfl⟩

/-- The registry holds what the history says. -/
structure MemoryReflects (ttl : Duration) (s : MemoryRegistryState)
    (h : RegistryHistory × Instant) : Prop where
  sound : s.registry.poisoned = false
  ttl_eq : s.registry.value.membershipTtl = ttl
  clock_eq : s.clock = h.2
  table : Reflects ttl h.1 h.2 s.registry.value.table

namespace MemoryReflects

variable {h : RegistryHistory × Instant}

/-- An entry is stored under its own worker's id. -/
theorem ids (hr : MemoryReflects ttl s h) (w : String) (entry : MemoryEntry)
    (hlook : s.registry.value.workers.lookup w = some entry) :
    entry.worker.registration.workerId = w := by
  have hentry : s.registry.value.table w =
      some (entry.worker.registration, entry.expiresAt) := by
    unfold MemoryWorkerRegistry.table
    rw [hlook]
    rfl
  exact workerId_of_current (hr.table.stored w _ _ hentry).1

/-- The calls that come as far as `expiry` are those that history lets renew a
membership. -/
theorem renews_iff (hr : MemoryReflects ttl s h) (hclock : h.2 ≤ call.now) :
    s.registry.value.Renews call ↔ Renews ttl h.1 call := by
  obtain ⟨now, wall, op⟩ := call
  cases op with
  | register registration => exact Iff.rfl
  | heartbeat workerId gen =>
      have halive := hr.table.alive_eq hclock workerId
      rw [MemoryWorkerRegistry.alive_table] at halive
      have hgen : s.registry.value.Accepts workerId gen now ↔
          ((s.registry.value.unexpired workerId now).map
            fun entry => entry.worker.registration).map WorkerRegistration.generation =
              some gen := by
        simp only [MemoryWorkerRegistry.Accepts, Option.map_map, Option.map_eq_some_iff,
          Function.comp_apply]
      show s.registry.value.Accepts workerId gen now ↔
        MemberAt ttl h.1 workerId now ∧ h.1.generation workerId = some gen
      rw [hgen, halive]
      split_ifs with hmember
      · exact ⟨fun hcurrent => ⟨hmember, hcurrent⟩, And.right⟩
      · simp [hmember]
  | availableWorkers => exact Iff.rfl

theorem init (ttl : Duration) (hpos : 0 < ttl) :
    MemoryReflects ttl (memoryRegistry ttl hpos).init (historyRegistry ttl).init :=
  ⟨rfl, rfl, rfl, Reflects.nil ttl⟩

/-- A call in time does not panic, and is the step the specification makes. -/
theorem step (hr : MemoryReflects ttl s h)
    (hfits : Renews ttl h.1 call → call.now + ttl ≤ Instant.last)
    (hstep : (memoryRegistry ttl hpos).step s call = some (s', answer)) :
    ∃ h', (historyRegistry ttl).step h call = some (h', answer) ∧ MemoryReflects ttl s' h' := by
  obtain ⟨hclock, hlocked, hclock'⟩ := memoryRegistry_step.mp hstep
  rw [hr.clock_eq] at hclock
  rw [MemoryWorkerRegistry.locked_returned hr.sound, Prod.mk.injEq] at hlocked
  · obtain ⟨hregistry, rfl⟩ := hlocked
    have htable := MemoryWorkerRegistry.perform_step hr.ids call
    rw [hr.ttl_eq] at htable
    obtain ⟨hans, hnext⟩ := hr.table.step hclock htable.2
    refine ⟨_, historyRegistry_step.mpr ⟨hclock, hans, rfl⟩, ?_, ?_, hclock', ?_⟩
    · rw [← hregistry]
    · rw [← hregistry]
      exact htable.1
    · rw [← hregistry]
      exact hnext
  · intro hrenews
    rw [MemoryWorkerRegistry.expiry, hr.ttl_eq]
    exact hfits ((hr.renews_iff hclock).mp hrenews)

/-- A call that comes too late panics. -/
theorem panics (hr : MemoryReflects ttl s h) (hrenews : Renews ttl h.1 call)
    (hlate : Instant.last < call.now + ttl)
    (hstep : (memoryRegistry ttl hpos).step s call = some (s', answer)) : answer = .panicked := by
  obtain ⟨hclock, hlocked, -⟩ := memoryRegistry_step.mp hstep
  rw [hr.clock_eq] at hclock
  have hpanic := MemoryWorkerRegistry.locked_panicked hr.sound ((hr.renews_iff hclock).mpr hrenews)
    (by rwa [MemoryWorkerRegistry.expiry, hr.ttl_eq])
  rw [hlocked] at hpanic
  exact hpanic

end MemoryReflects

/-- A run of the in-memory registry in which nobody comes too late is a run of the
specification. -/
theorem memory_run (h : (memoryRegistry ttl hpos).Run tr s) (hfits : RenewsInTime ttl tr) :
    ∃ hist, (historyRegistry ttl).Run tr hist ∧ MemoryReflects ttl s hist := by
  have hstep : ∀ p s hist call s' answer, (memoryRegistry ttl hpos).Run p s →
      (historyRegistry ttl).Run (p.map id) hist → MemoryReflects ttl s hist →
      (Renews ttl p call → call.now + ttl ≤ Instant.last) →
      (memoryRegistry ttl hpos).step s call = some (s', answer) →
      ∃ hist', (historyRegistry ttl).step hist call = some (hist', answer) ∧
        MemoryReflects ttl s' hist' := by
    intro p s hist call s' answer _ hspec hr hlast hs
    rw [List.map_id] at hspec
    rw [← historyRegistry_fst hspec] at hlast
    exact hr.step hlast hs
  have hsim := h.simulation_where (f := id) (.init ttl hpos) hstep hfits
  rwa [List.map_id] at hsim

/-- The in-memory registry takes every call that does not run back in time. -/
theorem memoryRegistry_enabled (hpos : 0 < ttl) {call : RegistryCall}
    (hclock : s.clock ≤ call.now) :
    ∃ s' answer, (memoryRegistry ttl hpos).step s call = some (s', answer) :=
  ⟨⟨_, call.now⟩, _, memoryRegistry_step.mpr ⟨hclock, rfl, rfl⟩⟩

/-- And a run of the specification is one of the in-memory registry. -/
theorem memory_run_of_history (hpos : 0 < ttl) {hist : RegistryHistory × Instant}
    (h : (historyRegistry ttl).Run tr hist) (hfits : RenewsInTime ttl tr) :
    ∃ s, (memoryRegistry ttl hpos).Run tr s ∧ MemoryReflects ttl s hist := by
  have hstep : ∀ p hist s call hist' answer, (historyRegistry ttl).Run p hist →
      (memoryRegistry ttl hpos).Run (p.map id) s → MemoryReflects ttl s hist →
      (Renews ttl p call → call.now + ttl ≤ Instant.last) →
      (historyRegistry ttl).step hist call = some (hist', answer) →
      ∃ s', (memoryRegistry ttl hpos).step s call = some (s', answer) ∧
        MemoryReflects ttl s' hist' := by
    intro p hist s call hist' answer hspec _ hr hlast hs
    obtain ⟨hclock, hans, rfl⟩ := historyRegistry_step.mp hs
    rw [← historyRegistry_fst hspec] at hlast
    have hclock' : s.clock ≤ call.now := hr.clock_eq ▸ hclock
    obtain ⟨s', answer', hs'⟩ := memoryRegistry_enabled hpos hclock'
    obtain ⟨hist', hs'', hr'⟩ := hr.step hlast hs'
    obtain ⟨-, hans', rfl⟩ := historyRegistry_step.mp hs''
    obtain rfl : answer' = answer := hans'.trans hans.symm
    exact ⟨s', hs', hr'⟩
  have hsim := h.simulation_where (f := id) (R := fun hist s => MemoryReflects ttl s hist)
    (.init ttl hpos) hstep hfits
  rwa [List.map_id] at hsim

/-- The runs of the in-memory registry in which nobody comes too late are exactly
those of the specification. -/
theorem memory_run_iff (hfits : RenewsInTime ttl tr) :
    (∃ s, (memoryRegistry ttl hpos).Run tr s) ↔ ∃ hist, (historyRegistry ttl).Run tr hist := by
  constructor
  · rintro ⟨s, h⟩
    obtain ⟨hist, hrun, -⟩ := memory_run h hfits
    exact ⟨hist, hrun⟩
  · rintro ⟨hist, h⟩
    obtain ⟨s, hrun, -⟩ := memory_run_of_history hpos h hfits
    exact ⟨s, hrun⟩

/-- History answers no call with a panic. -/
theorem expected_ne_panicked (ttl : Duration) (tr : RegistryHistory) (call : RegistryCall) :
    expected ttl tr call ≠ .panicked := by
  unfold expected
  cases call.op <;> simp

/-- If every answer is the expected one, nobody came too late. -/
theorem renewsInTime_of_answers (h : (memoryRegistry ttl hpos).Run tr s)
    (hans : ∀ p call answer q, tr = p ++ (call, answer) :: q → answer = expected ttl p call) :
    RenewsInTime ttl tr := by
  induction h with
  | refl => exact .nil ttl
  | @snoc p t u call answer hrun hstep ih =>
      have hp : RenewsInTime ttl p := by
        refine ih ?_
        rintro p' call' answer' q rfl
        exact hans p' call' answer' (q ++ [(call, answer)]) (by simp)
      refine hp.snoc ?_
      intro hrenews
      by_contra hlate
      -- the first call that comes too late panics
      obtain ⟨hist, hspec, hr⟩ := memory_run hrun hp
      rw [← historyRegistry_fst hspec] at hrenews
      have hpanic := hr.panics hrenews (Nat.not_le.mp hlate) hstep
      exact expected_ne_panicked ttl p call ((hans p call answer [] rfl).symm.trans hpanic)

/-- A panic is the end of the registry: every call after it is refused. -/
theorem refused_after_panic {t : MemoryRegistryState}
    (h : (memoryRegistry ttl hpos).Steps s tr t) (hpoisoned : s.registry.poisoned = true) :
    t.registry = s.registry ∧ ∀ x ∈ tr, x.2 = x.1.op.refusal := by
  induction h with
  | refl => exact ⟨rfl, by simp⟩
  | @snoc p u v call answer _ hstep ih =>
      obtain ⟨-, hlocked, -⟩ := memoryRegistry_step.mp hstep
      rw [MemoryWorkerRegistry.locked_poisoned (ih.1 ▸ hpoisoned), Prod.mk.injEq] at hlocked
      refine ⟨hlocked.1.symm.trans ih.1, ?_⟩
      intro x hx
      rcases List.mem_append.mp hx with hx | hx
      · exact ih.2 x hx
      · rw [List.mem_singleton.mp hx]
        exact hlocked.2.symm

/-- What history determines in a run: each answer is the expected one, so that a
listing is the increasing list of the members; what is stored for a worker is its
registration in force, and it counts as unexpired exactly while the worker is a
member; a refused heartbeat changes nothing; and a listing, with the purge inside
it, can be left out without a change to any other answer. -/
structure ByHistory (ttl : Duration) (hpos : 0 < ttl) (tr : RegistryHistory)
    (s : MemoryRegistryState) : Prop where
  answers : ∀ p call answer q, tr = p ++ (call, answer) :: q → answer = expected ttl p call
  listings : ∀ p call ids q, tr = p ++ (call, .available (.ok ids)) :: q →
    ids.Pairwise (· < ·) ∧ ∀ w, w ∈ ids ↔ MemberAt ttl p w call.now
  stored : ∀ w entry, s.registry.value.workers.lookup w = some entry →
    tr.current w = some entry.worker.registration
  members : ∀ w t, s.clock ≤ t →
    (s.registry.value.unexpired w t).map (fun entry => entry.worker.registration) =
      if MemberAt ttl tr w t then tr.current w else none
  refused : ∀ p call e q s₀ s₁, tr = p ++ (call, .heartbeat (.error e)) :: q →
    (memoryRegistry ttl hpos).Run p s₀ →
    (memoryRegistry ttl hpos).step s₀ call = some (s₁, .heartbeat (.error e)) →
    s₁.registry = s₀.registry
  purge : ∀ p x q, tr = p ++ x :: q → x.1.op = .availableWorkers →
    ∃ s', (memoryRegistry ttl hpos).Run (p ++ q) s'

theorem byHistory_of_inTime (h : (memoryRegistry ttl hpos).Run tr s)
    (hfits : RenewsInTime ttl tr) : ByHistory ttl hpos tr s := by
  obtain ⟨hist, hrun, hr⟩ := memory_run h hfits
  have htr : hist.1 = tr := historyRegistry_fst hrun
  have hreflects := hr.table
  rw [htr] at hreflects
  constructor
  case answers =>
    intro p call answer q hsplit
    exact historyRegistry_answers hrun hsplit
  case listings =>
    intro p call ids q hsplit
    have hans := historyRegistry_answers hrun hsplit
    unfold expected at hans
    split at hans
    · cases hans
    · cases hans
    · cases hans
      exact ⟨members_sorted ttl p call.now, fun w => mem_members⟩
  case stored =>
    intro w entry hlook
    have hentry : s.registry.value.table w =
        some (entry.worker.registration, entry.expiresAt) := by
      unfold MemoryWorkerRegistry.table
      rw [hlook]
      rfl
    exact (hreflects.stored w _ _ hentry).1
  case members =>
    intro w t ht
    rw [← MemoryWorkerRegistry.alive_table]
    exact hreflects.alive_eq (hr.clock_eq ▸ ht) w
  case refused =>
    intro p call e q s₀ s₁ _ _ hstep
    obtain ⟨-, hlocked, -⟩ := memoryRegistry_step.mp hstep
    have hsame := MemoryWorkerRegistry.locked_heartbeat_error (congrArg Prod.snd hlocked)
    rw [hlocked] at hsame
    exact hsame
  case purge =>
    rintro p x q rfl hx
    obtain ⟨hist', hdropped, -⟩ := historyRegistry_drop_listing hx hrun
    obtain ⟨s', hs', -⟩ := memory_run_of_history hpos hdropped (renewsInTime_drop_listing hfits hx)
    exact ⟨s', hs'⟩

/-- Membership is determined by history exactly in those runs in which every call
that renews a membership comes in time. -/
theorem membership_by_history (ttl : Duration) (hpos : 0 < ttl) {tr : RegistryHistory}
    {s : MemoryRegistryState} (h : (memoryRegistry ttl hpos).Run tr s) :
    ByHistory ttl hpos tr s ↔ RenewsInTime ttl tr := by
  constructor
  · intro hby
    exact renewsInTime_of_answers h hby.answers
  · exact byHistory_of_inTime h

end Memory

/-- The registration of `workerId` with a given generation and version. -/
def plainRegistration (workerId generation version : String) : WorkerRegistration :=
  { workerId := workerId, generation := generation, implementationVersion := version,
    endpoint := "" }

/-- Two workers, with a TTL of 10. `a` is registered twice, `b` is replaced, `a`
expires and comes back. -/
def twoWorkersCalls : List RegistryCall :=
  [⟨0, 0, .register (plainRegistration "b" "one" "1")⟩,
   ⟨1, 0, .register (plainRegistration "a" "one" "1")⟩,
   ⟨4, 0, .register (plainRegistration "a" "one" "2")⟩,
   ⟨5, 0, .register (plainRegistration "b" "two" "1")⟩,
   ⟨5, 0, .heartbeat "b" "one"⟩,
   ⟨9, 0, .heartbeat "b" "two"⟩,
   ⟨14, 0, .availableWorkers⟩,
   ⟨14, 0, .heartbeat "a" "one"⟩,
   ⟨15, 0, .register (plainRegistration "a" "one" "3")⟩]

/-- What they are answered. -/
def twoWorkersAnswers : List RegistryAnswer :=
  [.registered (.ok .new), .registered (.ok .new), .registered (.ok .idempotent),
   .registered (.ok .replaced), .heartbeat (.error .staleGeneration), .heartbeat (.ok ()),
   .available (.ok ["b"]), .heartbeat (.error .unknownWorker),
   .registered (.ok .new)]

theorem membership_by_history_twoWorkers :
    ∃ tr s, (memoryRegistry 10 (by decide)).Run tr s ∧ tr.map Prod.fst = twoWorkersCalls ∧
    tr.map Prod.snd = twoWorkersAnswers ∧ ByHistory 10 (by decide) tr s := by
  obtain ⟨tr, s, hrun, hcalls, hans⟩ :=
    Machine.run_of_exec (memoryRegistry 10 (by decide)) twoWorkersCalls
      (P := fun tr _ => tr.map Prod.snd = twoWorkersAnswers) (by decide +kernel)
  refine ⟨tr, s, hrun, hcalls, hans, (membership_by_history 10 (by decide) hrun).mpr ?_⟩
  refine .of_forall fun x hx => ?_
  have hall : ∀ call ∈ twoWorkersCalls, call.now + 10 ≤ Instant.last := by decide +kernel
  exact hall x.1 (hcalls ▸ List.mem_map_of_mem hx)

/-- `Duration::MAX`. -/
def longestTtl : Duration := 2 ^ 64 * 1000000000 - 1

/-- With the longest TTL the first registration panics. -/
theorem registration_panics : ¬ ∀ (ttl : Duration) (hpos : 0 < ttl) (tr : RegistryHistory)
    (s : MemoryRegistryState), (memoryRegistry ttl hpos).Run tr s → ByHistory ttl hpos tr s := by
  intro hall
  obtain ⟨tr, s, hrun, -, rfl, -⟩ :=
    Machine.run_of_exec (memoryRegistry longestTtl (by decide))
      [⟨0, 0, .register (plainRegistration "a" "one" "1")⟩]
      (P := fun tr s => tr = [(⟨0, 0, .register (plainRegistration "a" "one" "1")⟩, .panicked)] ∧
        s.registry.poisoned = true) (by decide +kernel)
  have hans := (hall longestTtl (by decide) _ s hrun).answers [] _ _ [] rfl
  exact expected_ne_panicked longestTtl [] _ hans.symm

end ThreadWeave
