import ThreadWeave.Core.Integrity

/-!
# Placement

`schedule_one` reads the worker directory first, so that a task is not consumed
when no worker is available, and then waits for a task for as long as it takes.
The worker it assigns to was a member when the directory was read; nothing looks
at the directory again.

`assigned_worker_was_member` says what this gives: membership at the read, and
membership at the consumption as long as the membership that was read lasts
until then. `assigned_to_expired_worker` is a run where it does not.
-/

namespace ThreadWeave.Core

open Runs (HashMap Machine)

variable {Bytes : Type} {cfg : Config Bytes} {ttl : Duration} {httl : 0 < ttl}

/-- A control plane that starts with no members. -/
abbrev freshCore (cfg : Config Bytes) (ttl : Duration) (httl : 0 < ttl) :
    Machine (CoreState Bytes) Act (Out Bytes) :=
  core cfg (.new ttl httl)

/-! ## How long a membership lasts -/

/-- No membership lasts longer than one TTL from now. -/
structure Bounded (ttl : Duration) (s : CoreState Bytes) : Prop where
  period : s.registry.membershipTtl = ttl
  entries : ∀ w entry, s.registry.workers.lookup w = some entry → entry.expiresAt ≤ s.clock + ttl

/-- Until `expiresAt`, worker `w` has a membership that lasts at least so long. -/
def Lasts (s : CoreState Bytes) (w : String) (expiresAt : Instant) : Prop :=
  s.clock < expiresAt → ∃ entry, s.registry.workers.lookup w = some entry ∧
    expiresAt ≤ entry.expiresAt

/-- What a step does to the registry and the clock. -/
inductive RegistryStep (s s' : CoreState Bytes) : Prop where
  | same (hr : s'.registry = s.registry) (hc : s'.clock = s.clock)
  | tick (elapsed : Duration) (hr : s'.registry = s.registry) (hc : s'.clock = s.clock + elapsed)
  | read (hr : s'.registry = (s.registry.availableWorkers s.clock).1) (hc : s'.clock = s.clock)
  | renewed (w : String) (entry : MemoryEntry)
      (hr : s'.registry = { s.registry with workers := s.registry.workers.insert w entry })
      (he : entry.expiresAt = s.registry.expiry s.clock) (hc : s'.clock = s.clock)

theorem registryStep_of_takes {s s' : CoreState Bytes} {a : Act} {o : Out Bytes}
    (h : Takes cfg s a o s') : RegistryStep s s' := by
  cases h with
  | noWorker k hpc hread => exact .read rfl rfl
  | chosen k workerId rest hpc hread => exact .read rfl rfl
  | tick elapsed => exact .tick elapsed rfl rfl
  | register registration wall =>
      rcases s.registry.register_eq registration s.clock wall with ⟨entry, he, hr⟩
      exact .renewed registration.workerId entry hr he rfl
  | heartbeat workerId generation wall =>
      rcases s.registry.heartbeat_eq workerId generation s.clock wall with hr | ⟨entry, he, hr⟩
      · exact .same hr rfl
      · exact .renewed workerId entry hr he rfl
  | _ => exact .same rfl rfl

theorem Bounded.step {s s' : CoreState Bytes} (h : Bounded ttl s) (hs : RegistryStep s s') :
    Bounded ttl s' := by
  cases hs with
  | same hr hc => exact ⟨hr ▸ h.period, by rw [hr, hc]; exact h.entries⟩
  | tick elapsed hr hc =>
      -- time only brings the end of a membership closer
      refine ⟨hr ▸ h.period, ?_⟩
      rw [hr, hc]
      intro w entry hw
      have hle := h.entries w entry hw
      simp only [Instant, Duration] at hle ⊢
      omega
  | read hr hc =>
      refine ⟨hr ▸ h.period, ?_⟩
      rw [hr, hc]
      intro w entry hw
      exact h.entries w entry (MemoryWorkerRegistry.availableWorkers_lookup.mp hw).1
  | renewed w entry hr he hc =>
      refine ⟨hr ▸ h.period, ?_⟩
      rw [hr, hc]
      intro w' entry' hw'
      rcases HashMap.lookup_insert_some hw' with ⟨-, rfl⟩ | ⟨-, hold⟩
      · rw [he, MemoryWorkerRegistry.expiry, h.period]
      · exact h.entries w' entry' hold

theorem freshCore_bounded {tr : List (Act × Out Bytes)} {s : CoreState Bytes}
    (h : (freshCore cfg ttl httl).Run tr s) : Bounded ttl s := by
  refine h.invariant (I := Bounded ttl) ⟨rfl, ?_⟩ ?_
  · intro w entry hw
    simp [freshCore, core, CoreState.start, MemoryWorkerRegistry.new] at hw
  · intro s a t b hb hs
    exact hb.step (registryStep_of_takes (step_takes hs))

/-- A membership that was seen is not cut short. -/
theorem Lasts.step {s s' : CoreState Bytes} {w : String} {expiresAt : Instant}
    (hb : Bounded ttl s) (hle : expiresAt ≤ s.clock + ttl) (h : Lasts s w expiresAt)
    (hs : RegistryStep s s') : Lasts s' w expiresAt := by
  intro hlt
  cases hs with
  | same hr hc =>
      rw [hr]
      exact h (hc ▸ hlt)
  | tick elapsed hr hc =>
      have hbefore : s.clock < expiresAt := by
        rw [hc] at hlt
        simp only [Instant, Duration] at hlt ⊢
        omega
      rw [hr]
      exact h hbefore
  | read hr hc =>
      -- the read keeps what has not expired
      rw [hc] at hlt
      rcases h hlt with ⟨entry, hentry, hexp⟩
      refine ⟨entry, ?_, hexp⟩
      rw [hr, MemoryWorkerRegistry.availableWorkers_lookup]
      exact ⟨hentry, lt_of_lt_of_le hlt hexp⟩
  | renewed w' entry' hr he hc =>
      rw [hc] at hlt
      by_cases hw : w = w'
      · -- the new entry lasts as long as any entry can
        refine ⟨entry', ?_, ?_⟩
        · rw [hr, hw]
          exact Finmap.lookup_insert _
        · rw [he, MemoryWorkerRegistry.expiry, hb.period]
          exact hle
      · rcases h hlt with ⟨entry, hentry, hexp⟩
        refine ⟨entry, ?_, hexp⟩
        rw [hr]
        exact (Finmap.lookup_insert_of_ne _ hw).trans hentry

/-! ## The history of one call -/

section History

variable (M : Machine (CoreState Bytes) Act (Out Bytes))

/-- None of the steps starts a call under the name `k`. -/
def SameCall (k : Nat) (tr : List (Act × Out Bytes)) : Prop :=
  ∀ y ∈ tr, y.1 ≠ .scheduleOne k

/-- Call `k` has read `w` from the directory in state `t₁`, where it had `entry`. -/
structure ReadFrom (k : Nat) (w : String) (p₁ : List (Act × Out Bytes)) (t₁ : CoreState Bytes)
    (entry : MemoryEntry) : Prop where
  run : M.Run p₁ t₁
  listed : t₁.registry.workers.lookup w = some entry
  member : t₁.clock < entry.expiresAt

/-- Call `k` waits for a task for worker `w`, whose membership still counts. -/
def Chosen (ttl : Duration) (tr : List (Act × Out Bytes)) (s : CoreState Bytes) (k : Nat)
    (w : String) : Prop :=
  ∃ p₁ p₂ o₁ t₁ entry, tr = p₁ ++ (.directoryRead k (.ok ()), o₁) :: p₂ ∧ SameCall k p₂ ∧
    ReadFrom M k w p₁ t₁ entry ∧ entry.expiresAt ≤ s.clock + ttl ∧ Lasts s w entry.expiresAt

/-- Call `k` has consumed a task for worker `w` under execution id `x`: `w` was
a member at its read, and still is one at the consumption if the membership it
read lasts until then. -/
def Placed (tr : List (Act × Out Bytes)) (k : Nat) (w x : String) : Prop :=
  ∃ p₁ p₂ p₃ o₁ o₂ t₁ t₂ entry f a now,
    tr = p₁ ++ (.directoryRead k (.ok ()), o₁) :: (p₂ ++ (.consumed k f a x now, o₂) :: p₃) ∧
    SameCall k p₂ ∧ SameCall k p₃ ∧ ReadFrom M k w p₁ t₁ entry ∧
    M.Run (p₁ ++ (.directoryRead k (.ok ()), o₁) :: p₂) t₂ ∧
    (t₂.clock < entry.expiresAt → t₂.registry.IsMember w t₂.clock)

/-- The history of call `k`, by where it stands. -/
def CallHistory (ttl : Duration) (tr : List (Act × Out Bytes)) (s : CoreState Bytes) (k : Nat) :
    SchedulePc Bytes → Prop
  | .reading => True
  | .consuming w => Chosen M ttl tr s k w
  | .creating w assignment _ _ => Placed M tr k w assignment.executionId
  | .publishing w assignment _ => Placed M tr k w assignment.executionId

variable {M}

theorem SameCall.snoc {k : Nat} {tr : List (Act × Out Bytes)} {x : Act × Out Bytes}
    (h : SameCall k tr) (hx : x.1 ≠ .scheduleOne k) : SameCall k (tr ++ [x]) := by
  intro y hy
  rcases List.mem_append.mp hy with hold | hnew
  · exact h y hold
  · rw [List.mem_singleton] at hnew
    exact hnew ▸ hx

theorem Placed.snoc {tr : List (Act × Out Bytes)} {k : Nat} {w x : String}
    {y : Act × Out Bytes} (h : Placed M tr k w x) (hy : y.1 ≠ .scheduleOne k) :
    Placed M (tr ++ [y]) k w x := by
  rcases h with ⟨p₁, p₂, p₃, o₁, o₂, t₁, t₂, entry, f, a, now, rfl, h₂, h₃, hread, hrun, hmem⟩
  exact ⟨p₁, p₂, p₃ ++ [y], o₁, o₂, t₁, t₂, entry, f, a, now, by simp, h₂, h₃.snoc hy, hread,
    hrun, hmem⟩

theorem Chosen.snoc {tr : List (Act × Out Bytes)} {s s' : CoreState Bytes} {k : Nat} {w : String}
    {y : Act × Out Bytes} (h : Chosen M ttl tr s k w) (hb : Bounded ttl s)
    (hs : RegistryStep s s') (hclock : s.clock ≤ s'.clock) (hy : y.1 ≠ .scheduleOne k) :
    Chosen M ttl (tr ++ [y]) s' k w := by
  rcases h with ⟨p₁, p₂, o₁, t₁, entry, rfl, h₂, hread, hle, hlasts⟩
  refine ⟨p₁, p₂ ++ [y], o₁, t₁, entry, by simp, h₂.snoc hy, hread, ?_, hlasts.step hb hle hs⟩
  exact hle.trans (Nat.add_le_add_right hclock ttl)

/-- Consuming turns a choice into a placement. -/
theorem Chosen.placed {tr : List (Act × Out Bytes)} {s : CoreState Bytes} {k : Nat} {w : String}
    (h : Chosen M ttl tr s k w) (hrun : M.Run tr s) (f a x : String) (now : Timestamp)
    (o : Out Bytes) : Placed M (tr ++ [(.consumed k f a x now, o)]) k w x := by
  rcases h with ⟨p₁, p₂, o₁, t₁, entry, rfl, h₂, hread, -, hlasts⟩
  refine ⟨p₁, p₂, [], o₁, o, t₁, s, entry, f, a, now, by simp, h₂, ?_, hread, hrun, ?_⟩
  · intro y hy
    cases hy
  · intro hlt
    rcases hlasts hlt with ⟨entry', hentry', hle⟩
    exact ⟨entry', hentry', lt_of_lt_of_le hlt hle⟩

end History

theorem clock_le_of_takes {s s' : CoreState Bytes} {a : Act} {o : Out Bytes}
    (h : Takes cfg s a o s') : s.clock ≤ s'.clock := by
  cases registryStep_of_takes h with
  | same hr hc => exact hc.ge
  | tick elapsed hr hc => exact hc ▸ Nat.le_add_right _ _
  | read hr hc => exact hc.ge
  | renewed w entry hr he hc => exact hc.ge

theorem callHistory_step {tr : List (Act × Out Bytes)} {s s' : CoreState Bytes} {a : Act}
    {o : Out Bytes} (hrun : (freshCore cfg ttl httl).Run tr s)
    (ih : ∀ k pc, s.schedules.lookup k = some pc →
      CallHistory (freshCore cfg ttl httl) ttl tr s k pc)
    (h : Takes cfg s a o s') (k : Nat) (pc : SchedulePc Bytes)
    (hpc : s'.schedules.lookup k = some pc) :
    CallHistory (freshCore cfg ttl httl) ttl (tr ++ [(a, o)]) s' k pc := by
  have hb : Bounded ttl s := freshCore_bounded hrun
  have hreg : RegistryStep s s' := registryStep_of_takes h
  have hclock : s.clock ≤ s'.clock := clock_le_of_takes h
  -- while call `k` is in progress no other call starts under its name
  have hother : ∀ pc₀, s.schedules.lookup k = some pc₀ → a ≠ .scheduleOne k := by
    rintro pc₀ hpc₀ rfl
    cases h with
    | scheduleOne _ hfree => exact hfree (Finmap.mem_of_lookup_eq_some hpc₀)
    | refused _ _ _ ha => simp at ha
  rcases schedules_of_takes h hpc with
    hold | rfl | ⟨w, rfl, hn, ⟨entry, hentry, hlt⟩, rfl⟩ |
    ⟨w, submitted, rest, request, f, asg, x, now, hn, -, -, rfl, rfl⟩ |
    ⟨w, asg, submitted, now, hn, rfl, rfl⟩
  · -- call `k` did not move in this step
    have hne := hother pc hold
    cases pc with
    | reading => trivial
    | consuming w => exact (ih k _ hold).snoc hb hreg hclock hne
    | creating w assignment submitted now => exact Placed.snoc (ih k _ hold) hne
    | publishing w assignment submitted => exact Placed.snoc (ih k _ hold) hne
  · trivial
  · -- the directory lists `w` in the state before this step
    have hle : entry.expiresAt ≤ s.clock + ttl := hb.entries w entry hentry
    have hlasts : Lasts s w entry.expiresAt := fun _ => ⟨entry, hentry, le_refl _⟩
    refine ⟨tr, [], o, s, entry, rfl, ?_, ⟨hrun, hentry, hlt⟩, ?_, hlasts.step hb hle hreg⟩
    · intro y hy
      cases hy
    · exact hle.trans (Nat.add_le_add_right hclock ttl)
  · exact Chosen.placed (ih k _ hn) hrun f asg x now o
  · exact Placed.snoc (ih k _ hn) (by simp)

theorem callHistory {tr : List (Act × Out Bytes)} {s : CoreState Bytes}
    (h : (freshCore cfg ttl httl).Run tr s) (k : Nat) (pc : SchedulePc Bytes)
    (hpc : s.schedules.lookup k = some pc) :
    CallHistory (freshCore cfg ttl httl) ttl tr s k pc := by
  refine h.history (P := fun tr s => ∀ k pc, s.schedules.lookup k = some pc →
    CallHistory (freshCore cfg ttl httl) ttl tr s k pc) ?_ ?_ k pc hpc
  · intro k pc hpc
    simp [freshCore, core, CoreState.start] at hpc
  · intro tr s a t b hrun ih hs
    exact callHistory_step hrun ih (step_takes hs)

/-! ## Placement on members -/

/-- **Placement.** Whenever `schedule_one` returns `Assigned` with worker `w`,
this call has read `w` from the directory as an unexpired member before it
consumed the task, and `w` is a member at the consumption if the membership
that was read lasts until then. -/
theorem assigned_worker_was_member {tr : List (Act × Out Bytes)} {s : CoreState Bytes} {k : Nat}
    {messageId : String} {now : Timestamp} {env : BrokerEnvelope Bytes} {w : String}
    {assignment : AssignExecutionRequest}
    (h : (freshCore cfg ttl httl).Run
      (tr ++ [(.dispatched k messageId now (.ok ()), .dispatched env w assignment)]) s) :
    Placed (freshCore cfg ttl httl) tr k w assignment.executionId := by
  rcases Machine.Steps.mid h with ⟨t, t', hrun, hstep, -⟩
  have htakes : Takes cfg t (.dispatched k messageId now (.ok ())) (.dispatched env w assignment)
      t' := step_takes hstep
  cases htakes with
  | dispatched _ _ _ _ _ submitted hpc hfresh => exact callHistory hrun k _ hpc

/-- A worker registers, a task comes, and is assigned `wait` units of time
after the directory was read. -/
def waitingPlacement (wait : Duration) : List Act :=
  [.register (plainWorker "w") 0, .scheduleOne 0, .directoryRead 0 (.ok ()), .tick wait,
   .submit "j" "m" plainRequest 1, .published "j" (.ok ()), .consumed 0 "f" "a" "x" 2,
   .created 0 (.ok ()), .dispatched 0 "d" 3 (.ok ())]

/-- The assignment of `waitingPlacement`. -/
def placedAssignment : AssignExecutionRequest := assignmentFor plainRequest "j" "a" "x"

/-- The last step of `waitingPlacement`. -/
def placement : Act × Out Payload :=
  (.dispatched 0 "d" 3 (.ok ()), .dispatched
    (assignEnvelope symbolicConfig "w" placedAssignment
      (submitEnvelope symbolicConfig plainRequest "j" "m" 1) "d" 3) "w" placedAssignment)

theorem assigned_worker_was_member_waitingPlacement : ∃ tr s,
    symbolicCore.Run (tr ++ [placement]) s ∧ Placed symbolicCore tr 0 "w" "x" := by
  rcases Machine.run_of_exec symbolicCore (waitingPlacement 29)
    (P := fun tr _ => tr.getLast? = some placement)
    (by decide +kernel) with ⟨tr, s, hrun, -, hlast⟩
  rw [← List.dropLast_append_getLast? _ hlast] at hrun
  exact ⟨tr.dropLast, s, hrun, assigned_worker_was_member hrun⟩

/-- Whenever a call returns `Assigned` with worker `w`, then `w` is a member in
some state from the consumption of the task on. -/
def PlacedOnMembers (M : Machine (CoreState Bytes) Act (Out Bytes))
    (tr : List (Act × Out Bytes)) : Prop :=
  ∀ p k f a now o q messageId now' env w assignment,
    tr = p ++ (.consumed k f a assignment.executionId now, o) ::
      (q ++ [(.dispatched k messageId now' (.ok ()), .dispatched env w assignment)]) →
    ∃ p' q' t, tr = p' ++ q' ∧ p.length ≤ p'.length ∧ M.Run p' t ∧
      t.registry.IsMember w t.clock

/-- The membership runs out while the call waits for a task. -/
theorem assigned_to_expired_worker : ¬ ∀ tr s,
    symbolicCore.Run tr s → PlacedOnMembers symbolicCore tr := by
  intro hall
  rcases Machine.run_of_exec symbolicCore (waitingPlacement 30)
    (P := fun tr s => tr.length = 9 ∧ tr.drop 6 = [(.consumed 0 "f" "a" "x" 2, .silent),
      (.created 0 (.ok ()), .silent), placement] ∧ ¬ s.registry.IsMember "w" s.clock)
    (by decide +kernel) with ⟨tr, s, hrun, hacts, hlen, hdrop, hend⟩
  -- from the consumption on, no step starts from a state with `w` as a member
  have hgone : symbolicCore.Conforms (fun s a => a ∈ (waitingPlacement 30).drop 6 →
      ¬ s.registry.IsMember "w" s.clock) tr := by
    refine Machine.conforms_of_checks ?_
    rw [hacts]
    decide +kernel
  have hsplit : tr = tr.take 6 ++ (.consumed 0 "f" "a" "x" 2, .silent) ::
      ([(.created 0 (.ok ()), .silent)] ++ [placement]) := by
    rw [List.singleton_append, ← hdrop, List.take_append_drop]
  rcases hall tr s hrun (tr.take 6) 0 "f" "a" 2 .silent [(.created 0 (.ok ()), .silent)] "d" 3
    _ "w" placedAssignment hsplit with ⟨p, q, t, htr, hle, hrunp, hmem⟩
  have hlong : 6 ≤ p.length := by
    rw [List.length_take, hlen] at hle
    omega
  cases q with
  | nil =>
      rw [List.append_nil] at htr
      have hts : t = s := hrunp.det (htr ▸ hrun)
      exact hend (hts ▸ hmem)
  | cons x q =>
      refine hgone p x q t htr hrunp ?_ hmem
      have hin : x.1 ∈ (tr.map Prod.fst).drop 6 := by
        rw [htr, List.map_append, List.drop_append_of_le_length (by simpa using hlong)]
        simp
      rw [hacts] at hin
      exact hin

end ThreadWeave.Core
