import Mathlib.Data.List.Permutation
import ThreadWeave.Core.Agreement

/-!
# Concurrent reports on one execution

A `report_execution` call writes up to three stores, one after another and with
no lock across them. Calls about the same execution may overtake each other
between two writes, so the stores need not show the same winner.

* `Lane` — one of the three: what is read of it, which calls have yet to write
  it, and what the write does. `executionLane`, `backendLane`, `jobLane`.
* `Lane.ordered` — what a run has done to a store is what its writes do one
  after another, in the order in which they were made.
* `reports_serial_by_store` — each store holds what some order of the requests,
  served one at a time, would leave in it.
-/

namespace ThreadWeave.Core

open Runs (HashMap Machine)

variable {Bytes : Type} {cfg : Config Bytes} {registry : MemoryWorkerRegistry}

/-! ## Requests served one at a time -/

/-- The requests, one after another. -/
def CoreState.serve (cfg : Config Bytes) (now : Timestamp) (s : CoreState Bytes)
    (requests : List ReportExecutionRequest) : CoreState Bytes :=
  requests.foldl (fun s report => (s.reportExecution cfg report now now).1) s

/-- A step of a `report_execution` call about execution `x` that no store fails. -/
def Act.undisturbed (x : String) : Act → Bool
  | .report _ r => r.executionId = x
  | .resolved _ (.ok _) => true
  | .outcomeStored _ .done => true
  | .stateUpdated _ .done _ => true
  | .jobUpdated _ _ => true
  | _ => false

/-- The request that a step brings in. -/
def Act.request : Act → Option ReportExecutionRequest
  | .report _ r => some r
  | _ => none

/-- The requests of a run, in the order in which they came. -/
def requests (tr : List (Act × Out Bytes)) : List ReportExecutionRequest :=
  tr.filterMap fun y => y.1.request

/-! ## What is read of the stores -/

/-- The state of execution `x`. -/
def executionState (x : String) (s : CoreState Bytes) : Option ExecutionState :=
  (s.executions.lookup x).map ExecutionRecord.state

/-- The value that the result backend has for the job of execution `x`. -/
def backendValue (x : String) (s : CoreState Bytes) : Option JobResult :=
  (s.executions.lookup x).bind fun e => s.backend.lookup e.jobId

/-- State, attempt number and result of a job. -/
def JobRecord.view (record : JobRecord) : JobState × Nat × Option JobResult :=
  (record.job.state, record.job.attemptNumber, record.result)

/-- State, attempt number and result of the job of execution `x`. -/
def jobView (x : String) (s : CoreState Bytes) : Option (JobState × Nat × Option JobResult) :=
  (s.executions.lookup x).bind fun e => (s.jobs.lookup e.jobId).map JobRecord.view

/-! ## What a request asks for -/

/-- The new state and the outcome that a request asks to be written for an
execution of job `job`; `none` where it is refused. -/
def asks (cfg : Config Bytes) (job : Option String) (report : ReportExecutionRequest) :
    Option (ExecutionState × Option JobResult) :=
  match cfg.states.tryFrom report.state, job with
  | some state, some _ =>
      match reportOutcome report state with
      | .ok outcome => some (state, outcome)
      | .error _ => none
  | _, _ => none

/-- One of the stores, as `report_execution` uses it. -/
structure Lane (Bytes V : Type) where
  /-- what is read of it -/
  read : CoreState Bytes → V
  /-- a call at `pc` has yet to write it -/
  before : ReportPc → Bool
  /-- what the write does -/
  write : ExecutionState × Option JobResult → V → V

/-- What a request does to the store, refused ones included. -/
def Lane.effect {V : Type} (lane : Lane Bytes V) :
    Option (ExecutionState × Option JobResult) → V → V
  | none => id
  | some asked => lane.write asked

/-- `update_state`. -/
def executionLane (Bytes : Type) (x : String) : Lane Bytes (Option ExecutionState) where
  read := executionState x
  before
    | .finishing _ _ _ => false
    | _ => true
  write asked _ := some asked.1

/-- `store_result`; a RUNNING report has nothing to store. -/
def backendLane (Bytes : Type) (x : String) : Lane Bytes (Option JobResult) where
  read := backendValue x
  before
    | .resolving _ _ => true
    | .storing _ _ _ _ => true
    | _ => false
  write asked v := asked.2 <|> v

/-- `mark_job_running` and `store_job_result`. -/
def jobLane (Bytes : Type) (x : String) :
    Lane Bytes (Option (JobState × Nat × Option JobResult)) where
  read := jobView x
  before _ := true
  write asked v := v.map fun ⟨_, attempt, result⟩ =>
    match asked.2 with
    | none => (.running, 1, result)
    | some outcome =>
        (if outcome.failure.isSome then .failed else .succeeded, max attempt 1, some outcome)

/-! ## Calls in progress -/

/-- The jobs after the last step of a call. -/
def settleJob (jobs : Jobs) (jobId : String) (outcome : Option JobResult) (now : Timestamp) :
    Jobs :=
  (jobs.lookup jobId).elim jobs fun record => jobs.insert jobId (record.update outcome now)

/-- A call in progress is about execution `x` of job `job` and wants what its
request asks for. -/
def ReportPc.Serves (cfg : Config Bytes) (x : String) (job : Option String) : ReportPc → Prop
  | .resolving r state => r.executionId = x ∧ cfg.states.tryFrom r.state = some state
  | .storing r state jobId outcome =>
      r.executionId = x ∧ job = some jobId ∧ asks cfg job r = some (state, some outcome)
  | .updating r state jobId outcome =>
      r.executionId = x ∧ job = some jobId ∧ asks cfg job r = some (state, outcome)
  | .finishing r jobId outcome =>
      r.executionId = x ∧ job = some jobId ∧ ∃ state, asks cfg job r = some (state, outcome)

/-- Execution `x` belongs to `job`, and all calls in progress are about it. -/
structure Serving (cfg : Config Bytes) (x : String) (job : Option String) (s : CoreState Bytes) :
    Prop where
  known : (s.executions.lookup x).map ExecutionRecord.jobId = job
  calls : ∀ k pc, s.reports.lookup k = some pc → pc.Serves cfg x job

section Serving

variable {x : String} {job : Option String} {s s' : CoreState Bytes} {k : Nat} {a : Act}
  {o : Out Bytes}

theorem asks_of_ok {r : ReportExecutionRequest} {state : ExecutionState} {jobId : String}
    {outcome : Option JobResult} (hstate : cfg.states.tryFrom r.state = some state)
    (hout : reportOutcome r state = .ok outcome) :
    asks cfg (some jobId) r = some (state, outcome) := by
  simp [asks, hstate, hout]

theorem serves_resolvedPc {r : ReportExecutionRequest} {state : ExecutionState} {jobId : String}
    {outcome : Option JobResult} (hx : r.executionId = x)
    (hasks : asks cfg (some jobId) r = some (state, outcome)) :
    (resolvedPc r state jobId outcome).Serves cfg x (some jobId) := by
  cases outcome with
  | none => exact ⟨hx, rfl, hasks⟩
  | some result => exact ⟨hx, rfl, hasks⟩

theorem Serving.insert (h : Serving cfg x job s) (k : Nat) (pc : ReportPc)
    (hpc : pc.Serves cfg x job) (hreports : s'.reports = s.reports.insert k pc)
    (hknown : (s'.executions.lookup x).map ExecutionRecord.jobId =
      (s.executions.lookup x).map ExecutionRecord.jobId) : Serving cfg x job s' := by
  refine ⟨hknown.trans h.known, ?_⟩
  intro n pc' hlook
  rw [hreports] at hlook
  rcases HashMap.lookup_insert_some hlook with ⟨-, rfl⟩ | ⟨-, hold⟩
  · exact hpc
  · exact h.calls n pc' hold

theorem Serving.erase (h : Serving cfg x job s) {k : Nat}
    (hreports : s'.reports = s.reports.erase k) (hexecs : s'.executions = s.executions) :
    Serving cfg x job s' := by
  refine ⟨by rw [hexecs]; exact h.known, ?_⟩
  intro n pc hlook
  rw [hreports] at hlook
  exact h.calls n pc (HashMap.lookup_erase_some hlook).2

/-- `update_state` leaves the job of an execution alone. -/
theorem map_jobId_update {e : ExecutionRecord} (hexec : s.executions.lookup x = some e)
    (state : ExecutionState) (now : Timestamp) :
    ((s.executions.insert x { e with state := state, updatedAt := now }).lookup x).map
      ExecutionRecord.jobId = (s.executions.lookup x).map ExecutionRecord.jobId := by
  rw [Finmap.lookup_insert, hexec]
  rfl

/-- One undisturbed step of call `k` about execution `x` of job `job`. -/
inductive Progress (cfg : Config Bytes) (x : String) (job : Option String) (s : CoreState Bytes)
    (k : Nat) : Act → CoreState Bytes → Prop where
  | turnedAway (r : ReportExecutionRequest) (hfree : s.reports.lookup k = none)
      (hasks : asks cfg job r = none) : Progress cfg x job s k (.report k r) s
  | opened (r : ReportExecutionRequest) (state : ExecutionState)
      (hfree : s.reports.lookup k = none) (hx : r.executionId = x)
      (hstate : cfg.states.tryFrom r.state = some state) :
      Progress cfg x job s k (.report k r)
        { s with reports := s.reports.insert k (.resolving r state) }
  | refused (r : ReportExecutionRequest) (state : ExecutionState)
      (hpc : s.reports.lookup k = some (.resolving r state)) (hasks : asks cfg job r = none) :
      Progress cfg x job s k (.resolved k (.ok ())) { s with reports := s.reports.erase k }
  | resolved (r : ReportExecutionRequest) (state : ExecutionState) (jobId : String)
      (outcome : Option JobResult) (hpc : s.reports.lookup k = some (.resolving r state))
      (hx : r.executionId = x) (hjob : job = some jobId)
      (hasks : asks cfg job r = some (state, outcome)) :
      Progress cfg x job s k (.resolved k (.ok ()))
        { s with reports := s.reports.insert k (resolvedPc r state jobId outcome) }
  | stored (r : ReportExecutionRequest) (state : ExecutionState) (jobId : String)
      (outcome : JobResult) (hpc : s.reports.lookup k = some (.storing r state jobId outcome))
      (hjob : job = some jobId) (hasks : asks cfg job r = some (state, some outcome)) :
      Progress cfg x job s k (.outcomeStored k .done)
        { s with
          backend := s.backend.insert jobId outcome
          reports := s.reports.insert k (.updating r state jobId (some outcome)) }
  | updated (r : ReportExecutionRequest) (state : ExecutionState) (jobId : String)
      (outcome : Option JobResult) (now : Timestamp) (e : ExecutionRecord)
      (hpc : s.reports.lookup k = some (.updating r state jobId outcome))
      (hx : r.executionId = x) (hjob : job = some jobId)
      (hasks : asks cfg job r = some (state, outcome))
      (hexec : s.executions.lookup x = some e) :
      Progress cfg x job s k (.stateUpdated k .done now)
        { s with
          executions := s.executions.insert x { e with state := state, updatedAt := now }
          reports := s.reports.insert k (.finishing r jobId outcome) }
  | finished (r : ReportExecutionRequest) (state : ExecutionState) (jobId : String)
      (outcome : Option JobResult) (now : Timestamp)
      (hpc : s.reports.lookup k = some (.finishing r jobId outcome)) (hjob : job = some jobId)
      (hasks : asks cfg job r = some (state, outcome)) :
      Progress cfg x job s k (.jobUpdated k now)
        { s with
          jobs := settleJob s.jobs jobId outcome now
          reports := s.reports.erase k }

/-- Where no store fails, a call refuses its request before it has written
anything, or goes through. -/
theorem Serving.progress (h : Serving cfg x job s) (ha : a.undisturbed x)
    (hstep : Handles cfg s k a o s') : Progress cfg x job s k a s' := by
  cases hstep with
  | unknown r hfree hstate =>
      exact .turnedAway r (Finmap.lookup_eq_none.mpr hfree) (by simp [asks, hstate])
  | opened r state hfree hstate =>
      exact .opened r state (Finmap.lookup_eq_none.mpr hfree) (of_decide_eq_true ha) hstate
  | notFound r state hpc hexec =>
      obtain ⟨hx, hstate⟩ := h.calls k _ hpc
      have hjob : job = none := by
        rw [← h.known, ← hx, hexec]
        rfl
      exact .refused r state hpc (by simp [asks, hstate, hjob])
  | invalid r state e status hpc hexec hout =>
      obtain ⟨hx, hstate⟩ := h.calls k _ hpc
      exact .refused r state hpc (by cases job <;> simp [asks, hstate, hout])
  | resolved r state e outcome hpc hexec hout =>
      obtain ⟨hx, hstate⟩ := h.calls k _ hpc
      have hjob : job = some e.jobId := by
        rw [← h.known, ← hx, hexec]
        rfl
      exact .resolved r state e.jobId outcome hpc hx hjob (hjob ▸ asks_of_ok hstate hout)
  | stored r state jobId outcome hpc =>
      obtain ⟨-, hjob, hasks⟩ := h.calls k _ hpc
      exact .stored r state jobId outcome hpc hjob hasks
  | updated r state jobId outcome now e hpc hexec =>
      obtain ⟨hx, hjob, hasks⟩ := h.calls k _ hpc
      subst hx
      exact .updated r state jobId outcome now e hpc rfl hjob hasks hexec
  | updateFailed r state jobId outcome fate now hpc hfate =>
      -- the execution was found, and nobody removes it
      obtain ⟨hx, hjob, -⟩ := h.calls k _ hpc
      rcases hfate with ⟨error, rfl⟩ | hnone
      · cases ha
      · rw [← h.known, ← hx, hnone] at hjob
        cases hjob
  | jobMissing r jobId outcome now hpc hmissing =>
      obtain ⟨-, hjob, state, hasks⟩ := h.calls k _ hpc
      have hdone := Progress.finished (s := s) (x := x) r state jobId outcome now hpc hjob hasks
      rw [settleJob, hmissing] at hdone
      exact hdone
  | finished r jobId outcome now record hpc hrecord =>
      obtain ⟨-, hjob, state, hasks⟩ := h.calls k _ hpc
      have hdone := Progress.finished (s := s) (x := x) r state jobId outcome now hpc hjob hasks
      rw [settleJob, hrecord] at hdone
      exact hdone
  | unresolved => cases ha
  | storeFailed => cases ha
  | storeLost => cases ha
  | updateLost => cases ha

theorem Serving.step (h : Serving cfg x job s) (hstep : Progress cfg x job s k a s') :
    Serving cfg x job s' := by
  cases hstep with
  | turnedAway r hfree hasks => exact h
  | opened r state hfree hx hstate =>
      exact h.insert k (.resolving r state) ⟨hx, hstate⟩ rfl rfl
  | refused r state hpc hasks => exact h.erase rfl rfl
  | resolved r state jobId outcome hpc hx hjob hasks =>
      subst hjob
      exact h.insert k (resolvedPc r state jobId outcome) (serves_resolvedPc hx hasks) rfl rfl
  | stored r state jobId outcome hpc hjob hasks =>
      exact h.insert k (.updating r state jobId (some outcome))
        (h.calls k (.storing r state jobId outcome) hpc) rfl rfl
  | updated r state jobId outcome now e hpc hx hjob hasks hexec =>
      exact h.insert k (.finishing r jobId outcome) ⟨hx, hjob, state, hasks⟩ rfl
        (map_jobId_update hexec state now)
  | finished r state jobId outcome now hpc hjob hasks => exact h.erase rfl rfl

end Serving

/-! ## Order of the writes -/

section Lanes

variable {V : Type}

/-- The request of a call that has yet to write the store. -/
def Lane.yet (lane : Lane Bytes V) (pc : ReportPc) : Option ReportExecutionRequest :=
  if lane.before pc then some pc.request else none

/-- The request of call `k`, as long as it has yet to write the store. -/
def Lane.waiting (lane : Lane Bytes V) (s : CoreState Bytes) (k : Nat) :
    List ReportExecutionRequest :=
  ((s.reports.lookup k).bind lane.yet).toList

/-- A step either leaves the store and the requests that wait for it alone, or
does for one of these what it asks for. -/
def Lane.Moves (lane : Lane Bytes V) (cfg : Config Bytes) (job : Option String)
    (s : CoreState Bytes) (k : Nat) (a : Act) (s' : CoreState Bytes) : Prop :=
  (lane.waiting s' k = a.request.toList ++ lane.waiting s k ∧ lane.read s' = lane.read s) ∨
  ∃ r, a.request.toList ++ lane.waiting s k = [r] ∧ lane.waiting s' k = [] ∧
    lane.read s' = lane.effect (asks cfg job r) (lane.read s)

/-- What the writes of `requests` do one after another. -/
def Lane.after (lane : Lane Bytes V) (cfg : Config Bytes) (job : Option String) (v : V)
    (requests : List ReportExecutionRequest) : V :=
  requests.foldl (fun v r => lane.effect (asks cfg job r) v) v

/-- So far the requests `done` have been through with the store, in this order;
the others of the run wait. -/
def Lane.Ordered (lane : Lane Bytes V) (cfg : Config Bytes) (job : Option String) (v₀ : V)
    (tr : List (Act × Out Bytes)) (s : CoreState Bytes) : Prop :=
  ∃ done : List ReportExecutionRequest,
    (requests tr : Multiset ReportExecutionRequest) =
      done + HashMap.collect lane.yet s.reports ∧
    lane.read s = lane.after cfg job v₀ done

variable {x : String} {job : Option String} {s s' : CoreState Bytes} {k : Nat} {a : Act}
  {o : Out Bytes} {lane : Lane Bytes V} {tr : List (Act × Out Bytes)} {v₀ : V}

/-- A step of call `k` touches no other call. -/
theorem Handles.others (h : Handles cfg s k a o s') : s'.reports.erase k = s.reports.erase k := by
  have herase : (s.reports.erase k).erase k = s.reports.erase k :=
    HashMap.erase_of_notMem Finmap.notMem_erase_self
  cases h with
  | unknown => rfl
  | opened => exact HashMap.erase_insert ..
  | resolved => exact HashMap.erase_insert ..
  | stored => exact HashMap.erase_insert ..
  | updated => exact HashMap.erase_insert ..
  | _ => exact herase

theorem Lane.collect_eq (lane : Lane Bytes V) (s : CoreState Bytes) (k : Nat) :
    HashMap.collect lane.yet s.reports =
      lane.waiting s k + HashMap.collect lane.yet (s.reports.erase k) := by
  unfold Lane.waiting
  cases hpc : s.reports.lookup k with
  | none => rw [HashMap.erase_of_notMem (Finmap.lookup_eq_none.mp hpc)]; simp
  | some pc => exact HashMap.collect_of_lookup lane.yet hpc

theorem requests_snoc (tr : List (Act × Out Bytes)) (a : Act) (o : Out Bytes) :
    requests (tr ++ [(a, o)]) = requests tr ++ a.request.toList := by
  unfold requests
  rw [Runs.filterMap_snoc]

theorem Lane.Ordered.step (h : lane.Ordered cfg job v₀ tr s) (hstep : Handles cfg s k a o s')
    (hmoves : lane.Moves cfg job s k a s') : lane.Ordered cfg job v₀ (tr ++ [(a, o)]) s' := by
  obtain ⟨done, hcount, hread⟩ := h
  rw [lane.collect_eq s k] at hcount
  rcases hmoves with ⟨hwait, hsame⟩ | ⟨r, hwait, hnone, hwrite⟩
  · refine ⟨done, ?_, hsame.trans hread⟩
    rw [requests_snoc, lane.collect_eq s' k, hstep.others, hwait, ← Multiset.coe_add,
      ← Multiset.coe_add, hcount]
    ac_rfl
  · refine ⟨done ++ [r], ?_, ?_⟩
    · rw [requests_snoc, lane.collect_eq s' k, hstep.others, hnone, ← Multiset.coe_add,
        ← Multiset.coe_add, ← hwait, ← Multiset.coe_add, hcount, Multiset.coe_nil, zero_add]
      ac_rfl
    · rw [hwrite, hread, Lane.after, Lane.after, List.foldl_append]
      rfl

/-! ### The steps of a call, store by store -/

theorem Lane.waiting_of_lookup {pc : ReportPc} (hpc : s.reports.lookup k = some pc) :
    lane.waiting s k = if lane.before pc then [pc.request] else [] := by
  unfold Lane.waiting Lane.yet
  rw [hpc, Option.bind_some]
  split_ifs <;> rfl

theorem Lane.waiting_of_none (hpc : s.reports.lookup k = none) : lane.waiting s k = [] := by
  simp [Lane.waiting, hpc]

/-- The call goes on and the store is not concerned. -/
theorem Lane.Moves.keep {pc pc' : ReportPc} (ha : a.request = none)
    (hpc : s.reports.lookup k = some pc) (hpc' : s'.reports.lookup k = some pc')
    (hreq : pc'.request = pc.request) (hbefore : lane.before pc' = lane.before pc)
    (hread : lane.read s' = lane.read s) : lane.Moves cfg job s k a s' := by
  refine Or.inl ⟨?_, hread⟩
  rw [Lane.waiting_of_lookup hpc, Lane.waiting_of_lookup hpc', ha, hreq, hbefore]
  rfl

/-- The call is done with the store already. -/
theorem Lane.Moves.idle {pc : ReportPc} (ha : a.request = none)
    (hpc : s.reports.lookup k = some pc) (hbefore : lane.before pc = false)
    (hgone : lane.waiting s' k = []) (hread : lane.read s' = lane.read s) :
    lane.Moves cfg job s k a s' := by
  refine Or.inl ⟨?_, hread⟩
  rw [Lane.waiting_of_lookup hpc, ha, hbefore, hgone]
  rfl

/-- The call does to the store what it was asked for. -/
theorem Lane.Moves.pass {pc : ReportPc} (ha : a.request = none)
    (hpc : s.reports.lookup k = some pc) (hbefore : lane.before pc = true)
    (hgone : lane.waiting s' k = [])
    (hread : lane.read s' = lane.effect (asks cfg job pc.request) (lane.read s)) :
    lane.Moves cfg job s k a s' := by
  refine Or.inr ⟨pc.request, ?_, hgone, hread⟩
  rw [Lane.waiting_of_lookup hpc, ha, hbefore]
  rfl

/-- A request that is refused asks for nothing. -/
theorem Lane.Moves.refused {r : ReportExecutionRequest} {state : ExecutionState}
    (ha : a.request = none) (hpc : s.reports.lookup k = some (.resolving r state))
    (hbefore : lane.before (.resolving r state) = true) (hasks : asks cfg job r = none)
    (hgone : s'.reports = s.reports.erase k) (hread : lane.read s' = lane.read s) :
    lane.Moves cfg job s k a s' := by
  refine .pass ha hpc hbefore (Lane.waiting_of_none ?_) ?_
  · rw [hgone, Finmap.lookup_erase]
  · rw [show ReportPc.request (.resolving r state) = r from rfl, hasks]
    exact hread

theorem Lane.Moves.turnedAway {r : ReportExecutionRequest} (hfree : s.reports.lookup k = none)
    (hasks : asks cfg job r = none) : lane.Moves cfg job s k (.report k r) s := by
  refine Or.inr ⟨r, ?_, Lane.waiting_of_none hfree, ?_⟩
  · rw [Lane.waiting_of_none hfree]
    rfl
  · rw [hasks]
    rfl

theorem Lane.Moves.opened {r : ReportExecutionRequest} {state : ExecutionState}
    (hfree : s.reports.lookup k = none)
    (hpc' : s'.reports.lookup k = some (.resolving r state))
    (hbefore : lane.before (.resolving r state) = true) (hread : lane.read s' = lane.read s) :
    lane.Moves cfg job s k (.report k r) s' := by
  refine Or.inl ⟨?_, hread⟩
  rw [Lane.waiting_of_none hfree, Lane.waiting_of_lookup hpc', hbefore]
  rfl

/-- `update_state` shows in the execution store only. -/
theorem executionLane_moves (h : Progress cfg x job s k a s') :
    (executionLane Bytes x).Moves cfg job s k a s' := by
  cases h with
  | turnedAway r hfree hasks => exact .turnedAway hfree hasks
  | opened r state hfree hx hstate => exact .opened hfree (Finmap.lookup_insert _) rfl rfl
  | refused r state hpc hasks => exact .refused rfl hpc rfl hasks rfl rfl
  | resolved r state jobId outcome hpc hx hjob hasks =>
      refine .keep rfl hpc (Finmap.lookup_insert _) (request_resolvedPc ..) ?_ rfl
      cases outcome <;> rfl
  | stored r state jobId outcome hpc hjob hasks =>
      exact .keep rfl hpc (Finmap.lookup_insert _) rfl rfl rfl
  | updated r state jobId outcome now e hpc hx hjob hasks hexec =>
      refine .pass rfl hpc rfl ?_ ?_
      · rw [Lane.waiting_of_lookup (Finmap.lookup_insert _)]
        rfl
      · rw [show ReportPc.request (.updating r state jobId outcome) = r from rfl, hasks]
        simp [executionLane, executionState, Lane.effect]
  | finished r state jobId outcome now hpc hjob hasks =>
      exact .idle rfl hpc rfl (Lane.waiting_of_none (Finmap.lookup_erase k _)) rfl

theorem Serving.found {jobId : String} (h : Serving cfg x job s) (hjob : job = some jobId) :
    ∃ e, s.executions.lookup x = some e ∧ e.jobId = jobId := by
  rw [← h.known] at hjob
  exact Option.map_eq_some_iff.mp hjob

/-- `update_state` does not show in what is read through the job of `x`. -/
theorem bind_jobId_update {W : Type} {e : ExecutionRecord}
    (hexec : s.executions.lookup x = some e) (state : ExecutionState) (now : Timestamp)
    (f : String → Option W) :
    ((s.executions.insert x { e with state := state, updatedAt := now }).lookup x).bind
        (fun e => f e.jobId) = (s.executions.lookup x).bind fun e => f e.jobId := by
  rw [Finmap.lookup_insert, hexec]
  rfl

/-- `store_result` shows in the result backend only. -/
theorem backendLane_moves (hserving : Serving cfg x job s) (h : Progress cfg x job s k a s') :
    (backendLane Bytes x).Moves cfg job s k a s' := by
  cases h with
  | turnedAway r hfree hasks => exact .turnedAway hfree hasks
  | opened r state hfree hx hstate => exact .opened hfree (Finmap.lookup_insert _) rfl rfl
  | refused r state hpc hasks => exact .refused rfl hpc rfl hasks rfl rfl
  | resolved r state jobId outcome hpc hx hjob hasks =>
      cases outcome with
      | none =>
          -- RUNNING passes the backend by
          refine .pass rfl hpc rfl ?_ ?_
          · rw [Lane.waiting_of_lookup (Finmap.lookup_insert _)]
            rfl
          · rw [show ReportPc.request (.resolving r state) = r from rfl, hasks]
            rfl
      | some result => exact .keep rfl hpc (Finmap.lookup_insert _) rfl rfl rfl
  | stored r state jobId outcome hpc hjob hasks =>
      refine .pass rfl hpc rfl ?_ ?_
      · rw [Lane.waiting_of_lookup (Finmap.lookup_insert _)]
        rfl
      · obtain ⟨e, hexec, rfl⟩ := hserving.found hjob
        rw [show ReportPc.request (.storing r state e.jobId outcome) = r from rfl, hasks]
        simp [backendLane, backendValue, Lane.effect, hexec]
  | updated r state jobId outcome now e hpc hx hjob hasks hexec =>
      refine .idle rfl hpc rfl ?_
        (bind_jobId_update hexec state now fun jobId => s.backend.lookup jobId)
      rw [Lane.waiting_of_lookup (Finmap.lookup_insert _)]
      rfl
  | finished r state jobId outcome now hpc hjob hasks =>
      exact .idle rfl hpc rfl (Lane.waiting_of_none (Finmap.lookup_erase k _)) rfl

/-- What `mark_job_running` and `store_job_result` do to what is read of a job. -/
theorem jobLane_write (Bytes : Type) (x : String) (jobs : Jobs) (jobId : String)
    (state : ExecutionState) (outcome : Option JobResult) (now : Timestamp) :
    ((settleJob jobs jobId outcome now).lookup jobId).map JobRecord.view =
    (jobLane Bytes x).write (state, outcome) ((jobs.lookup jobId).map JobRecord.view) := by
  unfold settleJob
  cases hrecord : jobs.lookup jobId with
  | none => simp [hrecord, jobLane]
  | some record =>
      cases outcome with
      | none => simp [jobLane, JobRecord.view, JobRecord.update, JobRecord.running]
      | some result => simp [jobLane, JobRecord.view, JobRecord.update, JobRecord.finished]

/-- The last step of a call shows in the jobs only. -/
theorem jobLane_moves (hserving : Serving cfg x job s) (h : Progress cfg x job s k a s') :
    (jobLane Bytes x).Moves cfg job s k a s' := by
  cases h with
  | turnedAway r hfree hasks => exact .turnedAway hfree hasks
  | opened r state hfree hx hstate => exact .opened hfree (Finmap.lookup_insert _) rfl rfl
  | refused r state hpc hasks => exact .refused rfl hpc rfl hasks rfl rfl
  | resolved r state jobId outcome hpc hx hjob hasks =>
      exact .keep rfl hpc (Finmap.lookup_insert _) (request_resolvedPc ..) rfl rfl
  | stored r state jobId outcome hpc hjob hasks =>
      exact .keep rfl hpc (Finmap.lookup_insert _) rfl rfl rfl
  | updated r state jobId outcome now e hpc hx hjob hasks hexec =>
      exact .keep rfl hpc (Finmap.lookup_insert _) rfl rfl
        (bind_jobId_update hexec state now fun jobId => (s.jobs.lookup jobId).map JobRecord.view)
  | finished r state jobId outcome now hpc hjob hasks =>
      refine .pass rfl hpc rfl (Lane.waiting_of_none (Finmap.lookup_erase k _)) ?_
      obtain ⟨e, hexec, rfl⟩ := hserving.found hjob
      rw [show ReportPc.request (.finishing r e.jobId outcome) = r from rfl, hasks]
      simp only [jobLane, jobView, hexec, Option.bind_some, Lane.effect]
      exact jobLane_write Bytes x s.jobs e.jobId state outcome now

/-- The call of a step that no store fails. -/
theorem reportCall_of_undisturbed (ha : a.undisturbed x) : ∃ k, a.reportCall = some k := by
  cases a with
  | report n r => exact ⟨n, rfl⟩
  | resolved n answer => exact ⟨n, rfl⟩
  | outcomeStored n fate => exact ⟨n, rfl⟩
  | stateUpdated n fate now => exact ⟨n, rfl⟩
  | jobUpdated n now => exact ⟨n, rfl⟩
  | _ => cases ha

theorem Serving.of_quiet (hquiet : s.reports = ∅) :
    Serving cfg x ((s.executions.lookup x).map ExecutionRecord.jobId) s := by
  refine ⟨rfl, ?_⟩
  intro k pc hpc
  rw [hquiet, Finmap.lookup_empty] at hpc
  cases hpc

theorem Serving.steps {s₀ : CoreState Bytes} (h : Serving cfg x job s₀)
    (hsteps : (core cfg registry).Steps s₀ tr s) (hacts : ∀ y ∈ tr, y.1.undisturbed x) :
    Serving cfg x job s := by
  induction hsteps with
  | refl => exact h
  | @snoc tr u v a o _ hstep ih =>
      have ha : a.undisturbed x := hacts (a, o) (by simp)
      obtain ⟨k, hk⟩ := reportCall_of_undisturbed ha
      have hu := ih fun y hy => hacts y (List.mem_append_left _ hy)
      exact hu.step (hu.progress ha (step_handles hk hstep))

/-- A run does to a store what the requests ask for, one after another. -/
theorem Lane.ordered {s₀ : CoreState Bytes} (lane : Lane Bytes V)
    (hlane : ∀ u k a v, Serving cfg x job u → Progress cfg x job u k a v →
      lane.Moves cfg job u k a v)
    (hserving : Serving cfg x job s₀) (hquiet : s₀.reports = ∅)
    (hsteps : (core cfg registry).Steps s₀ tr s) (hacts : ∀ y ∈ tr, y.1.undisturbed x) :
    lane.Ordered cfg job (lane.read s₀) tr s := by
  induction hsteps with
  | refl => exact ⟨[], by simp [requests, hquiet], rfl⟩
  | @snoc tr u v a o hsteps hstep ih =>
      have hacts' : ∀ y ∈ tr, y.1.undisturbed x := fun y hy => hacts y (List.mem_append_left _ hy)
      have ha : a.undisturbed x := hacts (a, o) (by simp)
      obtain ⟨k, hk⟩ := reportCall_of_undisturbed ha
      have hhandles : Handles cfg u k a o v := step_handles hk hstep
      have hu : Serving cfg x job u := hserving.steps hsteps hacts'
      exact (ih hacts').step hhandles (hlane u k a v hu (hu.progress ha hhandles))

end Lanes

/-! ## Served one at a time -/

section Serve

variable {V : Type} {x : String} {job : Option String} {s : CoreState Bytes}

/-- Serving one request either changes nothing or writes what it asks for. -/
theorem reportExecution_cases (h : Serving cfg x job s) {r : ReportExecutionRequest}
    (hx : r.executionId = x) (now : Timestamp) :
    (asks cfg job r = none ∧ (s.reportExecution cfg r now now).1 = s) ∨
    ∃ state outcome e, asks cfg job r = some (state, outcome) ∧
      s.executions.lookup x = some e ∧
      (s.reportExecution cfg r now now).1 =
        { s.persist r state e outcome now with
          jobs := settleJob s.jobs e.jobId outcome now } := by
  cases hstate : cfg.states.tryFrom r.state with
  | none => exact Or.inl ⟨by simp [asks, hstate], by simp [CoreState.reportExecution, hstate]⟩
  | some state =>
      have hknown := h.known
      subst hx
      cases hexec : s.executions.lookup r.executionId with
      | none =>
          rw [hexec] at hknown
          subst hknown
          exact Or.inl ⟨by simp [asks, hstate],
            by simp [CoreState.reportExecution, hstate, hexec]⟩
      | some e =>
          rw [hexec] at hknown
          subst hknown
          cases hout : reportOutcome r state with
          | error status =>
              exact Or.inl ⟨by simp [asks, hstate, hout],
                by simp [CoreState.reportExecution, hstate, hexec, hout]⟩
          | ok outcome =>
              refine Or.inr ⟨state, outcome, e, asks_of_ok hstate hout, rfl, ?_⟩
              simp only [CoreState.reportExecution, hstate, hexec, hout]
              rcases updateJob_cases s.jobs e.jobId outcome now with
                ⟨hjob, hup⟩ | ⟨record, hjob, hup⟩
              · simp [hup, settleJob, hjob, CoreState.persist]
              · simp [hup, settleJob, hjob]

/-- One request, served alone, has its effect on each of the stores. -/
theorem reportExecution_effect (h : Serving cfg x job s) {r : ReportExecutionRequest}
    (hx : r.executionId = x) (now : Timestamp) :
    executionState x (s.reportExecution cfg r now now).1 =
      (executionLane Bytes x).effect (asks cfg job r) (executionState x s) ∧
    backendValue x (s.reportExecution cfg r now now).1 =
      (backendLane Bytes x).effect (asks cfg job r) (backendValue x s) ∧
    jobView x (s.reportExecution cfg r now now).1 =
      (jobLane Bytes x).effect (asks cfg job r) (jobView x s) ∧
    Serving cfg x job (s.reportExecution cfg r now now).1 := by
  rcases reportExecution_cases h hx now with ⟨hasks, hsame⟩ | ⟨state, outcome, e, hasks, hexec, hs'⟩
  · rw [hasks, hsame]
    exact ⟨rfl, rfl, rfl, h⟩
  · subst hx
    rw [hasks, hs']
    refine ⟨?_, ?_, ?_, ?_, h.calls⟩
    · simp [executionState, CoreState.persist, executionLane, Lane.effect]
    · cases outcome <;>
        simp [backendValue, CoreState.persist, storeOutcome, backendLane, Lane.effect, hexec]
    · simp only [jobView, CoreState.persist, Finmap.lookup_insert, Option.bind_some, hexec,
        Lane.effect]
      exact jobLane_write Bytes r.executionId s.jobs e.jobId state outcome now
    · exact (map_jobId_update hexec state now).trans h.known

/-- Requests about `x`, served one after another, have their effects one after
another. -/
theorem serve_after (requests : List ReportExecutionRequest) (h : Serving cfg x job s)
    (hx : ∀ r ∈ requests, r.executionId = x) (now : Timestamp) :
    executionState x (s.serve cfg now requests) =
      (executionLane Bytes x).after cfg job (executionState x s) requests ∧
    backendValue x (s.serve cfg now requests) =
      (backendLane Bytes x).after cfg job (backendValue x s) requests ∧
    jobView x (s.serve cfg now requests) =
      (jobLane Bytes x).after cfg job (jobView x s) requests := by
  induction requests generalizing s with
  | nil => exact ⟨rfl, rfl, rfl⟩
  | cons r rest ih =>
      obtain ⟨hstate, hvalue, hview, hnext⟩ := reportExecution_effect h (hx r (by simp)) now
      have hrest := ih hnext fun r' hr' => hx r' (List.mem_cons_of_mem _ hr')
      rw [hstate, hvalue, hview] at hrest
      exact hrest

end Serve

/-- All requests of a run are about `x`. -/
theorem requests_about {x : String} {tr : List (Act × Out Bytes)}
    (hacts : ∀ y ∈ tr, y.1.undisturbed x) : ∀ r ∈ requests tr, r.executionId = x := by
  intro r hr
  obtain ⟨⟨a, o⟩, hy, hreq⟩ := List.mem_filterMap.mp hr
  have ha := hacts _ hy
  cases a with
  | report n r' =>
      cases hreq
      exact of_decide_eq_true ha
  | _ => cases hreq

/-- When all calls have returned, each request has been through with the store. -/
theorem Lane.Ordered.perm {V : Type} {lane : Lane Bytes V} {job : Option String} {v₀ : V}
    {tr : List (Act × Out Bytes)} {s : CoreState Bytes} (h : lane.Ordered cfg job v₀ tr s)
    (hdone : s.reports = ∅) :
    ∃ order : List ReportExecutionRequest, order.Perm (requests tr) ∧
      lane.read s = lane.after cfg job v₀ order := by
  obtain ⟨order, hcount, hread⟩ := h
  rw [hdone, HashMap.collect_empty, add_zero, Multiset.coe_eq_coe] at hcount
  exact ⟨order, hcount.symm, hread⟩

/-- **Concurrent reports, store by store.** Any number of `report_execution`
calls about one execution, in any interleaving and with no store failing: the
state of the execution is what some order of the requests, served one at a
time, leads to; so is the value in the result backend, and so is the job. -/
theorem reports_serial_by_store {x : String} {s₀ s : CoreState Bytes}
    {tr : List (Act × Out Bytes)} (hquiet : s₀.reports = ∅)
    (hsteps : (core cfg registry).Steps s₀ tr s) (hacts : ∀ y ∈ tr, y.1.undisturbed x)
    (hdone : s.reports = ∅) (now : Timestamp) :
    (∃ order : List ReportExecutionRequest, order.Perm (requests tr) ∧
      executionState x s = executionState x (s₀.serve cfg now order)) ∧
    (∃ order : List ReportExecutionRequest, order.Perm (requests tr) ∧
      backendValue x s = backendValue x (s₀.serve cfg now order)) ∧
    (∃ order : List ReportExecutionRequest, order.Perm (requests tr) ∧
      jobView x s = jobView x (s₀.serve cfg now order)) := by
  have hserving : Serving cfg x _ s₀ := Serving.of_quiet hquiet
  have habout := requests_about hacts
  refine ⟨?_, ?_, ?_⟩
  · obtain ⟨order, hperm, hread⟩ := ((executionLane Bytes x).ordered
      (fun _ _ _ _ _ hp => executionLane_moves hp) hserving hquiet hsteps hacts).perm hdone
    have horder := serve_after order hserving (fun r hr => habout r (hperm.mem_iff.mp hr)) now
    exact ⟨order, hperm, hread.trans horder.1.symm⟩
  · obtain ⟨order, hperm, hread⟩ := ((backendLane Bytes x).ordered
      (fun _ _ _ _ hs hp => backendLane_moves hs hp) hserving hquiet hsteps hacts).perm hdone
    have horder := serve_after order hserving (fun r hr => habout r (hperm.mem_iff.mp hr)) now
    exact ⟨order, hperm, hread.trans horder.2.1.symm⟩
  · obtain ⟨order, hperm, hread⟩ := ((jobLane Bytes x).ordered
      (fun _ _ _ _ hs hp => jobLane_moves hs hp) hserving hquiet hsteps hacts).perm hdone
    have horder := serve_after order hserving (fun r hr => habout r (hperm.mem_iff.mp hr)) now
    exact ⟨order, hperm, hread.trans horder.2.2.symm⟩

theorem oneExecution_isSome : (symbolicCore.exec symbolicCore.init oneExecution).isSome = true := by
  decide +kernel

/-- Execution `x` of job `j` is assigned; nothing is in progress. -/
def assigned : CoreState Payload :=
  ((symbolicCore.exec symbolicCore.init oneExecution).get oneExecution_isSome).1

theorem assigned_reachable : ∃ tr, symbolicCore.Run tr assigned :=
  ⟨_, Machine.steps_of_exec (Option.some_get oneExecution_isSome).symm⟩

/-- A report that `x` has succeeded with the given payload. -/
def succeededWith (payload : List UInt8) : ReportExecutionRequest :=
  plainReport "x" .succeeded (some { JobResult.empty with payload := payload })

/-- Two reports of success cross each other between the backend and the job. -/
def crossing : List Act :=
  [.report 1 (succeededWith [1]), .report 2 (succeededWith [2]), .resolved 1 (.ok ()),
   .resolved 2 (.ok ()), .outcomeStored 1 .done, .outcomeStored 2 .done, .stateUpdated 1 .done 5,
   .stateUpdated 2 .done 6, .jobUpdated 2 7, .jobUpdated 1 8]

theorem reports_serial_by_store_crossing :
    ∃ tr s, symbolicCore.Steps assigned tr s ∧
      requests tr = [succeededWith [1], succeededWith [2]] ∧
      ∃ order : List ReportExecutionRequest, order.Perm (requests tr) ∧
        jobView "x" s = jobView "x" (assigned.serve symbolicConfig 9 order) := by
  obtain ⟨tr, s, hsteps, -, hreq, hacts, hdone⟩ := Machine.exists_steps_of_exec symbolicCore
    assigned crossing
    (P := fun tr s => requests tr = [succeededWith [1], succeededWith [2]] ∧
      (∀ y ∈ tr, y.1.undisturbed "x") ∧ s.reports = ∅)
    (by decide +kernel)
  have hquiet : assigned.reports = ∅ := by decide +kernel
  exact ⟨tr, s, hsteps, hreq,
    (reports_serial_by_store hquiet hsteps hacts hdone 9).2.2⟩

/-- The backend is left with one of the outcomes and the job with the other. -/
theorem crossing_reports_not_serial :
    ¬ ∀ tr₀ s₀ tr s x, symbolicCore.Run tr₀ s₀ → s₀.reports = ∅ → symbolicCore.Steps s₀ tr s →
      (∀ y ∈ tr, y.1.undisturbed x) → s.reports = ∅ →
      ∃ (now : Timestamp) (order : List ReportExecutionRequest), order.Perm (requests tr) ∧
        executionState x s = executionState x (s₀.serve symbolicConfig now order) ∧
        backendValue x s = backendValue x (s₀.serve symbolicConfig now order) ∧
        jobView x s = jobView x (s₀.serve symbolicConfig now order) := by
  intro hall
  obtain ⟨tr₀, hrun⟩ := assigned_reachable
  obtain ⟨tr, s, hsteps, -, hreq, hacts, hdone, hbackend, hjob⟩ :=
    Machine.exists_steps_of_exec symbolicCore assigned crossing
      (P := fun tr s => requests tr = [succeededWith [1], succeededWith [2]] ∧
        (∀ y ∈ tr, y.1.undisturbed "x") ∧ s.reports = ∅ ∧
        (backendValue "x" s).map JobResult.payload = some [2] ∧
        (jobView "x" s).bind (fun v => v.2.2.map JobResult.payload) = some [1])
      (by decide +kernel)
  have hquiet : assigned.reports = ∅ := by decide +kernel
  obtain ⟨now, order, hperm, -, hvalue, hview⟩ :=
    hall tr₀ assigned tr s "x" hrun hquiet hsteps hacts hdone
  have hserving : Serving symbolicConfig "x" _ assigned := Serving.of_quiet hquiet
  obtain ⟨-, hvalue', hview'⟩ := serve_after order hserving
    (fun r hr => requests_about hacts r (hperm.mem_iff.mp hr)) now
  rw [hvalue, hvalue'] at hbackend
  rw [hview, hview'] at hjob
  rw [hreq] at hperm
  -- in either order the last of the two is in both places
  have horders : [succeededWith [1], succeededWith [2]].permutations' =
      [[succeededWith [1], succeededWith [2]], [succeededWith [2], succeededWith [1]]] := rfl
  have hmem := List.mem_permutations'.mpr hperm
  rw [horders, List.mem_pair] at hmem
  rcases hmem with rfl | rfl
  · exact absurd hjob (by decide +kernel)
  · exact absurd hbackend (by decide +kernel)

end ThreadWeave.Core
