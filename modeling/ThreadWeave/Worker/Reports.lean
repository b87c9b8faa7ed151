import ThreadWeave.Worker.Lifecycle
import ThreadWeave.Worker.Service
import ThreadWeave.Core.Reports

/-!
# What sessions make the worker report

The worker checks the events of a session, Core checks the reports it gets; the
two were written apart. Over every run of the service, the reports forwarded for
one assignment are the accepted `Started` and terminal events of its lifecycle,
in their order (`Told`), and from the lifecycle law it follows what Core sees:
RUNNING, then one outcome, each of which passes Core's checks.
-/

namespace ThreadWeave.Worker

open Runs (HashMap Machine)
open PendingState (Call Reply Accepts)

variable {states : I32Enum ExecutionState}

/-! ## Forwarded reports -/

/-- The event and the report of a step that forwards one. -/
def forwarding : ServiceAct × ServiceAnswer → Option (RuntimeEvent × ReportExecutionRequest)
  | (.handle _ event _, .forwarded report) => some (event, report)
  | _ => none

/-- What was forwarded for assignment `id`, in order. -/
def forwardings (id : String) (tr : List (ServiceAct × ServiceAnswer)) :
    List (RuntimeEvent × ReportExecutionRequest) :=
  (tr.filterMap forwarding).filter fun y => y.2.assignmentId = id

/-- A report and the accepted call it tells of. -/
def Tells (states : I32Enum ExecutionState) (c : Call)
    (y : RuntimeEvent × ReportExecutionRequest) : Prop :=
  eventCall y.1 = some c ∧ Reports states c y.2

/-- The reports forwarded by `tr` are about the calls accepted in `tr'`. -/
def Told (states : I32Enum ExecutionState) (tr : List (ServiceAct × ServiceAnswer))
    (tr' : List (Act × Answer)) : Prop :=
  ∀ id, List.Forall₂ (Tells states) ((accepted tr' id).filter Call.isReported) (forwardings id tr)

theorem forwardings_snoc (id : String) (tr : List (ServiceAct × ServiceAnswer))
    (x : ServiceAct × ServiceAnswer) :
    forwardings id (tr ++ [x]) = forwardings id tr ++
      (forwarding x).toList.filter fun y => y.2.assignmentId = id := by
  unfold forwardings
  rw [Runs.filterMap_snoc, List.filter_append]

/-- A step that forwards nothing, with no accepted call. -/
theorem Told.quiet {tr : List (ServiceAct × ServiceAnswer)} {tr' : List (Act × Answer)}
    {x : ServiceAct × ServiceAnswer} (h : Told states tr tr') (hx : forwarding x = none) :
    Told states (tr ++ [x]) tr' := by
  intro id
  rw [forwardings_snoc, hx]
  simpa using h id

theorem accepted_snoc_call (tr' : List (Act × Answer)) (c : Call) (now : Instant) (reply : Reply)
    (id : String) :
    accepted (tr' ++ [(.call c now, .called (.ok reply))]) id =
      accepted tr' id ++ if c.assignmentId = id then [c] else [] := by
  rw [accepted_snoc]
  by_cases hid : c.assignmentId = id <;> simp [observe, acceptedIn, hid]

/-- An accepted call that is not reported. -/
theorem Told.unreported {tr : List (ServiceAct × ServiceAnswer)} {tr' : List (Act × Answer)}
    {x : ServiceAct × ServiceAnswer} {c : Call} {now : Instant} {reply : Reply}
    (h : Told states tr tr') (hx : forwarding x = none) (hc : c.isReported = false) :
    Told states (tr ++ [x]) (tr' ++ [(.call c now, .called (.ok reply))]) := by
  intro id
  rw [accepted_snoc_call, List.filter_append, forwardings_snoc, hx]
  by_cases hid : c.assignmentId = id
  · simpa [hid, hc] using h id
  · simpa [hid] using h id

/-- An accepted call and its report. -/
theorem Told.reported {tr : List (ServiceAct × ServiceAnswer)} {tr' : List (Act × Answer)}
    {x : ServiceAct × ServiceAnswer} {c : Call} {now : Instant} {reply : Reply}
    {event : RuntimeEvent} {report : ReportExecutionRequest} (h : Told states tr tr')
    (hx : forwarding x = some (event, report)) (hc : c.isReported = true)
    (hcall : eventCall event = some c) (hreports : Reports states c report) :
    Told states (tr ++ [x]) (tr' ++ [(.call c now, .called (.ok reply))]) := by
  intro id
  rw [accepted_snoc_call, List.filter_append, forwardings_snoc, hx]
  refine List.rel_append (h id) ?_
  by_cases hid : c.assignmentId = id
  · have hrid : report.assignmentId = id := hreports.assignment.trans hid
    have htells : Tells states c (event, report) := ⟨hcall, hreports⟩
    simp [hid, hc, hrid, htells]
  · have hrid : report.assignmentId ≠ id := fun he => hid (hreports.assignment.symm.trans he)
    simp [hid, hrid]

theorem told_step {tr : List (ServiceAct × ServiceAnswer)} {tr' : List (Act × Answer)}
    {s t : ServiceState} {a : ServiceAct} {b : ServiceAnswer} (hrun : worker.Run tr' s.worker)
    (h : Told states tr tr') (hs : (service states).step s a = some (t, b)) :
    ∃ tr'', worker.Run tr'' t.worker ∧ Told states (tr ++ [(a, b)]) tr'' := by
  change s.step states a = some (t, b) at hs
  cases a with
  | other a =>
      simp only [ServiceState.step] at hs
      split_ifs at hs with hcall
      obtain ⟨⟨w, ans⟩, hstep, heq⟩ := Option.map_eq_some_iff.mp hs
      cases heq
      refine ⟨tr' ++ [(a, ans)], hrun.snoc hstep, ?_⟩
      intro id
      rw [accepted_snoc_of_ne]
      · exact h.quiet rfl id
      · intro c hc
        exact absurd hc (observe_ne_accepted (by simpa using hcall) ans c)
  | handle n event m =>
      simp only [ServiceState.step] at hs
      split_ifs at hs with hfree
      rcases handleEvent_calls states s.worker.pending event m with
        ⟨r, he⟩ | ⟨c, reply, p', hcall, honCall, hout⟩
      · simp only [he, Option.some.injEq, Prod.mk.injEq] at hs
        obtain ⟨rfl, rfl⟩ := hs
        exact ⟨tr', hrun, h.quiet rfl⟩
      · -- the event is one more call of the worker
        have hstep : worker.step s.worker (.call c m.instant) =
            some ({ s.worker with pending := p' }, .called (.ok reply)) := by
          simp [worker, WorkerState.step, honCall]
        rcases hout with ⟨hc, he⟩ | ⟨hc, report, he, hreports⟩
        · simp only [he, Option.some.injEq, Prod.mk.injEq] at hs
          obtain ⟨rfl, rfl⟩ := hs
          exact ⟨_, hrun.snoc hstep, h.unreported rfl hc⟩
        · simp only [he, Option.some.injEq, Prod.mk.injEq] at hs
          obtain ⟨rfl, rfl⟩ := hs
          exact ⟨_, hrun.snoc hstep, h.reported rfl hc hcall hreports⟩
  | coreReplies n answer =>
      simp only [ServiceState.step] at hs
      split at hs
      · cases hs
      · simp only [Option.some.injEq, Prod.mk.injEq] at hs
        obtain ⟨rfl, rfl⟩ := hs
        exact ⟨tr', hrun, h.quiet rfl⟩

/-- Behind every run of the service is a run of the worker whose accepted calls
its reports tell of. -/
theorem service_told {tr : List (ServiceAct × ServiceAnswer)} {s : ServiceState}
    (h : (service states).Run tr s) : ∃ tr', worker.Run tr' s.worker ∧ Told states tr tr' := by
  refine h.history (P := fun tr s => ∃ tr', worker.Run tr' s.worker ∧ Told states tr tr') ?_ ?_
  · exact ⟨[], .refl, fun id => .nil⟩
  · rintro tr s a t b - ⟨tr', hrun, htold⟩ hs
    exact told_step hrun htold hs

/-! ## The reports of one assignment -/

/-- The reported calls of a lifecycle. -/
theorem reported_of_lifecycle {cs : List Call} (h : LifecyclePrefix cs) :
    cs.filter Call.isReported = [] ∨
    (∃ e, cs.filter Call.isReported = [.started e]) ∨
    ∃ e a x n ok, cs.filter Call.isReported = [.started e, .terminal a x n ok] := by
  have hmids : ∀ mids : List Call, (∀ c ∈ mids, c.isReport = true) →
      mids.filter Call.isReported = [] := by
    intro mids hall
    rw [List.filter_eq_nil_iff]
    intro c hc
    have hreport := hall c hc
    cases c with
    | started e => cases hreport
    | terminal a x n ok => cases hreport
    | progress e => simp [Call.isReported]
    | metrics e => simp [Call.isReported]
  rcases h with rfl | ⟨e, mids, hall, rfl⟩ | ⟨ok, opened, a, x, n, ⟨e, mids, hall, rfl⟩, rfl⟩
  · exact Or.inl rfl
  · refine Or.inr (Or.inl ⟨e, ?_⟩)
    rw [List.filter_cons_of_pos rfl, hmids mids hall]
  · refine Or.inr (Or.inr ⟨e, a, x, n, ok, ?_⟩)
    rw [List.filter_append, List.filter_cons_of_pos rfl, hmids mids hall]
    rfl

theorem event_of_started {event : RuntimeEvent} {e : ExecutionStarted}
    (h : eventCall event = some (.started e)) : event = ⟨some (.executionStarted e)⟩ := by
  rcases event with ⟨payload⟩
  cases payload with
  | none => cases h
  | some payload =>
      cases payload with
      | executionStarted e' =>
          cases h
          rfl
      | _ => cases h

/-- RUNNING for an accepted `Started`, then the outcome of an accepted terminal
event with a larger sequence number. -/
inductive Conversation (states : I32Enum ExecutionState) :
    List (RuntimeEvent × ReportExecutionRequest) → Prop where
  | silent : Conversation states []
  | running (e : ExecutionStarted) (r : ReportExecutionRequest)
      (hr : Reports states (.started e) r) :
      Conversation states [(⟨some (.executionStarted e)⟩, r)]
  | finished (e : ExecutionStarted) (r : ReportExecutionRequest) (event : RuntimeEvent)
      (t : ReportExecutionRequest) (a x : String) (n : Nat) (ok : Bool)
      (hr : Reports states (.started e) r) (ht : Reports states (.terminal a x n ok) t)
      (hseq : r.sequenceNumber < t.sequenceNumber) :
      Conversation states [(⟨some (.executionStarted e)⟩, r), (event, t)]

theorem forwardings_conversation {tr : List (ServiceAct × ServiceAnswer)} {s : ServiceState}
    (h : (service states).Run tr s) (id : String) : Conversation states (forwardings id tr) := by
  obtain ⟨tr', hrun, htold⟩ := service_told h
  have hrel := htold id
  have hlaw : LifecyclePrefix (accepted tr' id) ∧
      ((accepted tr' id).map Call.sequenceNumber).Pairwise (· < ·) := by
    cases hid : s.worker.pending.assignments.lookup id with
    | none =>
        rw [(worker_history hrun).of_none hid]
        exact ⟨Or.inl rfl, .nil⟩
    | some r =>
        have hfol := (worker_history hrun).of_some hid
        exact ⟨hfol.lifecycle, hfol.increasing⟩
  have hsub : (((accepted tr' id).filter Call.isReported).map Call.sequenceNumber).Pairwise
      (· < ·) :=
    hlaw.2.sublist ((List.filter_sublist).map _)
  rcases reported_of_lifecycle hlaw.1 with hnil | ⟨e, hone⟩ | ⟨e, a, x, n, ok, htwo⟩
  · rw [hnil, List.forall₂_nil_left_iff] at hrel
    rw [hrel]
    exact .silent
  · rw [hone] at hrel
    obtain ⟨⟨event, r⟩, ys, ⟨hcall, hr⟩, hys, hall⟩ := List.forall₂_cons_left_iff.mp hrel
    obtain rfl : ys = [] := List.forall₂_nil_left_iff.mp hys
    obtain rfl : event = _ := event_of_started hcall
    rw [hall]
    exact .running e r hr
  · rw [htwo] at hrel hsub
    obtain ⟨⟨event, r⟩, ys, ⟨hcall, hr⟩, hys, hall⟩ := List.forall₂_cons_left_iff.mp hrel
    obtain ⟨⟨event', t⟩, zs, ⟨-, ht⟩, hzs, rfl⟩ := List.forall₂_cons_left_iff.mp hys
    obtain rfl : zs = [] := List.forall₂_nil_left_iff.mp hzs
    obtain rfl : event = _ := event_of_started hcall
    have hlt : e.sequenceNumber < n := by simpa [Call.sequenceNumber] using hsub
    have hseq : r.sequenceNumber < t.sequenceNumber := by
      rw [hr.sequence, ht.sequence]
      exact hlt
    rw [hall]
    exact .finished e r event' t a x n ok hr ht hseq

/-- Every report tells of a call. -/
theorem exists_call_of_mem {cs : List Call} {ys : List (RuntimeEvent × ReportExecutionRequest)}
    (h : List.Forall₂ (Tells states) cs ys) {y : RuntimeEvent × ReportExecutionRequest}
    (hy : y ∈ ys) : ∃ c ∈ cs, Tells states c y := by
  induction h with
  | nil => cases hy
  | @cons c y' cs ys htells _ ih =>
      rcases List.mem_cons.mp hy with rfl | hy
      · exact ⟨c, by simp, htells⟩
      · obtain ⟨c', hc', hy'⟩ := ih hy
        exact ⟨c', List.mem_cons_of_mem _ hc', hy'⟩

/-- A forwarded report names the assignment and its execution. -/
theorem forwardings_named {tr : List (ServiceAct × ServiceAnswer)} {s : ServiceState}
    (h : (service states).Run tr s) {id : String} {y : RuntimeEvent × ReportExecutionRequest}
    (hy : y ∈ forwardings id tr) :
    (∃ c, Reports states c y.2) ∧
    ∃ record, s.worker.pending.assignments.lookup id = some record ∧
      y.2.assignmentId = record.assignment.assignmentId ∧
      y.2.executionId = record.assignment.executionId := by
  obtain ⟨tr', hrun, htold⟩ := service_told h
  obtain ⟨c, hc, -, hreports⟩ := exists_call_of_mem (htold id) hy
  have hmem : c ∈ accepted tr' id := List.mem_of_mem_filter hc
  refine ⟨⟨c, hreports⟩, ?_⟩
  cases hid : s.worker.pending.assignments.lookup id with
  | none =>
      rw [(worker_history hrun).of_none hid] at hmem
      cases hmem
  | some record =>
      have hfol := (worker_history hrun).of_some hid
      have hkey := (worker_inv hrun).rep.records id record hid
      have hassignment : y.2.assignmentId = id := by
        simpa using (List.mem_filter.mp hy).2
      exact ⟨record, rfl, hassignment.trans hkey.keyed.symm,
        hreports.execution.trans (hfol.execution c hmem)⟩

/-! ## Core's checks -/

/-- A report with which Core finds nothing wrong: its state is one of the three,
there is an outcome exactly if it is terminal and a failure exactly if it is
FAILED; no step of a call about it, in any run of Core, answers
INVALID_ARGUMENT. -/
structure PassesCore (states : I32Enum ExecutionState) (report : ReportExecutionRequest) :
    Prop where
  valid : ∃ state, states.tryFrom report.state = some state ∧ Core.Reportable report state ∧
    (report.outcome.isSome ↔ state = .succeeded ∨ state = .failed) ∧
    ((report.outcome.bind JobResult.failure).isSome ↔ state = .failed)
  answer : ∀ (Bytes : Type) (cfg : Core.Config Bytes) (registry : MemoryWorkerRegistry)
    (tr : List (Core.Act × Core.Out Bytes)) (c c' : Core.CoreState Bytes) (a : Core.Act)
    (o : Core.Out Bytes) (status : Status), cfg.states = states →
    (Core.core cfg registry).Run tr c → (Core.core cfg registry).step c a = some (c', o) →
    c.handling a = some report → o.returns = some (.error status) →
    status.code ≠ .invalidArgument

theorem PassesCore.of_valid {report : ReportExecutionRequest} {state : ExecutionState}
    (hstate : states.tryFrom report.state = some state) (hvalid : Core.Reportable report state)
    (hterminal : report.outcome.isSome ↔ state = .succeeded ∨ state = .failed)
    (hfailed : (report.outcome.bind JobResult.failure).isSome ↔ state = .failed) :
    PassesCore states report := by
  refine ⟨⟨state, hstate, hvalid, hterminal, hfailed⟩, ?_⟩
  rintro Bytes cfg registry tr c c' a o status rfl hrun hstep habout hret
  obtain ⟨k, hk⟩ : ∃ k, a.reportCall = some k := by
    cases hk : a.reportCall with
    | some k => exact ⟨k, rfl⟩
    | none => cases a <;> simp [Core.CoreState.handling, Core.Act.reportCall] at habout hk
  exact Core.not_invalidArgument (Core.step_handles hk hstep) (Core.core_reportsChecked hrun)
    habout hstate hvalid hret

theorem Reports.passesCore {c : Call} {report : ReportExecutionRequest}
    (h : Reports states c report) : PassesCore states report := by
  have hstate : states.tryFrom report.state = some (c.outcome.getD .running) := by
    rw [h.state, states.tryFrom_into]
  have houtcome := h.outcome
  cases c with
  | terminal a x n ok =>
      cases ok with
      | true =>
          obtain ⟨result, hresult, hfail⟩ := houtcome
          refine .of_valid hstate ?_ ?_ ?_
          · exact Or.inr (Or.inl ⟨rfl, by simp [hresult]⟩)
          · simp [hresult, Call.outcome]
          · simpa [hresult, Call.outcome] using hfail
      | false =>
          obtain ⟨result, hresult, hfail⟩ := houtcome
          refine .of_valid hstate ?_ ?_ ?_
          · exact Or.inr (Or.inr ⟨rfl, by simpa [hresult] using hfail⟩)
          · simp [hresult, Call.outcome]
          · simpa [hresult, Call.outcome] using hfail
  | _ =>
      have hnone : report.outcome = none := houtcome
      refine .of_valid hstate (Or.inl rfl) ?_ ?_
      · simp [hnone, Call.outcome]
      · simp [hnone, Call.outcome]

/-! ## The law -/

theorem running_ne_terminal {id : String} {r : ReportExecutionRequest}
    (h : r.state = states.into .running) : ¬ TerminalFor states id r := by
  rintro ⟨-, hs | hs⟩
  · rw [h, states.into_inj] at hs
    cases hs
  · rw [h, states.into_inj] at hs
    cases hs

theorem Reports.running {e : ExecutionStarted} {r : ReportExecutionRequest}
    (h : Reports states (.started e) r) : r.state = states.into .running := h.state

theorem Reports.not_running {a x : String} {n : Nat} {ok : Bool} {r : ReportExecutionRequest}
    (h : Reports states (.terminal a x n ok) r) : r.state ≠ states.into .running := by
  rw [h.state]
  cases ok <;> simp [Call.outcome]

/-- One RUNNING report and one terminal report at most. -/
theorem Conversation.counts (id : String) {ys : List (RuntimeEvent × ReportExecutionRequest)}
    (h : Conversation states ys) :
    (ys.filter fun y => y.2.state = states.into .running).length ≤ 1 ∧
    (ys.filter fun y => TerminalFor states id y.2).length ≤ 1 := by
  cases h with
  | silent => simp
  | running e r hr =>
      constructor
      all_goals exact List.length_filter_le _ _
  | finished e r event t a x n ok hr ht hseq =>
      constructor
      · rw [List.filter_cons_of_pos (by simpa using hr.running),
          List.filter_cons_of_neg (by simpa using ht.not_running)]
        simp
      · rw [List.filter_cons_of_neg (by simpa using running_ne_terminal hr.running)]
        exact List.length_filter_le _ _

/-- What ends in a terminal report began with a RUNNING report. -/
theorem Conversation.started {id : String} {ys : List (RuntimeEvent × ReportExecutionRequest)}
    {event : RuntimeEvent} {t : ReportExecutionRequest}
    (h : Conversation states (ys ++ [(event, t)])) (hterm : TerminalFor states id t) :
    ∃ e r, ys = [(⟨some (.executionStarted e)⟩, r)] ∧ Reports states (.started e) r ∧
      r.sequenceNumber < t.sequenceNumber := by
  generalize hl : ys ++ [(event, t)] = l at h
  cases h with
  | silent => simp at hl
  | running e r hr =>
      have hone : ys ++ [(event, t)] = [] ++ [(⟨some (.executionStarted e)⟩, r)] := hl
      obtain ⟨-, hlast⟩ := List.append_inj' hone rfl
      cases hlast
      exact absurd hterm (running_ne_terminal hr.running)
  | finished e r event' t' a x n ok hr ht hseq =>
      have htwo : ys ++ [(event, t)] = [(⟨some (.executionStarted e)⟩, r)] ++ [(event', t')] := hl
      obtain ⟨hinit, hlast⟩ := List.append_inj' htwo rfl
      cases hlast
      exact ⟨e, r, hinit, hr, hseq⟩

/-- **Session reports and Core's protocol.** In every run of the service, for
every assignment: at most one RUNNING and at most one terminal report are
forwarded; a terminal report only after an accepted `Started` event, with a
larger sequence number than its RUNNING report; all of them name the assignment
and its execution and pass Core's checks. -/
theorem session_reports_obey_core {tr : List (ServiceAct × ServiceAnswer)} {s : ServiceState}
    (h : (service states).Run tr s) (id : String) :
    ((forwardings id tr).filter fun y => y.2.state = states.into .running).length ≤ 1 ∧
    ((forwardings id tr).filter fun y => TerminalFor states id y.2).length ≤ 1 ∧
    (∀ p x q event t, tr = p ++ x :: q → forwarding x = some (event, t) →
      TerminalFor states id t →
      ∃ y ∈ p, ∃ e r, forwarding y = some (⟨some (.executionStarted e)⟩, r) ∧
        e.assignmentId = id ∧ r.assignmentId = id ∧ r.state = states.into .running ∧
        r.sequenceNumber < t.sequenceNumber) ∧
    (∀ y ∈ forwardings id tr, ∃ record,
      s.worker.pending.assignments.lookup id = some record ∧
      y.2.assignmentId = record.assignment.assignmentId ∧
      y.2.executionId = record.assignment.executionId) ∧
    ∀ y ∈ forwardings id tr, PassesCore states y.2 := by
  have hcounts := (forwardings_conversation h id).counts id
  refine ⟨hcounts.1, hcounts.2, ?_, fun y hy => (forwardings_named h hy).2, ?_⟩
  · intro p x q event t htr hx hterm
    -- the run up to this report
    rw [htr, ← List.singleton_append, ← List.append_assoc] at h
    obtain ⟨u, hp, -⟩ := h.split
    have hconv := forwardings_conversation hp id
    rw [forwardings_snoc, hx] at hconv
    have hkept : (some (event, t)).toList.filter (fun y => y.2.assignmentId = id) =
        [(event, t)] := by
      simp [hterm.1]
    rw [hkept] at hconv
    obtain ⟨e, r, hfirst, hr, hseq⟩ := hconv.started hterm
    have hmem : (⟨some (.executionStarted e)⟩, r) ∈ forwardings id p := by
      rw [hfirst]
      exact List.mem_singleton_self _
    obtain ⟨hin, hid⟩ := List.mem_filter.mp hmem
    obtain ⟨y, hy, hforward⟩ := List.mem_filterMap.mp hin
    have hrid : r.assignmentId = id := by simpa using hid
    have heid : e.assignmentId = id := hr.assignment.symm.trans hrid
    exact ⟨y, hy, e, r, hforward, heid, hrid, hr.running, hseq⟩
  · intro y hy
    obtain ⟨c, hreports⟩ := (forwardings_named h hy).1
    exact hreports.passesCore

/-- Both reports of one completed assignment. -/
theorem session_reports_obey_core_oneCompletion : ∃ tr s,
    (service numberedStates).Run tr s ∧
      (forwardings "a" tr).map (fun y => y.2.state) = [2, 3] ∧
      ∀ y ∈ forwardings "a" tr, PassesCore numberedStates y.2 := by
  obtain ⟨tr, s, hrun, -, hstates⟩ := Machine.run_of_exec (service numberedStates)
    (oneCompletion .accepted)
    (P := fun tr _ => (forwardings "a" tr).map (fun y => y.2.state) = [2, 3]) (by decide)
  exact ⟨tr, s, hrun, hstates, (session_reports_obey_core hrun "a").2.2.2.2⟩

end ThreadWeave.Worker
