import ThreadWeave.Core.Client
import ThreadWeave.Delivery
import ThreadWeave.System

/-!
# Where a result comes from, and that it stays

A client reads the result of a job with `GetJob`. Between the runtime that
computed it and the client stand a session, the worker's `PendingExecutions`,
the network, which may repeat and delay what it carries, and Core, which checks
neither who reports nor whether it has heard of the outcome before.

* `PipelineState.pending` — the `PendingState` of a worker, and `pending_effect`,
  what one step does to it.
* `Reported` — the results that Core shows were sent by workers.
* `Attested` — the outcomes that workers sent were said by events of sessions,
  one for each assignment.

`results_authentic`: as long as only sessions report outcomes, the result that
`GetJob` shows is the one that a runtime gave for the command made of the job's
own request, and no later call shows another one.
-/

namespace ThreadWeave

open Runs (HashMap Machine)
open ThreadWeave.Core (Config CoreState Takes Integrity workerDestination ReportsChecked carried)
open Worker (Handled Moment)

/-! ## What an event says -/

/-- The outcome that an event gives of an execution: its assignment, its
execution and the result. -/
def RuntimeEvent.outcome (event : RuntimeEvent) : Option (String × String × JobResult) :=
  match event.payload with
  | some (.executionCompleted e) =>
      e.result.map fun result => (e.assignmentId, e.executionId, result)
  | some (.executionFailed e) =>
      e.failure.map fun failure =>
        (e.assignmentId, e.executionId, { JobResult.empty with failure := some failure })
  | _ => none

/-- A report carries what its event says. -/
theorem handleEvent_outcome {states : I32Enum ExecutionState} {p p' : Worker.PendingState}
    {event : RuntimeEvent} {m : Moment} {report : ReportExecutionRequest}
    (h : Worker.handleEvent states p event m = (p', .forwarding report)) :
    event.outcome = report.outcome.map fun result =>
      (report.assignmentId, report.executionId, result) := by
  rcases event with ⟨payload⟩
  cases payload with
  | none => cases h
  | some payload =>
      cases payload with
      | ready id => cases h
      | heartbeat id n => cases h
      | executionStarted e =>
          simp only [Worker.handleEvent] at h
          split at h
          · cases h
          · cases h
            rfl
      | executionProgress e => cases h
      | executionMetrics e => cases h
      | executionCompleted e =>
          simp only [Worker.handleEvent, Worker.completed] at h
          split at h
          · cases h
          · rename_i result hresult
            split_ifs at h
            · cases h
            · split at h
              · cases h
              · cases h
                simp [RuntimeEvent.outcome, hresult, Worker.reportFor]
      | executionFailed e =>
          simp only [Worker.handleEvent, Worker.failed] at h
          split at h
          · cases h
          · rename_i failure hfailure
            split at h
            · cases h
            · cases h
              simp [RuntimeEvent.outcome, hfailure, Worker.reportFor]

/-- What Core takes from a report is the outcome in it, in the name of the
execution reported on. -/
theorem carried_eq_some {Bytes : Type} {cfg : Config Bytes} {report : ReportExecutionRequest}
    {v : JobResult} (h : carried cfg report = some v) :
    ∃ result, report.outcome = some result ∧
      v = { result with executionId := report.executionId } := by
  unfold carried at h
  split at h
  · cases h
  · rcases Option.map_eq_some_iff.mp h with ⟨result, hresult, rfl⟩
    exact ⟨result, hresult, rfl⟩

/-! ## The pending executions of a worker -/

/-- The `PendingState` of worker `w`; a worker that has not started has none. -/
def PipelineState.pending {Bytes : Type} (s : PipelineState Bytes) (w : String) :
    Worker.PendingState :=
  match s.workers.lookup w with
  | none => .empty
  | some node => node.state.pending

section Pending

variable {Bytes : Type} {cfg : Config Bytes} {s s' : PipelineState Bytes} {a : PipelineAct}
  {o : PipelineOut Bytes}

theorem record_eq (s : PipelineState Bytes) (w id : String) :
    s.record w id = (s.pending w).assignments.lookup id := by
  unfold PipelineState.record PipelineState.pending
  cases s.workers.lookup w with
  | none => rfl
  | some node => rfl

theorem pending_of_lookup {w : String} {node : WorkerNode}
    (h : s.workers.lookup w = some node) : s.pending w = node.state.pending := by
  unfold PipelineState.pending
  rw [h]

theorem pending_setNode (s : PipelineState Bytes) (w w' : String) (node : WorkerNode) :
    (s.setNode w node).pending w' = if w' = w then node.state.pending else s.pending w' := by
  simp only [PipelineState.pending, PipelineState.setNode, HashMap.lookup_insert_ite]
  split_ifs with hw
  · rfl
  · rfl

theorem PipelineInv.rep (hinv : PipelineInv cfg s) (w : String) : Worker.Rep (s.pending w) := by
  unfold PipelineState.pending
  cases hnode : s.workers.lookup w with
  | none => exact Worker.rep_empty
  | some node => exact (hinv.nodes w node hnode).inv.rep

/-- What a step does to one worker's pending executions; a session is handed an
assignment by its own `next_for`. -/
theorem pending_effect (hinv : PipelineInv cfg s) (h : s.step cfg a = some (s', o))
    (w : String) : ∃ obs, Worker.Effect (s.pending w) obs (s'.pending w) ∧
      ∀ id sid, obs = some (.handed id sid) → ∃ r, s.record w id = some r ∧
        a = .worker w (.nextFor sid) ∧ o = .worker (.handed r.assignment) := by
  have hquiet (hp : s'.pending w = s.pending w) :
      ∃ obs, Worker.Effect (s.pending w) obs (s'.pending w) ∧
        ∀ id sid, obs = some (.handed id sid) → ∃ r, s.record w id = some r ∧
          a = .worker w (.nextFor sid) ∧ o = .worker (.handed r.assignment) :=
    ⟨none, hp ▸ .quiet, by simp⟩
  -- a step that writes the loop of a worker and nothing else of it
  have hloop (w' : String) (node : WorkerNode) (loop : ExecutePc)
      (hnode : s.workers.lookup w' = some node) :
      (s.setNode w' { node with loop := loop }).pending w = s.pending w := by
    rw [pending_setNode]
    split_ifs with hw
    · rw [hw, pending_of_lookup hnode]
    · rfl
  cases hadv : pipeline_advances h with
  | core a o c htakes => exact hquiet rfl
  | start v =>
      refine hquiet ?_
      simp only [PipelineState.step] at h
      split_ifs at h with hnew
      rw [pending_setNode]
      split_ifs with hw
      · unfold PipelineState.pending
        rw [hw, Finmap.lookup_eq_none.mpr hnew]
        rfl
      · rfl
  | undecodable v error node envelope rest hnode hqueue => exact hquiet (hloop v node _ hnode)
  | received v node envelope rest asg hnode hqueue hdecode => exact hquiet (hloop v node _ hnode)
  | receiveFailed v error node hnode => exact hquiet (hloop v node _ hnode)
  | refused v node status hnode => exact hquiet (hloop v node _ hnode)
  | enqueued v node asg hnode hloop' hnew =>
      by_cases hw : w = v
      · subst hw
        refine ⟨some (.enqueued asg.assignmentId), ?_, by simp⟩
        rw [pending_setNode, if_pos rfl, pending_of_lookup hnode]
        exact .enqueued asg hnew
      · refine hquiet ?_
        rw [pending_setNode, if_neg hw]
  | worker v act node state answer hnode hact hstep =>
      by_cases hw : w = v
      · subst hw
        have heff := (Worker.step_effect (hinv.nodes w node hnode).inv hstep).2.2
        refine ⟨Worker.observe (act, answer), ?_, ?_⟩
        · rw [pending_setNode, if_pos rfl, pending_of_lookup hnode]
          exact heff
        · intro id sid hobs
          cases Worker.step_works hstep with
          | handed sid' id' q r hpc hq hr =>
              have hkey : r.assignment.assignmentId = id' :=
                ((hinv.nodes w node hnode).inv.rep.records id' r hr).keyed
              simp only [Worker.observe, Option.some.injEq, Worker.Obs.handed.injEq, hkey] at hobs
              rcases hobs with ⟨rfl, rfl⟩
              exact ⟨r, record_eq_some.mpr ⟨node, hnode, hr⟩, rfl, rfl⟩
          | moved a sid' pc pc' ha hpc hne hne' =>
              simp only [List.mem_cons, List.not_mem_nil, or_false] at ha
              rcases ha with rfl | rfl | rfl | rfl
              all_goals cases hobs
          | _ => cases hobs
      · refine hquiet ?_
        rw [pending_setNode, if_neg hw]

/-- A record that is not pending was so before, or has just been handed out. -/
theorem Worker.Effect.beyond_pending {p p' : Worker.PendingState} {obs : Option Worker.Obs}
    (he : Worker.Effect p obs p') {id : String} {r : Worker.AssignmentRecord}
    (hr : p'.assignments.lookup id = some r) (hst : r.state ≠ .pending) :
    (∃ r₀, p.assignments.lookup id = some r₀ ∧ r₀.assignment = r.assignment ∧
      r₀.state ≠ .pending) ∨
    ∃ sid r₀, obs = some (.handed id sid) ∧ p.assignments.lookup id = some r₀ ∧
      r₀.assignment = r.assignment := by
  cases he with
  | quiet => exact Or.inl ⟨r, hr, rfl, hst⟩
  | opened sid sender => exact Or.inl ⟨r, hr, rfl, hst⟩
  | enqueued a hnew =>
      rcases HashMap.lookup_insert_some hr with ⟨-, rfl⟩ | ⟨-, hold⟩
      · exact absurd rfl hst
      · exact Or.inl ⟨r, hold, rfl, hst⟩
  | accepted c now r₀ hacc =>
      rcases HashMap.lookup_insert_some hr with ⟨rfl, rfl⟩ | ⟨-, hold⟩
      · -- a call is accepted of a record that is assigned or running
        refine Or.inl ⟨r₀, hacc.found, (Worker.advance_assignment c now r₀).symm, ?_⟩
        rw [hacc.state]
        cases c <;> simp [Worker.PendingState.Call.requires]
      · exact Or.inl ⟨r, hold, rfl, hst⟩
  | handed sid id' q r₀ hsid hq hr₀ =>
      rcases HashMap.lookup_insert_some hr with ⟨rfl, rfl⟩ | ⟨-, hold⟩
      · exact Or.inr ⟨sid, r₀, rfl, hr₀, rfl⟩
      · exact Or.inl ⟨r, hold, rfl, hst⟩
  | disconnected sid ids m hnd hids hm =>
      have hr' : m.lookup id = some r := hr
      rw [hm id] at hr'
      split_ifs at hr'
      · rcases Option.map_eq_some_iff.mp hr' with ⟨r₀, hr₀, rfl⟩
        refine Or.inl ⟨r₀, hr₀, rfl, ?_⟩
        intro hpend
        simp [Worker.PendingState.detach, hpend] at hst
      · exact Or.inl ⟨r, hr', rfl, hst⟩

/-- An outcome once recorded is not recorded over. -/
theorem Worker.Effect.outcome_stays {p p' : Worker.PendingState} {obs : Option Worker.Obs}
    (hrep : Worker.Rep p) (he : Worker.Effect p obs p') {id : String}
    (hout : p.outcome id ≠ none) : p'.outcome id = p.outcome id := by
  by_cases hobs : ∃ c, obs = some (.accepted c)
  · rcases hobs with ⟨c, rfl⟩
    cases he with
    | accepted _ now r hacc =>
        rw [hacc.outcome_advance, if_neg]
        rintro rfl
        exact hout hacc.outcome_none
  · exact he.outcome hrep (fun c hc => hobs ⟨c, hc⟩) id

/-- What a worker has beyond pending a session was handed. -/
theorem handed_of_record (hdest : ∀ w, cfg.taskDestination ≠ workerDestination w)
    {registry : MemoryWorkerRegistry} {tr : List (PipelineAct × PipelineOut Bytes)}
    (h : (pipeline cfg registry).Run tr s) :
    ∀ w id r, s.record w id = some r → r.state ≠ .pending →
      ∃ sid, (.worker w (.nextFor sid), .worker (.handed r.assignment)) ∈ tr := by
  refine h.history (P := fun tr s => ∀ w id r, s.record w id = some r → r.state ≠ .pending →
    ∃ sid, (.worker w (.nextFor sid), .worker (.handed r.assignment)) ∈ tr) ?_ ?_
  · intro w id r hr
    simp [PipelineState.record, pipeline] at hr
  · intro tr s a t o hrun ih hs w id r hr hst
    rcases pending_effect (pipeline_inv hdest hrun) hs w with ⟨obs, heff, hhanded⟩
    rw [record_eq] at hr
    rcases heff.beyond_pending hr hst with ⟨r₀, hr₀, hasg, hst₀⟩ | ⟨sid, r₀, hobs, hr₀, hasg⟩
    · rcases ih w id r₀ (by rw [record_eq]; exact hr₀) hst₀ with ⟨sid, hmem⟩
      exact ⟨sid, List.mem_append_left _ (hasg ▸ hmem)⟩
    · rcases hhanded id sid hobs with ⟨r₁, hr₁, rfl, rfl⟩
      rw [record_eq, hr₀, Option.some.injEq] at hr₁
      rw [← hasg, hr₁]
      exact ⟨sid, List.mem_append_right _ (List.mem_singleton.mpr rfl)⟩

theorem pipeline_reportsChecked {registry : MemoryWorkerRegistry}
    {tr : List (PipelineAct × PipelineOut Bytes)} (h : (pipeline cfg registry).Run tr s) :
    ReportsChecked cfg s.core := by
  refine h.invariant (I := fun s => ReportsChecked cfg s.core)
    (Core.reportsChecked_of_empty rfl) ?_
  intro s a t o hc hs
  have hadv : Advances cfg s a o t := pipeline_advances hs
  rcases core_of_advances hadv with ⟨ca, co, rfl, rfl, -⟩ | ⟨-, -, -, hrep, -⟩
  · rcases Option.map_eq_some_iff.mp hs with ⟨⟨c, co⟩, hstep, he⟩
    cases he
    exact hc.step hstep
  · unfold ReportsChecked
    rw [hrep]
    exact hc

end Pending

/-! ## The system and its pipeline -/

section Projection

variable {Bytes : Type} {cfg : Config Bytes} {registry : MemoryWorkerRegistry}

/-- Of the pipeline a step of the system is one step, or none. -/
theorem system_step_pipeline {s s' : SystemState Bytes} {a : SystemAct} {o : SystemOut Bytes}
    (h : s.step cfg a = some (s', o)) :
    s'.pipeline = s.pipeline ∨
    ∃ pa po, s.pipeline.step cfg pa = some (s'.pipeline, po) ∧
      (pa.isReportEntry = false → a = .pipeline pa ∧ o = .pipeline po) := by
  have hadvance {s₀ : SystemState Bytes} {pa : PipelineAct}
      (hstep : s₀.advance cfg pa = some (s', o)) :
      ∃ po, s₀.pipeline.step cfg pa = some (s'.pipeline, po) ∧ o = .pipeline po := by
    rcases Option.map_eq_some_iff.mp hstep with ⟨⟨p, po⟩, hp, he⟩
    cases he
    exact ⟨po, hp, rfl⟩
  cases hmoves : system_moves h with
  | pipeline pa po p hentry hfresh hstep => exact Or.inr ⟨pa, po, hstep, fun _ => ⟨rfl, rfl⟩⟩
  | event w n event m node q result o s' hnode hevent hs' =>
      rw [(handled_eq hs').1]
      rcases event_step hnode hevent with ⟨hsame, -⟩ | ⟨c, reply, r, hstep, -, -⟩
      · exact Or.inl hsame
      · exact Or.inr ⟨_, _, hstep, by simp [PipelineAct.isReportEntry, Worker.Act.isCall]⟩
  | rpc w n report node o s' hnode hs' => exact Or.inl (handled_eq hs').1
  | arrive k w report co c hsent htakes =>
      simp only [SystemState.step, if_pos hsent] at h
      rcases hadvance h with ⟨po, hstep, -⟩
      exact Or.inr ⟨_, po, hstep, by simp [PipelineAct.isReportEntry]⟩
  | direct k report co c htakes =>
      rcases hadvance h with ⟨po, hstep, -⟩
      exact Or.inr ⟨_, po, hstep, by simp [PipelineAct.isReportEntry]⟩
  | replied w n answer report => exact Or.inl rfl

/-- The runs of the system are runs of the pipeline, with the same steps but
for those that events and reports take. -/
theorem system_pipeline {tr : List (SystemAct × SystemOut Bytes)} {s : SystemState Bytes}
    (h : (system cfg registry).Run tr s) :
    ∃ ptr, (pipeline cfg registry).Run ptr s.pipeline ∧
      ∀ pa po, (pa, po) ∈ ptr → pa.isReportEntry = false → (.pipeline pa, .pipeline po) ∈ tr := by
  refine h.history (P := fun tr s => ∃ ptr, (pipeline cfg registry).Run ptr s.pipeline ∧
    ∀ pa po, (pa, po) ∈ ptr → pa.isReportEntry = false → (.pipeline pa, .pipeline po) ∈ tr) ?_ ?_
  · exact ⟨[], .refl, by simp⟩
  · rintro tr s a t o - ⟨ptr, hptr, hmem⟩ hs
    rcases system_step_pipeline hs with hsame | ⟨pa, po, hstep, hown⟩
    · rw [hsame]
      exact ⟨ptr, hptr, fun pa po hp hent => List.mem_append_left _ (hmem pa po hp hent)⟩
    · refine ⟨ptr ++ [(pa, po)], hptr.snoc hstep, ?_⟩
      intro pa' po' hp hent
      rcases List.mem_append.mp hp with hold | hnew
      · exact List.mem_append_left _ (hmem pa' po' hold hent)
      · rw [List.mem_singleton, Prod.mk.injEq] at hnew
        rcases hnew with ⟨rfl, rfl⟩
        rcases hown hent with ⟨rfl, rfl⟩
        exact List.mem_append_right _ (List.mem_singleton.mpr rfl)

end Projection

/-! ## What Core shows was sent -/

section Reported

variable {Bytes : Type} {cfg : Config Bytes} {c c' : CoreState Bytes}
  {sent sent' : List (String × ReportExecutionRequest)}

/-- The outcomes that Core is working on, and the results that it shows, come
from reports that were sent; a result is that of an execution of its job. -/
structure Reported (cfg : Config Bytes) (sent : List (String × ReportExecutionRequest))
    (c : CoreState Bytes) : Prop where
  calls : ∀ k pc, c.reports.lookup k = some pc → carried cfg pc.request ≠ none →
    ∃ w, (w, pc.request) ∈ sent
  resolved : ∀ k pc j, c.reports.lookup k = some pc → pc.jobId = some j →
    c.jobOf pc.request.executionId = some j
  results : ∀ j record v, c.jobs.lookup j = some record → record.result = some v →
    ∃ w report, (w, report) ∈ sent ∧ carried cfg report = some v ∧
      c.jobOf report.executionId = some j

theorem Reported.mono (h : Reported cfg sent c) (hsub : sent ⊆ sent') : Reported cfg sent' c where
  calls := by
    intro k pc hpc hcar
    rcases h.calls k pc hpc hcar with ⟨w, hmem⟩
    exact ⟨w, hsub hmem⟩
  resolved := h.resolved
  results := by
    intro j record v hjob hv
    rcases h.results j record v hjob hv with ⟨w, report, hmem, hrest⟩
    exact ⟨w, report, hsub hmem, hrest⟩

/-- `Reported` looks at three maps of Core. -/
theorem Reported.congr (h : Reported cfg sent c) (hreports : c'.reports = c.reports)
    (hexecutions : c'.executions = c.executions) (hjobs : c'.jobs = c.jobs) :
    Reported cfg sent c' := by
  refine ⟨?_, ?_, ?_⟩
  · rw [hreports]
    exact h.calls
  · unfold CoreState.jobOf
    rw [hreports, hexecutions]
    exact h.resolved
  · unfold CoreState.jobOf
    rw [hjobs, hexecutions]
    exact h.results

/-- The result of a job after an update: the new one, or the one it had. -/
theorem update_result (record : Core.JobRecord) (outcome : Option JobResult) (now : Timestamp) :
    (record.update outcome now).result = outcome.or record.result := by
  cases outcome with
  | none => rfl
  | some v => rfl

theorem Reported.takes {a : Core.Act} {o : Core.Out Bytes} (h : Reported cfg sent c)
    (hchecked : ReportsChecked cfg c) (hstep : Takes cfg c a o c')
    (hnew : ∀ k report, a = .report k report → carried cfg report ≠ none →
      ∃ w, (w, report) ∈ sent) : Reported cfg sent c' := by
  refine ⟨?_, ?_, ?_⟩
  · intro k pc hpc hcar
    rcases call_of_takes hstep hpc with ⟨rfl, -⟩ | ⟨pc₀, hpc₀, hreq, -⟩
    · exact hnew k _ rfl hcar
    · exact hreq ▸ h.calls k pc₀ hpc₀ (hreq ▸ hcar)
  · intro k pc j hpc hj
    rcases Core.reports_origin hstep hpc with
      ⟨pc₀, hpc₀, hreq, hjob, -⟩ | ⟨report, state, -, -, rfl⟩
    · rcases hjob with hsame | hfound
      · rw [hsame] at hj
        exact Core.jobOf_stays hstep (hreq ▸ h.resolved k pc₀ j hpc₀ hj)
      · exact Core.jobOf_stays hstep (hfound ▸ hj)
    · cases hj
  · intro j record v hjob hv
    -- a result that was there before
    have hold : c.jobs.lookup j = some record → ∃ w report, (w, report) ∈ sent ∧
        carried cfg report = some v ∧ c'.jobOf report.executionId = some j := by
      intro hlook
      rcases h.results j record v hlook hv with ⟨w, report, hmem, hcar, hof⟩
      exact ⟨w, report, hmem, hcar, Core.jobOf_stays hstep hof⟩
    rcases Core.jobs_cases hstep with
      ⟨i, m, request, now, rfl, -, hjobs⟩ | ⟨i, error, request, job, env, rfl, -, hjobs⟩ |
      ⟨k, now, report, i, outcome, record₀, rfl, rfl, hpc, hjob₀, hjobs⟩ | ⟨hjobs, -⟩
    · rw [hjobs] at hjob
      rcases HashMap.lookup_insert_some hjob with ⟨-, rfl⟩ | ⟨-, hlook⟩
      · cases hv
      · exact hold hlook
    · rw [hjobs] at hjob
      exact hold (HashMap.lookup_erase_some hjob).2
    · rw [hjobs] at hjob
      rcases HashMap.lookup_insert_some hjob with ⟨rfl, rfl⟩ | ⟨-, hlook⟩
      · -- the report that updates the job, or an earlier one
        rw [update_result] at hv
        rcases hchecked k _ hpc with ⟨state, hstate, hout⟩
        have hcar : carried cfg report = outcome := Core.carried_of_checked hstate hout
        rcases Option.or_eq_some_iff.mp hv with rfl | ⟨-, hv₀⟩
        · rcases h.calls k _ hpc (by simp [Core.ReportPc.request, hcar]) with ⟨w, hmem⟩
          exact ⟨w, report, hmem, hcar, Core.jobOf_stays hstep (h.resolved k _ j hpc rfl)⟩
        · rcases h.results j record₀ v hjob₀ hv₀ with ⟨w, report', hmem, hcar', hof⟩
          exact ⟨w, report', hmem, hcar', Core.jobOf_stays hstep hof⟩
      · exact hold hlook
    · exact hold (hjobs ▸ hjob)

/-- A job with an execution keeps having a result. -/
theorem result_stays {a : Core.Act} {o : Core.Out Bytes} (hi : Integrity cfg c)
    (hstep : Takes cfg c a o c') {j : String} {record : Core.JobRecord}
    (hjob : c.jobs.lookup j = some record) (hres : record.result.isSome)
    (hexec : ∃ x, c.jobOf x = some j) :
    ∃ record', c'.jobs.lookup j = some record' ∧ record'.result.isSome := by
  rcases Core.jobs_cases hstep with
    ⟨i, m, request, now, rfl, hfresh, hjobs⟩ | ⟨i, error, request, job, env, rfl, hpc, hjobs⟩ |
    ⟨k, now, report, i, outcome, record₀, rfl, rfl, hpc, hjob₀, hjobs⟩ | ⟨hjobs, -⟩
  · have hne : j ≠ i := by
      rintro rfl
      exact hfresh (hi.drawn j (Finmap.mem_of_lookup_eq_some hjob))
    exact ⟨record, by rw [hjobs, Finmap.lookup_insert_of_ne _ hne, hjob], hres⟩
  · -- a job that is rolled back has no execution yet
    have hne : j ≠ i := by
      rintro rfl
      rcases hexec with ⟨x, hx⟩
      rcases Option.map_eq_some_iff.mp hx with ⟨e, he, rfl⟩
      exact (hi.executed x e he).published request job env hpc
    exact ⟨record, by rw [hjobs, Finmap.lookup_erase_ne hne, hjob], hres⟩
  · rw [hjobs, HashMap.lookup_insert_ite]
    split_ifs with hij
    · subst hij
      rw [hjob, Option.some.injEq] at hjob₀
      refine ⟨_, rfl, ?_⟩
      rw [update_result, ← hjob₀, Option.isSome_or, hres, Bool.or_true]
    · exact ⟨record, hjob, hres⟩
  · exact ⟨record, hjobs ▸ hjob, hres⟩

end Reported

/-! ## What was sent a session said -/

/-- The reports that callers make up carry no outcome: outcomes come from sessions. -/
def NoOutcome {Bytes : Type} (cfg : Config Bytes) : SystemAct → Prop
  | .rpc _ _ report => carried cfg report = none
  | .direct _ report => carried cfg report = none
  | _ => True

instance {Bytes : Type} (cfg : Config Bytes) (a : SystemAct) : Decidable (NoOutcome cfg a) :=
  match a with
  | .rpc _ _ report => inferInstanceAs (Decidable (carried cfg report = none))
  | .direct _ report => inferInstanceAs (Decidable (carried cfg report = none))
  | .pipeline _ => isTrue trivial
  | .event _ _ _ _ => isTrue trivial
  | .arrive _ _ _ => isTrue trivial
  | .coreReplies _ _ _ => isTrue trivial

section Attested

variable {Bytes : Type} {cfg : Config Bytes} {tr tr' : List (SystemAct × SystemOut Bytes)}
  {p p' : PipelineState Bytes} {sent : List (String × ReportExecutionRequest)}

/-- Every outcome that a worker sent was said by an event of one of its
sessions, about an assignment that it has and that is finished since; of each
assignment it sent one outcome. -/
structure Attested (cfg : Config Bytes) (tr : List (SystemAct × SystemOut Bytes))
    (p : PipelineState Bytes) (sent : List (String × ReportExecutionRequest)) : Prop where
  said : ∀ w report, (w, report) ∈ sent → carried cfg report ≠ none →
    ∃ n event m, (.event w n event m, .forwarded report) ∈ tr ∧
      event.outcome = report.outcome.map fun result =>
        (report.assignmentId, report.executionId, result)
  named : ∀ w report, (w, report) ∈ sent → carried cfg report ≠ none → NamesPair p w report
  recorded : ∀ w report, (w, report) ∈ sent → carried cfg report ≠ none →
    (p.pending w).outcome report.assignmentId ≠ none
  once : ∀ w report report', (w, report) ∈ sent → (w, report') ∈ sent →
    carried cfg report ≠ none → carried cfg report' ≠ none →
    report.assignmentId = report'.assignmentId → report = report'

theorem Attested.mono (h : Attested cfg tr p sent) (hsub : tr ⊆ tr') :
    Attested cfg tr' p sent where
  said := by
    intro w report hmem hcar
    rcases h.said w report hmem hcar with ⟨n, event, m, hin, hgives⟩
    exact ⟨n, event, m, hsub hin, hgives⟩
  named := h.named
  recorded := h.recorded
  once := h.once

/-- Nothing that a worker does takes an outcome back. -/
theorem Attested.step (h : Attested cfg tr p sent) (hinv : PipelineInv cfg p) {a : PipelineAct}
    {o : PipelineOut Bytes} (hstep : p.step cfg a = some (p', o)) : Attested cfg tr p' sent where
  said := h.said
  named := by
    intro w report hmem hcar
    rcases h.named w report hmem hcar with ⟨r, hr, hid, hx⟩
    rcases record_stays hinv hstep hr with ⟨r', hr', hasg⟩
    exact ⟨r', hr', by rw [hasg]; exact hid, by rw [hasg]; exact hx⟩
  recorded := by
    intro w report hmem hcar
    rcases pending_effect hinv hstep w with ⟨obs, heff, -⟩
    have hout := h.recorded w report hmem hcar
    rw [heff.outcome_stays (hinv.rep w) hout]
    exact hout
  once := h.once

/-- A report without an outcome is sent. -/
theorem Attested.send_quiet (h : Attested cfg tr p sent) {w : String}
    {report : ReportExecutionRequest} (hquiet : carried cfg report = none) :
    Attested cfg tr p (sent ++ [(w, report)]) := by
  have hold : ∀ v r, (v, r) ∈ sent ++ [(w, report)] → carried cfg r ≠ none → (v, r) ∈ sent := by
    intro v r hmem hcar
    rcases List.mem_append.mp hmem with hin | hlast
    · exact hin
    · rw [List.mem_singleton, Prod.mk.injEq] at hlast
      exact absurd (hlast.2 ▸ hquiet) hcar
  exact ⟨fun v r hmem hcar => h.said v r (hold v r hmem hcar) hcar,
    fun v r hmem hcar => h.named v r (hold v r hmem hcar) hcar,
    fun v r hmem hcar => h.recorded v r (hold v r hmem hcar) hcar,
    fun v r r' hmem hmem' hcar hcar' =>
      h.once v r r' (hold v r hmem hcar) (hold v r' hmem' hcar') hcar hcar'⟩

/-- An outcome is sent, the first one of its assignment. -/
theorem Attested.send (h : Attested cfg tr p sent) {w : String} {report : ReportExecutionRequest}
    (hsaid : ∃ n event m, (.event w n event m, .forwarded report) ∈ tr ∧
      event.outcome = report.outcome.map fun result =>
        (report.assignmentId, report.executionId, result))
    (hnamed : NamesPair p w report)
    (hrecorded : (p.pending w).outcome report.assignmentId ≠ none)
    (hfirst : ∀ r, (w, r) ∈ sent → carried cfg r ≠ none → r.assignmentId ≠ report.assignmentId) :
    Attested cfg tr p (sent ++ [(w, report)]) := by
  have hcases : ∀ v r, (v, r) ∈ sent ++ [(w, report)] →
      (v, r) ∈ sent ∨ (v = w ∧ r = report) := by
    intro v r hmem
    simpa using hmem
  refine ⟨?_, ?_, ?_, ?_⟩
  · intro v r hmem hcar
    rcases hcases v r hmem with hold | ⟨rfl, rfl⟩
    · exact h.said v r hold hcar
    · exact hsaid
  · intro v r hmem hcar
    rcases hcases v r hmem with hold | ⟨rfl, rfl⟩
    · exact h.named v r hold hcar
    · exact hnamed
  · intro v r hmem hcar
    rcases hcases v r hmem with hold | ⟨rfl, rfl⟩
    · exact h.recorded v r hold hcar
    · exact hrecorded
  · intro v r r' hmem hmem' hcar hcar' hid
    rcases hcases v r hmem with hold | ⟨rfl, rfl⟩
    · rcases hcases v r' hmem' with hold' | ⟨rfl, rfl⟩
      · exact h.once v r r' hold hold' hcar hcar' hid
      · exact absurd hid (hfirst r hold hcar)
    · rcases hcases v r' hmem' with hold' | ⟨-, rfl⟩
      · exact absurd hid.symm (hfirst r' hold' hcar')
      · rfl

/-- An event that is forwarded with an outcome finishes its assignment, which
was not finished before. -/
theorem handleEvent_finishes {q q' : Worker.PendingState} {event : RuntimeEvent} {m : Moment}
    {report : ReportExecutionRequest}
    (h : Worker.handleEvent cfg.states q event m = (q', .forwarding report))
    (hcar : carried cfg report ≠ none) :
    q.outcome report.assignmentId = none ∧ q'.outcome report.assignmentId ≠ none ∧
      ∃ r r', q.assignments.lookup report.assignmentId = some r ∧
        q'.assignments.lookup report.assignmentId = some r' ∧ r'.assignment = r.assignment ∧
        r.assignment.executionId = report.executionId := by
  rcases Worker.handleEvent_calls cfg.states q event m with
    ⟨res, he⟩ | ⟨c, reply, p', -, hcall, hout⟩
  · rw [h] at he
    cases he
  · rcases hout with ⟨-, he⟩ | ⟨-, report', he, hreports⟩
    · rw [h] at he
      cases he
    · rw [h] at he
      cases he
      rcases Worker.PendingState.onCall_cases q c m.instant with ⟨status, hc⟩ | ⟨r, _, hacc, hc⟩
      · rw [hcall] at hc
        cases hc
      · rw [hcall, Prod.mk.injEq] at hc
        rcases hc with ⟨rfl, -⟩
        have hdecides : c.outcome ≠ none := by
          intro hnone
          have hgives := hreports.outcome
          rw [hnone] at hgives
          rcases Option.ne_none_iff_exists'.mp hcar with ⟨v, hv⟩
          rcases carried_eq_some hv with ⟨result, hresult, -⟩
          rw [hgives] at hresult
          cases hresult
        rw [hreports.assignment, hreports.execution]
        refine ⟨hacc.outcome_none, ?_, r, _, hacc.found, Finmap.lookup_insert _,
          Worker.advance_assignment c _ r, hacc.execution⟩
        rw [hacc.outcome_advance, if_pos rfl]
        exact hdecides

end Attested

/-! ## From the session to the client -/

section Custody

variable {Bytes : Type} {cfg : Config Bytes} {registry : MemoryWorkerRegistry}
  {tr : List (SystemAct × SystemOut Bytes)} {s s' : SystemState Bytes}

theorem attested_event {w : String} {n : Nat} {event : RuntimeEvent} {m : Moment}
    {node : WorkerNode} {q : Worker.PendingState} {report : ReportExecutionRequest}
    (hinv : PipelineInv cfg s.pipeline) (hnode : s.pipeline.workers.lookup w = some node)
    (hevent : Worker.handleEvent cfg.states node.state.pending event m = (q, .forwarding report))
    (hmem : (.event w n event m, .forwarded report) ∈ tr)
    (hcar : carried cfg report ≠ none)
    (hold : Attested cfg tr s.pipeline s.sent)
    (h : Attested cfg tr (s.pipeline.setPending w node q) s.sent) :
    Attested cfg tr (s.pipeline.setPending w node q) (s.sent ++ [(w, report)]) := by
  rcases handleEvent_finishes hevent hcar with ⟨hbefore, hafter, r, r', hr, hr', hasg, hx⟩
  have hpending : (s.pipeline.setPending w node q).pending w = q := by
    unfold PipelineState.setPending
    rw [pending_setNode, if_pos rfl]
  have hkey : r.assignment.assignmentId = report.assignmentId :=
    ((hinv.nodes w node hnode).inv.rep.records _ r hr).keyed
  refine h.send ⟨n, event, m, hmem, handleEvent_outcome hevent⟩ ?_ ?_ ?_
  · refine ⟨r', ?_, hasg ▸ hkey, hasg ▸ hx⟩
    rw [record_eq, hpending]
    exact hr'
  · rw [hpending]
    exact hafter
  · -- an outcome sent before would be on record
    intro r₀ hsent hcar₀ hid
    have hrec := hold.recorded w r₀ hsent hcar₀
    rw [hid, pending_of_lookup hnode] at hrec
    exact hrec hbefore

theorem attested_step {a : SystemAct} {o : SystemOut Bytes} (hinv : PipelineInv cfg s.pipeline)
    (hstep : s.step cfg a = some (s', o)) (hno : NoOutcome cfg a)
    (h : Attested cfg tr s.pipeline s.sent) :
    Attested cfg (tr ++ [(a, o)]) s'.pipeline s'.sent := by
  have hnow : Attested cfg (tr ++ [(a, o)]) s.pipeline s.sent :=
    h.mono (List.subset_append_left _ _)
  cases system_moves hstep with
  | pipeline a o p hentry hfresh hp => exact hnow.step hinv hp
  | event w n event m node q result o s' hnode hevent hs' =>
      have hmoved : Attested cfg (tr ++ [(.event w n event m, o)])
          (s.pipeline.setPending w node q) s.sent := by
        rcases event_step hnode hevent with ⟨hsame, -⟩ | ⟨c, reply, r, hp, -, -⟩
        · rw [hsame]
          exact hnow
        · exact hnow.step hinv hp
      cases result with
      | returned r =>
          cases hs'
          exact hmoved
      | forwarding report =>
          cases hs'
          by_cases hcar : carried cfg report = none
          · exact hmoved.send_quiet hcar
          · exact attested_event hinv hnode hevent
              (List.mem_append_right _ (List.mem_singleton.mpr rfl)) hcar hnow hmoved
  | rpc w n report node o s' hnode hs' =>
      rcases handled_eq hs' with ⟨hpipe, -, -, hsent⟩
      rw [hpipe, hsent]
      unfold Worker.reportExecution
      split
      · simpa [Worker.Handled.report, SystemState.name] using hnow
      · exact hnow.send_quiet hno
  | arrive k w report co c hsent htakes =>
      exact ⟨hnow.said, hnow.named, hnow.recorded, hnow.once⟩
  | direct k report co c htakes => exact ⟨hnow.said, hnow.named, hnow.recorded, hnow.once⟩
  | replied w n answer report => exact hnow

theorem reported_step {a : SystemAct} {o : SystemOut Bytes}
    (hchecked : ReportsChecked cfg s.pipeline.core) (hstep : s.step cfg a = some (s', o))
    (hno : NoOutcome cfg a) (h : Reported cfg s.sent s.pipeline.core) :
    Reported cfg s'.sent s'.pipeline.core := by
  cases system_moves hstep with
  | pipeline a o p hentry hfresh hp =>
      have hadv : Advances cfg s.pipeline a o p := pipeline_advances hp
      cases hadv with
      | core ca co c htakes =>
          refine h.takes hchecked htakes ?_
          rintro k report rfl
          cases hentry
      | _ => exact h.congr rfl rfl rfl
  | event w n event m node q result o s' hnode hevent hs' =>
      rcases handled_eq hs' with ⟨hpipe, -, -, hsent⟩
      rw [hpipe, hsent]
      exact h.mono (List.subset_append_left _ _)
  | rpc w n report node o s' hnode hs' =>
      rcases handled_eq hs' with ⟨hpipe, -, -, hsent⟩
      rw [hpipe, hsent]
      exact h.mono (List.subset_append_left _ _)
  | arrive k w report co c hsent htakes =>
      refine h.takes hchecked htakes ?_
      rintro k' report' ⟨⟩ -
      exact ⟨w, hsent⟩
  | direct k report co c htakes =>
      refine h.takes hchecked htakes ?_
      rintro k' report' ⟨⟩ hcar
      exact absurd hno hcar
  | replied w n answer report => exact h

/-- Results and outcomes have their origin in the sessions. -/
structure Custody (cfg : Config Bytes) (tr : List (SystemAct × SystemOut Bytes))
    (s : SystemState Bytes) : Prop where
  attested : Attested cfg tr s.pipeline s.sent
  reported : Reported cfg s.sent s.pipeline.core

theorem system_custody (hdest : ∀ w, cfg.taskDestination ≠ workerDestination w)
    (h : (system cfg registry).Run tr s) (hno : ∀ x ∈ tr, NoOutcome cfg x.1) :
    Custody cfg tr s := by
  revert hno
  refine h.history (P := fun tr s => (∀ x ∈ tr, NoOutcome cfg x.1) → Custody cfg tr s) ?_ ?_
  · intro _
    refine ⟨⟨?_, ?_, ?_, ?_⟩, ?_, ?_, ?_⟩
    all_goals simp [system, pipeline, CoreState.start]
  · intro tr s a t o hrun ih hs hno
    rcases system_pipeline hrun with ⟨ptr, hptr, -⟩
    have hc : Custody cfg tr s := ih fun x hx => hno x (List.mem_append_left _ hx)
    have ha : NoOutcome cfg a := hno (a, o) (List.mem_append_right _ (List.mem_singleton.mpr rfl))
    exact ⟨attested_step (pipeline_inv hdest hptr) hs ha hc.attested,
      reported_step (pipeline_reportsChecked hptr) hs ha hc.reported⟩

/-- The worker of a report is the one that the execution's record names. -/
theorem NamesPair.record_of_job {p : PipelineState Bytes} {w j : String}
    {report : ReportExecutionRequest} (hinv : PipelineInv cfg p) (hn : NamesPair p w report)
    (hj : p.core.jobOf report.executionId = some j) :
    ∃ r e, p.record w report.assignmentId = some r ∧
      p.core.executions.lookup report.executionId = some e ∧
      e.identity = (report.executionId, j, report.assignmentId, w) ∧
      r.assignment.jobId = j ∧ r.assignment.assignmentId = report.assignmentId ∧
      r.assignment.executionId = report.executionId := by
  rcases hn with ⟨r, hr, hid, hx⟩
  rcases record_eq_some.mp hr with ⟨node, hnode, hlook⟩
  rcases (hinv.nodes w node hnode).pending _ r hlook with ⟨e, he, hident⟩
  rw [hx] at he
  have hjob : e.jobId = r.assignment.jobId := congrArg (fun x => x.2.1) hident
  have hej : e.jobId = j := by
    simpa [CoreState.jobOf, he] using hj
  refine ⟨r, e, hr, he, ?_, hjob ▸ hej, hid, hx⟩
  rw [hident, hx, hid, ← hjob, hej]

/-- Of one job there is one outcome. -/
theorem Custody.unique (hdest : ∀ w, cfg.taskDestination ≠ workerDestination w)
    (h : (system cfg registry).Run tr s) (hc : Custody cfg tr s) {w w' j : String}
    {report report' : ReportExecutionRequest} {v v' : JobResult}
    (hmem : (w, report) ∈ s.sent) (hmem' : (w', report') ∈ s.sent)
    (hv : carried cfg report = some v) (hv' : carried cfg report' = some v')
    (hj : s.pipeline.core.jobOf report.executionId = some j)
    (hj' : s.pipeline.core.jobOf report'.executionId = some j) : v = v' := by
  have hcar : carried cfg report ≠ none := by simp [hv]
  have hcar' : carried cfg report' ≠ none := by simp [hv']
  rcases system_pipeline h with ⟨ptr, hptr, -⟩
  have hinv := pipeline_inv hdest hptr
  have hn := hc.attested.named w report hmem hcar
  have hn' := hc.attested.named w' report' hmem' hcar'
  rcases hn.record_of_job hinv hj with ⟨r, e, -, he, hid, -⟩
  rcases hn'.record_of_job hinv hj' with ⟨r', e', -, he', hid', -⟩
  -- one execution, so one assignment and one worker
  have hexec : report.executionId = report'.executionId := by
    refine (pipeline_delivery hdest hptr).sent.once.record_unique he he' ?_
    have hje : e.jobId = j := congrArg (fun x => x.2.1) hid
    have hje' : e'.jobId = j := congrArg (fun x => x.2.1) hid'
    rw [hje, hje']
  rw [hexec, he', Option.some.injEq] at he
  rw [← he, hid', Prod.mk.injEq, Prod.mk.injEq, Prod.mk.injEq] at hid
  rcases hid with ⟨-, -, hasg, rfl⟩
  have hsame := hc.attested.once w' report report' hmem hmem' hcar hcar' hasg.symm
  rw [hsame, hv', Option.some.injEq] at hv
  exact hv.symm

/-- Core takes a step, or its jobs and executions stay as they are. -/
theorem system_core {a : SystemAct} {o : SystemOut Bytes} (hstep : s.step cfg a = some (s', o)) :
    (∃ ca co, Takes cfg s.pipeline.core ca co s'.pipeline.core) ∨
    (s'.pipeline.core.jobs = s.pipeline.core.jobs ∧
      s'.pipeline.core.executions = s.pipeline.core.executions) := by
  rcases system_step_pipeline hstep with hsame | ⟨pa, po, hp, -⟩
  · exact Or.inr ⟨by rw [hsame], by rw [hsame]⟩
  · generalize s'.pipeline = p at hp ⊢
    cases pipeline_advances hp with
    | core ca co c htakes => exact Or.inl ⟨ca, co, htakes⟩
    | _ => exact Or.inr ⟨rfl, rfl⟩

/-- What was sent remains sent. -/
theorem sent_stays {a : SystemAct} {o : SystemOut Bytes} (hstep : s.step cfg a = some (s', o)) :
    s.sent ⊆ s'.sent := by
  cases system_moves hstep with
  | event w n event m node q result o s' hnode hevent hs' =>
      rw [(handled_eq hs').2.2.2]
      exact List.subset_append_left _ _
  | rpc w n report node o s' hnode hs' =>
      rw [(handled_eq hs').2.2.2]
      exact List.subset_append_left _ _
  | _ => exact List.Subset.refl _

/-- The result of a job in a state of the system. -/
def SystemState.result (s : SystemState Bytes) (j : String) : Option JobResult :=
  (s.pipeline.core.jobs.lookup j).bind Core.JobRecord.result

theorem result_of_getJob {j : String} {view : Core.GetJobResponse}
    (h : s.pipeline.core.getJob j = .ok view) : s.result j = view.result := by
  unfold CoreState.getJob at h
  unfold SystemState.result
  split at h
  · cases h
  · rename_i record hlook
    cases h
    rw [hlook, Option.bind_some]

theorem Custody.result (hc : Custody cfg tr s) {j : String} {v : JobResult}
    (h : s.result j = some v) :
    ∃ w report, (w, report) ∈ s.sent ∧ carried cfg report = some v ∧
      s.pipeline.core.jobOf report.executionId = some j := by
  rcases Option.bind_eq_some_iff.mp h with ⟨record, hjob, hv⟩
  exact hc.reported.results j record v hjob hv

/-- A result is not replaced. -/
theorem result_final (hdest : ∀ w, cfg.taskDestination ≠ workerDestination w)
    {a : SystemAct} {o : SystemOut Bytes} (h : (system cfg registry).Run tr s)
    (hc : Custody cfg tr s) (hstep : s.step cfg a = some (s', o))
    (hc' : Custody cfg (tr ++ [(a, o)]) s') {j : String} {v : JobResult}
    (hres : s.result j = some v) : s'.result j = some v := by
  rcases hc.result hres with ⟨w, report, hmem, hv, hj⟩
  rcases system_core hstep with ⟨ca, co, htakes⟩ | ⟨hjobs, -⟩
  · rcases Option.bind_eq_some_iff.mp hres with ⟨record, hjob, hrv⟩
    rcases system_pipeline h with ⟨ptr, hptr, -⟩
    have hi : Integrity cfg s.pipeline.core := (pipeline_inv hdest hptr).dispatch.integrity
    rcases result_stays hi htakes hjob (by simp [hrv]) ⟨_, hj⟩ with ⟨record', hjob', hsome⟩
    rcases Option.isSome_iff_exists.mp hsome with ⟨v', hv'⟩
    have hres' : s'.result j = some v' := by
      unfold SystemState.result
      rw [hjob', Option.bind_some, hv']
    -- both outcomes have been sent, for the same job
    rcases hc'.result hres' with ⟨w', report', hmem', hcar', hj'⟩
    have hrun : (system cfg registry).Run (tr ++ [(a, o)]) s' := h.snoc hstep
    have hsame : v = v' := Custody.unique hdest hrun hc' (sent_stays hstep hmem) hmem' hv hcar'
      (Core.jobOf_stays htakes hj) hj'
    rw [hres', hsame]
  · unfold SystemState.result
    rw [hjobs]
    exact hres

/-- The way of a result, from the request that was submitted to what is shown. -/
structure Provenance (tr : List (SystemAct × SystemOut Bytes)) (s : SystemState Bytes) (j : String)
    (v : JobResult) (w : String) (asg : AssignExecutionRequest) (result : JobResult) : Prop where
  /-- a request was submitted as the job, and the assignment is made of it -/
  requested : ∃ request, (∃ messageId now o,
    (.pipeline (.core (.submit j messageId request now)), o) ∈ tr) ∧ Core.Carries request asg
  job : asg.jobId = j
  /-- the record of the assignment's execution names the worker -/
  recorded : ∃ e, s.pipeline.core.executions.lookup asg.executionId = some e ∧
    e.identity = (asg.executionId, j, asg.assignmentId, w)
  /-- and it is the only record of the job -/
  only : ∀ x e, s.pipeline.core.executions.lookup x = some e → e.jobId = j →
    x = asg.executionId
  /-- a session of the worker was handed the assignment -/
  handed : ∃ sid, (.pipeline (.worker w (.nextFor sid)), .pipeline (.worker (.handed asg))) ∈ tr
  /-- a session of the worker gave the result -/
  said : ∃ n event m report, (.event w n event m, .forwarded report) ∈ tr ∧
    event.outcome = some (asg.assignmentId, asg.executionId, result)
  shown : v = { result with executionId := asg.executionId }

theorem Custody.provenance (hdest : ∀ w, cfg.taskDestination ≠ workerDestination w)
    (h : (system cfg registry).Run tr s) (hc : Custody cfg tr s) {j : String} {v : JobResult}
    (hres : s.result j = some v) : ∃ w asg result, Provenance tr s j v w asg result := by
  rcases hc.result hres with ⟨w, report, hmem, hv, hj⟩
  have hcar : carried cfg report ≠ none := by simp [hv]
  rcases system_pipeline h with ⟨ptr, hptr, hown⟩
  rcases (hc.attested.named w report hmem hcar).record_of_job (pipeline_inv hdest hptr) hj with
    ⟨r, e, hr, he, hident, hjob, hid, hx⟩
  rcases carried_eq_some hv with ⟨result, hresult, hshown⟩
  -- a record with an outcome has been handed out
  have hst : r.state ≠ .pending := by
    have hout := hc.attested.recorded w report hmem hcar
    rw [Worker.PendingState.outcome, ← record_eq, hr, Option.bind_some] at hout
    intro hpend
    rw [hpend] at hout
    exact hout rfl
  rcases handed_of_record hdest hptr w _ r hr hst with ⟨sid, hhanded⟩
  have hd := pipeline_delivery hdest hptr
  have hdispatched : (w, r.assignment) ∈ dispatches ptr :=
    hd.receipts_subperm.subset (handed_received hdest hptr w sid r.assignment hhanded)
  rcases hd.sent.madeOf _ hdispatched with ⟨request, ⟨messageId, now, po, hsub⟩, hcarries⟩
  rw [← hx] at he
  refine ⟨w, r.assignment, result, ?_, hjob, ⟨e, he, ?_⟩, ?_, ⟨sid, hown _ _ hhanded rfl⟩, ?_, ?_⟩
  · exact ⟨request, ⟨messageId, now, _, hjob ▸ hown _ _ hsub rfl⟩, hcarries⟩
  · rw [hident, hx, hid]
  · -- a job has one record
    intro x e' he' hj'
    have hje : e.jobId = j := congrArg (fun i => i.2.1) hident
    exact hd.sent.once.record_unique he' he (hj'.trans hje.symm)
  · rcases hc.attested.said w report hmem hcar with ⟨n, event, m, hin, hgives⟩
    refine ⟨n, event, m, report, hin, ?_⟩
    rw [hgives, hresult, Option.map_some, hid, hx]
  · rw [hx]
    exact hshown

/-- **Results are authentic and final.** As long as outcomes are reported by
sessions only, the result that `GetJob` shows is the one that a session of the worker
in the job's only record gave, for the assignment made of the job's request, and it
is shown ever after. -/
theorem results_authentic (hdest : ∀ w, cfg.taskDestination ≠ workerDestination w)
    (h : (system cfg registry).Run tr s) (hno : ∀ x ∈ tr, NoOutcome cfg x.1) {j : String}
    {view : Core.GetJobResponse} {v : JobResult}
    (hget : s.pipeline.core.getJob j = .ok view) (hv : view.result = some v) :
    (∃ w asg result, Provenance tr s j v w asg result) ∧
    ∀ q t, (system cfg registry).Steps s q t → (∀ x ∈ q, NoOutcome cfg x.1) →
      ∃ view', t.pipeline.core.getJob j = .ok view' ∧ view'.result = some v := by
  have hres : s.result j = some v := (result_of_getJob hget).trans hv
  have hc := system_custody hdest h hno
  refine ⟨hc.provenance hdest h hres, ?_⟩
  intro q t hq hnoq
  have hlast : t.result j = some v := by
    induction hq with
    | refl => exact hres
    | @snoc q₀ t₀ t₁ a o hq₀ hstep ih =>
        have hrun : (system cfg registry).Run (tr ++ q₀) t₀ := Machine.Steps.trans h hq₀
        have hnoq₀ : ∀ x ∈ q₀, NoOutcome cfg x.1 := fun x hx => hnoq x (List.mem_append_left _ hx)
        have hall : ∀ x ∈ tr ++ q₀, NoOutcome cfg x.1 := by
          intro x hx
          rcases List.mem_append.mp hx with hold | hnew
          · exact hno x hold
          · exact hnoq₀ x hnew
        have hall' : ∀ x ∈ tr ++ q₀ ++ [(a, o)], NoOutcome cfg x.1 := by
          intro x hx
          rcases List.mem_append.mp hx with hold | hnew
          · exact hall x hold
          · exact hnoq x (List.mem_append_right _ hnew)
        exact result_final hdest hrun (system_custody hdest hrun hall) hstep
          (system_custody hdest (hrun.snoc hstep) hall') (ih hnoq₀)
  rcases Option.bind_eq_some_iff.mp hlast with ⟨record, hjob, hrv⟩
  refine ⟨{ job := some record.job, result := record.result }, ?_, hrv⟩
  unfold CoreState.getJob
  rw [hjob]

/-! ## Reports that arrive late and twice -/

/-- A task goes through to a session of worker `w`. -/
def oneHandedOut : List PipelineAct :=
  [.core (.register (Core.plainWorker "w") 0), .start "w",
   .core (.submit "j" "m" Core.plainRequest 1), .core (.published "j" (.ok ()))] ++
  (Core.scheduled "j" "x" 0).map .core ++
  [.receive "w", .enqueue "w", .worker "w" (.connect "s" ⟨0⟩), .worker "w" (.nextFor "s")]

/-- The session reports its start and its end. -/
def oneResult : List SystemAct :=
  oneHandedOut.map .pipeline ++
  [.event "w" 0 ⟨some (.executionStarted ⟨"j-a", "x", 1, none⟩)⟩ ⟨10, 1000, "r1"⟩,
   .event "w" 1 ⟨some (.executionCompleted
     ⟨"j-a", "x", 2, some { JobResult.empty with payload := [3] }, none⟩)⟩ ⟨20, 2000, "r2"⟩]

/-- The report of the start, and that of the end. -/
def startReport : ReportExecutionRequest :=
  Worker.reportFor Core.symbolicConfig.states ⟨10, 1000, "r1"⟩ "j-a" "x" 1 .running none none

def endReport : ReportExecutionRequest :=
  Worker.reportFor Core.symbolicConfig.states ⟨20, 2000, "r2"⟩ "j-a" "x" 2 .succeeded
    (some { JobResult.empty with payload := [3] }) none

/-- Call `k` of Core about an outcome. -/
def outcomeByCore (k : Nat) : List SystemAct :=
  [.arrive k "w" endReport, .pipeline (.core (.resolved k (.ok ()))),
   .pipeline (.core (.outcomeStored k .done)), .pipeline (.core (.stateUpdated k .done 5)),
   .pipeline (.core (.jobUpdated k 6))]

/-- The report of the start arrives after that of the end, which arrives once more. -/
theorem results_authentic_late : ∃ tr s q t v view,
    (system Core.symbolicConfig (.new 30 (by decide))).Run tr s ∧
    (system Core.symbolicConfig (.new 30 (by decide))).Steps s q t ∧
    tr.map Prod.fst = oneResult ++ outcomeByCore 0 ∧
    q.map Prod.fst = [.arrive 1 "w" startReport] ++ handledByCore 1 ++ outcomeByCore 2 ∧
    v = { JobResult.empty with payload := [3], executionId := "x" } ∧
    s.pipeline.core.getJob "j" = .ok view ∧ view.result = some v ∧
    (∃ w asg result, Provenance tr s "j" v w asg result) ∧
    ∃ view', t.pipeline.core.getJob "j" = .ok view' ∧ view'.result = some v := by
  rcases Machine.runs_of_exec (system Core.symbolicConfig (.new 30 (by decide)))
    (oneResult ++ outcomeByCore 0)
    ([.arrive 1 "w" startReport] ++ handledByCore 1 ++ outcomeByCore 2)
    (P := fun _ s => (s.pipeline.core.getJob "j").toOption.bind Core.GetJobResponse.result =
      some { JobResult.empty with payload := [3], executionId := "x" })
    (Q := fun _ _ => True)
    (by decide +kernel) with ⟨tr, s, q, t, hrun, hq, hacts, hacts', hget, -⟩
  have hno : ∀ x ∈ tr, NoOutcome Core.symbolicConfig x.1 := by
    have hall : ∀ a ∈ oneResult ++ outcomeByCore 0, NoOutcome Core.symbolicConfig a := by
      decide +kernel
    intro x hx
    exact hall x.1 (hacts ▸ List.mem_map_of_mem hx)
  have hno' : ∀ x ∈ q, NoOutcome Core.symbolicConfig x.1 := by
    have hall : ∀ a ∈ [.arrive 1 "w" startReport] ++ handledByCore 1 ++ outcomeByCore 2,
        NoOutcome Core.symbolicConfig a := by
      decide +kernel
    intro x hx
    exact hall x.1 (hacts' ▸ List.mem_map_of_mem hx)
  rcases hview : s.pipeline.core.getJob "j" with status | view
  · rw [hview] at hget
    cases hget
  · rw [hview] at hget
    have hlaw := results_authentic Core.symbolicConfig_taskDestination hrun hno hview hget
    exact ⟨tr, s, q, t, _, view, hrun, hq, hacts, hacts', rfl, hview, hget, hlaw.1,
      hlaw.2 q t hq hno'⟩

end Custody

end ThreadWeave
