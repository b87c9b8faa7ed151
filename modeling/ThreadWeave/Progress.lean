import Mathlib.Data.Set.Finite.Lemmas
import Mathlib.Data.String.Basic
import Mathlib.Order.Interval.Set.Infinite
import ThreadWeave.Core.Client
import ThreadWeave.Cluster
import ThreadWeave.Loops
import ThreadWeave.Results

/-!
# A queued task can still succeed

Whatever has happened so far, nothing that has happened stands in the way of a
task on the task queue: calls in progress may hang for ever, workers may be
stuck, sessions may have gone. If from now on calls that are made succeed, a
worker that joins can take the task, and the result its runtime gives is the
one that `GetJob` shows.

* `Reaches` — steps in which no external call fails.
* `joins`, `dispatches_head`, `hands_out`, `reports_through` — the stretches of
  the way, each from any state that meets what it needs.

`queued_task_can_succeed` puts them together, by induction over the tasks that
stand before it in the queue. It is a check on the machine: no guard of a step
closes off a queued task, so what is proved of all its runs does not hold for want
of runs. `Scheduler::run` alone could not do as much, since it waits for a call that
hangs; the way on begins another call of `schedule_one`.
-/

namespace ThreadWeave

open Runs (HashMap Machine)
open ThreadWeave.Core (Config CoreState Takes workerDestination)

/-! ## Steps without failures -/

/-- An external call of the control plane fails. -/
def Core.Act.fails : Core.Act → Bool
  | .published _ (.error _) | .resultStored _ (.failed _) | .resultStored _ (.lost _)
  | .resolved _ (.error _) | .outcomeStored _ (.failed _) | .outcomeStored _ (.lost _)
  | .stateUpdated _ (.failed _) _ | .stateUpdated _ (.lost _) _ | .directoryRead _ (.error _)
  | .consumeFailed _ _ | .created _ (.error _) | .dispatched _ _ _ (.error _) => true
  | _ => false

def SystemAct.fails : SystemAct → Bool
  | .pipeline (.core a) => a.fails
  | .pipeline (.receiveFailed _ _) => true
  | _ => false

section Reaches

variable {Bytes : Type} {cfg : Config Bytes} {registry : MemoryWorkerRegistry}
  {s t u : SystemState Bytes}

/-- No external call fails on the way from `s` to `t`. -/
def Reaches (cfg : Config Bytes) (registry : MemoryWorkerRegistry) (s t : SystemState Bytes) :
    Prop :=
  ∃ q, (system cfg registry).Steps s q t ∧ ∀ x ∈ q, x.1.fails = false

theorem Reaches.trans (h : Reaches cfg registry s t) (h' : Reaches cfg registry t u) :
    Reaches cfg registry s u := by
  rcases h with ⟨q, hq, hfails⟩
  rcases h' with ⟨q', hq', hfails'⟩
  refine ⟨q ++ q', hq.trans hq', ?_⟩
  intro x hx
  rcases List.mem_append.mp hx with hx | hx
  · exact hfails x hx
  · exact hfails' x hx

theorem Reaches.step {a : SystemAct} {o : SystemOut Bytes} (h : s.step cfg a = some (t, o))
    (ha : a.fails = false) : Reaches cfg registry s t := by
  refine ⟨[(a, o)], .snoc .refl h, ?_⟩
  intro x hx
  rw [List.mem_singleton] at hx
  rw [hx]
  exact ha

/-- A state of a run, of whatever trace. -/
def Reachable (cfg : Config Bytes) (registry : MemoryWorkerRegistry) (s : SystemState Bytes) :
    Prop :=
  ∃ tr, (system cfg registry).Run tr s

theorem Reachable.reaches (h : Reachable cfg registry s) (hst : Reaches cfg registry s t) :
    Reachable cfg registry t := by
  rcases h with ⟨tr, hrun⟩
  rcases hst with ⟨q, hq, -⟩
  exact ⟨tr ++ q, Machine.Steps.trans hrun hq⟩

/-! ## Steps of the control plane -/

/-- What steps of the control plane leave alone. -/
structure Beside (s t : SystemState Bytes) : Prop where
  workers : t.pipeline.workers = s.pipeline.workers
  named : t.named = s.named
  sent : t.sent = s.sent
  forwards : t.forwards = s.forwards

theorem Beside.trans (h : Beside s t) (h' : Beside t u) : Beside s u :=
  ⟨h'.workers.trans h.workers, h'.named.trans h.named, h'.sent.trans h.sent,
    h'.forwards.trans h.forwards⟩

/-- A step that the system can take where the control plane can. -/
structure Clear (named : Finset String) (a : Core.Act) : Prop where
  entry : (PipelineAct.core a).isReportEntry = false
  fails : a.fails = false
  fresh : ∀ id ∈ (PipelineAct.core a).draws, id ∉ named

theorem reaches_core {a : Core.Act} {o : Core.Out Bytes} {c : CoreState Bytes}
    (h : s.pipeline.core.step cfg a = some (c, o)) (ha : Clear s.named a) :
    ∃ t, Reaches cfg registry s t ∧ t.pipeline.core = c ∧ Beside s t := by
  have hstep : s.step cfg (.pipeline (.core a)) = some ({ s with
      pipeline := { s.pipeline with core := c }
      accepted := s.accepted ++ (s.pipeline.core.acceptedBy (.core a) (.core o)).toList },
      .pipeline (.core o)) := by
    simp only [SystemState.step, ha.entry, true_and, if_pos ha.fresh, SystemState.advance,
      PipelineState.step, h, Option.map_some]
  exact ⟨_, .step hstep ha.fails, rfl, rfl, rfl, rfl, rfl⟩

theorem reaches_core_steps {q : List (Core.Act × Core.Out Bytes)} {c : CoreState Bytes}
    (h : (Core.core cfg registry).Steps s.pipeline.core q c)
    (hq : ∀ x ∈ q, Clear s.named x.1) :
    ∃ t, Reaches cfg registry s t ∧ t.pipeline.core = c ∧ Beside s t := by
  induction h with
  | refl => exact ⟨s, ⟨[], .refl, by simp⟩, rfl, rfl, rfl, rfl, rfl⟩
  | @snoc q c c' a o _ hstep ih =>
      rcases ih fun x hx => hq x (List.mem_append_left _ hx) with ⟨t, hst, rfl, hbeside⟩
      have ha : Clear t.named a := by
        rw [hbeside.named]
        exact hq (a, o) (List.mem_append_right _ (List.mem_singleton_self _))
      rcases reaches_core hstep ha with ⟨u, htu, hc, hbeside'⟩
      exact ⟨u, hst.trans htu, hc, hbeside.trans hbeside'⟩

end Reaches

/-! ## Fresh names -/

/-- Some id of any length is not blank. -/
theorem isBlank_replicate (n : Nat) :
    Rust.isBlank (String.ofList (List.replicate (n + 1) 'a')) = false := by
  have hdrop : ∀ m, (List.replicate (m + 1) 'a').dropWhile Rust.isWhitespace =
      List.replicate (m + 1) 'a' := by
    intro m
    rw [List.replicate_succ, List.dropWhile_cons_of_neg (by decide)]
  simp only [Rust.isBlank, Rust.trimChars, String.toList_ofList, hdrop, List.reverse_replicate]
  rfl

/-- There are always ids that have not been drawn. -/
theorem exists_fresh (used : Finset String) (n : Nat) :
    ∃ ids : List String, ids.length = n ∧ ids.Nodup ∧
      ∀ id ∈ ids, id ∉ used ∧ Rust.isBlank id = false := by
  have hinj : Function.Injective fun n : Nat => String.ofList (List.replicate (n + 1) 'a') := by
    intro n m h
    have hlen := congrArg (fun s => s.toList.length) h
    simpa using hlen
  have hinf := (Set.infinite_range_of_injective hinj).sdiff used.finite_toSet
  rcases hinf.exists_subset_card_eq n with ⟨ids, hsub, hcard⟩
  refine ⟨ids.toList, by rw [Finset.length_toList, hcard], ids.nodup_toList, ?_⟩
  intro id hid
  rcases hsub (Finset.mem_coe.mpr (Finset.mem_toList.mp hid)) with ⟨⟨m, rfl⟩, hused⟩
  exact ⟨hused, isBlank_replicate m⟩

/-! ## The way of a task -/

section Way

variable {Bytes : Type} {cfg : Config Bytes} {registry : MemoryWorkerRegistry}
  {s : SystemState Bytes}

theorem Reachable.inv (hdest : ∀ w, cfg.taskDestination ≠ workerDestination w)
    (h : Reachable cfg registry s) : PipelineInv cfg s.pipeline := by
  rcases h with ⟨tr, hrun⟩
  rcases system_pipeline hrun with ⟨ptr, hptr, -⟩
  exact pipeline_inv hdest hptr

/-- Once the memberships there are have run out, a worker that registers is the
first one. -/
theorem register_first (r : MemoryWorkerRegistry) (clock : Instant) (w : String)
    (wall : Timestamp) : ∃ d rest,
      ((r.register (Core.plainWorker w) (clock + d) wall).1.availableWorkers (clock + d)).2 =
        w :: rest := by
  let expiry : String → Nat := fun v => ((r.workers.lookup v).map MemoryEntry.expiresAt).getD 0
  refine ⟨r.workers.keys.sup expiry, ?_⟩
  have hexpired : ∀ v entry, r.workers.lookup v = some entry →
      entry.expiresAt ≤ r.workers.keys.sup expiry := by
    intro v entry hv
    have hle : expiry v ≤ r.workers.keys.sup expiry :=
      Finset.le_sup (Finmap.mem_keys.mpr (Finmap.mem_of_lookup_eq_some hv))
    simpa [expiry, hv] using hle
  generalize r.workers.keys.sup expiry = d at hexpired
  rcases r.register_eq (Core.plainWorker w) (clock + d) wall with ⟨entry, hexp, heq⟩
  have honly : ∀ v, (r.register (Core.plainWorker w) (clock + d) wall).1.IsMember v (clock + d) →
      v = w := by
    rintro v ⟨entry', hv, hlt⟩
    rw [heq] at hv
    rcases HashMap.lookup_insert_some hv with ⟨hvw, -⟩ | ⟨-, hold⟩
    · exact hvw
    · have hle : entry'.expiresAt ≤ clock + d := (hexpired v entry' hold).trans (Nat.le_add_left d _)
      exact absurd hlt hle.not_gt
  have hself : (r.register (Core.plainWorker w) (clock + d) wall).1.IsMember w (clock + d) := by
    refine ⟨entry, ?_, ?_⟩
    · rw [heq]
      exact Finmap.lookup_insert _
    · rw [hexp]
      exact Nat.lt_add_of_pos_right r.membershipTtl_pos
  cases hl : ((r.register (Core.plainWorker w) (clock + d) wall).1.availableWorkers
      (clock + d)).2 with
  | nil =>
      have hmem := MemoryWorkerRegistry.mem_availableWorkers.mpr hself
      rw [hl] at hmem
      exact absurd hmem List.not_mem_nil
  | cons v rest =>
      have hmem : v ∈ ((r.register (Core.plainWorker w) (clock + d) wall).1.availableWorkers
          (clock + d)).2 := by
        rw [hl]
        exact List.mem_cons_self
      rw [honly v (MemoryWorkerRegistry.mem_availableWorkers.mp hmem)]
      exact ⟨rest, rfl⟩

/-- No queue waits for a worker that has no execution. -/
theorem queue_nil (hi : PipelineInv cfg s.pipeline) {w : String}
    (hw : w ∉ s.pipeline.core.executions.keys.image fun id =>
      ((s.pipeline.core.executions.lookup id).map Core.ExecutionRecord.workerId).getD "") :
    s.pipeline.core.queues (workerDestination w) = [] := by
  rw [List.eq_nil_iff_forall_not_mem]
  intro env hmem
  rcases hi.dispatch.queued w env hmem with ⟨asg, -, e, he, hid⟩
  apply hw
  rw [Finset.mem_image]
  refine ⟨asg.executionId, Finmap.mem_keys.mpr (Finmap.mem_of_lookup_eq_some he), ?_⟩
  rw [he]
  exact congrArg (fun i => i.2.2.2) hid

/-- A worker joins, and is the one that tasks go to. -/
theorem joins (hdest : ∀ w, cfg.taskDestination ≠ workerDestination w)
    (h : Reachable cfg registry s) : ∃ w t, Reaches cfg registry s t ∧
      (∃ rest, (t.pipeline.core.registry.availableWorkers t.pipeline.core.clock).2 = w :: rest) ∧
      t.pipeline.workers.lookup w = some { state := Worker.worker.init, loop := .consuming } ∧
      t.pipeline.core.queues = s.pipeline.core.queues ∧
      t.pipeline.core.queues (workerDestination w) = [] := by
  let records := s.pipeline.core.executions.keys.image fun id =>
    ((s.pipeline.core.executions.lookup id).map Core.ExecutionRecord.workerId).getD ""
  obtain ⟨w, hw⟩ := Infinite.exists_notMem_finset (s.pipeline.workers.keys ∪ records)
  rw [Finset.mem_union, not_or] at hw
  rcases register_first s.pipeline.core.registry s.pipeline.core.clock w 0 with ⟨d, rest, hfirst⟩
  have hsteps : (Core.core cfg registry).Steps s.pipeline.core
      [(.tick d, .silent), (.register (Core.plainWorker w) 0, _)] _ :=
    .snoc (.snoc .refl rfl) rfl
  rcases reaches_core_steps hsteps (by
    intro x hx
    simp only [List.mem_cons, List.not_mem_nil, or_false] at hx
    rcases hx with rfl | rfl <;> exact ⟨rfl, rfl, by simp [PipelineAct.draws]⟩) with
    ⟨t, hst, hcore, hbeside⟩
  have hnew : w ∉ t.pipeline.workers := by
    rw [hbeside.workers]
    exact fun hmem => hw.1 (Finmap.mem_keys.mpr hmem)
  have hstart : t.step cfg (.pipeline (.start w)) = some ({ t with
      pipeline := t.pipeline.setNode w { state := Worker.worker.init, loop := .consuming } },
      .pipeline .silent) := by
    simp [SystemState.step, PipelineAct.isReportEntry, PipelineAct.draws, SystemState.advance,
      PipelineState.step, hnew, CoreState.acceptedBy]
  have hqueues : t.pipeline.core.queues = s.pipeline.core.queues := by rw [hcore]
  refine ⟨w, _, hst.trans (.step hstart rfl), ⟨rest, ?_⟩, Finmap.lookup_insert _, hqueues, ?_⟩
  · change (t.pipeline.core.registry.availableWorkers t.pipeline.core.clock).2 = w :: rest
    rw [hcore]
    exact hfirst
  · exact (congrFun hqueues _).trans (queue_nil (h.inv hdest) hw.2)

/-- Executions are kept under ids that were drawn. -/
theorem mem_drawn_of_execution {c : CoreState Bytes} (hl : Core.Labelled c) {id : String}
    (hid : id ∈ c.executions) : id ∈ c.drawn := by
  rcases Finmap.mem_iff.mp hid with ⟨e, he⟩
  have hdrawn := hl.executions.drawn _ (Core.Label.mem_labels_of_record he)
  rwa [show Core.executionLabel.ofRecord e = id from hl.keyed id e he] at hdrawn

/-- `c` with call `k` of `schedule_one` at `pc`. -/
def Core.CoreState.withSchedule (c : CoreState Bytes) (k : Nat) (pc : Core.SchedulePc Bytes) :
    CoreState Bytes :=
  { c with schedules := c.schedules.insert k pc }

section Schedule

variable {c : CoreState Bytes} {k : Nat} {w : String} {env : BrokerEnvelope Bytes}
  {asg : AssignExecutionRequest}

theorem withSchedule_read {rest : List String}
    (hread : (c.registry.availableWorkers c.clock).2 = w :: rest) :
    (Core.core cfg registry).step (c.withSchedule k .reading) (.directoryRead k (.ok ())) =
      some (({ c with registry := (c.registry.availableWorkers c.clock).1 }).withSchedule k
        (.consuming w), .silent) := by
  simp [Core.core, CoreState.step, CoreState.directoryRead, CoreState.withSchedule, hread]

theorem withSchedule_consumed {tasks : List (BrokerEnvelope Bytes)} {request : SubmitTaskRequest}
    {j f a x : String} (hqueue : c.queues cfg.taskDestination = env :: tasks)
    (hdecode : cfg.submitTask.decode env.payload = .ok request)
    (hj : env.correlationId = some j) (hfresh : c.Fresh [f, a, x]) :
    (Core.core cfg registry).step (c.withSchedule k (.consuming w)) (.consumed k f a x 0) =
      some (((c.draw [f, a, x]).pop cfg.taskDestination tasks).withSchedule k
        (.creating w (Core.assignmentFor request j a x) env 0), .silent) := by
  have hfresh' : (c.withSchedule k (.consuming w)).Fresh [f, a, x] := hfresh
  simp only [CoreState.withSchedule] at hfresh'
  simp [Core.core, CoreState.step, CoreState.consumed, CoreState.withSchedule, hqueue, hdecode, hj,
    hfresh', CoreState.draw, CoreState.pop]

theorem withSchedule_created (hnew : asg.executionId ∉ c.executions) :
    (Core.core cfg registry).step (c.withSchedule k (.creating w asg env 0))
        (.created k (.ok ())) =
      some (({ c with
        executions := c.executions.insert asg.executionId (Core.executionFor asg w 0) }).withSchedule
          k (.publishing w asg env), .silent) := by
  simp [Core.core, CoreState.step, CoreState.created, CoreState.withSchedule, Except.bind,
    Core.MemoryExecutionStore.create, Core.executionFor, hnew]

theorem withSchedule_dispatched {mid : String} (hk : k ∉ c.schedules) (hfresh : c.Fresh [mid]) :
    (Core.core cfg registry).step (c.withSchedule k (.publishing w asg env))
        (.dispatched k mid 0 (.ok ())) =
      some ((c.draw [mid]).push (Core.assignEnvelope cfg w asg env mid 0),
        .dispatched (Core.assignEnvelope cfg w asg env mid 0) w asg) := by
  have hfresh' : (c.withSchedule k (.publishing w asg env)).Fresh [mid] := hfresh
  simp only [CoreState.withSchedule] at hfresh'
  simp [Core.core, CoreState.step, CoreState.dispatched, CoreState.withSchedule, hfresh',
    HashMap.erase_insert, HashMap.erase_of_notMem hk, CoreState.draw, CoreState.push]

/-- `schedule_one` from start to end, for the first task and the first worker. -/
theorem schedule_steps (hl : Core.Labelled c) (hk : k ∉ c.schedules) {rest : List String}
    (hread : (c.registry.availableWorkers c.clock).2 = w :: rest)
    {tasks : List (BrokerEnvelope Bytes)} (hqueue : c.queues cfg.taskDestination = env :: tasks)
    {request : SubmitTaskRequest} (hdecode : cfg.submitTask.decode env.payload = .ok request)
    {j : String} (hj : env.correlationId = some j) {f a x mid : String}
    (hfresh : c.Fresh [f, a, x, mid]) :
    ∃ c' o, (Core.core cfg registry).Steps c
        [(.scheduleOne k, .silent), (.directoryRead k (.ok ()), .silent),
          (.consumed k f a x 0, .silent), (.created k (.ok ()), .silent),
          (.dispatched k mid 0 (.ok ()), o)] c' ∧
      c'.queues = ((c.pop cfg.taskDestination tasks).push
        (Core.assignEnvelope cfg w (Core.assignmentFor request j a x) env mid 0)).queues := by
  have hnd := hfresh.1
  simp only [List.nodup_cons, List.mem_cons, List.not_mem_nil, or_false, not_or] at hnd
  have hthree : c.Fresh [f, a, x] :=
    ⟨by simp [hnd], fun id hid => hfresh.2 id (by simp at hid ⊢; tauto)⟩
  have hx : x ∉ c.executions := by
    intro hmem
    exact (hfresh.2 x (by simp)).1 (mem_drawn_of_execution hl hmem)
  have hlast : (c.draw [f, a, x]).Fresh [mid] := by
    refine ⟨List.nodup_singleton mid, ?_⟩
    have hmid := hfresh.2 mid (by simp)
    simp only [List.mem_singleton, forall_eq, CoreState.draw]
    refine ⟨?_, hmid.2⟩
    simp only [Finset.mem_union, List.mem_toFinset, List.mem_cons, List.not_mem_nil, or_false]
    rintro (hold | rfl | rfl | rfl)
    · exact hmid.1 hold
    · exact hnd.1.2.2 rfl
    · exact hnd.2.1.2 rfl
    · exact hnd.2.2.1 rfl
  have h₁ : (Core.core cfg registry).Steps c [(.scheduleOne k, .silent)]
      (c.withSchedule k .reading) :=
    .snoc .refl (by simp [Core.core, CoreState.step, CoreState.scheduleOne, hk,
      CoreState.withSchedule])
  have h₂ := h₁.snoc (withSchedule_read hread)
  have h₃ := h₂.snoc (withSchedule_consumed (by exact hqueue) hdecode hj (by exact hthree))
  have h₄ := h₃.snoc (withSchedule_created (by exact hx))
  exact ⟨_, _, h₄.snoc (withSchedule_dispatched (by exact hk) (by exact hlast)), rfl⟩

end Schedule

/-- The first task goes to the queue of the first worker. -/
theorem dispatches_head (hdest : ∀ w, cfg.taskDestination ≠ workerDestination w)
    (h : Reachable cfg registry s) {w : String} {rest : List String}
    (hread : (s.pipeline.core.registry.availableWorkers s.pipeline.core.clock).2 = w :: rest)
    (hempty : s.pipeline.core.queues (workerDestination w) = [])
    {env : BrokerEnvelope Bytes} {tasks : List (BrokerEnvelope Bytes)}
    (hqueue : s.pipeline.core.queues cfg.taskDestination = env :: tasks) {j : String}
    (hj : env.correlationId = some j) :
    ∃ t env' asg, Reaches cfg registry s t ∧ Beside s t ∧
      t.pipeline.core.queues cfg.taskDestination = tasks ∧
      t.pipeline.core.queues (workerDestination w) = [env'] ∧
      cfg.assignExecution.decode env'.payload = .ok asg ∧ asg.jobId = j := by
  rcases h with ⟨tr, hrun⟩
  rcases system_pipeline hrun with ⟨ptr, hptr, -⟩
  have hl := (pipeline_ordered hdest hptr).labelled
  rcases (pipeline_delivery hdest hptr).sent.content.queued env (by simp [hqueue]) with
    ⟨-, request, -, hdecode, -⟩
  obtain ⟨k, hk⟩ := Infinite.exists_notMem_finset s.pipeline.core.schedules.keys
  rcases exists_fresh (s.pipeline.core.drawn ∪ s.named) 4 with ⟨ids, hlen, hnd, hfresh⟩
  match ids, hlen with
  | [f, a, x, mid], _ =>
      have hunused : ∀ id ∈ [f, a, x, mid], id ∉ s.pipeline.core.drawn ∧ id ∉ s.named := by
        intro id hid
        have hnot := (hfresh id hid).1
        rwa [Finset.mem_union, not_or] at hnot
      rcases schedule_steps hl (fun hmem => hk (Finmap.mem_keys.mpr hmem)) hread hqueue hdecode hj
        ⟨hnd, fun id hid => ⟨(hunused id hid).1, (hfresh id hid).2⟩⟩ with ⟨c', o, hsteps, hqueues⟩
      rcases reaches_core_steps hsteps (by
        intro y hy
        simp only [List.mem_cons, List.not_mem_nil, or_false] at hy
        rcases hy with rfl | rfl | rfl | rfl | rfl
        · exact ⟨rfl, rfl, by simp [PipelineAct.draws]⟩
        · exact ⟨rfl, rfl, by simp [PipelineAct.draws]⟩
        · refine ⟨rfl, rfl, fun id hid => (hunused id ?_).2⟩
          simp only [PipelineAct.draws, List.mem_cons] at hid ⊢
          tauto
        · exact ⟨rfl, rfl, by simp [PipelineAct.draws]⟩
        · refine ⟨rfl, rfl, fun id hid => (hunused id ?_).2⟩
          simp only [PipelineAct.draws, List.mem_cons] at hid ⊢
          tauto) with ⟨t, hst, hcore, hbeside⟩
      refine ⟨t, Core.assignEnvelope cfg w (Core.assignmentFor request j a x) env mid 0,
        Core.assignmentFor request j a x, hst, hbeside, ?_, ?_,
        cfg.assignExecution.decode_encodeToVec _, rfl⟩
      · rw [hcore, hqueues, Core.push_queues]
        exact (if_neg (hdest w)).trans (Function.update_self _ _ _)
      · have hpop : (s.pipeline.core.pop cfg.taskDestination tasks).queues (workerDestination w) =
            [] := by
          rw [← hempty]
          exact Function.update_of_ne (hdest w).symm _ _
        rw [hcore, hqueues, Core.push_queues, hpop]
        exact if_pos rfl

/-- A step of a worker that no report enters with. -/
theorem reaches_node (registry : MemoryWorkerRegistry) {a : PipelineAct} {w : String}
    {o : PipelineOut Bytes} {p : PipelineState Bytes} {node : WorkerNode}
    (hactor : a.actor = some w) (hentry : a.isReportEntry = false)
    (hfails : (SystemAct.pipeline a).fails = false)
    (h : s.pipeline.step cfg a = some (p.setNode w node, o)) :
    ∃ t, Reaches cfg registry s t ∧ t.pipeline.workers.lookup w = some node := by
  have hdraws : ∀ id ∈ a.draws, id ∉ s.named := by
    cases a with
    | core c => cases hactor
    | _ => simp [PipelineAct.draws]
  have hstep : s.step cfg (.pipeline a) = some ({ s with
      pipeline := p.setNode w node
      accepted := s.accepted ++ (s.pipeline.core.acceptedBy a o).toList }, .pipeline o) := by
    simp only [SystemState.step, hentry, true_and, if_pos hdraws, SystemState.advance, h,
      Option.map_some]
  exact ⟨_, .step hstep hfails, Finmap.lookup_insert _⟩

/-- A worker with nothing in hand takes the assignment on its queue and hands it
to a session. -/
theorem hands_out (hdest : ∀ w, cfg.taskDestination ≠ workerDestination w)
    (h : Reachable cfg registry s) {w : String}
    (hnode : s.pipeline.workers.lookup w =
      some { state := Worker.worker.init, loop := .consuming })
    {env : BrokerEnvelope Bytes} (hqueue : s.pipeline.core.queues (workerDestination w) = [env])
    {asg : AssignExecutionRequest} (hdecode : cfg.assignExecution.decode env.payload = .ok asg) :
    ∃ t node sid r, Reaches cfg registry s t ∧ t.pipeline.workers.lookup w = some node ∧
      (node.state.tasks.lookup sid).any Worker.WorkerState.inBranch = true ∧
      node.state.pending.assignments.lookup asg.assignmentId = some r ∧ r.assignment = asg ∧
      r.state = .assigned ∧ r.lastSequenceNumber = none := by
  have hreceive : s.pipeline.step cfg (.receive w) =
      some (({ s.pipeline with core := s.pipeline.core.pop (workerDestination w) [] }).setNode w
        { state := Worker.worker.init, loop := .queueing asg }, .received asg) := by
    simp [PipelineState.step, PipelineState.receive, hnode, hqueue, hdecode]
  rcases reaches_node registry rfl rfl rfl hreceive with ⟨t₁, hst₁, hnode₁⟩
  have hwell : Rust.isBlank asg.assignmentId = false ∧ Rust.isBlank asg.executionId = false := by
    rcases h.reaches hst₁ with ⟨tr, hrun⟩
    rcases system_pipeline hrun with ⟨ptr, hptr, -⟩
    have haccepts := enqueue_accepts (pipeline_inv hdest hptr) (pipeline_ordered hdest hptr) hnode₁
      rfl
    exact ⟨haccepts.1, haccepts.2.1⟩
  let queued : Worker.PendingState :=
    { queue := [asg.assignmentId]
      assignments := Finmap.insert asg.assignmentId (Worker.PendingState.newRecord asg) ∅
      sessions := ∅ }
  have henqueue : t₁.pipeline.step cfg (.enqueue w) = some (t₁.pipeline.setNode w
      { state := { pending := queued, tasks := ∅ }, loop := .consuming }, .executed (.ok asg)) := by
    simp [PipelineState.step, PipelineState.enqueue, hnode₁, Worker.PendingState.enqueue, hwell,
      Worker.worker, Worker.PendingState.empty, Finmap.notMem_empty, queued]
  rcases reaches_node registry rfl rfl rfl henqueue with ⟨t₂, hst₂, hnode₂⟩
  have hconnect : t₂.pipeline.step cfg (.worker w (.connect "s" ⟨0⟩)) =
      some (t₂.pipeline.setNode w
        { state := { pending := queued.registerSession "s" ⟨0⟩
                     tasks := Finmap.insert "s" .locking ∅ }
          loop := .consuming }, .worker .silent) := by
    simp [PipelineState.step, hnode₂, Worker.Act.isEnqueue, Worker.WorkerState.step,
      Finmap.notMem_empty]
  rcases reaches_node registry rfl rfl rfl hconnect with ⟨t₃, hst₃, hnode₃⟩
  let record : Worker.AssignmentRecord :=
    { Worker.PendingState.newRecord asg with state := .assigned, sessionId := some "s" }
  have hnext : t₃.pipeline.step cfg (.worker w (.nextFor "s")) = some (t₃.pipeline.setNode w
      { state := { pending := { queued.registerSession "s" ⟨0⟩ with
                     queue := []
                     assignments := Finmap.insert asg.assignmentId record ∅ }
                   tasks := Finmap.insert "s" (.sending asg) ∅ }
        loop := .consuming }, .worker (.handed asg)) := by
    simp [PipelineState.step, hnode₃, Worker.Act.isEnqueue, Worker.WorkerState.step,
      Worker.PendingState.nextFor, Worker.PendingState.registerSession, queued, record,
      Worker.PendingState.newRecord]
  rcases reaches_node registry rfl rfl rfl hnext with ⟨t₄, hst₄, hnode₄⟩
  exact ⟨t₄, _, "s", record, hst₁.trans (hst₂.trans (hst₃.trans hst₄)), hnode₄,
    by simp [Worker.WorkerState.inBranch], Finmap.lookup_insert _, rfl, rfl, rfl⟩

/-! ## Reports -/

theorem clear_of_continues {named : Finset String} {k : Nat} {a : Core.Act}
    (ha : a.continues k = true) (hfails : a.fails = false) : Clear named a := by
  cases a <;> first | cases ha | exact ⟨rfl, hfails, by simp [PipelineAct.draws]⟩

/-- A report that has come in, up to its end. -/
theorem report_steps (cfg : Config Bytes) (registry : MemoryWorkerRegistry)
    {c : CoreState Bytes} {k : Nat} {report : ReportExecutionRequest} {state : ExecutionState} {e : Core.ExecutionRecord} {outcome : Option JobResult}
    {record : Core.JobRecord} (hfree : k ∉ c.reports)
    (hexec : c.executions.lookup report.executionId = some e)
    (hout : Core.reportOutcome report state = .ok outcome)
    (hjob : c.jobs.lookup e.jobId = some record) :
    ∃ q, (Core.core cfg registry).Steps (c.withCall k (.resolving report state)) q
        { c.persist report state e outcome 0 with
          jobs := c.jobs.insert e.jobId (record.update outcome 0) } ∧
      ∀ x ∈ q, x.1.continues k = true ∧ x.1.fails = false := by
  have hstored : ∃ q, (Core.core cfg registry).Steps
      (c.withCall k (Core.resolvedPc report state e.jobId outcome)) q
      (({ c with backend := Core.storeOutcome c.backend e.jobId outcome }).withCall k
        (.updating report state e.jobId outcome)) ∧
      ∀ x ∈ q, x.1.continues k = true ∧ x.1.fails = false := by
    cases outcome with
    | none => exact ⟨[], .refl, by simp⟩
    | some result =>
        refine ⟨[(.outcomeStored k .done, .outcome e.jobId result none)], .snoc .refl ?_, ?_⟩
        · simp [Core.core, CoreState.step, CoreState.outcomeStored, CoreState.withCall,
            Core.resolvedPc, Core.storeOutcome]
        · simp [Core.Act.continues, Core.Act.fails]
  rcases hstored with ⟨q, hq, hcont⟩
  have hresolved : (Core.core cfg registry).Steps (c.withCall k (.resolving report state))
      [(.resolved k (.ok ()), .silent)]
      (c.withCall k (Core.resolvedPc report state e.jobId outcome)) :=
    .snoc .refl (Core.withCall_resolved hexec hout)
  have hupdated := (hresolved.trans hq).snoc (Core.withCall_updated 0 hexec)
  have hjobs : CoreState.updateJob c.jobs e.jobId outcome 0 =
      .ok (c.jobs.insert e.jobId (record.update outcome 0)) := by
    rcases Core.updateJob_cases c.jobs e.jobId outcome 0 with ⟨hnone, -⟩ | ⟨record', hrec, hup⟩
    · rw [hjob] at hnone
      cases hnone
    · rw [hjob, Option.some.injEq] at hrec
      rw [hup, hrec]
  have hfinished := Core.withCall_finished cfg registry
    (s := c.persist report state e outcome 0) hfree report e.jobId outcome 0
  rw [Core.persist_jobs, hjobs] at hfinished
  refine ⟨_, hupdated.snoc hfinished, ?_⟩
  intro x hx
  simp only [List.mem_append, List.mem_singleton] at hx
  rcases hx with ((rfl | hx) | rfl) | rfl
  · exact ⟨Core.continues_resolved k _, rfl⟩
  · exact hcont x hx
  · exact ⟨Core.continues_stateUpdated k .done 0, rfl⟩
  · exact ⟨Core.continues_jobUpdated k 0, rfl⟩

/-- A report that a worker has sent arrives and is accepted. -/
theorem reports_through (registry : MemoryWorkerRegistry) {w : String}
    {report : ReportExecutionRequest} {state : ExecutionState} {e : Core.ExecutionRecord}
    {outcome : Option JobResult} {record : Core.JobRecord} (hsent : (w, report) ∈ s.sent)
    (hstate : cfg.states.tryFrom report.state = some state)
    (hexec : s.pipeline.core.executions.lookup report.executionId = some e)
    (hout : Core.reportOutcome report state = .ok outcome)
    (hjob : s.pipeline.core.jobs.lookup e.jobId = some record) :
    ∃ t, Reaches cfg registry s t ∧ Beside s t ∧
      t.pipeline.core.jobs.lookup e.jobId = some (record.update outcome 0) ∧
      ∃ e', t.pipeline.core.executions.lookup report.executionId = some e' ∧
        e'.jobId = e.jobId := by
  obtain ⟨k, hk⟩ := Infinite.exists_notMem_finset s.pipeline.core.reports.keys
  have hfree : k ∉ s.pipeline.core.reports := fun hmem => hk (Finmap.mem_keys.mpr hmem)
  have hopen : s.pipeline.core.step cfg (.report k report) =
      some (s.pipeline.core.withCall k (.resolving report state), .silent) := by
    simp [CoreState.step, CoreState.report, hfree, hstate, CoreState.withCall]
  have harrive : s.step cfg (.arrive k w report) = some ({ s with
      pipeline := { s.pipeline with
        core := s.pipeline.core.withCall k (.resolving report state) } },
      .pipeline (.core .silent)) := by
    simp [SystemState.step, hsent, SystemState.advance, PipelineState.step, hopen,
      CoreState.acceptedBy]
  rcases report_steps cfg registry hfree hexec hout hjob with ⟨q, hq, hcont⟩
  rcases reaches_core_steps (s := { s with pipeline := { s.pipeline with
    core := s.pipeline.core.withCall k (.resolving report state) } }) hq
    (fun x hx => clear_of_continues (hcont x hx).1 (hcont x hx).2) with ⟨t, hst, hcore, hbeside⟩
  refine ⟨t, (Reaches.step harrive rfl).trans hst,
    ⟨hbeside.workers, hbeside.named, hbeside.sent, hbeside.forwards⟩, ?_, ?_⟩
  · rw [hcore]
    exact Finmap.lookup_insert _
  · rw [hcore]
    exact ⟨_, Finmap.lookup_insert _, rfl⟩

/-- A session that is in a branch goes round and takes an event. -/
theorem takes_event (registry : MemoryWorkerRegistry) {w sid : String} {node : WorkerNode}
    (hnode : s.pipeline.workers.lookup w = some node)
    (hpc : (node.state.tasks.lookup sid).any Worker.WorkerState.inBranch = true) :
    ∃ t node', Reaches cfg registry s t ∧ t.pipeline.workers.lookup w = some node' ∧
      node'.state.pending = node.state.pending ∧
      node'.state.tasks.lookup sid = some .handling := by
  have hresume : s.pipeline.step cfg (.worker w (.resume sid)) = some (s.pipeline.setNode w
      { node with state := { node.state with tasks := node.state.tasks.insert sid .locking } },
      .worker .silent) := by
    simp [PipelineState.step, hnode, Worker.Act.isEnqueue, Worker.WorkerState.step,
      Worker.WorkerState.move, hpc]
  rcases reaches_node registry rfl rfl rfl hresume with ⟨t₁, hst₁, hnode₁⟩
  have hinbound : t₁.pipeline.step cfg (.worker w (.inbound sid)) = some (t₁.pipeline.setNode w
      { node with state := { node.state with tasks := node.state.tasks.insert sid .handling } },
      .worker .silent) := by
    simp [PipelineState.step, hnode₁, Worker.Act.isEnqueue, Worker.WorkerState.step,
      Worker.WorkerState.move, Worker.WorkerState.selecting]
  rcases reaches_node registry rfl rfl rfl hinbound with ⟨t₂, hst₂, hnode₂⟩
  exact ⟨t₂, _, hst₁.trans hst₂, hnode₂, rfl, Finmap.lookup_insert _⟩

/-- An event that a worker makes a report of goes through to Core, and Core's
answer back. -/
theorem event_through (hdest : ∀ w, cfg.taskDestination ≠ workerDestination w)
    (h : Reachable cfg registry s) {w id : String} {node : WorkerNode}
    {r : Worker.AssignmentRecord} (hnode : s.pipeline.workers.lookup w = some node)
    (hr : node.state.pending.assignments.lookup id = some r) {event : RuntimeEvent}
    {m : Worker.Moment} {p : Worker.PendingState} {report : ReportExecutionRequest}
    (hevent : Worker.handleEvent cfg.states node.state.pending event m = (p, .forwarding report))
    (hreport : report.executionId = r.assignment.executionId) {state : ExecutionState}
    (hstate : cfg.states.tryFrom report.state = some state) {outcome : Option JobResult}
    (hout : Core.reportOutcome report state = .ok outcome) :
    ∃ (t : SystemState Bytes) (record : Core.JobRecord), Reaches cfg registry s t ∧
      t.pipeline.workers.lookup w =
        some { node with state := { node.state with pending := p } } ∧
      t.pipeline.core.jobs.lookup r.assignment.jobId = some (record.update outcome 0) := by
  -- the execution is on record, and its job is known
  have hinv := h.inv hdest
  rcases (hinv.nodes w node hnode).pending id r hr with ⟨e, he, hid⟩
  have hjobId : e.jobId = r.assignment.jobId := congrArg (fun i => i.2.1) hid
  rcases Finmap.mem_iff.mp (hinv.dispatch.integrity.executed _ e he).job with ⟨record, hjob⟩
  obtain ⟨n, hn⟩ := Infinite.exists_notMem_finset (s.forwards.keys.image Prod.snd)
  have hfree : (w, n) ∉ s.forwards := by
    intro hmem
    exact hn (Finset.mem_image_of_mem Prod.snd (Finmap.mem_keys.mpr hmem))
  have hstep : s.step cfg (.event w n event m) = some ({ s with
      pipeline := s.pipeline.setPending w node p
      forwards := s.forwards.insert (w, n) report
      sent := s.sent ++ [(w, report)] }, .forwarded report) := by
    simp [SystemState.step, hnode, hfree, hevent, SystemState.handled]
  rcases reports_through (s := { s with
      pipeline := s.pipeline.setPending w node p
      forwards := s.forwards.insert (w, n) report
      sent := s.sent ++ [(w, report)] }) registry (List.mem_append_right _ (List.mem_singleton_self _))
    hstate (hreport ▸ he) hout hjob with ⟨t, hst, hbeside, hupdated, -⟩
  have hreplied : t.step cfg (.coreReplies w n .accepted) = some ({ t with
      forwards := t.forwards.erase (w, n) }, .replied report (.ok ())) := by
    have hlook : t.forwards.lookup (w, n) = some report := by
      rw [hbeside.forwards]
      exact Finmap.lookup_insert _
    simp [SystemState.step, hlook, Worker.forward, Worker.CoreAnswer.response]
  refine ⟨_, record, (Reaches.step hstep rfl).trans (hst.trans (.step hreplied rfl)), ?_, ?_⟩
  · change t.pipeline.workers.lookup w = _
    rw [hbeside.workers]
    exact Finmap.lookup_insert _
  · rw [← hjobId]
    exact hupdated

/-- A session that holds an assignment starts it and completes it. -/
theorem succeeds (hdest : ∀ w, cfg.taskDestination ≠ workerDestination w)
    (h : Reachable cfg registry s) {w sid id : String} {node : WorkerNode}
    {r : Worker.AssignmentRecord} (hnode : s.pipeline.workers.lookup w = some node)
    (hpc : (node.state.tasks.lookup sid).any Worker.WorkerState.inBranch = true)
    (hr : node.state.pending.assignments.lookup id = some r) (hstate : r.state = .assigned)
    (hseq : r.lastSequenceNumber = none) {result : JobResult} (hresult : result.failure = none) :
    ∃ t view, Reaches cfg registry s t ∧
      t.pipeline.core.getJob r.assignment.jobId = .ok view ∧
      view.job.map Job.state = some .succeeded ∧
      view.result = some { result with executionId := r.assignment.executionId } := by
  let x := r.assignment.executionId
  let m : Worker.Moment := { instant := 0, clock := 0, reportId := "" }
  let running : Worker.AssignmentRecord :=
    { r with state := .running, lastSequenceNumber := some 1, startedAt := some 0 }
  let p : Worker.PendingState :=
    { node.state.pending with assignments := node.state.pending.assignments.insert id running }
  have hstarted : Worker.handleEvent cfg.states node.state.pending
      ⟨some (.executionStarted ⟨id, x, 1, none⟩)⟩ m =
      (p, .forwarding (Worker.reportFor cfg.states m id x 1 .running none none)) := by
    simp [Worker.handleEvent, Worker.PendingState.started, Worker.PendingState.transition,
      Worker.PendingState.validate, hr, hstate, hseq, p, running, x, m]
  have hcompleted : ∃ p', Worker.handleEvent cfg.states p
      ⟨some (.executionCompleted ⟨id, x, 2, some result, none⟩)⟩ m =
      (p', .forwarding (Worker.reportFor cfg.states m id x 2 .succeeded (some result) none)) := by
    simp [Worker.handleEvent, Worker.completed, Worker.PendingState.terminal,
      Worker.PendingState.transition, Worker.PendingState.validate, hresult, p, running, x, m]
  rcases hcompleted with ⟨p', hcompleted⟩
  rcases takes_event registry hnode hpc with ⟨t₁, node₁, hst₁, hnode₁, hp₁, hpc₁⟩
  have hr₁ : node₁.state.pending.assignments.lookup id = some r := by
    rw [hp₁]
    exact hr
  rcases event_through hdest (h.reaches hst₁) hnode₁ hr₁ (hp₁ ▸ hstarted) rfl
    (cfg.states.tryFrom_into .running) rfl with ⟨t₂, -, hst₂, hnode₂, -⟩
  have h₂ := (h.reaches hst₁).reaches hst₂
  have hpc₂ : (node₁.state.tasks.lookup sid).any Worker.WorkerState.inBranch = true := by
    rw [hpc₁]
    rfl
  rcases takes_event registry hnode₂ hpc₂ with ⟨t₃, node₃, hst₃, hnode₃, hp₃, -⟩
  have hr₃ : node₃.state.pending.assignments.lookup id = some running := by
    rw [hp₃]
    exact Finmap.lookup_insert _
  have hp₃' : node₃.state.pending = p := hp₃
  rcases event_through hdest (h₂.reaches hst₃) hnode₃ hr₃ (hp₃' ▸ hcompleted) rfl
    (cfg.states.tryFrom_into .succeeded) rfl with ⟨t₄, record, hst₄, -, hjob⟩
  let finished : Core.JobRecord := record.update (some { result with executionId := x }) 0
  have hget : t₄.pipeline.core.getJob r.assignment.jobId =
      .ok { job := some finished.job, result := finished.result } := by
    have hjob' : t₄.pipeline.core.jobs.lookup r.assignment.jobId = some finished := hjob
    simp only [CoreState.getJob, hjob']
  refine ⟨t₄, _, hst₁.trans (hst₂.trans (hst₃.trans hst₄)), hget, ?_, rfl⟩
  simp [finished, Core.JobRecord.update, Core.JobRecord.finished, hresult]

/-- **A queued task can still succeed.** From every state the system can get into
and for every task on the task queue there is a way on, in which no external
call fails, to a state in which `GetJob` shows the result that a runtime gave. -/
theorem queued_task_can_succeed (hdest : ∀ w, cfg.taskDestination ≠ workerDestination w)
    {tr : List (SystemAct × SystemOut Bytes)} (h : (system cfg registry).Run tr s)
    {env : BrokerEnvelope Bytes} (henv : env ∈ s.pipeline.core.queues cfg.taskDestination)
    {result : JobResult} (hresult : result.failure = none) :
    ∃ j q t x view, env.correlationId = some j ∧ (system cfg registry).Steps s q t ∧
      (∀ y ∈ q, y.1.fails = false) ∧ t.pipeline.core.getJob j = .ok view ∧
      view.job.map Job.state = some .succeeded ∧
      view.result = some { result with executionId := x } := by
  rcases List.append_of_mem henv with ⟨before, tasks, hqueue⟩
  have hqueued : ∀ {s : SystemState Bytes} {env}, Reachable cfg registry s →
      env ∈ s.pipeline.core.queues cfg.taskDestination → ∃ j, env.correlationId = some j := by
    intro s env hs hmem
    rcases (hs.inv hdest).dispatch.integrity.queued _ env hmem with ⟨j, hj, -⟩
    exact ⟨j, hj⟩
  rcases hqueued ⟨tr, h⟩ henv with ⟨j, hj⟩
  have hway : ∃ t view x, Reaches cfg registry s t ∧ t.pipeline.core.getJob j = .ok view ∧
      view.job.map Job.state = some .succeeded ∧
      view.result = some { result with executionId := x } := by
    have hs : Reachable cfg registry s := ⟨tr, h⟩
    clear h henv
    induction before generalizing s with
    | nil =>
        rcases joins hdest hs with ⟨w, t₁, hst₁, ⟨rest, hread⟩, hnode, hsame, hempty⟩
        have hs₁ := hs.reaches hst₁
        rcases dispatches_head hdest hs₁ hread hempty (hsame ▸ hqueue) hj with
          ⟨t₂, env', asg, hst₂, hbeside, -, hassigned, hdecode, hjob⟩
        have hs₂ := hs₁.reaches hst₂
        rcases hands_out hdest hs₂ (hbeside.workers ▸ hnode) hassigned hdecode with
          ⟨t₃, node, sid, r, hst₃, hnode₃, hpc, hr, hasg, hstate, hseq⟩
        rcases succeeds hdest (hs₂.reaches hst₃) hnode₃ hpc hr hstate hseq hresult with
          ⟨t₄, view, hst₄, hget, hview, hres⟩
        rw [hasg, hjob] at hget
        exact ⟨t₄, view, _, hst₁.trans (hst₂.trans (hst₃.trans hst₄)), hget, hview, hres⟩
    | cons first before ih =>
        -- the task before it goes to a worker of its own
        rcases hqueued hs (by rw [hqueue]; exact List.mem_cons_self) with ⟨j', hj'⟩
        rcases joins hdest hs with ⟨w, t₁, hst₁, ⟨rest, hread⟩, -, hsame, hempty⟩
        have hs₁ := hs.reaches hst₁
        rcases dispatches_head hdest hs₁ hread hempty (hsame ▸ hqueue) hj' with
          ⟨t₂, -, -, hst₂, -, hqueue₂, -⟩
        rcases ih hqueue₂ (hs₁.reaches hst₂) with ⟨t, view, x, hst, hget⟩
        exact ⟨t, view, x, hst₁.trans (hst₂.trans hst), hget⟩
  rcases hway with ⟨t, view, x, ⟨q, hq, hfails⟩, hget, hview, hres⟩
  exact ⟨j, q, t, x, view, hj, hq, hfails, hget, hview, hres⟩

/-- One task has been consumed and its call hangs, another one waits behind it. -/
def behindHanging : List SystemAct :=
  ([.core (.register (Core.plainWorker "w") 0), .start "w",
    .core (.submit "i" "m" Core.plainRequest 1), .core (.published "i" (.ok ())),
    .core (.scheduleOne 0), .core (.directoryRead 0 (.ok ())),
    .core (.consumed 0 "f" "a" "y" 2), .core (.submit "j" "n" Core.plainRequest 3),
    .core (.published "j" (.ok ()))] : List PipelineAct).map .pipeline

theorem queued_task_can_succeed_behindHanging : ∃ tr s env q t x view,
    (system Core.symbolicConfig (.new 30 (by decide))).Run tr s ∧
      tr.map Prod.fst = behindHanging ∧ env ∈ s.pipeline.core.queues "tasks" ∧
      (system Core.symbolicConfig (.new 30 (by decide))).Steps s q t ∧
      (∀ y ∈ q, y.1.fails = false) ∧ t.pipeline.core.getJob "j" = .ok view ∧
      view.job.map Job.state = some .succeeded ∧
      view.result = some { JobResult.empty with payload := [7], executionId := x } := by
  rcases Machine.run_of_exec (system Core.symbolicConfig (.new 30 (by decide))) behindHanging
    (P := fun _ s => (s.pipeline.core.queues "tasks").map BrokerEnvelope.correlationId =
      [some "j"]) (by decide +kernel) with ⟨tr, s, hrun, hacts, hqueue⟩
  cases hq : s.pipeline.core.queues "tasks" with
  | nil =>
      rw [hq] at hqueue
      cases hqueue
  | cons env rest =>
      have henv : env ∈ s.pipeline.core.queues Core.symbolicConfig.taskDestination := by
        change env ∈ s.pipeline.core.queues "tasks"
        rw [hq]
        exact List.mem_cons_self
      have hlaw := queued_task_can_succeed Core.symbolicConfig_taskDestination hrun henv
        (show { JobResult.empty with payload := [7] }.failure = none from rfl)
      rcases hlaw with ⟨j, q, t, x, view, hj, hsteps, hfails, hget, hview, hres⟩
      rw [hq, List.map_cons, List.cons.injEq] at hqueue
      obtain rfl : "j" = j := Option.some.inj (hqueue.1.symm.trans hj)
      exact ⟨tr, s, env, q, t, x, view, hrun, hacts, henv, hsteps, hfails, hget, hview, hres⟩

end Way

end ThreadWeave
