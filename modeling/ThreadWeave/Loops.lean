import ThreadWeave.Core.Labels
import ThreadWeave.Delivery

/-!
# What ends the loops

`Scheduler::run` and the worker's `assignment_loop` go round until a call of
`schedule_one` or `execute_one` returns an error, and that ends the process. Each
of the two has branches that refuse a message it cannot make sense of.

`loops_stop_unavailable`: in every run of the pipeline none of these branches is
taken; what ends a loop is an external call that the environment has let fail.

* `Apart` — what a worker has just received is about another job than anything
  it has received before.
* `enqueue_refused`, `receive_refused` — what the two refusals of `execute_one`
  would take.
-/

namespace ThreadWeave

open Runs (HashMap Machine)
open ThreadWeave.Core (Config CoreState Takes workerDestination Labelled)

/-! ## The branches -/

/-- The directory, the broker or the execution store fails a call of
`schedule_one`. -/
def Core.Act.unavailable : Core.Act → Bool
  | .directoryRead _ (.error _) | .consumeFailed _ _ | .created _ (.error _)
  | .dispatched _ _ _ (.error _) => true
  | _ => false

/-- A branch that refuses a message: what was consumed does not decode, the
execution already exists, `enqueue` refuses the assignment. -/
def Refuses {Bytes : Type} : PipelineAct × PipelineOut Bytes → Prop
  | (.core (.consumed _ _ _ _ _), .core (.scheduled (.error _))) => True
  | (.core (.created _ (.ok _)), .core (.scheduled (.error _))) => True
  | (.receive _, .executed (.error _)) => True
  | (.enqueue _, .executed (.error _)) => True
  | _ => False

section Loops

variable {Bytes : Type} {cfg : Config Bytes} {s s' : PipelineState Bytes}
  {tr : List (PipelineAct × PipelineOut Bytes)}

/-- `schedule_one` takes what it finds on the task queue, and `create` its id. -/
theorem scheduled_error {S : String → SubmitTaskRequest → Prop} {c c' : CoreState Bytes}
    {a : Core.Act} {error : String} (hcontent : Core.Content cfg S c) (hl : Labelled c)
    (h : Takes cfg c a (.scheduled (.error error)) c') : a.unavailable = true := by
  cases h with
  | directoryFailed k error hpc => rfl
  | consumeFailed k error workerId hpc => rfl
  | undecodable k f asg x now workerId error submitted rest hpc hqueue hfresh hdecode =>
      have hmem : submitted ∈ c.queues cfg.taskDestination := hqueue ▸ List.mem_cons_self
      rcases hcontent.queued submitted hmem with ⟨j, request, -, hdecode', -⟩
      rw [hdecode] at hdecode'
      cases hdecode'
  | createFailed k answer error workerId asg submitted now hpc hcreate =>
      rcases hcreate with ⟨e, rfl⟩ | hmem
      · rfl
      · exact absurd hmem (hl.create_new hpc)
  | dispatchFailed k messageId now error workerId asg submitted hpc hfresh => rfl

theorem receive_refused {w : String} {e : ExecuteError}
    (h : s.receive cfg w = some (s', .executed (.error e))) :
    ∃ envelope error, envelope ∈ s.core.queues (workerDestination w) ∧
      cfg.assignExecution.decode envelope.payload = .error error := by
  unfold PipelineState.receive at h
  split at h
  · cases h
  · split at h
    · rename_i envelope rest hloop hqueue
      dsimp only at h
      split at h
      · rename_i error hdecode
        exact ⟨envelope, error, hqueue ▸ List.mem_cons_self, hdecode⟩
      · cases h
    · cases h

theorem Worker.PendingState.enqueue_error {p p' : Worker.PendingState}
    {a : AssignExecutionRequest} {status : Status} (h : p.enqueue a = (p', .error status)) :
    Rust.isBlank a.assignmentId = true ∨ Rust.isBlank a.executionId = true ∨
      a.assignmentId ∈ p.assignments := by
  unfold Worker.PendingState.enqueue at h
  split_ifs at h with hblank hmem
  · rw [Bool.or_eq_true] at hblank
    rcases hblank with hblank | hblank
    · exact Or.inl hblank
    · exact Or.inr (Or.inl hblank)
  · exact Or.inr (Or.inr hmem)
  · cases h

theorem enqueue_refused {w : String} {e : ExecuteError}
    (h : s.enqueue w = some (s', .executed (.error e))) :
    ∃ node a, s.workers.lookup w = some node ∧ node.loop = .queueing a ∧
      (Rust.isBlank a.assignmentId = true ∨ Rust.isBlank a.executionId = true ∨
        a.assignmentId ∈ node.state.pending.assignments) := by
  unfold PipelineState.enqueue at h
  split at h
  · cases h
  · rename_i node hnode
    split at h
    · rename_i a hloop
      split at h
      · rename_i p status henqueue
        exact ⟨node, a, hnode, hloop, Worker.PendingState.enqueue_error henqueue⟩
      · cases h
    · cases h

/-! ## What a worker has just received -/

/-- What the worker holds is about another job than anything it has queued. -/
def Apart (node : WorkerNode) : Prop :=
  ∀ a, node.loop = .queueing a → ∀ id r, node.state.pending.assignments.lookup id = some r →
    r.assignment.jobId ≠ a.jobId

theorem apart_idle {node : WorkerNode} (hloop : ∀ a, node.loop ≠ .queueing a) : Apart node :=
  fun a ha => absurd ha (hloop a)

/-- No job is received twice, so what comes next is about another one. -/
theorem apart_step (hdest : ∀ w, cfg.taskDestination ≠ workerDestination w) {a : PipelineAct}
    {o : PipelineOut Bytes} (hi : PipelineInv cfg s) (hd : Delivery cfg tr s)
    (h : Advances cfg s a o s')
    (hapart : ∀ w node, s.workers.lookup w = some node → Apart node) :
    ∀ w node, s'.workers.lookup w = some node → Apart node := by
  have hd' : Delivery cfg (tr ++ [(a, o)]) s' := delivery_step hdest hi h hd
  -- one node is written
  have hset (w : String) (node : WorkerNode) (hok : Apart node) (w' : String)
      (node' : WorkerNode) (hlook : (s.workers.insert w node).lookup w' = some node') :
      Apart node' := by
    rcases HashMap.lookup_insert_some hlook with ⟨rfl, rfl⟩ | ⟨-, hold⟩
    · exact hok
    · exact hapart w' node' hold
  cases h with
  | core a o c h => exact hapart
  | start w => exact hset w _ (apart_idle (by simp))
  | undecodable w error node envelope rest hnode hqueue => exact hset w _ (apart_idle (by simp))
  | received w node envelope rest assignment hnode hqueue hdecode =>
      refine hset w _ ?_
      intro b hb id r hr hjob
      have hb' : assignment = b := ExecutePc.queueing.inj hb
      subst hb'
      -- the queued one has been received before, under the same job
      have hold : (w, r.assignment) ∈ receipts tr := (hd.held w node hnode).pending id r hr
      have hnd := hd'.receipts_nodup
      rw [receipts_received, List.map_append] at hnd
      have hmem : r.assignment.jobId ∈ (receipts tr).map fun d => d.2.jobId :=
        List.mem_map.mpr ⟨_, hold, rfl⟩
      exact (List.nodup_append.mp hnd).2.2 _ hmem _ (List.mem_singleton_self _) hjob
  | receiveFailed w error node hnode => exact hset w _ (apart_idle (by simp))
  | refused w node status hnode => exact hset w _ (apart_idle (by simp))
  | enqueued w node asg hnode hloop hnew => exact hset w _ (apart_idle (by simp))
  | worker w act node state answer hnode hact hstep =>
      rcases Worker.step_effect (hi.nodes w node hnode).inv hstep with ⟨-, -, heff⟩
      refine hset w _ ?_
      intro b hb id r hr
      rcases heff.assignment hr with ⟨r₀, hr₀, hasg⟩ | hobs
      · rw [← hasg]
        exact hapart w node hnode b hb id r₀ hr₀
      · rw [observe_enqueued hobs] at hact
        cases hact

theorem labelled_advances {a : PipelineAct} {o : PipelineOut Bytes} (h : Advances cfg s a o s')
    (hl : Labelled s.core) : Labelled s'.core := by
  cases h with
  | core a o c h => exact Core.labelled_takes h hl
  | undecodable w error node envelope rest hnode hqueue =>
      exact ⟨⟨hl.executions.nodup, hl.executions.drawn, hl.executions.named⟩,
        ⟨hl.assignments.nodup, hl.assignments.drawn, hl.assignments.named⟩, hl.keyed⟩
  | received w node envelope rest assignment hnode hqueue hdecode =>
      exact ⟨⟨hl.executions.nodup, hl.executions.drawn, hl.executions.named⟩,
        ⟨hl.assignments.nodup, hl.assignments.drawn, hl.assignments.named⟩, hl.keyed⟩
  | _ => exact hl

/-- What holds of the ids wherever they are. -/
structure Ordered (s : PipelineState Bytes) : Prop where
  labelled : Labelled s.core
  apart : ∀ w node, s.workers.lookup w = some node → Apart node

theorem pipeline_ordered (hdest : ∀ w, cfg.taskDestination ≠ workerDestination w)
    {registry : MemoryWorkerRegistry} (h : (pipeline cfg registry).Run tr s) : Ordered s := by
  refine h.history (P := fun _ s => Ordered s) ?_ ?_
  · refine ⟨Core.labelled_start registry, ?_⟩
    intro w node hnode
    simp [pipeline] at hnode
  · intro tr s a s' o hrun ih hs
    have hadv := pipeline_advances hs
    exact ⟨labelled_advances hadv ih.labelled,
      apart_step hdest (pipeline_inv hdest hrun) (pipeline_delivery hdest hrun) hadv ih.apart⟩

/-- `enqueue` takes the assignment that a worker holds. -/
theorem enqueue_accepts (hi : PipelineInv cfg s) (ho : Ordered s) {w : String}
    {node : WorkerNode} {a : AssignExecutionRequest} (hnode : s.workers.lookup w = some node)
    (hloop : node.loop = .queueing a) :
    Rust.isBlank a.assignmentId = false ∧ Rust.isBlank a.executionId = false ∧
      a.assignmentId ∉ node.state.pending.assignments := by
  have hok := hi.nodes w node hnode
  rcases hok.held a hloop with ⟨e, he, hid⟩
  have hexecution : e.executionId = a.executionId := congrArg Prod.fst hid
  have hassignment : e.assignmentId = a.assignmentId := congrArg (fun x => x.2.2.1) hid
  refine ⟨?_, ?_, ?_⟩
  · rw [← hassignment]
    exact ho.labelled.assignments.named _ (Core.Label.mem_labels_of_record he)
  · rw [← hexecution]
    exact ho.labelled.executions.named _ (Core.Label.mem_labels_of_record he)
  · -- a queued assignment of that id would have the same record, hence the same job
    intro hmem
    rcases Finmap.mem_iff.mp hmem with ⟨r, hr⟩
    have hkey : r.assignment.assignmentId = a.assignmentId := (hok.inv.rep.records _ r hr).keyed
    rcases hok.pending _ r hr with ⟨e', he', hid'⟩
    have hassignment' : e'.assignmentId = a.assignmentId :=
      (congrArg (fun x => x.2.2.1) hid').trans hkey
    have hsame : a.executionId = r.assignment.executionId :=
      ho.labelled.assignments.record_unique he he' (hassignment.trans hassignment'.symm)
    rw [← hsame, he, Option.some.injEq] at he'
    subst he'
    have hjob : e.jobId = a.jobId := congrArg (fun x => x.2.1) hid
    have hjob' : e.jobId = r.assignment.jobId := congrArg (fun x => x.2.1) hid'
    exact ho.apart w node hnode a hloop _ r hr (hjob'.symm.trans hjob)

/-! ## Runs -/

/-- What an error of `schedule_one` or `execute_one` comes from. -/
def Available : PipelineAct × PipelineOut Bytes → Prop
  | (.core a, .core (.scheduled (.error _))) => a.unavailable = true
  | (.receiveFailed _ _, .executed (.error _)) => True
  | (_, .executed (.error _)) => False
  | _ => True

theorem available_step {a : PipelineAct} {o : PipelineOut Bytes} (hi : PipelineInv cfg s)
    (hd : Delivery cfg tr s) (ho : Ordered s) (hs : s.step cfg a = some (s', o)) :
    Available (a, o) := by
  cases a with
  | core a =>
      have hadv : Advances cfg s (.core a) o s' := pipeline_advances hs
      cases hadv with
      | core _ o c h =>
          cases o with
          | scheduled r =>
              cases r with
              | error error => exact scheduled_error hd.sent.content ho.labelled h
              | ok reason => trivial
          | _ => trivial
  | start w =>
      have hadv : Advances cfg s (.start w) o s' := pipeline_advances hs
      cases hadv with
      | start => trivial
  | receive w =>
      cases o with
      | executed r =>
          cases r with
          | ok asg => trivial
          | error e =>
              rcases receive_refused hs with ⟨envelope, error, hmem, hdecode⟩
              rcases hi.dispatch.queued w envelope hmem with ⟨asg, hdecode', -⟩
              rw [hdecode] at hdecode'
              cases hdecode'
      | _ => trivial
  | receiveFailed w error =>
      have hadv : Advances cfg s (.receiveFailed w error) o s' := pipeline_advances hs
      cases hadv with
      | receiveFailed => trivial
  | enqueue w =>
      cases o with
      | executed r =>
          cases r with
          | ok asg => trivial
          | error e =>
              rcases enqueue_refused hs with ⟨node, asg, hnode, hloop, hrefused⟩
              rcases enqueue_accepts hi ho hnode hloop with ⟨hassignment, hexecution, hnew⟩
              rcases hrefused with hblank | hblank | hmem
              · rw [hassignment] at hblank
                cases hblank
              · rw [hexecution] at hblank
                cases hblank
              · exact absurd hmem hnew
      | _ => trivial
  | worker w act =>
      have hadv : Advances cfg s (.worker w act) o s' := pipeline_advances hs
      cases hadv with
      | worker => trivial

/-- A loop that has stopped has seen its consume fail. -/
def Stopped (tr : List (PipelineAct × PipelineOut Bytes)) (s : PipelineState Bytes) : Prop :=
  ∀ w node, s.workers.lookup w = some node → node.loop = .stopped →
    ∃ error, (.receiveFailed w error, .executed (.error (.message error))) ∈ tr

theorem stopped_step {a : PipelineAct} {o : PipelineOut Bytes} (h : Advances cfg s a o s')
    (hav : Available (a, o)) (hstop : Stopped tr s) : Stopped (tr ++ [(a, o)]) s' := by
  have hold (w : String) (node : WorkerNode) (hnode : s.workers.lookup w = some node)
      (hloop : node.loop = .stopped) :
      ∃ error, (.receiveFailed w error, .executed (.error (.message error))) ∈
        tr ++ [(a, o)] := by
    rcases hstop w node hnode hloop with ⟨error, hmem⟩
    exact ⟨error, List.mem_append_left _ hmem⟩
  -- one node is written, and its loop has not stopped
  have hset (w : String) (node : WorkerNode) (hne : node.loop = .stopped →
      ∃ error, (.receiveFailed w error, .executed (.error (.message error))) ∈ tr ++ [(a, o)])
      (w' : String) (node' : WorkerNode)
      (hlook : (s.workers.insert w node).lookup w' = some node') (hloop : node'.loop = .stopped) :
      ∃ error, (.receiveFailed w' error, .executed (.error (.message error))) ∈
        tr ++ [(a, o)] := by
    rcases HashMap.lookup_insert_some hlook with ⟨rfl, rfl⟩ | ⟨-, hl⟩
    · exact hne hloop
    · exact hold w' node' hl hloop
  cases h with
  | core a o c h => exact hold
  | start w => exact hset w _ (by simp)
  | undecodable w error node envelope rest hnode hqueue => exact hav.elim
  | received w node envelope rest assignment hnode hqueue hdecode => exact hset w _ (by simp)
  | receiveFailed w error node hnode => exact hset w _ fun _ => ⟨error, by simp⟩
  | refused w node status hnode => exact hav.elim
  | enqueued w node asg hnode hloop hnew => exact hset w _ (by simp)
  | worker w act node state answer hnode hact hstep => exact hset w _ (hold w node hnode)

theorem pipeline_available (hdest : ∀ w, cfg.taskDestination ≠ workerDestination w)
    {registry : MemoryWorkerRegistry} (h : (pipeline cfg registry).Run tr s) :
    (∀ x ∈ tr, Available x) ∧ Stopped tr s := by
  refine h.history (P := fun tr s => (∀ x ∈ tr, Available x) ∧ Stopped tr s) ?_ ?_
  · refine ⟨by simp, ?_⟩
    intro w node hnode
    simp [pipeline] at hnode
  · intro tr s a s' o hrun ih hs
    have hav : Available (a, o) := available_step (pipeline_inv hdest hrun)
      (pipeline_delivery hdest hrun) (pipeline_ordered hdest hrun) hs
    refine ⟨?_, stopped_step (pipeline_advances hs) hav ih.2⟩
    intro x hx
    rcases List.mem_append.mp hx with hold | hnew
    · exact ih.1 x hold
    · rw [List.mem_singleton] at hnew
      exact hnew ▸ hav

theorem Available.not_refuses {x : PipelineAct × PipelineOut Bytes} (h : Available x) :
    ¬ Refuses x := by
  intro hr
  unfold Refuses at hr
  split at hr
  · cases h
  · cases h
  · exact h
  · exact h
  · exact hr

/-- **What ends the loops.** In every run of the pipeline, for every content of
the requests: `schedule_one` fails only where the directory, the broker or the
execution store fails it, `execute_one` only where `consume` does; no message is
refused, and a worker whose assignment loop has ended has seen a `consume` fail. -/
theorem loops_stop_unavailable (hdest : ∀ w, cfg.taskDestination ≠ workerDestination w)
    {registry : MemoryWorkerRegistry} (h : (pipeline cfg registry).Run tr s) :
    (∀ a error, (.core a, .core (.scheduled (.error error))) ∈ tr → a.unavailable = true) ∧
    (∀ a e, (a, .executed (.error e)) ∈ tr → ∃ w error, a = .receiveFailed w error) ∧
    (∀ x ∈ tr, ¬ Refuses x) ∧
    ∀ w node, s.workers.lookup w = some node → node.loop = .stopped →
      ∃ error, (.receiveFailed w error, .executed (.error (.message error))) ∈ tr := by
  rcases pipeline_available hdest h with ⟨hav, hstop⟩
  refine ⟨?_, ?_, fun x hx => (hav x hx).not_refuses, hstop⟩
  · intro a error hmem
    exact hav _ hmem
  · intro a e hmem
    have hx := hav _ hmem
    cases a with
    | receiveFailed w error => exact ⟨w, error, rfl⟩
    | _ => exact hx.elim

/-- One task goes through; then the directory, the store and the broker fail. -/
def failingDelivery : List PipelineAct :=
  oneDelivery ++
  [.core (.scheduleOne 7), .core (.directoryRead 7 (.error "down")),
   .core (.submit "i" "n" Core.plainRequest 5), .core (.published "i" (.ok ())),
   .core (.scheduleOne 8), .core (.directoryRead 8 (.ok ())),
   .core (.consumed 8 "i-f" "i-a" "y" 6), .core (.created 8 (.error "down")),
   .receiveFailed "w" "cannot consume from Redis: down"]

theorem loops_stop_unavailable_failingDelivery : ∃ tr s,
    (pipeline Core.symbolicConfig (.new 30 (by decide))).Run tr s ∧
      tr.map Prod.fst = failingDelivery ∧
      (.core (.created 8 (.error "down")),
        .core (.scheduled (.error "execution store is unavailable: down"))) ∈ tr ∧
      (∀ x ∈ tr, ¬ Refuses x) ∧
      ∀ w node, s.workers.lookup w = some node → node.loop = .stopped →
        ∃ error, (.receiveFailed w error, .executed (.error (.message error))) ∈ tr := by
  rcases Machine.run_of_exec (pipeline Core.symbolicConfig (.new 30 (by decide))) failingDelivery
    (P := fun tr _ => (.core (.created 8 (.error "down")),
      .core (.scheduled (.error "execution store is unavailable: down"))) ∈ tr)
    (by decide +kernel) with ⟨tr, s, hrun, hacts, hmem⟩
  have hlaw := loops_stop_unavailable Core.symbolicConfig_taskDestination hrun
  exact ⟨tr, s, hrun, hacts, hmem, hlaw.2.2.1, hlaw.2.2.2⟩

end Loops

end ThreadWeave
