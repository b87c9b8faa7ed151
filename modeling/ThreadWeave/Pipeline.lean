import ThreadWeave.Core.Integrity
import ThreadWeave.Worker.Lifecycle

/-!
# The pipeline: one control plane and its workers

The control plane of `Core.Machine` and any number of workers, joined by the
queues of the broker: a worker consumes from the queue of its own id
(`execute_one`) and hands what it receives to its `PendingExecutions`.

`pipeline_references`: in every reachable state every name that one component
holds of another's record resolves. The proof has one invariant for each hop of
an assignment: the `schedule_one` that has created the record and not published
yet, the queue, the worker's hands, the worker's `PendingState`.
-/

namespace ThreadWeave

open Runs (HashMap Machine)
open ThreadWeave.Core (Config CoreState Takes Integrity workerDestination)
open Worker (WorkerState)

/-! ## The machine -/

/-- Where the assignment loop of a worker stands. -/
inductive ExecutePc where
  | consuming
  | queueing (assignment : AssignExecutionRequest)
  | stopped
deriving DecidableEq

/-- The `BrokerError` of `execute_one`. -/
inductive ExecuteError where
  | message (text : String)
  /-- "cannot queue assignment: " and the status -/
  | cannotQueue (status : Status)
deriving DecidableEq

structure WorkerNode where
  state : WorkerState
  loop : ExecutePc
deriving DecidableEq

structure PipelineState (Bytes : Type) where
  core : CoreState Bytes
  /-- the workers, by worker id -/
  workers : HashMap String WorkerNode

inductive PipelineAct where
  | core (a : Core.Act)
  | start (w : String)
  /-- `execute_one` consumes and decodes an assignment -/
  | receive (w : String)
  | receiveFailed (w : String) (error : String)
  /-- `execute_one` queues the assignment it holds -/
  | enqueue (w : String)
  /-- sessions, events and cancellations -/
  | worker (w : String) (a : Worker.Act)
deriving DecidableEq

inductive PipelineOut (Bytes : Type) where
  | core (o : Core.Out Bytes)
  | silent
  | received (assignment : AssignExecutionRequest)
  /-- `execute_one` returned -/
  | executed (r : Except ExecuteError AssignExecutionRequest)
  | worker (answer : Worker.Answer)
deriving DecidableEq

/-- Only `execute_one` enqueues. -/
def Worker.Act.isEnqueue : Worker.Act → Bool
  | .enqueue _ => true
  | _ => false

/-- `blpop` from the list of destination `d` leaves `rest`. -/
def Core.CoreState.pop {Bytes : Type} (s : CoreState Bytes) (d : String)
    (rest : List (BrokerEnvelope Bytes)) : CoreState Bytes :=
  { s with queues := Function.update s.queues d rest }

namespace PipelineState

variable {Bytes : Type} (cfg : Config Bytes)

def setNode (s : PipelineState Bytes) (w : String) (node : WorkerNode) : PipelineState Bytes :=
  { s with workers := s.workers.insert w node }

def receive (s : PipelineState Bytes) (w : String) :
    Option (PipelineState Bytes × PipelineOut Bytes) :=
  match s.workers.lookup w with
  | none => none
  | some node =>
      match node.loop, s.core.queues (workerDestination w) with
      | .consuming, envelope :: rest =>
          let s' : PipelineState Bytes := { s with core := s.core.pop (workerDestination w) rest }
          match cfg.assignExecution.decode envelope.payload with
          -- any error of `execute_one` ends the assignment loop
          | .error error =>
              some (s'.setNode w { node with loop := .stopped },
                .executed (.error (.message ("invalid AssignExecutionRequest: " ++ error))))
          | .ok assignment =>
              some (s'.setNode w { node with loop := .queueing assignment }, .received assignment)
      | _, _ => none

def receiveFailed (s : PipelineState Bytes) (w error : String) :
    Option (PipelineState Bytes × PipelineOut Bytes) :=
  match s.workers.lookup w with
  | none => none
  | some node =>
      if node.loop = .consuming then
        some (s.setNode w { node with loop := .stopped }, .executed (.error (.message error)))
      else none

def enqueue (s : PipelineState Bytes) (w : String) :
    Option (PipelineState Bytes × PipelineOut Bytes) :=
  match s.workers.lookup w with
  | none => none
  | some node =>
      match node.loop with
      | .queueing assignment =>
          match node.state.pending.enqueue assignment with
          | (p, .error status) =>
              some (s.setNode w { state := { node.state with pending := p }, loop := .stopped },
                .executed (.error (.cannotQueue status)))
          | (p, .ok _) =>
              some (s.setNode w { state := { node.state with pending := p }, loop := .consuming },
                .executed (.ok assignment))
      | _ => none

def step (s : PipelineState Bytes) :
    PipelineAct → Option (PipelineState Bytes × PipelineOut Bytes)
  | .core a => (s.core.step cfg a).map fun r => ({ s with core := r.1 }, .core r.2)
  | .start w =>
      if w ∈ s.workers then none
      else some (s.setNode w { state := Worker.worker.init, loop := .consuming }, .silent)
  | .receive w => s.receive cfg w
  | .receiveFailed w error => s.receiveFailed w error
  | .enqueue w => s.enqueue w
  | .worker w a =>
      match s.workers.lookup w with
      | none => none
      | some node =>
          -- the sessions go on whether or not the loop is waiting
          if a.isEnqueue then none
          else (node.state.step a).map fun r =>
            (s.setNode w { node with state := r.1 }, .worker r.2)

end PipelineState

/-- The pipeline, from its start with no worker. -/
def pipeline {Bytes : Type} (cfg : Config Bytes) (registry : MemoryWorkerRegistry) :
    Machine (PipelineState Bytes) PipelineAct (PipelineOut Bytes) where
  init := { core := .start Bytes registry, workers := ∅ }
  step := PipelineState.step cfg

/-! ## Assignments and their records -/

section Records

variable {Bytes : Type} {cfg : Config Bytes}

/-- The execution store has the record that goes with assignment `a` of worker `w`. -/
def HasRecord (s : CoreState Bytes) (w : String) (a : AssignExecutionRequest) : Prop :=
  ∃ e, s.executions.lookup a.executionId = some e ∧
    e.identity = (a.executionId, a.jobId, a.assignmentId, w)

theorem HasRecord.takes {s s' : CoreState Bytes} {a : Core.Act} {o : Core.Out Bytes} {w : String}
    {asg : AssignExecutionRequest} (h : Takes cfg s a o s') (hr : HasRecord s w asg) :
    HasRecord s' w asg := by
  rcases hr with ⟨e₀, he₀, hid₀⟩
  rcases Core.executions_stay h he₀ with ⟨e, he, hid⟩
  exact ⟨e, he, hid.trans hid₀⟩

/-- A `schedule_one` that is about to publish has created the record. -/
theorem record_of_created {s s' : CoreState Bytes} {k : Nat} {o : Core.Out Bytes} {w : String}
    {asg : AssignExecutionRequest} {submitted : BrokerEnvelope Bytes} {now : Timestamp}
    (h : Takes cfg s (.created k (.ok ())) o s')
    (hpc : s.schedules.lookup k = some (.creating w asg submitted now))
    (hpc' : s'.schedules.lookup k = some (.publishing w asg submitted)) :
    HasRecord s' w asg := by
  cases h with
  | created _ w' asg' submitted' now' hn hnew =>
      rw [hpc, Option.some.injEq] at hn
      cases hn
      exact ⟨_, Finmap.lookup_insert _, rfl⟩
  | createFailed => exact absurd rfl (HashMap.lookup_erase_some hpc').1
  | refused a n status ha => simp at ha

/-- The assignment on an envelope of worker `w`'s queue has its record. -/
def Delivers (cfg : Config Bytes) (s : CoreState Bytes) (w : String) (env : BrokerEnvelope Bytes) :
    Prop :=
  ∃ a, cfg.assignExecution.decode env.payload = .ok a ∧ HasRecord s w a

/-- What the control plane knows about its assignments. -/
structure Dispatch (cfg : Config Bytes) (s : CoreState Bytes) : Prop where
  integrity : Integrity cfg s
  publishing : ∀ k w asg submitted, s.schedules.lookup k = some (.publishing w asg submitted) →
    HasRecord s w asg
  queued : ∀ w env, env ∈ s.queues (workerDestination w) → Delivers cfg s w env

theorem dispatch_step {s s' : CoreState Bytes} {a : Core.Act} {o : Core.Out Bytes}
    (hdest : ∀ w, cfg.taskDestination ≠ workerDestination w) (h : Takes cfg s a o s')
    (hd : Dispatch cfg s) : Dispatch cfg s' := by
  refine ⟨Core.integrity_step hd.integrity h, ?_, ?_⟩
  · intro k w asg submitted hpc
    rcases Core.schedules_of_takes h hpc with
      hold | he | ⟨w', he, -⟩ | ⟨w', sub, rest, request, f, a', x, now, -, -, -, he, -⟩ |
      ⟨w', asg', sub, now, hn, he, rfl⟩
    · exact (hd.publishing k w asg submitted hold).takes h
    · cases he
    · cases he
    · cases he
    · -- the record is created in the step before
      cases he
      exact record_of_created h hn hpc
  · intro w env hmem
    rcases Core.mem_queues_of_takes h hmem with
      hold | ⟨j, request, job, -, hpc, hd'⟩ | ⟨k, w', asg, submitted, mid, now, hpc, rfl, hd'⟩
    · rcases hd.queued w env hold with ⟨asg, hdecode, hr⟩
      exact ⟨asg, hdecode, hr.takes h⟩
    · -- submissions go to another queue
      rcases hd.integrity.accepting j _ hpc with ⟨-, mid, now, -, rfl⟩
      exact absurd hd'.symm (hdest w)
    · -- an assignment goes to the queue of the worker its record names
      have hw : w = w' := Core.workerDestination_inj.mp hd'
      subst hw
      exact ⟨asg, cfg.assignExecution.decode_encodeToVec asg, (hd.publishing k w asg _ hpc).takes h⟩

theorem dispatch_start (registry : MemoryWorkerRegistry) :
    Dispatch cfg (CoreState.start Bytes registry) := by
  refine ⟨Core.integrity_start registry, ?_, ?_⟩
  · intro k w asg submitted hpc
    simp [CoreState.start] at hpc
  · intro w env hmem
    simp [CoreState.start] at hmem

/-- A worker pops its queue: nothing is lost that anybody refers to. -/
theorem dispatch_pop {s : CoreState Bytes} {d : String} {env : BrokerEnvelope Bytes}
    {rest : List (BrokerEnvelope Bytes)} (hqueue : s.queues d = env :: rest)
    (hd : Dispatch cfg s) :
    Dispatch cfg (s.pop d rest) := by
  have hsub : ∀ d' env', env' ∈ Function.update s.queues d rest d' → env' ∈ s.queues d' := by
    intro d' env' hmem
    rw [Function.update_apply] at hmem
    split_ifs at hmem with he
    · rw [he, hqueue]
      exact List.mem_cons_of_mem _ hmem
    · exact hmem
  -- `Integrity` looks at the queues in one field only
  have hi := hd.integrity
  refine ⟨⟨hi.drawn, ?_, ?_, ?_, ?_, ?_⟩, hd.publishing, ?_⟩
  · intro j pc hpc
    exact (hi.accepting j pc hpc).congr rfl
  · intro d' env' hmem
    rcases hi.queued d' env' (hsub d' env' hmem) with ⟨j, hj, hkn⟩
    exact ⟨j, hj, hkn.job, hkn.published⟩
  · intro k pc j hpc hj
    have hkn := hi.scheduled k pc j hpc hj
    exact ⟨hkn.job, hkn.published⟩
  · intro id e he
    have hkn := hi.executed id e he
    exact ⟨hkn.job, hkn.published⟩
  · intro k pc j hpc hj
    have hkn := hi.reported k pc j hpc hj
    exact ⟨hkn.job, hkn.published⟩
  · intro w env' hmem
    exact hd.queued w env' (hsub _ env' hmem)

end Records

/-! ## What a step can do -/

section Advances

variable {Bytes : Type} (cfg : Config Bytes)

/-- One step of the pipeline, by what it does to the control plane and to the
worker it is about. -/
inductive Advances (s : PipelineState Bytes) :
    PipelineAct → PipelineOut Bytes → PipelineState Bytes → Prop where
  | core (a : Core.Act) (o : Core.Out Bytes) (c : CoreState Bytes) (h : Takes cfg s.core a o c) :
      Advances s (.core a) (.core o) { s with core := c }
  | start (w : String) :
      Advances s (.start w) .silent
        (s.setNode w { state := Worker.worker.init, loop := .consuming })
  | undecodable (w error : String) (node : WorkerNode) (envelope : BrokerEnvelope Bytes)
      (rest : List (BrokerEnvelope Bytes)) (hnode : s.workers.lookup w = some node)
      (hqueue : s.core.queues (workerDestination w) = envelope :: rest) :
      Advances s (.receive w)
        (.executed (.error (.message ("invalid AssignExecutionRequest: " ++ error))))
        (({ s with core := s.core.pop (workerDestination w) rest }).setNode w
          { node with loop := .stopped })
  | received (w : String) (node : WorkerNode) (envelope : BrokerEnvelope Bytes)
      (rest : List (BrokerEnvelope Bytes)) (assignment : AssignExecutionRequest)
      (hnode : s.workers.lookup w = some node)
      (hqueue : s.core.queues (workerDestination w) = envelope :: rest)
      (hdecode : cfg.assignExecution.decode envelope.payload = .ok assignment) :
      Advances s (.receive w) (.received assignment)
        (({ s with core := s.core.pop (workerDestination w) rest }).setNode w
          { node with loop := .queueing assignment })
  | receiveFailed (w error : String) (node : WorkerNode)
      (hnode : s.workers.lookup w = some node) :
      Advances s (.receiveFailed w error) (.executed (.error (.message error)))
        (s.setNode w { node with loop := .stopped })
  | refused (w : String) (node : WorkerNode) (status : Status)
      (hnode : s.workers.lookup w = some node) :
      Advances s (.enqueue w) (.executed (.error (.cannotQueue status)))
        (s.setNode w { node with loop := .stopped })
  | enqueued (w : String) (node : WorkerNode) (a : AssignExecutionRequest)
      (hnode : s.workers.lookup w = some node) (hloop : node.loop = .queueing a)
      (hnew : a.assignmentId ∉ node.state.pending.assignments) :
      Advances s (.enqueue w) (.executed (.ok a))
        (s.setNode w
          { state := { node.state with pending := { node.state.pending with
              queue := node.state.pending.queue ++ [a.assignmentId]
              assignments := node.state.pending.assignments.insert a.assignmentId
                (Worker.PendingState.newRecord a) } }
            loop := .consuming })
  | worker (w : String) (a : Worker.Act) (node : WorkerNode) (state : WorkerState)
      (answer : Worker.Answer) (hnode : s.workers.lookup w = some node)
      (ha : a.isEnqueue = false) (hstep : Worker.worker.step node.state a = some (state, answer)) :
      Advances s (.worker w a) (.worker answer) (s.setNode w { node with state := state })

variable {cfg}

theorem receive_advances {s s' : PipelineState Bytes} {w : String} {o : PipelineOut Bytes}
    (h : s.receive cfg w = some (s', o)) : Advances cfg s (.receive w) o s' := by
  unfold PipelineState.receive at h
  split at h
  · cases h
  · rename_i node hnode
    split at h
    · rename_i envelope rest hloop hqueue
      dsimp only at h
      split at h
      · cases h
        exact .undecodable w _ node envelope rest hnode hqueue
      · rename_i assignment hdecode
        cases h
        exact .received w node envelope rest assignment hnode hqueue hdecode
    · cases h

theorem enqueue_advances {s s' : PipelineState Bytes} {w : String} {o : PipelineOut Bytes}
    (h : s.enqueue w = some (s', o)) : Advances cfg s (.enqueue w) o s' := by
  unfold PipelineState.enqueue at h
  split at h
  · cases h
  · rename_i node hnode
    split at h
    · rename_i assignment hloop
      rcases Worker.PendingState.enqueue_cases node.state.pending assignment with
        ⟨status, he⟩ | ⟨hnew, he⟩
      · simp only [he, Option.some.injEq, Prod.mk.injEq] at h
        rcases h with ⟨rfl, rfl⟩
        exact .refused w node status hnode
      · simp only [he, Option.some.injEq, Prod.mk.injEq] at h
        rcases h with ⟨rfl, rfl⟩
        exact .enqueued w node assignment hnode hloop hnew
    · cases h

theorem pipeline_advances {s s' : PipelineState Bytes} {a : PipelineAct} {o : PipelineOut Bytes}
    (h : s.step cfg a = some (s', o)) : Advances cfg s a o s' := by
  cases a with
  | core a =>
      rcases Option.map_eq_some_iff.mp h with ⟨⟨c, co⟩, hstep, he⟩
      cases he
      exact .core a co c (Core.step_takes hstep)
  | start w =>
      simp only [PipelineState.step] at h
      split_ifs at h
      cases h
      exact .start w
  | receive w => exact receive_advances h
  | receiveFailed w error =>
      simp only [PipelineState.step, PipelineState.receiveFailed] at h
      split at h
      · cases h
      · rename_i node hnode
        split_ifs at h
        cases h
        exact .receiveFailed w error node hnode
  | enqueue w => exact enqueue_advances h
  | worker w a =>
      simp only [PipelineState.step] at h
      split at h
      · cases h
      · rename_i node hnode
        split_ifs at h with ha
        rcases Option.map_eq_some_iff.mp h with ⟨⟨state, answer⟩, hstep, he⟩
        cases he
        exact .worker w a node state answer hnode (by simpa using ha) hstep

end Advances

/-! ## The hands of a worker -/

/-- `P` holds of every assignment the worker has in its hands. -/
structure Holds (P : AssignExecutionRequest → Prop) (node : WorkerNode) : Prop where
  pending : ∀ id r, node.state.pending.assignments.lookup id = some r → P r.assignment
  held : ∀ a, node.loop = .queueing a → P a

theorem observe_enqueued {a : Worker.Act} {answer : Worker.Answer} {id : String}
    (h : Worker.observe (a, answer) = some (.enqueued id)) : a.isEnqueue = true := by
  unfold Worker.observe at h
  split at h
  · rename_i hx
    cases hx
    rfl
  all_goals cases h

/-- A record keeps its assignment, and only `enqueue` adds one. -/
theorem Worker.Effect.assignment {p p' : Worker.PendingState} {o : Option Worker.Obs}
    (he : Worker.Effect p o p') {id : String} {r : Worker.AssignmentRecord}
    (hr : p'.assignments.lookup id = some r) :
    (∃ r₀, p.assignments.lookup id = some r₀ ∧ r₀.assignment = r.assignment) ∨
      o = some (.enqueued r.assignment.assignmentId) := by
  cases he with
  | quiet => exact Or.inl ⟨r, hr, rfl⟩
  | opened sid sender => exact Or.inl ⟨r, hr, rfl⟩
  | enqueued a hnew =>
      rcases HashMap.lookup_insert_some hr with ⟨-, rfl⟩ | ⟨-, hold⟩
      · exact Or.inr rfl
      · exact Or.inl ⟨r, hold, rfl⟩
  | accepted c now r₀ hacc =>
      rcases HashMap.lookup_insert_some hr with ⟨rfl, rfl⟩ | ⟨-, hold⟩
      · exact Or.inl ⟨r₀, hacc.found, (Worker.advance_assignment c now r₀).symm⟩
      · exact Or.inl ⟨r, hold, rfl⟩
  | handed sid id' q r₀ hsid hq hr₀ =>
      rcases HashMap.lookup_insert_some hr with ⟨rfl, rfl⟩ | ⟨-, hold⟩
      · exact Or.inl ⟨r₀, hr₀, rfl⟩
      · exact Or.inl ⟨r, hold, rfl⟩
  | disconnected sid ids m hnd hids hm =>
      have hr' : m.lookup id = some r := hr
      rw [hm id] at hr'
      split_ifs at hr'
      · rcases Option.map_eq_some_iff.mp hr' with ⟨r₀, hr₀, rfl⟩
        exact Or.inl ⟨r₀, hr₀, rfl⟩
      · exact Or.inl ⟨r, hr', rfl⟩

section Hands

variable {Bytes : Type} {cfg : Config Bytes} {s s' : PipelineState Bytes} {a : PipelineAct}
  {o : PipelineOut Bytes}

theorem Holds.mono {P Q : AssignExecutionRequest → Prop} {node : WorkerNode}
    (h : Holds P node) (hPQ : ∀ a, P a → Q a) : Holds Q node where
  pending := fun id r hr => hPQ _ (h.pending id r hr)
  held := fun a ha => hPQ a (h.held a ha)

theorem Holds.idle {P : AssignExecutionRequest → Prop} {node : WorkerNode} {loop : ExecutePc}
    (h : Holds P node) (hloop : ∀ a, loop ≠ .queueing a) : Holds P { node with loop := loop } where
  pending := h.pending
  held := fun a ha => absurd ha (hloop a)

/-- The workers hold what they held, and what one of them has just received. -/
theorem holds_advances {P Q : String → AssignExecutionRequest → Prop}
    (hinv : ∀ w node, s.workers.lookup w = some node → Worker.Inv node.state)
    (h : Advances cfg s a o s') (hPQ : ∀ w asg, P w asg → Q w asg)
    (hrecv : ∀ w asg, a = .receive w → o = .received asg → Q w asg)
    (hP : ∀ w node, s.workers.lookup w = some node → Holds (P w) node) :
    ∀ w node, s'.workers.lookup w = some node → Holds (Q w) node := by
  have hold (w : String) (node : WorkerNode) (hnode : s.workers.lookup w = some node) :
      Holds (Q w) node := (hP w node hnode).mono (hPQ w)
  -- one node is written
  have hset (w : String) (node : WorkerNode) (hok : Holds (Q w) node) (w' : String)
      (node' : WorkerNode) (hlook : (s.workers.insert w node).lookup w' = some node') :
      Holds (Q w') node' := by
    rcases HashMap.lookup_insert_some hlook with ⟨rfl, rfl⟩ | ⟨-, hl⟩
    · exact hok
    · exact hold w' node' hl
  cases h with
  | core a o c h => exact hold
  | start w =>
      refine hset w _ ⟨?_, ?_⟩
      · intro id r hr
        simp [Worker.worker, Worker.PendingState.empty] at hr
      · intro b hb
        cases hb
  | undecodable w error node envelope rest hnode hqueue =>
      exact hset w _ ((hold w node hnode).idle (by simp))
  | received w node envelope rest assignment hnode hqueue hdecode =>
      refine hset w _ ⟨(hold w node hnode).pending, ?_⟩
      intro b hb
      have hb' : assignment = b := ExecutePc.queueing.inj hb
      exact hb' ▸ hrecv w assignment rfl rfl
  | receiveFailed w error node hnode => exact hset w _ ((hold w node hnode).idle (by simp))
  | refused w node status hnode => exact hset w _ ((hold w node hnode).idle (by simp))
  | enqueued w node asg hnode hloop hnew =>
      refine hset w _ ⟨?_, ?_⟩
      · intro id r hr
        rcases HashMap.lookup_insert_some hr with ⟨-, rfl⟩ | ⟨-, hr₀⟩
        · exact (hold w node hnode).held asg hloop
        · exact (hold w node hnode).pending id r hr₀
      · intro b hb
        cases hb
  | worker w act node state answer hnode hact hstep =>
      rcases Worker.step_effect (hinv w node hnode) hstep with ⟨-, -, heff⟩
      refine hset w _ ⟨?_, (hold w node hnode).held⟩
      intro id r hr
      -- only the loop enqueues, so the record was there with this assignment
      rcases heff.assignment hr with ⟨r₀, hr₀, hasg⟩ | hobs
      · exact hasg ▸ (hold w node hnode).pending id r₀ hr₀
      · rw [observe_enqueued hobs] at hact
        cases hact

/-- Each worker keeps its own invariant. -/
theorem inv_advances (h : Advances cfg s a o s')
    (hinv : ∀ w node, s.workers.lookup w = some node → Worker.Inv node.state) :
    ∀ w node, s'.workers.lookup w = some node → Worker.Inv node.state := by
  -- one node is written
  have hset (w : String) (node : WorkerNode) (hok : Worker.Inv node.state) (w' : String)
      (node' : WorkerNode) (hlook : (s.workers.insert w node).lookup w' = some node') :
      Worker.Inv node'.state := by
    rcases HashMap.lookup_insert_some hlook with ⟨rfl, rfl⟩ | ⟨-, hl⟩
    · exact hok
    · exact hinv w' node' hl
  cases h with
  | core a o c h => exact hinv
  | start w => exact hset w _ Worker.inv_init
  | undecodable w error node envelope rest hnode hqueue => exact hset w _ (hinv w node hnode)
  | received w node envelope rest assignment hnode hqueue hdecode =>
      exact hset w _ (hinv w node hnode)
  | receiveFailed w error node hnode => exact hset w _ (hinv w node hnode)
  | refused w node status hnode => exact hset w _ (hinv w node hnode)
  | enqueued w node asg hnode hloop hnew =>
      have hok := hinv w node hnode
      exact hset w _ ⟨hok.rep.enqueue hnew, hok.sessions⟩
  | worker w act node state answer hnode hact hstep =>
      exact hset w _ (Worker.step_effect (hinv w node hnode) hstep).1

end Hands

/-! ## References -/

section References

variable {Bytes : Type} {cfg : Config Bytes}

/-- What holds of a worker under id `w`. -/
structure NodeOk (s : CoreState Bytes) (w : String) (node : WorkerNode) : Prop where
  inv : Worker.Inv node.state
  pending : ∀ id r, node.state.pending.assignments.lookup id = some r →
    HasRecord s w r.assignment
  held : ∀ a, node.loop = .queueing a → HasRecord s w a

structure PipelineInv (cfg : Config Bytes) (s : PipelineState Bytes) : Prop where
  dispatch : Dispatch cfg s.core
  nodes : ∀ w node, s.workers.lookup w = some node → NodeOk s.core w node

/-- What a worker takes off its queue has its record. -/
theorem PipelineInv.received {s : PipelineState Bytes} {w : String}
    {envelope : BrokerEnvelope Bytes} {rest : List (BrokerEnvelope Bytes)}
    {assignment : AssignExecutionRequest} (h : PipelineInv cfg s)
    (hqueue : s.core.queues (workerDestination w) = envelope :: rest)
    (hdecode : cfg.assignExecution.decode envelope.payload = .ok assignment) :
    HasRecord s.core w assignment := by
  have hmem : envelope ∈ s.core.queues (workerDestination w) := hqueue ▸ List.mem_cons_self
  rcases h.dispatch.queued w envelope hmem with ⟨a, hdecode', hr⟩
  rw [hdecode, Except.ok.injEq] at hdecode'
  exact hdecode' ▸ hr

/-- Records stay, whoever takes the step. -/
theorem HasRecord.advances {s s' : PipelineState Bytes} {a : PipelineAct} {o : PipelineOut Bytes}
    (h : Advances cfg s a o s') {w : String} {asg : AssignExecutionRequest}
    (hr : HasRecord s.core w asg) : HasRecord s'.core w asg := by
  cases h with
  | core a o c h => exact hr.takes h
  | _ => exact hr

theorem dispatch_advances (hdest : ∀ w, cfg.taskDestination ≠ workerDestination w)
    {s s' : PipelineState Bytes} {a : PipelineAct} {o : PipelineOut Bytes}
    (h : Advances cfg s a o s') (hd : Dispatch cfg s.core) : Dispatch cfg s'.core := by
  cases h with
  | core a o c h => exact dispatch_step hdest h hd
  | undecodable w error node envelope rest hnode hqueue => exact dispatch_pop hqueue hd
  | received w node envelope rest assignment hnode hqueue hdecode => exact dispatch_pop hqueue hd
  | _ => exact hd

theorem pipelineInv_step (hdest : ∀ w, cfg.taskDestination ≠ workerDestination w)
    {s s' : PipelineState Bytes} {a : PipelineAct} {o : PipelineOut Bytes}
    (h : Advances cfg s a o s') (hi : PipelineInv cfg s) : PipelineInv cfg s' := by
  have hinv : ∀ w node, s.workers.lookup w = some node → Worker.Inv node.state :=
    fun w node hnode => (hi.nodes w node hnode).inv
  have hholds : ∀ w node, s'.workers.lookup w = some node → Holds (HasRecord s'.core w) node := by
    refine holds_advances hinv h (fun w asg hr => hr.advances h) ?_
      fun w node hnode => ⟨(hi.nodes w node hnode).pending, (hi.nodes w node hnode).held⟩
    rintro w asg rfl rfl
    -- what it takes off its queue has its record, and records stay
    have hadv := h
    cases h with
    | received _ node envelope rest _ hnode hqueue hdecode =>
        exact (hi.received hqueue hdecode).advances hadv
  refine ⟨dispatch_advances hdest h hi.dispatch, ?_⟩
  intro w node hnode
  exact ⟨inv_advances h hinv w node hnode, (hholds w node hnode).pending,
    (hholds w node hnode).held⟩

theorem pipeline_inv (hdest : ∀ w, cfg.taskDestination ≠ workerDestination w)
    {registry : MemoryWorkerRegistry} {tr : List (PipelineAct × PipelineOut Bytes)}
    {s : PipelineState Bytes} (h : (pipeline cfg registry).Run tr s) : PipelineInv cfg s := by
  refine h.invariant (I := PipelineInv cfg) ⟨dispatch_start registry, ?_⟩ ?_
  · intro w node hnode
    simp [pipeline] at hnode
  · intro s a t b hi hs
    exact pipelineInv_step hdest (pipeline_advances hs) hi

/-- Every name that one component holds of another's record resolves. -/
structure References (cfg : Config Bytes) (s : PipelineState Bytes) : Prop where
  tasks : ∀ env ∈ s.core.queues cfg.taskDestination,
    ∃ j, env.correlationId = some j ∧ j ∈ s.core.jobs
  assigned : ∀ w, ∀ env ∈ s.core.queues (workerDestination w), Delivers cfg s.core w env
  pending : ∀ w node, s.workers.lookup w = some node →
    ∀ id r, node.state.pending.assignments.lookup id = some r → HasRecord s.core w r.assignment
  executed : ∀ id e, s.core.executions.lookup id = some e → e.jobId ∈ s.core.jobs

theorem PipelineInv.references {s : PipelineState Bytes} (h : PipelineInv cfg s) :
    References cfg s where
  tasks := by
    intro env hmem
    rcases h.dispatch.integrity.queued _ env hmem with ⟨j, hj, hkn⟩
    exact ⟨j, hj, hkn.job⟩
  assigned := h.dispatch.queued
  pending := fun w node hnode => (h.nodes w node hnode).pending
  executed := fun id e he => (h.dispatch.integrity.executed id e he).job

/-- A `report_execution` about assignment `a` of worker `w` finds the
execution and the job, at each of its lookups. -/
structure Resolves (s : CoreState Bytes) (w : String) (a : AssignExecutionRequest) : Prop where
  record : HasRecord s w a
  job : a.jobId ∈ s.jobs
  resolved : ∀ k report state, s.reports.lookup k = some (.resolving report state) →
    report.executionId = a.executionId →
    ∃ s' o, s.resolved k (.ok ()) = some (s', o) ∧
      o ≠ .reported (.error ⟨.notFound, "execution not found"⟩) ∧
      ∀ pc, s'.reports.lookup k = some pc → pc.jobId = some a.jobId
  updated : ∀ k report state jobId outcome now,
    s.reports.lookup k = some (.updating report state jobId outcome) →
    report.executionId = a.executionId → ∃ s', s.stateUpdated k .done now = some (s', .silent)
  finished : ∀ k report outcome now, s.reports.lookup k = some (.finishing report a.jobId outcome) →
    ∃ s', s.jobUpdated k now = some (s', .reported (.ok ()))

theorem Dispatch.resolves {s : CoreState Bytes} {w : String} {a : AssignExecutionRequest}
    (h : Dispatch cfg s) (hr : HasRecord s w a) : Resolves s w a := by
  rcases hr with ⟨e, he, hid⟩
  have hjob : e.jobId = a.jobId := congrArg (fun x => x.2.1) hid
  have hmem : a.jobId ∈ s.jobs := hjob ▸ (h.integrity.executed _ e he).job
  refine ⟨⟨e, he, hid⟩, hmem, ?_, ?_, ?_⟩
  · -- the lookup: found, so what is left is a fault of the report itself
    intro k report state hpc hx
    rw [← hx] at he
    simp only [CoreState.resolved, hpc, he]
    cases hout : Core.reportOutcome report state with
    | error status =>
        refine ⟨_, _, rfl, ?_, ?_⟩
        · intro ho
          have hcode := Core.reportOutcome_error hout
          simp only [Core.Out.reported.injEq, Except.error.injEq] at ho
          simp [ho] at hcode
        · intro pc hlook
          exact absurd rfl (HashMap.lookup_erase_some hlook).1
    | ok outcome =>
        cases outcome with
        | none =>
            refine ⟨_, _, rfl, by simp, ?_⟩
            intro pc hlook
            rw [Finmap.lookup_insert, Option.some.injEq] at hlook
            rw [← hlook, ← hjob]
            rfl
        | some result =>
            refine ⟨_, _, rfl, by simp, ?_⟩
            intro pc hlook
            rw [Finmap.lookup_insert, Option.some.injEq] at hlook
            rw [← hlook, ← hjob]
            rfl
  · intro k report state jobId outcome now hpc hx
    rw [← hx] at he
    simp only [CoreState.stateUpdated, hpc, Core.MemoryExecutionStore.updateState, he]
    exact ⟨_, rfl⟩
  · intro k report outcome now hpc
    rcases Core.updateJob_cases s.jobs a.jobId outcome now with ⟨hnone, -⟩ | ⟨record, -, hup⟩
    · exact absurd hmem (Finmap.lookup_eq_none.mp hnone)
    · simp only [CoreState.jobUpdated, hpc, hup]
      exact ⟨_, rfl⟩

/-- Once a worker has received an assignment, the record stays. -/
theorem record_of_received (hdest : ∀ w, cfg.taskDestination ≠ workerDestination w)
    {registry : MemoryWorkerRegistry} {tr : List (PipelineAct × PipelineOut Bytes)}
    {s : PipelineState Bytes} (h : (pipeline cfg registry).Run tr s) :
    ∀ w a, (.receive w, .received a) ∈ tr → HasRecord s.core w a := by
  refine h.history (P := fun tr s => ∀ w a, (.receive w, .received a) ∈ tr →
    HasRecord s.core w a) (by simp) ?_
  intro tr s act t o hrun ih hs w a hmem
  have hadv := pipeline_advances hs
  rcases List.mem_append.mp hmem with hold | hnew
  · exact (ih w a hold).advances hadv
  · rw [List.mem_singleton, Prod.mk.injEq] at hnew
    rcases hnew with ⟨rfl, rfl⟩
    cases hadv with
    | received _ node envelope rest _ hnode hqueue hdecode =>
        exact (pipeline_inv hdest hrun).received hqueue hdecode

/-- **Referential integrity.** In every state that the control plane and its
workers can reach, with any failures, every reference resolves, and so does
every report about an assignment that a worker has received. -/
theorem pipeline_references (hdest : ∀ w, cfg.taskDestination ≠ workerDestination w)
    {registry : MemoryWorkerRegistry} {tr : List (PipelineAct × PipelineOut Bytes)}
    {s : PipelineState Bytes} (h : (pipeline cfg registry).Run tr s) :
    References cfg s ∧ ∀ w a, (.receive w, .received a) ∈ tr → Resolves s.core w a := by
  have hinv := pipeline_inv hdest h
  refine ⟨hinv.references, ?_⟩
  intro w a hmem
  exact hinv.dispatch.resolves (record_of_received hdest h w a hmem)

/-- A task goes through to its worker, which reports that it is running. -/
def oneDelivery : List PipelineAct :=
  [.core (.register (Core.plainWorker "w") 0), .start "w",
   .core (.submit "j" "m" Core.plainRequest 1), .core (.published "j" (.ok ()))] ++
  (Core.scheduled "j" "x" 0).map .core ++
  [.receive "w", .enqueue "w", .worker "w" (.connect "s" ⟨0⟩), .worker "w" (.nextFor "s"),
   .core (.report 0 (Core.plainReport "x" .running none))]

theorem pipeline_references_oneDelivery : ∃ tr s,
    (pipeline Core.symbolicConfig (.new 30 (by decide))).Run tr s ∧
      tr.map Prod.fst = oneDelivery ∧
      (.receive "w", .received (Core.assignmentFor Core.plainRequest "j" "j-a" "x")) ∈ tr ∧
      References Core.symbolicConfig s ∧
      ∀ w a, (.receive w, .received a) ∈ tr → Resolves s.core w a := by
  rcases Machine.run_of_exec (pipeline Core.symbolicConfig (.new 30 (by decide))) oneDelivery
    (P := fun tr _ =>
      (.receive "w", .received (Core.assignmentFor Core.plainRequest "j" "j-a" "x")) ∈ tr)
    (by decide +kernel) with ⟨tr, s, hrun, hacts, hmem⟩
  exact ⟨tr, s, hrun, hacts, hmem, pipeline_references Core.symbolicConfig_taskDestination hrun⟩

end References

end ThreadWeave
