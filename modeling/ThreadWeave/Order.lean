import ThreadWeave.Loops
import ThreadWeave.Results
import ThreadWeave.Runs.Sequences
import ThreadWeave.Worker.Queue

/-!
# First in, first out

`serve` runs one `Scheduler::run`, which waits for one `schedule_one` before it
calls the next. So the tasks of a control plane are sent out one at a time, and
each hop after that is a queue with one reader: the list of the worker, its
`execute_one`, the queue of its `PendingExecutions`. A disconnected session puts
its assignments back at the end of that queue, so hand-outs as such are in no
order; first hand-outs are.

* `publications`, `dispatchesTo`, `receiptsOf`, `queuedAt`, `handOuts` — what has
  passed each hop, in order.
* `SentInTurn` — what was sent, what is being sent and what is waiting, in the
  order of publication.
* `pending_run` — each worker of the pipeline runs its own `PendingExecutions`.

`first_in_first_out` puts the hops together.
-/

namespace ThreadWeave

open Runs (HashMap Machine)
open ThreadWeave.Core (Config CoreState Takes Integrity workerDestination assignmentsOn)

/-! ## The sessions of one worker -/

namespace Worker

/-- The assignments that the calls have put on the queue, in order. -/
def enqueuedIn (tr : List (Act × Answer)) : List AssignExecutionRequest :=
  tr.filterMap fun
    | (.enqueue asg, .enqueued (.ok _)) => some asg
    | _ => none

/-- The assignments that the calls have handed out, once for each time, in order. -/
def handedOut (tr : List (Act × Answer)) : List AssignExecutionRequest :=
  tr.filterMap fun
    | (.nextFor _, .handed asg) => some asg
    | _ => none

theorem enqueuedIds_eq (tr : List (Act × Answer)) :
    enqueuedIds (tr.filter fun x => x.1.onQueue) =
      (enqueuedIn tr).map AssignExecutionRequest.assignmentId := by
  unfold enqueuedIds enqueuedIn
  rw [List.filterMap_filter, List.map_filterMap]
  congr 1
  funext x
  rcases x with ⟨a, answer⟩
  cases a <;> cases answer <;> first | rfl | (rename_i r; cases r <;> rfl)

theorem handedIds_eq (tr : List (Act × Answer)) :
    handedIds (tr.filter fun x => x.1.onQueue) =
      (handedOut tr).map AssignExecutionRequest.assignmentId := by
  unfold handedIds handedOut
  rw [List.filterMap_filter, List.map_filterMap]
  congr 1
  funext x
  rcases x with ⟨a, answer⟩
  cases a <;> cases answer <;> first | rfl | (rename_i r; cases r <;> rfl)

/-- What has a record was enqueued. -/
theorem record_enqueued {tr : List (Act × Answer)} {w : WorkerState} (h : worker.Run tr w) :
    ∀ id r, w.pending.assignments.lookup id = some r → r.assignment ∈ enqueuedIn tr := by
  refine h.history (P := fun tr (w : WorkerState) => ∀ id r,
    w.pending.assignments.lookup id = some r → r.assignment ∈ enqueuedIn tr) ?_ ?_
  · intro id r hr
    simp [worker, PendingState.empty] at hr
  · intro tr w a w' answer hrun ih hs id r hr
    have heff := (step_effect (worker_inv hrun) hs).2.2
    cases step_works hs with
    | enqueued asg hnew =>
        rcases HashMap.lookup_insert_some hr with ⟨-, rfl⟩ | ⟨-, hold⟩
        · unfold enqueuedIn
          rw [Runs.filterMap_snoc]
          simp [PendingState.newRecord]
        · exact Runs.mem_filterMap_append (ih id r hold) _
    | enqueueRefused asg status => exact Runs.mem_filterMap_append (ih id r hr) _
    | moved a sid pc pc' ha hpc hne hne' => exact Runs.mem_filterMap_append (ih id r hr) _
    | _ =>
        -- no other call adds a record
        rcases heff.assignment hr with ⟨r₀, hr₀, hasg⟩ | hobs
        · exact Runs.mem_filterMap_append (hasg ▸ ih id r₀ hr₀) _
        · cases hobs

theorem handed_enqueued {tr : List (Act × Answer)} {w : WorkerState} (h : worker.Run tr w) :
    handedOut tr ⊆ enqueuedIn tr := by
  refine h.history (P := fun tr (_ : WorkerState) => handedOut tr ⊆ enqueuedIn tr) ?_ ?_
  · exact List.Subset.refl _
  · intro tr w a w' answer hrun ih hs asg hasg
    refine Runs.mem_filterMap_append ?_ _
    unfold handedOut at hasg
    rw [Runs.filterMap_snoc, List.mem_append] at hasg
    rcases hasg with hold | hnew
    · exact ih hold
    · cases step_works hs with
      | handed sid id q r hpc hq hr =>
          rw [Option.toList_some, List.mem_singleton] at hnew
          exact hnew ▸ record_enqueued hrun id r hr
      | moved a sid pc pc' ha hpc hne hne' =>
          simp only [List.mem_cons, List.not_mem_nil, or_false] at ha
          rcases ha with rfl | rfl | rfl | rfl
          all_goals cases hnew
      | _ => cases hnew

/-- First hand-outs are in the order of the queue, and nothing of the queue is
passed over. -/
theorem firstHandOuts_begin {tr : List (Act × Answer)} {w : WorkerState}
    (h : worker.Run tr w) : (handedOut tr).eraseDups <+: enqueuedIn tr := by
  have hfifo := pending_fifo (worker_calls h)
  rw [enqueuedIds_eq, handedIds_eq] at hfifo
  -- the ids tell the assignments apart
  have hinj : ∀ x ∈ enqueuedIn tr, ∀ y ∈ enqueuedIn tr,
      x.assignmentId = y.assignmentId → x = y :=
    fun x hx y hy => List.inj_on_of_nodup_map hfifo.distinct hx hy
  have hsub := handed_enqueued h
  refine Runs.prefix_of_map (f := AssignExecutionRequest.assignmentId) ?_ ?_
  · intro x hx y hy
    exact hinj x (hsub (List.mem_eraseDups.mp hx)) y hy
  · rw [← Runs.eraseDups_map fun x hx y hy => hinj x (hsub hx) y (hsub hy)]
    refine Runs.eraseDups_prefix_of_order (List.map_subset _ hsub) hfifo.distinct ?_
    intro u a v b x he hb
    exact hfifo.order a b ⟨u, v, x, he⟩ hb

end Worker

/-! ## What has passed each hop -/

section Hops

variable {Bytes : Type}

/-- The job whose task a step puts on the task queue. -/
def Core.Act.publication : Core.Act → Option String
  | .published jobId (.ok _) => some jobId
  | _ => none

/-- The jobs whose task was put on the task queue, in order. -/
def publications (tr : List (PipelineAct × PipelineOut Bytes)) : List String :=
  tr.filterMap fun
    | (.core a, _) => a.publication
    | _ => none

/-- The assignments sent to worker `w`, in order. -/
def dispatchesTo (w : String) (tr : List (PipelineAct × PipelineOut Bytes)) :
    List AssignExecutionRequest :=
  ((dispatches tr).filter fun d => d.1 = w).map Prod.snd

/-- The assignments that worker `w` took off its queue, in order. -/
def receiptsOf (w : String) (tr : List (PipelineAct × PipelineOut Bytes)) :
    List AssignExecutionRequest :=
  ((receipts tr).filter fun d => d.1 = w).map Prod.snd

/-- The call of `PendingExecutions` of worker `w` that a step makes. -/
def callAt (w : String) :
    PipelineAct × PipelineOut Bytes → Option (Worker.Act × Worker.Answer)
  | (.enqueue v, .executed (.ok asg)) =>
      if v = w then some (.enqueue asg, .enqueued (.ok ())) else none
  | (.worker v a, .worker answer) => if v = w then some (a, answer) else none
  | _ => none

def callsAt (w : String) (tr : List (PipelineAct × PipelineOut Bytes)) :
    List (Worker.Act × Worker.Answer) :=
  tr.filterMap (callAt w)

/-- The assignments that worker `w` has queued for its sessions, in order. -/
def queuedAt (w : String) (tr : List (PipelineAct × PipelineOut Bytes)) :
    List AssignExecutionRequest :=
  Worker.enqueuedIn (callsAt w tr)

/-- The assignments that sessions of worker `w` were handed, once for each time,
in order. -/
def handOuts (w : String) (tr : List (PipelineAct × PipelineOut Bytes)) :
    List AssignExecutionRequest :=
  Worker.handedOut (callsAt w tr)

end Hops

/-! ## The scheduler loop -/

/-- A call of `schedule_one` begins. -/
def PipelineAct.begins : PipelineAct → Bool
  | .core (.scheduleOne _) => true
  | _ => false

/-- `Scheduler::run` calls `schedule_one` when the one before has returned. -/
def OneLoop {Bytes : Type} (s : PipelineState Bytes) (a : PipelineAct) : Prop :=
  a.begins = true → s.core.schedules.keys = ∅

instance {Bytes : Type} (s : PipelineState Bytes) (a : PipelineAct) : Decidable (OneLoop s a) :=
  inferInstanceAs (Decidable (_ → _))

section Scheduler

variable {Bytes : Type} {cfg : Config Bytes} {c c' : CoreState Bytes}

/-- The jobs on the task queue, in order. -/
def waiting (cfg : Config Bytes) (c : CoreState Bytes) : List String :=
  (c.queues cfg.taskDestination).filterMap BrokerEnvelope.correlationId

/-- One call at most is in progress; what was sent, what that call has in hand
and what is waiting are in the order of publication. -/
structure SentInTurn (cfg : Config Bytes) (published sent : List String) (c : CoreState Bytes) :
    Prop where
  single : ∀ k k', k ∈ c.schedules → k' ∈ c.schedules → k = k'
  queued : (sent ++ waiting cfg c).Sublist published
  inHand : ∀ k pc asg, c.schedules.lookup k = some pc → pc.assignment = some asg →
    (sent ++ asg.jobId :: waiting cfg c).Sublist published

/-- A step that neither publishes nor sends nor consumes. -/
theorem SentInTurn.keep {published sent : List String} (hs : SentInTurn cfg published sent c)
    (hqueue : c'.queues cfg.taskDestination = c.queues cfg.taskDestination)
    (hkeys : ∀ k ∈ c'.schedules, k ∈ c.schedules)
    (hpcs : ∀ k pc asg, c'.schedules.lookup k = some pc → pc.assignment = some asg →
      ∃ pc₀, c.schedules.lookup k = some pc₀ ∧ pc₀.assignment = some asg) :
    SentInTurn cfg published sent c' := by
  have hwaiting : waiting cfg c' = waiting cfg c := by
    unfold waiting
    rw [hqueue]
  refine ⟨?_, ?_, ?_⟩
  · intro k k' hk hk'
    exact hs.single k k' (hkeys k hk) (hkeys k' hk')
  · rw [hwaiting]
    exact hs.queued
  · intro k pc asg hpc hasg
    rcases hpcs k pc asg hpc hasg with ⟨pc₀, hpc₀, hasg₀⟩
    rw [hwaiting]
    exact hs.inHand k pc₀ asg hpc₀ hasg₀

/-- A task is put on the task queue. -/
theorem SentInTurn.publish {published sent : List String} (hs : SentInTurn cfg published sent c)
    {j : String} (hwaiting : waiting cfg c' = waiting cfg c ++ [j])
    (hschedules : c'.schedules = c.schedules) : SentInTurn cfg (published ++ [j]) sent c' := by
  refine ⟨?_, ?_, ?_⟩
  · rw [hschedules]
    exact hs.single
  · rw [hwaiting, ← List.append_assoc]
    exact hs.queued.append_right [j]
  · intro k pc asg hpc hasg
    rw [hschedules] at hpc
    rw [hwaiting, ← List.cons_append, ← List.append_assoc]
    exact (hs.inHand k pc asg hpc hasg).append_right [j]

/-- The call in progress takes the next task. -/
theorem SentInTurn.consume {published sent : List String} (hs : SentInTurn cfg published sent c)
    {k : Nat} {w j : String} (hpc : c.schedules.lookup k = some (.consuming w))
    (hwaiting : waiting cfg c = j :: waiting cfg c')
    (hpcs : ∀ n pc asg, c'.schedules.lookup n = some pc → pc.assignment = some asg →
      c.schedules.lookup n = some pc ∨ asg.jobId = j)
    (hkeys : ∀ n ∈ c'.schedules, n ∈ c.schedules) : SentInTurn cfg published sent c' := by
  have hqueued := hs.queued
  rw [hwaiting] at hqueued
  refine ⟨?_, ?_, ?_⟩
  · intro n n' hn hn'
    exact hs.single n n' (hkeys n hn) (hkeys n' hn')
  · exact (List.Sublist.append_left (List.sublist_cons_self j _) sent).trans hqueued
  · intro n pc asg hn hasg
    rcases hpcs n pc asg hn hasg with hold | hj
    · -- the only call in progress has nothing in hand before
      have hnk : n = k := hs.single n k (Finmap.mem_of_lookup_eq_some hold)
        (Finmap.mem_of_lookup_eq_some hpc)
      rw [hnk, hpc, Option.some.injEq] at hold
      rw [← hold] at hasg
      cases hasg
    · rw [hj]
      exact hqueued

/-- The call in progress sends what it has in hand and returns. -/
theorem SentInTurn.send {published sent : List String} (hs : SentInTurn cfg published sent c)
    {k : Nat} {pc : Core.SchedulePc Bytes} {asg : AssignExecutionRequest}
    (hpc : c.schedules.lookup k = some pc) (hasg : pc.assignment = some asg)
    (hqueue : c'.queues cfg.taskDestination = c.queues cfg.taskDestination)
    (hschedules : c'.schedules = c.schedules.erase k) :
    SentInTurn cfg published (sent ++ [asg.jobId]) c' := by
  -- no other call is in progress
  have hnone : ∀ n, n ∉ c'.schedules := by
    intro n hn
    rw [hschedules, Finmap.mem_erase] at hn
    exact hn.1 (hs.single n k hn.2 (Finmap.mem_of_lookup_eq_some hpc))
  have hwaiting : waiting cfg c' = waiting cfg c := by
    unfold waiting
    rw [hqueue]
  refine ⟨?_, ?_, ?_⟩
  · intro n n' hn
    exact absurd hn (hnone n)
  · rw [hwaiting, List.append_assoc]
    exact hs.inHand k pc asg hpc hasg
  · intro n pc' asg' hn
    exact absurd (Finmap.mem_of_lookup_eq_some hn) (hnone n)

theorem sentInTurn_takes (hdest : ∀ w, cfg.taskDestination ≠ workerDestination w)
    {published sent : List String} {a : Core.Act} {o : Core.Out Bytes} (hi : Integrity cfg c)
    (hloop : ∀ k, a = .scheduleOne k → c.schedules.keys = ∅) (h : Takes cfg c a o c')
    (hs : SentInTurn cfg published sent c) :
    SentInTurn cfg (published ++ a.publication.toList)
      (sent ++ o.dispatch.toList.map fun d => d.2.jobId) c' := by
  have hnothing (hsame : SentInTurn cfg published sent c') :
      SentInTurn cfg (published ++ []) (sent ++ []) c' := by
    rw [List.append_nil, List.append_nil]
    exact hsame
  -- a step that leaves the queue alone and ends a call, or none
  have hquiet (hqueue : c'.queues cfg.taskDestination = c.queues cfg.taskDestination)
      (hpcs : ∀ n pc, c'.schedules.lookup n = some pc →
        c.schedules.lookup n = some pc ∨ (n ∈ c.schedules ∧ pc.assignment = none)) :
      SentInTurn cfg (published ++ []) (sent ++ []) c' := by
    refine hnothing (hs.keep hqueue ?_ ?_)
    · intro n hn
      rcases Finmap.mem_iff.mp hn with ⟨pc, hpc⟩
      rcases hpcs n pc hpc with hold | ⟨hmem, -⟩
      · exact Finmap.mem_of_lookup_eq_some hold
      · exact hmem
    · intro n pc asg hpc hasg
      rcases hpcs n pc hpc with hold | ⟨-, hnone⟩
      · exact ⟨pc, hold, hasg⟩
      · rw [hnone] at hasg
        cases hasg
  have hleave (k : Nat) (n : Nat) (pc : Core.SchedulePc Bytes)
      (hn : (c.schedules.erase k).lookup n = some pc) :
      c.schedules.lookup n = some pc ∨ (n ∈ c.schedules ∧ pc.assignment = none) :=
    Or.inl (HashMap.lookup_erase_some hn).2
  -- the head of the queue names its job
  have hhead (submitted : BrokerEnvelope Bytes) (rest : List (BrokerEnvelope Bytes))
      (hqueue : c.queues cfg.taskDestination = submitted :: rest) :
      ∃ j, submitted.correlationId = some j ∧
        waiting cfg c = j :: rest.filterMap BrokerEnvelope.correlationId := by
    have hmem : submitted ∈ c.queues cfg.taskDestination := hqueue ▸ List.mem_cons_self
    rcases hi.queued _ submitted hmem with ⟨j, hj, -⟩
    refine ⟨j, hj, ?_⟩
    unfold waiting
    rw [hqueue, List.filterMap_cons_some hj]
  cases h with
  | published j request job env hpc =>
      rcases hi.accepting j _ hpc with ⟨-, messageId, now, -, henv⟩
      have hdestination : env.destination = cfg.taskDestination := by
        rw [henv]
        rfl
      have hj : env.correlationId = some j := by
        rw [henv]
        rfl
      have hwaiting : waiting cfg ({ c.push env with
          accepts := c.accepts.insert j (.storing request job) } : CoreState Bytes) =
          waiting cfg c ++ [j] := by
        simp only [waiting, Core.push_queues, if_pos hdestination.symm]
        rw [Runs.filterMap_snoc, hj]
        rfl
      have hnext := hs.publish hwaiting rfl
      simpa [Core.Out.dispatch, Core.Act.publication] using hnext
  | scheduleOne k hfree =>
      have hempty := hloop k rfl
      have hnone : ∀ n, n ∉ c.schedules := by
        intro n hn
        rw [← Finmap.mem_keys, hempty] at hn
        exact absurd hn (Finset.notMem_empty n)
      refine hnothing ⟨?_, hs.queued, ?_⟩
      · intro n n' hn hn'
        have hone : ∀ m, m ∈ c.schedules.insert k .reading → m = k := by
          intro m hm
          rcases Finmap.mem_insert.mp hm with rfl | hold
          · rfl
          · exact absurd hold (hnone m)
        rw [hone n hn, hone n' hn']
      · intro n pc asg hn hasg
        rcases HashMap.lookup_insert_some hn with ⟨-, rfl⟩ | ⟨-, hold⟩
        · cases hasg
        · exact absurd (Finmap.mem_of_lookup_eq_some hold) (hnone n)
  | chosen k w rest hpc hread =>
      refine hquiet rfl ?_
      intro n pc hn
      rcases HashMap.lookup_insert_some hn with ⟨rfl, rfl⟩ | ⟨-, hold⟩
      · exact Or.inr ⟨Finmap.mem_of_lookup_eq_some hpc, rfl⟩
      · exact Or.inl hold
  | created k w asg submitted now hpc hnew =>
      refine hnothing (hs.keep rfl ?_ ?_)
      · intro n hn
        rcases Finmap.mem_insert.mp hn with rfl | hold
        · exact Finmap.mem_of_lookup_eq_some hpc
        · exact hold
      · intro n pc asg' hn hasg
        rcases HashMap.lookup_insert_some hn with ⟨rfl, rfl⟩ | ⟨-, hold⟩
        · exact ⟨_, hpc, hasg⟩
        · exact ⟨pc, hold, hasg⟩
  | undecodable k f asg x now w error submitted rest hpc hqueue hfresh hdecode =>
      rcases hhead submitted rest hqueue with ⟨j, -, hwaiting⟩
      refine hnothing (hs.consume hpc (j := j) ?_ ?_ ?_)
      · simpa [waiting] using hwaiting
      · intro n pc asg' hn hasg
        exact Or.inl (HashMap.lookup_erase_some hn).2
      · intro n hn
        exact (Finmap.mem_erase.mp hn).2
  | consumed k f asg x now w submitted rest request hpc hqueue hfresh hdecode =>
      rcases hhead submitted rest hqueue with ⟨j, hj, hwaiting⟩
      refine hnothing (hs.consume hpc (j := j) ?_ ?_ ?_)
      · simpa [waiting] using hwaiting
      · intro n pc asg' hn hasg
        rcases HashMap.lookup_insert_some hn with ⟨-, rfl⟩ | ⟨-, hold⟩
        · cases hasg
          exact Or.inr (by simp [Core.assignmentFor, hj])
        · exact Or.inl hold
      · intro n hn
        rcases Finmap.mem_insert.mp hn with rfl | hold
        · exact Finmap.mem_of_lookup_eq_some hpc
        · exact hold
  | dispatched k messageId now w asg submitted hpc hfresh =>
      have hne : cfg.taskDestination ≠
          (Core.assignEnvelope cfg w asg submitted messageId now).destination := hdest w
      have hqueue : ({ (c.draw [messageId]).push
          (Core.assignEnvelope cfg w asg submitted messageId now) with
          schedules := c.schedules.erase k } : CoreState Bytes).queues cfg.taskDestination =
          c.queues cfg.taskDestination := by
        simp only [Core.push_queues, if_neg hne]
        rfl
      have hnext := hs.send hpc rfl hqueue rfl
      simpa [Core.Act.publication, Core.Out.dispatch] using hnext
  | directoryFailed k error hpc => exact hquiet rfl (hleave k)
  | noWorker k hpc hread => exact hquiet rfl (hleave k)
  | consumeFailed k error w hpc => exact hquiet rfl (hleave k)
  | createFailed k answer error w asg submitted now hpc hcreate => exact hquiet rfl (hleave k)
  | dispatchFailed k messageId now error w asg submitted hpc hfresh =>
      exact hquiet rfl (hleave k)
  | refused a k status ha =>
      rcases ha with ⟨_, rfl⟩ | ⟨_, rfl⟩ | ⟨_, _, rfl⟩ | ⟨_, rfl⟩
      all_goals exact hquiet rfl fun n pc hn => Or.inl hn
  | _ => exact hquiet rfl fun n pc hn => Or.inl hn

end Scheduler

/-! ## Hop by hop -/

section Pipeline

variable {Bytes : Type} {cfg : Config Bytes} {registry : MemoryWorkerRegistry}
  {tr : List (PipelineAct × PipelineOut Bytes)} {s s' : PipelineState Bytes}

theorem pipeline_sentInTurn (hdest : ∀ w, cfg.taskDestination ≠ workerDestination w)
    (h : (pipeline cfg registry).Run tr s) (hloop : (pipeline cfg registry).Conforms OneLoop tr) :
    SentInTurn cfg (publications tr) ((dispatches tr).map fun d => d.2.jobId) s.core := by
  refine h.history_conforms (P := fun tr s =>
    SentInTurn cfg (publications tr) ((dispatches tr).map fun d => d.2.jobId) s.core) ?_ ?_ hloop
  · refine ⟨?_, ?_, ?_⟩
    · intro k k' hk
      exact absurd hk Finmap.notMem_empty
    · simp [pipeline, CoreState.start, dispatches, waiting]
    · simp [pipeline, CoreState.start]
  · intro tr s a s' o hrun ih hC hs
    have hadv : Advances cfg s a o s' := pipeline_advances hs
    have hi : Integrity cfg s.core := (pipeline_inv hdest hrun).dispatch.integrity
    have hother (ha : ∀ ca, a ≠ .core ca) : publications (tr ++ [(a, o)]) = publications tr ∧
        dispatches (tr ++ [(a, o)]) = dispatches tr := by
      refine ⟨?_, (histories_of_not_core tr o ha).2⟩
      unfold publications
      rw [Runs.filterMap_snoc]
      cases a with
      | core ca => exact absurd rfl (ha ca)
      | _ => exact List.append_nil _
    -- a worker takes an envelope off its own queue
    have hpop (w : String) (rest : List (BrokerEnvelope Bytes)) :
        (s.core.pop (workerDestination w) rest).queues cfg.taskDestination =
          s.core.queues cfg.taskDestination :=
      Function.update_of_ne (hdest w) _ _
    have hkeep (ha : ∀ ca, a ≠ .core ca)
        (hqueue : s'.core.queues cfg.taskDestination = s.core.queues cfg.taskDestination)
        (hschedules : s'.core.schedules = s.core.schedules) :
        SentInTurn cfg (publications (tr ++ [(a, o)]))
          ((dispatches (tr ++ [(a, o)])).map fun d => d.2.jobId) s'.core := by
      rw [(hother ha).1, (hother ha).2]
      refine ih.keep hqueue (fun k hk => hschedules ▸ hk) ?_
      intro k pc asg hpc hasg
      exact ⟨pc, hschedules ▸ hpc, hasg⟩
    cases hadv with
    | core ca co c htakes =>
        have hfree : ∀ k, ca = .scheduleOne k → s.core.schedules.keys = ∅ := by
          rintro k rfl
          exact hC rfl
        have hnext := sentInTurn_takes hdest hi hfree htakes ih
        have hpub : publications (tr ++ [(.core ca, .core co)]) =
            publications tr ++ ca.publication.toList := by
          unfold publications
          rw [Runs.filterMap_snoc]
        rw [hpub, dispatches_core, List.map_append]
        exact hnext
    | undecodable w error node envelope rest hnode hqueue =>
        exact hkeep (by simp) (hpop w rest) rfl
    | received w node envelope rest asg hnode hqueue hdecode =>
        exact hkeep (by simp) (hpop w rest) rfl
    | start w => exact hkeep (by simp) rfl rfl
    | receiveFailed w error node hnode => exact hkeep (by simp) rfl rfl
    | refused w node status hnode => exact hkeep (by simp) rfl rfl
    | enqueued w node asg hnode hloop' hnew => exact hkeep (by simp) rfl rfl
    | worker w act node state answer hnode hact hstep => exact hkeep (by simp) rfl rfl

/-- What a worker has received and what is on its queue is what was sent to it. -/
theorem received_in_turn (hdest : ∀ w, cfg.taskDestination ≠ workerDestination w)
    (h : (pipeline cfg registry).Run tr s) (w : String) :
    receiptsOf w tr ++ assignmentsOn cfg (s.core.queues (workerDestination w)) =
      dispatchesTo w tr := by
  refine h.history (P := fun tr s =>
    receiptsOf w tr ++ assignmentsOn cfg (s.core.queues (workerDestination w)) =
      dispatchesTo w tr) ?_ ?_
  · simp [receiptsOf, receipts, dispatchesTo, dispatches, pipeline, CoreState.start,
      assignmentsOn]
  · intro tr s a s' o hrun ih hs
    have hinv := pipeline_inv hdest hrun
    have hadv : Advances cfg s a o s' := pipeline_advances hs
    -- a step that neither sends nor receives
    have hquiet (ha : ∀ ca, a ≠ .core ca) (ho : ∀ asg, o ≠ .received asg)
        (hc : s'.core = s.core) :
        receiptsOf w (tr ++ [(a, o)]) ++
          assignmentsOn cfg (s'.core.queues (workerDestination w)) =
          dispatchesTo w (tr ++ [(a, o)]) := by
      unfold receiptsOf dispatchesTo
      rw [receipts_of_not_received tr a ho, (histories_of_not_core tr o ha).2, hc]
      exact ih
    cases hadv with
    | core ca co c htakes =>
        have hqueue := Core.assignmentsOn_takes hdest hinv.dispatch.integrity htakes w
        have hreceipts : receiptsOf w (tr ++ [(.core ca, .core co)]) = receiptsOf w tr := by
          unfold receiptsOf
          rw [receipts_of_not_received tr _ (by simp)]
        unfold dispatchesTo
        rw [hreceipts, hqueue, dispatches_core, List.filter_append, List.map_append,
          ← List.append_assoc, ih]
        rfl
    | undecodable v error node envelope rest hnode hqueue =>
        -- what is on the queue decodes
        rcases receive_refused hs with ⟨env, error, hmem, hbad⟩
        rcases hinv.dispatch.queued v env hmem with ⟨asg, hdecode, -⟩
        rw [hbad] at hdecode
        cases hdecode
    | received v node envelope rest asg hnode hqueue hdecode =>
        have hdis := (histories_of_not_core (a := .receive v) tr (.received asg) (by simp)).2
        have hone : assignmentsOn cfg (envelope :: rest) = asg :: assignmentsOn cfg rest := by
          unfold assignmentsOn
          rw [List.filterMap_cons_some (by rw [hdecode]; rfl)]
        unfold receiptsOf dispatchesTo at ih ⊢
        rw [hdis, receipts_received, List.filter_append, List.map_append, ← ih]
        by_cases hv : v = w
        · subst hv
          have hrest : (s.core.pop (workerDestination v) rest).queues (workerDestination v) =
              rest := Function.update_self _ _ _
          have hfilter : ([(v, asg)].filter fun d => d.1 = v) = [(v, asg)] := by simp
          rw [hqueue, hone, hfilter]
          simp only [PipelineState.setNode, hrest, List.map_cons, List.map_nil,
            List.append_assoc, List.singleton_append]
        · have hne : workerDestination w ≠ workerDestination v := by
            intro he
            exact hv (Core.workerDestination_inj.mp he).symm
          have hrest : (s.core.pop (workerDestination v) rest).queues (workerDestination w) =
              s.core.queues (workerDestination w) := Function.update_of_ne hne _ _
          have hfilter : ([(v, asg)].filter fun d => d.1 = w) = [] := by simp [hv]
          simp only [PipelineState.setNode, hrest, hfilter, List.map_nil, List.append_nil]
    | start v => exact hquiet (by simp) (by simp) rfl
    | receiveFailed v error node hnode => exact hquiet (by simp) (by simp) rfl
    | refused v node status hnode => exact hquiet (by simp) (by simp) rfl
    | enqueued v node asg hnode hloop hnew => exact hquiet (by simp) (by simp) rfl
    | worker v act node state answer hnode hact hstep => exact hquiet (by simp) (by simp) rfl

/-- The worker whose step it is. -/
def PipelineAct.actor : PipelineAct → Option String
  | .core _ => none
  | .start w | .receive w | .receiveFailed w _ | .enqueue w | .worker w _ => some w

theorem callsAt_snoc (w : String) (tr : List (PipelineAct × PipelineOut Bytes))
    (x : PipelineAct × PipelineOut Bytes) :
    callsAt w (tr ++ [x]) = callsAt w tr ++ (callAt w x).toList := by
  unfold callsAt
  rw [Runs.filterMap_snoc]

/-- Steps of others do not show at worker `w`. -/
theorem others_apart {a : PipelineAct} {o : PipelineOut Bytes} {w : String}
    (h : Advances cfg s a o s') (ha : a.actor ≠ some w) :
    s'.workers.lookup w = s.workers.lookup w ∧ callsAt w (tr ++ [(a, o)]) = callsAt w tr ∧
      receiptsOf w (tr ++ [(a, o)]) = receiptsOf w tr := by
  have hcalls (hnone : callAt w (a, o) = none) : callsAt w (tr ++ [(a, o)]) = callsAt w tr := by
    rw [callsAt_snoc, hnone, Option.toList_none, List.append_nil]
  have hreceipts (ho : ∀ asg, o ≠ .received asg) :
      receiptsOf w (tr ++ [(a, o)]) = receiptsOf w tr := by
    unfold receiptsOf
    rw [receipts_of_not_received tr a ho]
  have hne (v : String) (hv : some v ≠ some w) : w ≠ v := by
    rintro rfl
    exact hv rfl
  cases h with
  | core ca co c htakes => exact ⟨rfl, hcalls rfl, hreceipts (by simp)⟩
  | start v =>
      exact ⟨Finmap.lookup_insert_of_ne _ (hne v ha), hcalls rfl, hreceipts (by simp)⟩
  | undecodable v error node envelope rest hnode hqueue =>
      exact ⟨Finmap.lookup_insert_of_ne _ (hne v ha), hcalls rfl, hreceipts (by simp)⟩
  | received v node envelope rest asg hnode hqueue hdecode =>
      refine ⟨Finmap.lookup_insert_of_ne _ (hne v ha), hcalls rfl, ?_⟩
      unfold receiptsOf
      rw [receipts_received, List.filter_append, List.map_append]
      simp [(hne v ha).symm]
  | receiveFailed v error node hnode =>
      exact ⟨Finmap.lookup_insert_of_ne _ (hne v ha), hcalls rfl, hreceipts (by simp)⟩
  | refused v node status hnode =>
      exact ⟨Finmap.lookup_insert_of_ne _ (hne v ha), hcalls rfl, hreceipts (by simp)⟩
  | enqueued v node asg hnode hloop hnew =>
      exact ⟨Finmap.lookup_insert_of_ne _ (hne v ha), hcalls (if_neg (hne v ha).symm),
        hreceipts (by simp)⟩
  | worker v act node state answer hnode hact hstep =>
      exact ⟨Finmap.lookup_insert_of_ne _ (hne v ha), hcalls (if_neg (hne v ha).symm),
        hreceipts (by simp)⟩

/-- What the loop of a worker has in hand is what it has received and not yet queued. -/
def ExecutePc.InTurn (queued received : List AssignExecutionRequest) : ExecutePc → Prop
  | .consuming => queued = received
  | .queueing asg => queued ++ [asg] = received
  | .stopped => queued <+: received

theorem ExecutePc.InTurn.begins {queued received : List AssignExecutionRequest}
    {loop : ExecutePc} (h : loop.InTurn queued received) : queued <+: received := by
  cases loop with
  | consuming => exact h ▸ List.prefix_refl _
  | queueing asg => exact h ▸ List.prefix_append _ _
  | stopped => exact h

/-- A worker of the pipeline, by its own calls. -/
structure NodeRuns (tr : List (PipelineAct × PipelineOut Bytes)) (w : String)
    (node : WorkerNode) : Prop where
  run : Worker.worker.Run (callsAt w tr) node.state
  loop : node.loop.InTurn (queuedAt w tr) (receiptsOf w tr)

/-- Where worker `w` stands: not started, or running. -/
structure AtWorker (tr : List (PipelineAct × PipelineOut Bytes)) (s : PipelineState Bytes)
    (w : String) : Prop where
  idle : w ∉ s.workers → callsAt w tr = [] ∧ receiptsOf w tr = []
  runs : ∀ node, s.workers.lookup w = some node → NodeRuns tr w node

theorem enqueue_ok {w : String} {asg : AssignExecutionRequest}
    (h : s.enqueue w = some (s', .executed (.ok asg))) :
    ∃ node p, s.workers.lookup w = some node ∧ node.loop = .queueing asg ∧
      node.state.pending.enqueue asg = (p, .ok ()) ∧
      s' = s.setNode w { state := { node.state with pending := p }, loop := .consuming } := by
  unfold PipelineState.enqueue at h
  split at h
  · cases h
  · rename_i node hnode
    split at h
    · rename_i asg' hloop
      rcases hp : node.state.pending.enqueue asg' with ⟨p, _ | _⟩
      · rw [hp] at h
        cases h
      · rw [hp] at h
        cases h
        exact ⟨node, p, hnode, hloop, hp, rfl⟩
    · cases h

theorem receive_consuming {w : String} {node : WorkerNode} {o : PipelineOut Bytes}
    (h : s.receive cfg w = some (s', o)) (hnode : s.workers.lookup w = some node) :
    node.loop = .consuming := by
  unfold PipelineState.receive at h
  rw [hnode] at h
  dsimp only at h
  split at h
  · rename_i hloop hqueue
    exact hloop
  · cases h

theorem enqueuedIn_snoc (calls : List (Worker.Act × Worker.Answer))
    (x : Worker.Act × Worker.Answer) (hx : x.1.isEnqueue = false) :
    Worker.enqueuedIn (calls ++ [x]) = Worker.enqueuedIn calls := by
  unfold Worker.enqueuedIn
  rw [Runs.filterMap_snoc]
  rcases x with ⟨act, answer⟩
  cases act with
  | enqueue asg => cases hx
  | _ => exact List.append_nil _

theorem atWorker_step {a : PipelineAct} {o : PipelineOut Bytes} {w : String}
    (hs : s.step cfg a = some (s', o)) (h : AtWorker tr s w) : AtWorker (tr ++ [(a, o)]) s' w := by
  have hadv : Advances cfg s a o s' := pipeline_advances hs
  by_cases ha : a.actor = some w
  · -- the node of `w` is written
    have hset (node : WorkerNode) (hlook : s'.workers.lookup w = some node)
        (hruns : NodeRuns (tr ++ [(a, o)]) w node) : AtWorker (tr ++ [(a, o)]) s' w := by
      refine ⟨fun hnot => absurd (Finmap.mem_of_lookup_eq_some hlook) hnot, ?_⟩
      intro node' hlook'
      rw [hlook, Option.some.injEq] at hlook'
      exact hlook' ▸ hruns
    have hreceipts (ho : ∀ asg, o ≠ .received asg) :
        receiptsOf w (tr ++ [(a, o)]) = receiptsOf w tr := by
      unfold receiptsOf
      rw [receipts_of_not_received tr a ho]
    have hcalls (hnone : callAt w (a, o) = none) :
        callsAt w (tr ++ [(a, o)]) = callsAt w tr := by
      rw [callsAt_snoc, hnone, Option.toList_none, List.append_nil]
    -- the loop stops
    have hstops (node : WorkerNode) (hnode : s.workers.lookup w = some node)
        (hnone : callAt w (a, o) = none) (ho : ∀ asg, o ≠ .received asg) :
        NodeRuns (tr ++ [(a, o)]) w { node with loop := .stopped } := by
      refine ⟨?_, ?_⟩
      · rw [hcalls hnone]
        exact (h.runs node hnode).run
      · unfold queuedAt
        rw [hcalls hnone, hreceipts ho]
        exact (h.runs node hnode).loop.begins
    cases hadv with
    | core ca co c htakes => cases ha
    | start v =>
        cases ha
        have hnew : w ∉ s.workers := by
          intro hmem
          simp only [PipelineState.step, if_pos hmem] at hs
          cases hs
        rcases h.idle hnew with ⟨hc, hr⟩
        refine hset _ (Finmap.lookup_insert _) ⟨?_, ?_⟩
        · rw [hcalls rfl, hc]
          exact Machine.Steps.refl
        · unfold queuedAt
          rw [hcalls rfl, hc, hreceipts (by simp), hr]
          rfl
    | undecodable v error node envelope rest hnode hqueue =>
        cases ha
        exact hset _ (Finmap.lookup_insert _) (hstops node hnode rfl (by simp))
    | received v node envelope rest asg hnode hqueue hdecode =>
        cases ha
        have hconsuming : node.loop = .consuming := receive_consuming hs hnode
        refine hset _ (Finmap.lookup_insert _) ⟨?_, ?_⟩
        · rw [hcalls rfl]
          exact (h.runs node hnode).run
        · have hloop := (h.runs node hnode).loop
          rw [hconsuming] at hloop
          unfold receiptsOf queuedAt at hloop ⊢
          rw [hcalls rfl, receipts_received, List.filter_append, List.map_append]
          have heq : Worker.enqueuedIn (callsAt w tr) =
              ((receipts tr).filter fun d => d.1 = w).map Prod.snd := hloop
          rw [heq]
          simp [ExecutePc.InTurn]
    | receiveFailed v error node hnode =>
        cases ha
        exact hset _ (Finmap.lookup_insert _) (hstops node hnode rfl (by simp))
    | refused v node status hnode =>
        cases ha
        exact hset _ (Finmap.lookup_insert _) (hstops node hnode rfl (by simp))
    | enqueued v node asg hnode hloop hnew =>
        cases ha
        rcases enqueue_ok hs with ⟨node', p, hnode', hloop', hp, heq⟩
        rw [hnode, Option.some.injEq] at hnode'
        subst hnode'
        have hone : callAt w (.enqueue w, (.executed (.ok asg) : PipelineOut Bytes)) =
            some (.enqueue asg, .enqueued (.ok ())) := if_pos rfl
        have hstep : Worker.worker.step node.state (.enqueue asg) =
            some ({ node.state with pending := p }, .enqueued (.ok ())) := by
          simp [Worker.worker, Worker.WorkerState.step, hp]
        refine hset { state := { node.state with pending := p }, loop := .consuming }
          (by rw [heq]; exact Finmap.lookup_insert _) ⟨?_, ?_⟩
        · rw [callsAt_snoc, hone]
          exact (h.runs node hnode).run.snoc hstep
        · have hturn := (h.runs node hnode).loop
          rw [hloop] at hturn
          unfold queuedAt
          rw [hreceipts (by simp), callsAt_snoc, hone]
          unfold Worker.enqueuedIn
          rw [Option.toList_some, Runs.filterMap_snoc]
          exact hturn
    | worker v act node state answer hnode hact hstep =>
        cases ha
        have hone : callAt w (.worker w act, (.worker answer : PipelineOut Bytes)) =
            some (act, answer) := if_pos rfl
        refine hset _ (Finmap.lookup_insert _) ⟨?_, ?_⟩
        · rw [callsAt_snoc, hone]
          exact (h.runs node hnode).run.snoc hstep
        · unfold queuedAt
          rw [hreceipts (by simp), callsAt_snoc, hone, Option.toList_some,
            enqueuedIn_snoc _ _ hact]
          exact (h.runs node hnode).loop
  · have hapart : s'.workers.lookup w = s.workers.lookup w ∧
        callsAt w (tr ++ [(a, o)]) = callsAt w tr ∧
        receiptsOf w (tr ++ [(a, o)]) = receiptsOf w tr := others_apart hadv ha
    rcases hapart with ⟨hlook, hcalls, hreceipts⟩
    refine ⟨?_, ?_⟩
    · intro hnot
      rw [hcalls, hreceipts]
      refine h.idle ?_
      rw [← Finmap.lookup_eq_none, ← hlook, Finmap.lookup_eq_none]
      exact hnot
    · intro node hnode
      have hruns := h.runs node (hlook ▸ hnode)
      refine ⟨?_, ?_⟩
      · rw [hcalls]
        exact hruns.run
      · unfold queuedAt
        rw [hcalls, hreceipts]
        exact hruns.loop

theorem pipeline_atWorker (h : (pipeline cfg registry).Run tr s) (w : String) :
    AtWorker tr s w := by
  refine h.history (P := fun tr s => AtWorker tr s w) ?_ ?_
  · refine ⟨fun _ => ⟨rfl, rfl⟩, ?_⟩
    intro node hnode
    simp [pipeline] at hnode
  · intro tr s a s' o _ ih hs
    have hstep : s.step cfg a = some (s', o) := hs
    exact atWorker_step hstep ih

/-! ## First in, first out -/

/-- The order of each hop is that of the one before. -/
structure InOrder (tr : List (PipelineAct × PipelineOut Bytes)) : Prop where
  /-- tasks are sent out in the order in which they were published -/
  sent : ((dispatches tr).map fun d => d.2.jobId).Sublist (publications tr)
  /-- a worker receives what was sent to it, in that order, leaving nothing out -/
  received : ∀ w, receiptsOf w tr <+: dispatchesTo w tr
  /-- sessions are first handed what their worker received, in that order, leaving
  nothing out -/
  handed : ∀ w, (handOuts w tr).eraseDups <+: receiptsOf w tr
  /-- so the sessions of a worker first see tasks in the order of publication -/
  seen : ∀ w, ((handOuts w tr).eraseDups.map AssignExecutionRequest.jobId).Sublist
    (publications tr)

/-- **First in, first out.** In every run in which calls of `schedule_one` do not
overlap, tasks pass each hop in the order of publication, up to their first
hand-out to a session. -/
theorem first_in_first_out (hdest : ∀ w, cfg.taskDestination ≠ workerDestination w)
    (h : (pipeline cfg registry).Run tr s) (hloop : (pipeline cfg registry).Conforms OneLoop tr) :
    InOrder tr := by
  have hsent : ((dispatches tr).map fun d => d.2.jobId).Sublist (publications tr) :=
    (List.sublist_append_left _ _).trans (pipeline_sentInTurn hdest h hloop).queued
  have hreceived : ∀ w, receiptsOf w tr <+: dispatchesTo w tr :=
    fun w => ⟨_, received_in_turn hdest h w⟩
  have hhanded : ∀ w, (handOuts w tr).eraseDups <+: receiptsOf w tr := by
    intro w
    have hw := pipeline_atWorker h w
    cases hnode : s.workers.lookup w with
    | none =>
        unfold handOuts
        rw [(hw.idle (Finmap.lookup_eq_none.mp hnode)).1]
        exact List.nil_prefix
    | some node =>
        have hruns := hw.runs node hnode
        exact (Worker.firstHandOuts_begin hruns.run).trans hruns.loop.begins
  refine ⟨hsent, hreceived, hhanded, ?_⟩
  intro w
  have hto : ((dispatchesTo w tr).map AssignExecutionRequest.jobId).Sublist
      ((dispatches tr).map fun d => d.2.jobId) := by
    unfold dispatchesTo
    rw [List.map_map]
    exact List.filter_sublist.map _
  have hhop : ((handOuts w tr).eraseDups.map AssignExecutionRequest.jobId).Sublist
      ((dispatchesTo w tr).map AssignExecutionRequest.jobId) :=
    ((hhanded w).trans (hreceived w)).sublist.map _
  exact hhop.trans (hto.trans hsent)

/-- Two tasks reach a session, which disconnects and leaves them to another one
in the other order. -/
def handedBack : List PipelineAct :=
  twoDeliveries ++
  [.worker "w" (.connect "s" ⟨0⟩), .worker "w" (.nextFor "s"), .worker "w" (.resume "s"),
   .worker "w" (.nextFor "s"), .worker "w" (.leave "s"),
   .worker "w" (.disconnect "s" ["i-a", "j-a"]), .worker "w" (.connect "t" ⟨1⟩),
   .worker "w" (.nextFor "t"), .worker "w" (.resume "t"), .worker "w" (.nextFor "t")]

theorem first_in_first_out_handedBack : ∃ tr s,
    (pipeline Core.symbolicConfig (.new 30 (by decide))).Run tr s ∧
    tr.map Prod.fst = handedBack ∧ publications tr = ["j", "i"] ∧
    (handOuts "w" tr).map AssignExecutionRequest.jobId = ["j", "i", "i", "j"] ∧
    (pipeline Core.symbolicConfig (.new 30 (by decide))).Conforms OneLoop tr ∧ InOrder tr := by
  rcases Machine.run_of_exec (pipeline Core.symbolicConfig (.new 30 (by decide))) handedBack
    (P := fun tr _ => publications tr = ["j", "i"] ∧
      (handOuts "w" tr).map AssignExecutionRequest.jobId = ["j", "i", "i", "j"])
    (by decide +kernel) with ⟨tr, s, hrun, hacts, hpub, hhanded⟩
  have hloop : (pipeline Core.symbolicConfig (.new 30 (by decide))).Conforms OneLoop tr := by
    apply Machine.conforms_of_checks
    rw [hacts]
    decide +kernel
  exact ⟨tr, s, hrun, hacts, hpub, hhanded, hloop,
    first_in_first_out Core.symbolicConfig_taskDestination hrun hloop⟩

end Pipeline

end ThreadWeave
