import ThreadWeave.Core.Once
import ThreadWeave.Pipeline

/-!
# At most once, and faithfully

The way of a submitted request through the pipeline: `accept`, the task queue,
`schedule_one`, the queue of one worker, the worker's `PendingState`, a runtime
session. What has passed each hop is read off the trace: `submissions`,
`dispatches`, `receipts`.

`faithful_at_most_once`: a request has at most one execution record and is
dispatched and received at most once, and the command that a session is handed
carries what that request asked for.
-/

namespace ThreadWeave

open Runs (HashMap Machine)
open ThreadWeave.Core (Config CoreState Takes Integrity workerDestination Once Content MadeOf
  assignmentsOn)

/-! ## Histories -/

section Histories

variable {Bytes : Type}

/-- The job ids that `accept` calls have drawn, in order. -/
def submissions (tr : List (PipelineAct × PipelineOut Bytes)) : List String :=
  tr.filterMap fun
    | (.core (.submit jobId _ _ _), _) => some jobId
    | _ => none

/-- The assignments sent, each with the worker it was sent to, in order. -/
def dispatches (tr : List (PipelineAct × PipelineOut Bytes)) :
    List (String × AssignExecutionRequest) :=
  tr.filterMap fun
    | (.core _, .core o) => o.dispatch
    | _ => none

/-- The assignments received, each with the worker that took it off its queue. -/
def receipts (tr : List (PipelineAct × PipelineOut Bytes)) :
    List (String × AssignExecutionRequest) :=
  tr.filterMap fun
    | (.receive w, .received assignment) => some (w, assignment)
    | _ => none

/-- `request` was submitted as job `j`. -/
def Submitted (tr : List (PipelineAct × PipelineOut Bytes)) (j : String)
    (request : SubmitTaskRequest) : Prop :=
  ∃ messageId now o, (.core (.submit j messageId request now), o) ∈ tr

variable {tr : List (PipelineAct × PipelineOut Bytes)} {a : PipelineAct} {o : PipelineOut Bytes}

theorem Submitted.append {j : String} {request : SubmitTaskRequest}
    (h : Submitted tr j request) (tr' : List (PipelineAct × PipelineOut Bytes)) :
    Submitted (tr ++ tr') j request := by
  rcases h with ⟨messageId, now, o, hmem⟩
  exact ⟨messageId, now, o, List.mem_append_left _ hmem⟩

theorem dispatches_core (tr : List (PipelineAct × PipelineOut Bytes)) (a : Core.Act)
    (o : Core.Out Bytes) :
    dispatches (tr ++ [(.core a, .core o)]) = dispatches tr ++ o.dispatch.toList := by
  unfold dispatches
  rw [Runs.filterMap_snoc]

theorem receipts_received (tr : List (PipelineAct × PipelineOut Bytes)) (w : String)
    (asg : AssignExecutionRequest) :
    receipts (tr ++ [(.receive w, .received asg)]) = receipts tr ++ [(w, asg)] := by
  unfold receipts
  rw [Runs.filterMap_snoc]
  rfl

/-- Only the control plane submits and sends. -/
theorem histories_of_not_core (tr : List (PipelineAct × PipelineOut Bytes))
    (o : PipelineOut Bytes) (ha : ∀ c, a ≠ .core c) :
    submissions (tr ++ [(a, o)]) = submissions tr ∧
      dispatches (tr ++ [(a, o)]) = dispatches tr := by
  cases a with
  | core c => exact absurd rfl (ha c)
  | _ =>
      unfold submissions dispatches
      rw [Runs.filterMap_snoc, Runs.filterMap_snoc]
      exact ⟨List.append_nil _, List.append_nil _⟩

theorem receipts_of_not_received (tr : List (PipelineAct × PipelineOut Bytes))
    (a : PipelineAct) (ho : ∀ asg, o ≠ .received asg) :
    receipts (tr ++ [(a, o)]) = receipts tr := by
  cases o with
  | received asg => exact absurd rfl (ho asg)
  | _ =>
      unfold receipts
      rw [Runs.filterMap_snoc]
      cases a <;> exact List.append_nil _

end Histories

/-! ## The hands of a worker -/

section Hands

variable {Bytes : Type} {cfg : Config Bytes} {s s' : PipelineState Bytes}

/-- A session is handed what its worker holds. -/
theorem handed_held {P : String → AssignExecutionRequest → Prop} {w sid : String}
    {asg : AssignExecutionRequest}
    (h : Advances cfg s (.worker w (.nextFor sid)) (.worker (.handed asg)) s')
    (hP : ∀ w node, s.workers.lookup w = some node → Holds (P w) node) : P w asg := by
  cases h with
  | worker _ _ node state _ hnode hact hstep =>
      have hworks : Worker.Works node.state (.nextFor sid) (.handed asg) state :=
        Worker.step_works hstep
      cases hworks with
      | handed _ id q r hpc hq hr => exact (hP w node hnode).pending id r hr

end Hands

/-! ## The invariant -/

section Delivery

variable {Bytes : Type} {cfg : Config Bytes} {s s' : PipelineState Bytes}
  {tr : List (PipelineAct × PipelineOut Bytes)}

/-- Everything sent to `w` is still on its queue or has been received, once. -/
def Counted (cfg : Config Bytes) (core : CoreState Bytes)
    (sent received : List (String × AssignExecutionRequest)) : Prop :=
  ∀ w asg, (assignmentsOn cfg (core.queues (workerDestination w))).count asg +
    received.count (w, asg) ≤ sent.count (w, asg)

theorem counted_takes (hdest : ∀ w, cfg.taskDestination ≠ workerDestination w)
    {c c' : CoreState Bytes} {a : Core.Act} {o : Core.Out Bytes}
    {sent received : List (String × AssignExecutionRequest)} (hi : Integrity cfg c)
    (h : Takes cfg c a o c') (hc : Counted cfg c sent received) :
    Counted cfg c' (sent ++ o.dispatch.toList) received := by
  intro w asg
  have hold := hc w asg
  have hnew : ((o.dispatch.toList.filter (fun d => d.1 = w)).map Prod.snd).count asg =
      o.dispatch.toList.count (w, asg) := by
    cases hd : o.dispatch with
    | none => rfl
    | some d =>
        rcases d with ⟨w', asg'⟩
        by_cases hw : w' = w
        · simp [hw, List.count_singleton]
        · simp [hw]
  rw [Core.assignmentsOn_takes hdest hi h, List.count_append, List.count_append, hnew]
  omega

/-- The control plane, by what has been submitted to it and sent by it. -/
structure Sent (cfg : Config Bytes) (tr : List (PipelineAct × PipelineOut Bytes))
    (c : CoreState Bytes) : Prop where
  distinct : (submissions tr).Nodup
  drawn : ∀ j ∈ submissions tr, j ∈ c.drawn
  once : Once cfg c (dispatches tr)
  submitted : ∀ j ∈ Core.tokens cfg c, j ∈ submissions tr
  content : Content cfg (Submitted tr) c
  recorded : ∀ d ∈ dispatches tr, HasRecord c d.1 d.2
  madeOf : ∀ d ∈ dispatches tr, MadeOf (Submitted tr) d.2

/-- A step of the control plane submits nothing, or one job under a fresh id. -/
theorem submissions_takes {c c' : CoreState Bytes} {a : Core.Act} {o : Core.Out Bytes}
    (h : Takes cfg c a o c') (tr : List (PipelineAct × PipelineOut Bytes)) :
    submissions (tr ++ [(.core a, .core o)]) = submissions tr ∨
    ∃ j, j ∉ c.drawn ∧ j ∈ c'.drawn ∧
      submissions (tr ++ [(.core a, .core o)]) = submissions tr ++ [j] := by
  cases a with
  | submit j m request now =>
      refine Or.inr ⟨j, ?_, ?_, by simp [submissions]⟩
      · cases h with
        | submit _ _ _ _ hfresh => exact (hfresh.2 j List.mem_cons_self).1
        | refused _ k status ha => simp at ha
      · cases h with
        | submit _ _ _ _ hfresh => simp [CoreState.draw]
        | refused _ k status ha => simp at ha
  | _ =>
      left
      unfold submissions
      rw [Runs.filterMap_snoc]
      exact List.append_nil _

theorem Sent.takes (hdest : ∀ w, cfg.taskDestination ≠ workerDestination w)
    {c c' : CoreState Bytes} {a : Core.Act} {o : Core.Out Bytes} (hd : Dispatch cfg c)
    (h : Takes cfg c a o c') (hs : Sent cfg tr c) :
    Sent cfg (tr ++ [(.core a, .core o)]) c' := by
  have hmono : ∀ j r, Submitted tr j r → Submitted (tr ++ [(.core a, .core o)]) j r :=
    fun j r hr => hr.append _
  have hsub : ∀ j ∈ submissions tr, j ∈ submissions (tr ++ [(.core a, .core o)]) :=
    fun j hj => Runs.mem_filterMap_append hj _
  refine ⟨?_, ?_, ?_, ?_, ?_, ?_, ?_⟩
  · rcases submissions_takes h tr with he | ⟨j, hj, -, he⟩
    · rw [he]
      exact hs.distinct
    · rw [he]
      refine List.nodup_append.mpr ⟨hs.distinct, List.nodup_singleton j, ?_⟩
      intro i hi j' hj' heq
      rw [List.mem_singleton] at hj'
      exact hj (hj' ▸ heq ▸ hs.drawn i hi)
  · intro i hi
    rcases submissions_takes h tr with he | ⟨j, -, hj, he⟩
    · exact Core.drawn_stays h (hs.drawn i (he ▸ hi))
    · rw [he] at hi
      rcases List.mem_append.mp hi with hold | hnew
      · exact Core.drawn_stays h (hs.drawn i hold)
      · exact List.mem_singleton.mp hnew ▸ hj
  · rw [dispatches_core]
    exact Core.once_takes hdest hd.integrity h hs.once
  · intro j hj
    rcases Core.tokens_takes hdest hd.integrity h with hle | ⟨i, m, request, now, rfl, -, -, heq⟩
    · exact hsub j (hs.submitted j (Multiset.mem_of_le hle hj))
    · rw [heq] at hj
      rcases Multiset.mem_cons.mp hj with rfl | hold
      · simp [submissions]
      · exact hsub j (hs.submitted j hold)
  · refine Core.content_takes hdest hmono ?_ hd.integrity h hs.content
    rintro j m r now rfl
    exact ⟨m, now, _, List.mem_append_right _ (List.mem_singleton.mpr rfl)⟩
  · intro d hmem
    rw [dispatches_core] at hmem
    rcases List.mem_append.mp hmem with hold | hnew
    · exact (hs.recorded d hold).takes h
    · -- the record was created before
      cases h with
      | dispatched k messageId now workerId asg submitted hpc hfresh =>
          simp only [Core.Out.dispatch, Option.toList_some, List.mem_singleton] at hnew
          rw [hnew]
          exact hd.publishing k workerId asg submitted hpc
      | _ => simp [Core.Out.dispatch] at hnew
  · intro d hmem
    rw [dispatches_core] at hmem
    rcases List.mem_append.mp hmem with hold | hnew
    · exact (hs.madeOf d hold).mono hmono
    · exact (hs.content.dispatch h (Option.mem_toList.mp hnew)).mono hmono

/-- A step that submits and sends nothing. -/
theorem Sent.frame {c : CoreState Bytes} (hs : Sent cfg tr c)
    (x : PipelineAct × PipelineOut Bytes) (hsub : submissions (tr ++ [x]) = submissions tr)
    (hdis : dispatches (tr ++ [x]) = dispatches tr) : Sent cfg (tr ++ [x]) c := by
  have hmono : ∀ j r, Submitted tr j r → Submitted (tr ++ [x]) j r := fun j r hr => hr.append _
  refine ⟨hsub ▸ hs.distinct, hsub ▸ hs.drawn, hdis ▸ hs.once, hsub ▸ hs.submitted,
    hs.content.mono hmono, hdis ▸ hs.recorded, ?_⟩
  intro d hd
  rw [hdis] at hd
  exact (hs.madeOf d hd).mono hmono

/-- A worker pops its queue. -/
theorem Sent.pop {c : CoreState Bytes} (hs : Sent cfg tr c) {d : String}
    (hd : cfg.taskDestination ≠ d) (rest : List (BrokerEnvelope Bytes)) :
    Sent cfg tr (c.pop d rest) := by
  have hqueue : (c.pop d rest).queues cfg.taskDestination = c.queues cfg.taskDestination :=
    Function.update_of_ne hd _ _
  have htokens : Core.tokens cfg (c.pop d rest) = Core.tokens cfg c := by
    unfold Core.tokens
    rw [hqueue]
    rfl
  refine ⟨hs.distinct, hs.drawn, ⟨?_, ?_, hs.once.sent⟩, ?_, ⟨hs.content.accepting, ?_,
    hs.content.scheduled⟩, hs.recorded, hs.madeOf⟩
  · rw [htokens]
    exact hs.once.nodup
  · rw [htokens]
    exact hs.once.drawn
  · rw [htokens]
    exact hs.submitted
  · rw [hqueue]
    exact hs.content.queued

/-- What has passed each hop, and what is in the pipeline. -/
structure Delivery (cfg : Config Bytes) (tr : List (PipelineAct × PipelineOut Bytes))
    (s : PipelineState Bytes) : Prop where
  sent : Sent cfg tr s.core
  counted : Counted cfg s.core (dispatches tr) (receipts tr)
  held : ∀ w node, s.workers.lookup w = some node →
    Holds (fun asg => (w, asg) ∈ receipts tr) node

theorem Counted.pop {c : CoreState Bytes} {w : String} {env : BrokerEnvelope Bytes}
    {rest : List (BrokerEnvelope Bytes)}
    {sent received received' : List (String × AssignExecutionRequest)}
    (hqueue : c.queues (workerDestination w) = env :: rest)
    (hrecv : ∀ w' asg, received'.count (w', asg) ≤ received.count (w', asg) +
      if w' = w then (assignmentsOn cfg [env]).count asg else 0)
    (hc : Counted cfg c sent received) :
    Counted cfg (c.pop (workerDestination w) rest) sent received' := by
  intro w' asg
  have hold := hc w' asg
  have hle := hrecv w' asg
  by_cases hw : w' = w
  · subst hw
    have hsplit : (assignmentsOn cfg (env :: rest)).count asg =
        (assignmentsOn cfg [env]).count asg + (assignmentsOn cfg rest).count asg := by
      rw [← List.count_append]
      unfold assignmentsOn
      rw [← List.filterMap_append, List.singleton_append]
    have hrest : (c.pop (workerDestination w') rest).queues (workerDestination w') = rest :=
      Function.update_self _ _ _
    rw [if_pos rfl] at hle
    rw [hqueue, hsplit] at hold
    rw [hrest]
    omega
  · have hrest : (c.pop (workerDestination w) rest).queues (workerDestination w') =
        c.queues (workerDestination w') := by
      refine Function.update_of_ne ?_ _ _
      intro he
      exact hw (Core.workerDestination_inj.mp he)
    rw [if_neg hw] at hle
    rw [hrest]
    omega

theorem delivery_step (hdest : ∀ w, cfg.taskDestination ≠ workerDestination w)
    {a : PipelineAct} {o : PipelineOut Bytes} (hi : PipelineInv cfg s)
    (h : Advances cfg s a o s') (hd : Delivery cfg tr s) : Delivery cfg (tr ++ [(a, o)]) s' := by
  have hheld : ∀ w node, s'.workers.lookup w = some node →
      Holds (fun asg => (w, asg) ∈ receipts (tr ++ [(a, o)])) node := by
    refine holds_advances (fun w node hnode => (hi.nodes w node hnode).inv) h ?_ ?_ hd.held
    · intro w asg hmem
      exact Runs.mem_filterMap_append hmem _
    · rintro w asg rfl rfl
      simp [receipts_received]
  -- a step that leaves the control plane alone
  have hquiet (ha : ∀ c, a ≠ .core c) (ho : ∀ asg, o ≠ .received asg) (hc : s'.core = s.core) :
      Delivery cfg (tr ++ [(a, o)]) s' := by
    rcases histories_of_not_core tr o ha with ⟨hsub, hdis⟩
    refine ⟨hc ▸ hd.sent.frame _ hsub hdis, ?_, hheld⟩
    rw [hdis, hc, receipts_of_not_received tr a ho]
    exact hd.counted
  -- a step that takes an envelope off a worker's queue
  have hpop (ha : ∀ c, a ≠ .core c) (w : String) (env : BrokerEnvelope Bytes)
      (rest : List (BrokerEnvelope Bytes))
      (hqueue : s.core.queues (workerDestination w) = env :: rest)
      (hrecv : ∀ w' asg, (receipts (tr ++ [(a, o)])).count (w', asg) ≤
        (receipts tr).count (w', asg) +
          if w' = w then (assignmentsOn cfg [env]).count asg else 0)
      (hc : s'.core = s.core.pop (workerDestination w) rest) :
      Delivery cfg (tr ++ [(a, o)]) s' := by
    rcases histories_of_not_core tr o ha with ⟨hsub, hdis⟩
    refine ⟨hc ▸ (hd.sent.frame _ hsub hdis).pop (hdest w) rest, ?_, hheld⟩
    rw [hdis, hc]
    exact hd.counted.pop hqueue hrecv
  cases h with
  | core a o c h =>
      refine ⟨hd.sent.takes hdest hi.dispatch h, ?_, hheld⟩
      rw [dispatches_core, receipts_of_not_received _ _ (by simp)]
      exact counted_takes hdest hi.dispatch.integrity h hd.counted
  | undecodable w error node envelope rest hnode hqueue =>
      refine hpop (by simp) w envelope rest hqueue ?_ rfl
      intro w' asg
      rw [receipts_of_not_received _ _ (by simp)]
      exact Nat.le_add_right _ _
  | received w node envelope rest assignment hnode hqueue hdecode =>
      refine hpop (by simp) w envelope rest hqueue ?_ rfl
      intro w' asg
      have hone : assignmentsOn cfg [envelope] = [assignment] := by
        simp [assignmentsOn, hdecode, Except.toOption]
      rw [receipts_received, List.count_append, hone]
      apply Nat.add_le_add_left
      by_cases hw : w' = w
      · simp [hw, List.count_singleton]
      · simp [hw, Ne.symm hw]
  | start w => exact hquiet (by simp) (by simp) rfl
  | receiveFailed w error node hnode => exact hquiet (by simp) (by simp) rfl
  | refused w node status hnode => exact hquiet (by simp) (by simp) rfl
  | enqueued w node asg hnode hloop hnew => exact hquiet (by simp) (by simp) rfl
  | worker w act node state answer hnode hact hstep => exact hquiet (by simp) (by simp) rfl

theorem pipeline_delivery (hdest : ∀ w, cfg.taskDestination ≠ workerDestination w)
    {registry : MemoryWorkerRegistry} (h : (pipeline cfg registry).Run tr s) :
    Delivery cfg tr s := by
  refine h.history (P := Delivery cfg) ⟨⟨List.nodup_nil, by simp [submissions], ?_, ?_, ?_,
    by simp [dispatches], by simp [dispatches]⟩, ?_, ?_⟩ ?_
  · exact Core.once_start registry
  · intro j hj
    have htokens : Core.tokens cfg (CoreState.start Bytes registry) = 0 := rfl
    exact absurd (htokens ▸ hj) (Multiset.notMem_zero j)
  · exact Core.content_start _ registry
  · intro w asg
    simp [pipeline, CoreState.start, assignmentsOn, receipts]
  · intro w node hnode
    simp [pipeline] at hnode
  · intro tr s a t o hrun hd hs
    exact delivery_step hdest (pipeline_inv hdest hrun) (pipeline_advances hs) hd

/-! ## At most once -/

/-- What is received was sent, and not more often. -/
theorem Delivery.receipts_subperm (hd : Delivery cfg tr s) :
    (receipts tr).Subperm (dispatches tr) := by
  rw [List.subperm_ext_iff]
  rintro ⟨w, asg⟩ -
  have hcount := hd.counted w asg
  omega

theorem Delivery.receipts_nodup (hd : Delivery cfg tr s) :
    ((receipts tr).map fun d => d.2.jobId).Nodup := by
  obtain ⟨l, hperm, hsub⟩ := hd.receipts_subperm
  have hl : (l.map fun d => d.2.jobId).Nodup :=
    hd.sent.once.sent_nodup.sublist (hsub.map _)
  exact (hperm.map _).nodup_iff.mp hl

/-- What a session was handed its worker has received. -/
theorem handed_received (hdest : ∀ w, cfg.taskDestination ≠ workerDestination w)
    {registry : MemoryWorkerRegistry} (h : (pipeline cfg registry).Run tr s) :
    ∀ w sid asg, (.worker w (.nextFor sid), .worker (.handed asg)) ∈ tr →
      (w, asg) ∈ receipts tr := by
  refine h.history (P := fun tr _ => ∀ w sid asg,
    (.worker w (.nextFor sid), .worker (.handed asg)) ∈ tr → (w, asg) ∈ receipts tr) (by simp) ?_
  intro tr s act t o hrun ih hs w sid asg hmem
  refine Runs.mem_filterMap_append ?_ _
  rcases List.mem_append.mp hmem with hold | hnew
  · exact ih w sid asg hold
  · rw [List.mem_singleton, Prod.mk.injEq] at hnew
    rcases hnew with ⟨rfl, rfl⟩
    have hadv : Advances cfg s (.worker w (.nextFor sid)) (.worker (.handed asg)) t :=
      pipeline_advances hs
    exact handed_held (P := fun w asg => (w, asg) ∈ receipts tr) hadv
      (pipeline_delivery hdest hrun).held

/-- A request leaves at most one trace in each part of the pipeline. -/
structure AtMostOnce (tr : List (PipelineAct × PipelineOut Bytes)) (s : PipelineState Bytes) :
    Prop where
  /-- a job id stands for one submitted request -/
  jobs : (submissions tr).Nodup
  executions : ∀ id id' e e', s.core.executions.lookup id = some e →
    s.core.executions.lookup id' = some e' → e.jobId = e'.jobId → id = id'
  executed : ∀ id e, s.core.executions.lookup id = some e → e.jobId ∈ submissions tr
  /-- one assignment, sent to one worker, once -/
  sentOnce : ((dispatches tr).map fun d => d.2.jobId).Nodup
  recorded : ∀ d ∈ dispatches tr, HasRecord s.core d.1 d.2
  /-- received by one worker, once -/
  receivedOnce : ((receipts tr).map fun d => d.2.jobId).Nodup
  received : ∀ d ∈ receipts tr, d ∈ dispatches tr

/-- **At-most-once, faithful dispatch.** In every run of the pipeline a request
has at most one record, one assignment and one worker that receives it, and the
command that a session is handed is made of the request submitted for its job. -/
theorem faithful_at_most_once (hdest : ∀ w, cfg.taskDestination ≠ workerDestination w)
    {registry : MemoryWorkerRegistry} (h : (pipeline cfg registry).Run tr s) :
    AtMostOnce tr s ∧
    ∀ w sid asg, (.worker w (.nextFor sid), .worker (.handed asg)) ∈ tr →
      (w, asg) ∈ receipts tr ∧
      ∃ request, Submitted tr asg.jobId request ∧ Core.Carries request asg := by
  have hd := pipeline_delivery hdest h
  have hreceived : ∀ d ∈ receipts tr, d ∈ dispatches tr :=
    fun d hmem => hd.receipts_subperm.subset hmem
  refine ⟨⟨hd.sent.distinct, ?_, ?_, hd.sent.once.sent_nodup, hd.sent.recorded,
    hd.receipts_nodup, hreceived⟩, ?_⟩
  · intro id id' e e' he he' hjob
    exact hd.sent.once.record_unique he he' hjob
  · intro id e he
    apply hd.sent.submitted
    exact Multiset.mem_of_le (Core.recordTokens_le cfg s.core) (Core.mem_recordTokens he)
  · intro w sid asg hmem
    have hrecv := handed_received hdest h w sid asg hmem
    exact ⟨hrecv, hd.sent.madeOf _ (hreceived _ hrecv)⟩

/-- In the run of one delivery the session is handed the one assignment. -/
theorem faithful_at_most_once_oneDelivery : ∃ tr s,
    (pipeline Core.symbolicConfig (.new 30 (by decide))).Run tr s ∧
      tr.map Prod.fst = oneDelivery ∧
      (.worker "w" (.nextFor "s"),
        .worker (.handed (Core.assignmentFor Core.plainRequest "j" "j-a" "x"))) ∈ tr ∧
      AtMostOnce tr s ∧
      ∀ w sid asg, (.worker w (.nextFor sid), .worker (.handed asg)) ∈ tr →
        (w, asg) ∈ receipts tr ∧
        ∃ request, Submitted tr asg.jobId request ∧ Core.Carries request asg := by
  rcases Machine.run_of_exec (pipeline Core.symbolicConfig (.new 30 (by decide))) oneDelivery
    (P := fun tr _ => (.worker "w" (.nextFor "s"),
      .worker (.handed (Core.assignmentFor Core.plainRequest "j" "j-a" "x"))) ∈ tr)
    (by decide +kernel) with ⟨tr, s, hrun, hacts, hmem⟩
  have hlaw := faithful_at_most_once Core.symbolicConfig_taskDestination hrun
  exact ⟨tr, s, hrun, hacts, hmem, hlaw.1, hlaw.2⟩

end Delivery

end ThreadWeave
