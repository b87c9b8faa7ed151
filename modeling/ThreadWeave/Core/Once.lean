import ThreadWeave.Core.Integrity

/-!
# One token per job

A submitted job is scheduled at most once because there is one thing of it to be
had: the envelope that `accept` is about to publish, then the envelope on the
task queue, then the assignment that `schedule_one` has made of it, then the
execution record. `tokens` counts all of them together; no step adds to them
except a submission, which adds an id never drawn before.

* `Once` — the tokens are distinct, and each record is sent out at most once;
  `once_takes` is its step.
* `Content` — what is on its way for a job was made of a request submitted for
  it; `content_takes` is its step.
-/

namespace ThreadWeave.Core

open Runs (HashMap Machine)

variable {Bytes : Type} {cfg : Config Bytes}

/-- The job that an `accept` has yet to publish. -/
def AcceptPc.token : AcceptPc Bytes → Option String
  | .publishing _ _ envelope => envelope.correlationId
  | .storing _ _ => none

/-- The job that a `schedule_one` has yet to create the record of. -/
def SchedulePc.token : SchedulePc Bytes → Option String
  | .creating _ assignment _ _ => some assignment.jobId
  | _ => none

/-- The jobs of envelopes, of execution records. -/
def envelopeTokens (queue : List (BrokerEnvelope Bytes)) : Multiset String :=
  (queue.filterMap BrokerEnvelope.correlationId : List String)

def recordTokens (m : MemoryExecutionStore) : Multiset String :=
  HashMap.collect (fun e => some e.jobId) m

/-- Every job as often as there is something of it to be had: with `accept`, on
the task queue, with `schedule_one`, in the execution store. -/
def tokensOf (accepts : HashMap String (AcceptPc Bytes)) (queue : List (BrokerEnvelope Bytes))
    (schedules : HashMap Nat (SchedulePc Bytes)) (executions : MemoryExecutionStore) :
    Multiset String :=
  HashMap.collect AcceptPc.token accepts + envelopeTokens queue +
    HashMap.collect SchedulePc.token schedules + recordTokens executions

def tokens (cfg : Config Bytes) (s : CoreState Bytes) : Multiset String :=
  tokensOf s.accepts (s.queues cfg.taskDestination) s.schedules s.executions

/-! ## What a step does to them -/

section Collect

variable {κ ν β : Type*} [DecidableEq κ]

theorem collect_erase_le (f : ν → Option β) (m : HashMap κ ν) (k : κ) :
    HashMap.collect f (m.erase k) ≤ HashMap.collect f m := by
  cases hk : m.lookup k with
  | none => rw [HashMap.erase_of_notMem (Finmap.lookup_eq_none.mp hk)]
  | some v =>
      rw [HashMap.collect_of_lookup f hk]
      exact Multiset.le_add_left _ _

/-- An entry that counts for nothing may be put in or take another's place. -/
theorem collect_insert_le {f : ν → Option β} (m : HashMap κ ν) (k : κ) {v : ν} (hv : f v = none) :
    HashMap.collect f (m.insert k v) ≤ HashMap.collect f m := by
  rw [HashMap.collect_insert, hv]
  simpa using collect_erase_le f m k

end Collect

section Tokens

variable {s s' : CoreState Bytes} {a : Act} {o : Out Bytes}

theorem tokensOf_le {accepts accepts' : HashMap String (AcceptPc Bytes)}
    {queue queue' : List (BrokerEnvelope Bytes)}
    {schedules schedules' : HashMap Nat (SchedulePc Bytes)} {executions executions' : MemoryExecutionStore}
    (ha : HashMap.collect AcceptPc.token accepts' ≤ HashMap.collect AcceptPc.token accepts)
    (hq : envelopeTokens queue' ≤ envelopeTokens queue)
    (hs : HashMap.collect SchedulePc.token schedules' ≤ HashMap.collect SchedulePc.token schedules)
    (he : recordTokens executions' ≤ recordTokens executions) :
    tokensOf accepts' queue' schedules' executions' ≤
      tokensOf accepts queue schedules executions :=
  add_le_add (add_le_add (add_le_add ha hq) hs) he

theorem recordTokens_update {m : MemoryExecutionStore} {id : String} {e : ExecutionRecord}
    (he : m.lookup id = some e) (state : ExecutionState) (now : Timestamp) :
    recordTokens (m.insert id { e with state := state, updatedAt := now }) = recordTokens m := by
  unfold recordTokens
  rw [HashMap.collect_insert, HashMap.collect_of_lookup _ he]

theorem envelopeTokens_snoc (queue : List (BrokerEnvelope Bytes)) (env : BrokerEnvelope Bytes) :
    envelopeTokens (queue ++ [env]) = envelopeTokens queue + env.correlationId.toList := by
  unfold envelopeTokens
  rw [Runs.filterMap_snoc, ← Multiset.coe_add]

theorem envelopeTokens_cons (env : BrokerEnvelope Bytes) (rest : List (BrokerEnvelope Bytes)) :
    envelopeTokens (env :: rest) = env.correlationId.toList + envelopeTokens rest := by
  unfold envelopeTokens
  cases hc : env.correlationId <;> simp [hc]

theorem push_queues (s : CoreState Bytes) (env : BrokerEnvelope Bytes) (d : String) :
    (s.push env).queues d = if d = env.destination then s.queues d ++ [env] else s.queues d := by
  simp only [CoreState.push, Function.update_apply]
  split_ifs with hd
  · rw [hd]
  · rfl

/-- `accept` passes its token on to the task queue. -/
theorem tokens_published {j : String} {request : SubmitTaskRequest} {job : Job}
    {env : BrokerEnvelope Bytes} (hpc : s.accepts.lookup j = some (.publishing request job env)) :
    tokensOf (s.accepts.insert j (.storing request job))
        (s.queues cfg.taskDestination ++ [env]) s.schedules s.executions = tokens cfg s := by
  unfold tokens tokensOf
  rw [HashMap.collect_insert, HashMap.collect_of_lookup AcceptPc.token hpc, envelopeTokens_snoc]
  simp only [AcceptPc.token, Option.toList_none, Multiset.coe_nil, zero_add]
  ac_rfl

/-- `schedule_one` takes over the token of the envelope it consumes. -/
theorem tokens_consumed {k : Nat} {w j : String} (asg : AssignExecutionRequest)
    {submitted : BrokerEnvelope Bytes} {rest : List (BrokerEnvelope Bytes)} (now : Timestamp)
    (hpc : s.schedules.lookup k = some (.consuming w))
    (hqueue : s.queues cfg.taskDestination = submitted :: rest)
    (hj : submitted.correlationId = some j) (hasg : asg.jobId = j) :
    tokensOf s.accepts rest (s.schedules.insert k (.creating w asg submitted now)) s.executions =
      tokens cfg s := by
  unfold tokens tokensOf
  rw [HashMap.collect_insert, HashMap.collect_of_lookup SchedulePc.token hpc, hqueue,
    envelopeTokens_cons, hj]
  simp only [SchedulePc.token, Option.toList_none, Multiset.coe_nil, zero_add, hasg]
  ac_rfl

/-- `create` turns the token of a `schedule_one` into a record. -/
theorem tokens_created {k : Nat} {w : String} {asg : AssignExecutionRequest}
    {submitted : BrokerEnvelope Bytes} {now : Timestamp}
    (hpc : s.schedules.lookup k = some (.creating w asg submitted now))
    (hnew : asg.executionId ∉ s.executions) :
    tokensOf s.accepts (s.queues cfg.taskDestination)
        (s.schedules.insert k (.publishing w asg submitted))
        (s.executions.insert asg.executionId (executionFor asg w now)) = tokens cfg s := by
  unfold tokens tokensOf recordTokens
  rw [HashMap.collect_insert SchedulePc.token, HashMap.collect_of_lookup SchedulePc.token hpc,
    HashMap.collect_insert_of_notMem _ hnew]
  simp only [SchedulePc.token, executionFor, Option.toList_none, Multiset.coe_nil, zero_add]
  ac_rfl

/-- `submit` adds the token of its job. -/
theorem tokens_submit (hi : Integrity cfg s) {j m : String} {request : SubmitTaskRequest}
    {now : Timestamp} (hfresh : s.Fresh [j, m]) :
    tokensOf (s.accepts.insert j (.publishing request (newJob request j now)
        (submitEnvelope cfg request j m now))) (s.queues cfg.taskDestination) s.schedules
        s.executions = j ::ₘ tokens cfg s := by
  have hnew : j ∉ s.accepts := by
    intro hj
    obtain ⟨pc, hpc⟩ := Finmap.mem_iff.mp hj
    exact (hfresh.2 j List.mem_cons_self).1 (hi.drawn j (hi.accepting j pc hpc).mem_jobs)
  unfold tokens tokensOf
  rw [HashMap.collect_insert_of_notMem _ hnew]
  simp only [AcceptPc.token, submitEnvelope, Option.toList_some, Multiset.coe_singleton,
    Multiset.singleton_add, Multiset.cons_add]

/-- Only a submission adds a token, and it is a new one. -/
theorem tokens_takes (hdest : ∀ w, cfg.taskDestination ≠ workerDestination w)
    (hi : Integrity cfg s) (h : Takes cfg s a o s') :
    tokens cfg s' ≤ tokens cfg s ∨
    ∃ j m request now, a = .submit j m request now ∧ s.Fresh [j, m] ∧ j ∈ s'.drawn ∧
      tokens cfg s' = j ::ₘ tokens cfg s := by
  -- a call that returns takes its token with it
  have haccept (j : String) : tokensOf (s.accepts.erase j) (s.queues cfg.taskDestination)
      s.schedules s.executions ≤ tokens cfg s :=
    tokensOf_le (collect_erase_le _ _ _) le_rfl le_rfl le_rfl
  have hschedule (k : Nat) : tokensOf s.accepts (s.queues cfg.taskDestination)
      (s.schedules.erase k) s.executions ≤ tokens cfg s :=
    tokensOf_le le_rfl le_rfl (collect_erase_le _ _ _) le_rfl
  have hupdate (id : String) (e : ExecutionRecord) (state : ExecutionState) (now : Timestamp)
      (he : s.executions.lookup id = some e) :
      tokensOf s.accepts (s.queues cfg.taskDestination) s.schedules
        (s.executions.insert id { e with state := state, updatedAt := now }) ≤ tokens cfg s :=
    tokensOf_le le_rfl le_rfl le_rfl (recordTokens_update he state now).le
  cases h with
  | submit j m request now hfresh =>
      refine Or.inr ⟨j, m, request, now, rfl, hfresh, ?_, tokens_submit hi hfresh⟩
      simp [CoreState.draw]
  | publishFailed j error request job env hpc => exact Or.inl (haccept j)
  | published j request job env hpc =>
      obtain ⟨-, messageId, now, -, henv⟩ := hi.accepting j _ hpc
      have hto : cfg.taskDestination = env.destination := by rw [henv]; rfl
      refine Or.inl (le_of_eq ?_)
      rw [← tokens_published hpc, tokens]
      simp only [push_queues, if_pos hto]
      rfl
  | resultStored j request job hpc => exact Or.inl (haccept j)
  | resultFailed j error request job hpc => exact Or.inl (haccept j)
  | resultLost j error request job hpc => exact Or.inl (haccept j)
  | stateUpdated k now report state jobId outcome e hpc hexec =>
      exact Or.inl (hupdate _ e state now hexec)
  | stateLost k error now report state jobId outcome e hpc hexec =>
      exact Or.inl (hupdate _ e state now hexec)
  | scheduleOne k hfree =>
      exact Or.inl (tokensOf_le le_rfl le_rfl (collect_insert_le _ k rfl) le_rfl)
  | directoryFailed k error hpc => exact Or.inl (hschedule k)
  | noWorker k hpc hread => exact Or.inl (hschedule k)
  | chosen k workerId rest hpc hread =>
      exact Or.inl (tokensOf_le le_rfl le_rfl (collect_insert_le _ k rfl) le_rfl)
  | consumeFailed k error workerId hpc => exact Or.inl (hschedule k)
  | undecodable k f asg x now workerId error submitted rest hpc hqueue hfresh hdecode =>
      refine Or.inl (tokensOf_le le_rfl ?_ (collect_erase_le _ _ _) le_rfl)
      simp only [Function.update_self, hqueue, envelopeTokens_cons]
      exact Multiset.le_add_left _ _
  | consumed k f asg x now workerId submitted rest request hpc hqueue hfresh hdecode =>
      -- every envelope on the queue names its job
      have hmem : submitted ∈ s.queues cfg.taskDestination := hqueue ▸ List.mem_cons_self
      obtain ⟨j, hj, -⟩ := hi.queued _ submitted hmem
      refine Or.inl (le_of_eq ?_)
      rw [← tokens_consumed (assignmentFor request (submitted.correlationId.getD f) asg x) now
        hpc hqueue hj (by simp [hj, assignmentFor])]
      simp only [tokens, CoreState.draw, Function.update_self]
  | createFailed k answer error workerId asg submitted now hpc hcreate => exact Or.inl (hschedule k)
  | created k workerId asg submitted now hpc hnew =>
      exact Or.inl (tokens_created hpc hnew).le
  | dispatchFailed k messageId now error workerId asg submitted hpc hfresh =>
      exact Or.inl (hschedule k)
  | dispatched k messageId now workerId asg submitted hpc hfresh =>
      refine Or.inl (le_trans (le_of_eq ?_) (hschedule k))
      have hne : cfg.taskDestination ≠
          (assignEnvelope cfg workerId asg submitted messageId now).destination := hdest workerId
      simp only [tokens, push_queues]
      rw [if_neg hne]
      rfl
  | _ => exact Or.inl le_rfl

/-! ## Once -/

/-- The job of a `schedule_one` that has created the record and not published yet. -/
def SchedulePc.unsent : SchedulePc Bytes → Option String
  | .publishing _ assignment _ => some assignment.jobId
  | _ => none

/-- The worker and the assignment that a `schedule_one` has sent to it. -/
def Out.dispatch : Out Bytes → Option (String × AssignExecutionRequest)
  | .dispatched _ workerId assignment => some (workerId, assignment)
  | _ => none

/-- The jobs of the assignments sent, as often as they were sent. -/
def sentTokens (sent : List (String × AssignExecutionRequest)) : Multiset String :=
  (sent.map fun d => d.2.jobId : List String)

theorem sentTokens_append (sent sent' : List (String × AssignExecutionRequest)) :
    sentTokens (sent ++ sent') = sentTokens sent + sentTokens sent' := by
  unfold sentTokens
  rw [List.map_append, Multiset.coe_add]

/-- Nothing of a job is to be had twice, and of each record at most one
assignment is or has been sent out. -/
structure Once (cfg : Config Bytes) (s : CoreState Bytes)
    (sent : List (String × AssignExecutionRequest)) : Prop where
  nodup : (tokens cfg s).Nodup
  drawn : ∀ j ∈ tokens cfg s, j ∈ s.drawn
  sent : HashMap.collect SchedulePc.unsent s.schedules + sentTokens sent ≤
    recordTokens s.executions

theorem recordTokens_le (cfg : Config Bytes) (s : CoreState Bytes) :
    recordTokens s.executions ≤ tokens cfg s :=
  Multiset.le_add_left _ _

theorem mem_recordTokens {m : MemoryExecutionStore} {id : String} {e : ExecutionRecord}
    (he : m.lookup id = some e) : e.jobId ∈ recordTokens m := by
  unfold recordTokens
  rw [HashMap.collect_of_lookup _ he]
  simp

theorem recordTokens_insert {e : ExecutionRecord} {m : MemoryExecutionStore}
    (hnew : e.executionId ∉ m) :
    recordTokens (m.insert e.executionId e) = e.jobId ::ₘ recordTokens m := by
  unfold recordTokens
  rw [HashMap.collect_insert_of_notMem _ hnew]
  simp only [Option.toList_some, Multiset.coe_singleton, Multiset.singleton_add]

/-- An assignment is sent by the `schedule_one` that has just created its record. -/
theorem sent_takes {sent : List (String × AssignExecutionRequest)} (h : Takes cfg s a o s')
    (hle : HashMap.collect SchedulePc.unsent s.schedules + sentTokens sent ≤
      recordTokens s.executions) :
    HashMap.collect SchedulePc.unsent s'.schedules + sentTokens (sent ++ o.dispatch.toList) ≤
      recordTokens s'.executions := by
  rw [sentTokens_append]
  have hsame : HashMap.collect SchedulePc.unsent s.schedules + (sentTokens sent + 0) ≤
      recordTokens s.executions := by
    rw [add_zero]
    exact hle
  -- a call that goes on with nothing to send, or ends
  have hinsert (k : Nat) (pc : SchedulePc Bytes) (hpc : pc.unsent = none) :
      HashMap.collect SchedulePc.unsent (s.schedules.insert k pc) + (sentTokens sent + 0) ≤
        recordTokens s.executions :=
    le_trans (add_le_add (collect_insert_le _ k hpc) le_rfl) hsame
  have hleave (k : Nat) :
      HashMap.collect SchedulePc.unsent (s.schedules.erase k) + (sentTokens sent + 0) ≤
        recordTokens s.executions :=
    le_trans (add_le_add (collect_erase_le _ _ k) le_rfl) hsame
  cases h with
  | stateUpdated k now report state jobId outcome e hpc hexec =>
      exact le_of_le_of_eq hsame (recordTokens_update hexec state now).symm
  | stateLost k error now report state jobId outcome e hpc hexec =>
      exact le_of_le_of_eq hsame (recordTokens_update hexec state now).symm
  | scheduleOne k hfree => exact hinsert k _ rfl
  | directoryFailed k error hpc => exact hleave k
  | noWorker k hpc hread => exact hleave k
  | chosen k workerId rest hpc hread => exact hinsert k _ rfl
  | consumeFailed k error workerId hpc => exact hleave k
  | undecodable k f asg x now workerId error submitted rest hpc hqueue hfresh hdecode =>
      exact hleave k
  | consumed k f asg x now workerId submitted rest request hpc hqueue hfresh hdecode =>
      exact hinsert k _ rfl
  | createFailed k answer error workerId asg submitted now hpc hcreate => exact hleave k
  | created k workerId asg submitted now hpc hnew =>
      -- one more record, and one more assignment to send
      have hrecord := recordTokens_insert (e := executionFor asg workerId now) hnew
      have hold := collect_erase_le SchedulePc.unsent s.schedules k
      calc HashMap.collect SchedulePc.unsent
              (s.schedules.insert k (.publishing workerId asg submitted)) + (sentTokens sent + 0)
          = asg.jobId ::ₘ (HashMap.collect SchedulePc.unsent (s.schedules.erase k) +
              sentTokens sent) := by
            rw [HashMap.collect_insert, add_zero]
            simp only [SchedulePc.unsent, Option.toList_some, Multiset.coe_singleton,
              Multiset.singleton_add, Multiset.cons_add]
        _ ≤ asg.jobId ::ₘ recordTokens s.executions :=
            (Multiset.cons_le_cons_iff _).mpr (le_trans (add_le_add hold le_rfl) hle)
        _ = _ := hrecord.symm
  | dispatchFailed k messageId now error workerId asg submitted hpc hfresh => exact hleave k
  | dispatched k messageId now workerId asg submitted hpc hfresh =>
      rw [HashMap.collect_of_lookup SchedulePc.unsent hpc] at hle
      refine le_of_eq_of_le ?_ hle
      simp only [SchedulePc.unsent, sentTokens, Out.dispatch, Option.toList_some,
        List.map_cons, List.map_nil]
      ac_rfl
  | _ => exact hsame

theorem once_takes (hdest : ∀ w, cfg.taskDestination ≠ workerDestination w)
    {sent : List (String × AssignExecutionRequest)} (hi : Integrity cfg s)
    (h : Takes cfg s a o s') (ho : Once cfg s sent) :
    Once cfg s' (sent ++ o.dispatch.toList) := by
  rcases tokens_takes hdest hi h with hle | ⟨j, m, request, now, -, hfresh, hj, heq⟩
  · refine ⟨Multiset.nodup_of_le hle ho.nodup, ?_, sent_takes h ho.sent⟩
    intro j hj
    exact drawn_stays h (ho.drawn j (Multiset.mem_of_le hle hj))
  · have hnew : j ∉ tokens cfg s := by
      intro hmem
      exact (hfresh.2 j List.mem_cons_self).1 (ho.drawn j hmem)
    refine ⟨?_, ?_, sent_takes h ho.sent⟩
    · rw [heq]
      exact Multiset.nodup_cons.mpr ⟨hnew, ho.nodup⟩
    · intro j' hj'
      rw [heq] at hj'
      rcases Multiset.mem_cons.mp hj' with rfl | hold
      · exact hj
      · exact drawn_stays h (ho.drawn j' hold)

theorem once_start (registry : MemoryWorkerRegistry) :
    Once cfg (CoreState.start Bytes registry) [] := by
  have htokens : tokens cfg (CoreState.start Bytes registry) = 0 := rfl
  refine ⟨?_, ?_, le_rfl⟩
  · rw [htokens]
    exact Multiset.nodup_zero
  · intro j hj
    rw [htokens] at hj
    exact absurd hj (Multiset.notMem_zero j)

/-- Two records are never about one job. -/
theorem Once.record_unique {sent : List (String × AssignExecutionRequest)} (ho : Once cfg s sent)
    {id id' : String} {e e' : ExecutionRecord} (he : s.executions.lookup id = some e)
    (he' : s.executions.lookup id' = some e') (hjob : e.jobId = e'.jobId) : id = id' := by
  by_contra hne
  have hnd : (recordTokens s.executions).Nodup :=
    Multiset.nodup_of_le (recordTokens_le cfg s) ho.nodup
  have he'' : (s.executions.erase id).lookup id' = some e' := by
    rw [Finmap.lookup_erase_ne (Ne.symm hne)]
    exact he'
  unfold recordTokens at hnd
  rw [HashMap.collect_of_lookup _ he, HashMap.collect_of_lookup _ he''] at hnd
  simp [hjob] at hnd

/-- No job is sent out twice. -/
theorem Once.sent_nodup {sent : List (String × AssignExecutionRequest)} (ho : Once cfg s sent) :
    (sent.map fun d => d.2.jobId).Nodup := by
  have hle : sentTokens sent ≤ tokens cfg s :=
    le_trans (le_trans (Multiset.le_add_left _ _) ho.sent) (recordTokens_le cfg s)
  exact Multiset.coe_nodup.mp (Multiset.nodup_of_le hle ho.nodup)

/-! ## What travels with a job -/

/-- The assignment carries what the request asks for; a request that names no
task is for the one its namespace, application and task name identify. -/
structure Carries (request : SubmitTaskRequest) (asg : AssignExecutionRequest) : Prop where
  arguments : asg.arguments = request.arguments
  serializationFormat : asg.serializationFormat = request.serializationFormat
  reservedResources : asg.reservedResources = request.resources
  metadata : asg.metadata = request.metadata
  ownTask : ∀ task, request.task = some task → asg.task = some task
  builtTask : request.task = none → asg.task = some
    { taskNamespace := request.applicationNamespace
      application := (request.metadata.bind fun m => m.entries.lookup "application").getD ""
      name := request.taskName
      version := "" }

theorem carries_assignmentFor (request : SubmitTaskRequest) (j asg x : String) :
    Carries request (assignmentFor request j asg x) where
  arguments := rfl
  serializationFormat := rfl
  reservedResources := rfl
  metadata := rfl
  ownTask := by
    intro task htask
    simp [assignmentFor, htask]
  builtTask := by
    intro htask
    simp [assignmentFor, htask, derivedTask]

/-- `asg` was made of a request that `S` knows for its job. -/
def MadeOf (S : String → SubmitTaskRequest → Prop) (asg : AssignExecutionRequest) : Prop :=
  ∃ request, S asg.jobId request ∧ Carries request asg

theorem MadeOf.mono {S S' : String → SubmitTaskRequest → Prop} (hS : ∀ j r, S j r → S' j r)
    {asg : AssignExecutionRequest} (h : MadeOf S asg) : MadeOf S' asg := by
  rcases h with ⟨request, hreq, hcarries⟩
  exact ⟨request, hS _ _ hreq, hcarries⟩

/-- The assignment a `schedule_one` in progress has made. -/
def SchedulePc.assignment : SchedulePc Bytes → Option AssignExecutionRequest
  | .creating _ assignment _ _ => some assignment
  | .publishing _ assignment _ => some assignment
  | _ => none

/-- What is on its way for a job was made of a request that `S` knows for it. -/
structure Content (cfg : Config Bytes) (S : String → SubmitTaskRequest → Prop)
    (s : CoreState Bytes) : Prop where
  accepting : ∀ j request job env, s.accepts.lookup j = some (.publishing request job env) →
    S j request
  queued : ∀ env ∈ s.queues cfg.taskDestination, ∃ j request, env.correlationId = some j ∧
    cfg.submitTask.decode env.payload = .ok request ∧ S j request
  scheduled : ∀ k pc asg, s.schedules.lookup k = some pc → pc.assignment = some asg →
    MadeOf S asg

theorem Content.mono {S S' : String → SubmitTaskRequest → Prop} (hS : ∀ j r, S j r → S' j r)
    (hc : Content cfg S s) : Content cfg S' s where
  accepting := fun j request job env hpc => hS _ _ (hc.accepting j request job env hpc)
  queued := by
    intro env hmem
    rcases hc.queued env hmem with ⟨j, request, hj, hdecode, hreq⟩
    exact ⟨j, request, hj, hdecode, hS _ _ hreq⟩
  scheduled := fun k pc asg hpc hasg => (hc.scheduled k pc asg hpc hasg).mono hS

/-- An `accept` that is about to publish was so before, or has just begun. -/
theorem publishing_of_takes (h : Takes cfg s a o s') {j : String} {request : SubmitTaskRequest}
    {job : Job} {env : BrokerEnvelope Bytes}
    (hpc : s'.accepts.lookup j = some (.publishing request job env)) :
    s.accepts.lookup j = some (.publishing request job env) ∨
      ∃ m now, a = .submit j m request now := by
  cases h with
  | submit jobId messageId request' now hfresh =>
      rcases HashMap.lookup_insert_some hpc with ⟨rfl, he⟩ | ⟨-, hold⟩
      · cases he
        exact Or.inr ⟨messageId, now, rfl⟩
      · exact Or.inl hold
  | published jobId request' job' env' hn =>
      rcases HashMap.lookup_insert_some hpc with ⟨-, he⟩ | ⟨-, hold⟩
      · cases he
      · exact Or.inl hold
  | publishFailed jobId error request' job' env' hn =>
      exact Or.inl (HashMap.lookup_erase_some hpc).2
  | resultStored jobId request' job' hn => exact Or.inl (HashMap.lookup_erase_some hpc).2
  | resultFailed jobId error request' job' hn => exact Or.inl (HashMap.lookup_erase_some hpc).2
  | resultLost jobId error request' job' hn => exact Or.inl (HashMap.lookup_erase_some hpc).2
  | _ => exact Or.inl hpc

theorem content_takes (hdest : ∀ w, cfg.taskDestination ≠ workerDestination w)
    {S S' : String → SubmitTaskRequest → Prop} (hS : ∀ j r, S j r → S' j r)
    (hnew : ∀ j m r now, a = .submit j m r now → S' j r) (hi : Integrity cfg s)
    (h : Takes cfg s a o s') (hold : Content cfg S s) : Content cfg S' s' := by
  have hc : Content cfg S' s := hold.mono hS
  refine ⟨?_, ?_, ?_⟩
  · intro j request job env hpc
    rcases publishing_of_takes h hpc with hold | ⟨m, now, ha⟩
    · exact hc.accepting j request job env hold
    · exact hnew j m request now ha
  · intro env hmem
    rcases mem_queues_of_takes h hmem with
      hold | ⟨j, request, job, -, hpc, -⟩ | ⟨k, w, asg, submitted, mid, now, -, -, hd⟩
    · exact hc.queued env hold
    · -- `accept` encodes the request it was called with
      rcases hi.accepting j _ hpc with ⟨-, mid, now, -, rfl⟩
      exact ⟨j, request, rfl, cfg.submitTask.decode_encodeToVec request,
        hc.accepting j request job _ hpc⟩
    · exact absurd hd (hdest w)
  · intro k pc asg hpc hasg
    rcases schedules_of_takes h hpc with
      hold | rfl | ⟨w, rfl, -⟩ |
      ⟨w, submitted, rest, request, f, a', x, now, -, hqueue, hdecode, rfl, -⟩ |
      ⟨w, asg', submitted, now, hn, rfl, -⟩
    · exact hc.scheduled k pc asg hold hasg
    · cases hasg
    · cases hasg
    · -- the assignment is made of the request on the envelope, for the envelope's job
      cases hasg
      have hmem : submitted ∈ s.queues cfg.taskDestination := hqueue ▸ List.mem_cons_self
      rcases hc.queued submitted hmem with ⟨j, request', hj, hdecode', hreq⟩
      rw [hdecode, Except.ok.injEq] at hdecode'
      subst hdecode'
      refine ⟨request, ?_, carries_assignmentFor request _ _ _⟩
      have hjob : (assignmentFor request (submitted.correlationId.getD f) a' x).jobId = j := by
        simp [assignmentFor, hj]
      rw [hjob]
      exact hreq
    · exact hc.scheduled k _ asg hn hasg

theorem content_start (S : String → SubmitTaskRequest → Prop) (registry : MemoryWorkerRegistry) :
    Content cfg S (CoreState.start Bytes registry) := by
  refine ⟨?_, ?_, ?_⟩
  all_goals simp [CoreState.start]

/-- What a `schedule_one` sends it has made. -/
theorem Content.dispatch {S : String → SubmitTaskRequest → Prop} {w : String}
    {asg : AssignExecutionRequest} (hc : Content cfg S s) (h : Takes cfg s a o s')
    (ho : o.dispatch = some (w, asg)) : MadeOf S asg := by
  cases h with
  | dispatched k messageId now workerId asg' submitted hpc hfresh =>
      cases ho
      exact hc.scheduled k _ asg hpc rfl
  | _ => cases ho

/-! ## The queues of the workers -/

/-- The assignments on a worker's queue. -/
def assignmentsOn (cfg : Config Bytes) (queue : List (BrokerEnvelope Bytes)) :
    List AssignExecutionRequest :=
  queue.filterMap fun env => (cfg.assignExecution.decode env.payload).toOption

/-- A worker's queue grows by what is sent to the worker. -/
theorem assignmentsOn_takes (hdest : ∀ w, cfg.taskDestination ≠ workerDestination w)
    (hi : Integrity cfg s) (h : Takes cfg s a o s') (w : String) :
    assignmentsOn cfg (s'.queues (workerDestination w)) =
      assignmentsOn cfg (s.queues (workerDestination w)) ++
        (o.dispatch.toList.filter (fun d => d.1 = w)).map Prod.snd := by
  have hpop (rest : List (BrokerEnvelope Bytes)) :
      Function.update s.queues cfg.taskDestination rest (workerDestination w) =
        s.queues (workerDestination w) := Function.update_of_ne (hdest w).symm _ _
  cases h with
  | published j request job env hpc =>
      rcases hi.accepting j _ hpc with ⟨-, mid, now, -, rfl⟩
      have hne : workerDestination w ≠ (submitEnvelope cfg request j mid now).destination :=
        (hdest w).symm
      simp only [push_queues, if_neg hne]
      simp [Out.dispatch]
  | undecodable k f asg x now workerId error submitted rest hpc hqueue hfresh hdecode =>
      simp [hpop, Out.dispatch]
  | consumed k f asg x now workerId submitted rest request hpc hqueue hfresh hdecode =>
      simp [hpop, Out.dispatch]
  | dispatched k messageId now workerId asg submitted hpc hfresh =>
      have hto : workerDestination w =
          (assignEnvelope cfg workerId asg submitted messageId now).destination ↔ w = workerId :=
        workerDestination_inj
      have hpayload : cfg.assignExecution.decode
          (assignEnvelope cfg workerId asg submitted messageId now).payload = .ok asg :=
        cfg.assignExecution.decode_encodeToVec asg
      simp only [push_queues, hto]
      split_ifs with hw
      · simp [assignmentsOn, CoreState.draw, Out.dispatch, hw, hpayload, Except.toOption]
      · simp [CoreState.draw, Out.dispatch, Ne.symm hw]
  | _ => simp [CoreState.draw, Out.dispatch]

end Tokens

end ThreadWeave.Core
