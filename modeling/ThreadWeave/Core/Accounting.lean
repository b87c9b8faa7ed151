import ThreadWeave.Core.Submission

/-!
# Accounting for accepted tasks

`consume` is destructive. Between it and `create` the task is only in the hands
of the `schedule_one` that consumed it, and an error of `create` drops it: the
job stays ACCEPTED and nobody works on it.

`accepted_task_accounted`: at rest, an accepted job whose execution record could
be created whenever it was tried is on the task queue or has such a record.
-/

namespace ThreadWeave.Core

open Runs (HashMap Machine)

variable {Bytes : Type} {cfg : Config Bytes} {registry : MemoryWorkerRegistry}

/-! ## Definitions -/

/-- The submission of job `j` was answered ACCEPTED. -/
def AnsweredAccepted (tr : List (Act × Out Bytes)) (j : String) : Prop :=
  ∃ a job, (a, .accepted j (.ok { job := job, result := some acceptedResult })) ∈ tr

/-- No `accept` and no `schedule_one` is in progress. -/
def AtRest (s : CoreState Bytes) : Prop := s.accepts = ∅ ∧ s.schedules = ∅

/-- The envelope of job `j` is on the task queue. -/
def Queued (cfg : Config Bytes) (s : CoreState Bytes) (j : String) : Prop :=
  ∃ env ∈ s.queues cfg.taskDestination, IsSubmission j env

/-- Job `j` has an execution record. -/
def Executed (s : CoreState Bytes) (j : String) : Prop :=
  ∃ id e, s.executions.lookup id = some e ∧ e.jobId = j

/-- A `schedule_one` has consumed the envelope of job `j` and created nothing yet. -/
def InHand (s : CoreState Bytes) (j : String) : Prop :=
  ∃ k w assignment submitted now,
    s.schedules.lookup k = some (.creating w assignment submitted now) ∧ assignment.jobId = j

/-- The job for which this step is a failing `create`. -/
def failedCreate (s : CoreState Bytes) : Act → Option String
  | .created k answer =>
      match s.schedules.lookup k with
      | some (.creating _ assignment _ _) =>
          if answer = .ok () ∧ assignment.executionId ∉ s.executions then none
          else some assignment.jobId
      | _ => none
  | _ => none

/-- The step is no failing `create` for job `j`. -/
def CreateSucceeds (j : String) (s : CoreState Bytes) (a : Act) : Prop := failedCreate s a ≠ some j

instance (j : String) (s : CoreState Bytes) (a : Act) : Decidable (CreateSucceeds j s a) :=
  inferInstanceAs (Decidable (_ ≠ _))

/-! ## Submissions on the queues are genuine -/

/-- An envelope of the submission kind was built by `accept`. -/
def Genuine (cfg : Config Bytes) (s : CoreState Bytes) : Prop :=
  ∀ d env, env ∈ s.queues d → env.messageKind = submitTaskKind →
    ∃ request j messageId now, env = submitEnvelope cfg request j messageId now

theorem genuine_step {s s' : CoreState Bytes} {a : Act} {o : Out Bytes} (hi : Integrity cfg s)
    (h : Takes cfg s a o s') (ih : Genuine cfg s) : Genuine cfg s' := by
  intro d env hmem hkind
  rcases mem_queues_of_takes h hmem with
    hold | ⟨j, request, job, -, hpc, -⟩ | ⟨k, w, asg, submitted, mid, now, -, rfl, -⟩
  · exact ih d env hold hkind
  · rcases hi.accepting j _ hpc with ⟨-, mid, now, -, rfl⟩
    exact ⟨request, j, mid, now, rfl⟩
  · have hkinds : assignExecutionKind = submitTaskKind := hkind
    exact absurd hkinds (by decide)

theorem core_genuine {tr : List (Act × Out Bytes)} {s : CoreState Bytes}
    (h : (core cfg registry).Run tr s) : Genuine cfg s := by
  refine h.history (P := fun _ s => Genuine cfg s) ?_ ?_
  · intro d env hmem
    simp [core, CoreState.start] at hmem
  · intro tr s a t b hrun ih hs
    exact genuine_step (core_integrity hrun) (step_takes hs) ih

/-! ## Where a published task is -/

/-- The task of job `j` is on the queue, in the hands of a `schedule_one`, or
has an execution record. -/
def Located (cfg : Config Bytes) (s : CoreState Bytes) (j : String) : Prop :=
  Queued cfg s j ∨ InHand s j ∨ Executed s j

/-- A queued task stays queued unless it is the one that is consumed. -/
theorem queued_takes {s s' : CoreState Bytes} {a : Act} {o : Out Bytes} {j : String}
    (hg : Genuine cfg s) (h : Takes cfg s a o s') (hq : Queued cfg s j) : Located cfg s' j := by
  rcases hq with ⟨env, henv, hsub⟩
  -- publishing only adds to a queue
  have hpush : ∀ (t : CoreState Bytes) envelope, t.queues = s.queues →
      env ∈ (t.push envelope).queues cfg.taskDestination := by
    intro t envelope ht
    simp only [CoreState.push, ht, Function.update_apply]
    split_ifs with hd
    · exact List.mem_append_left _ (hd ▸ henv)
    · exact henv
  cases h with
  | published jobId request job envelope hpc => exact Or.inl ⟨env, hpush s envelope rfl, hsub⟩
  | dispatched k messageId now w assignment submitted hpc hfresh =>
      exact Or.inl ⟨env, hpush (s.draw [messageId]) _ rfl, hsub⟩
  | undecodable k f asg x now w error submitted rest hpc hqueue hfresh hdecode =>
      rw [hqueue, List.mem_cons] at henv
      rcases henv with rfl | hrest
      · -- the payload of a submission decodes
        have hhead : env ∈ s.queues cfg.taskDestination := hqueue ▸ List.mem_cons_self
        rcases hg _ env hhead hsub.1 with ⟨request, j', mid, now', rfl⟩
        have hok := cfg.submitTask.decode_encodeToVec request
        exact absurd (hdecode.symm.trans hok) (by simp)
      · refine Or.inl ⟨env, ?_, hsub⟩
        simpa using hrest
  | consumed k f asg x now w submitted rest request hpc hqueue hfresh hdecode =>
      rw [hqueue, List.mem_cons] at henv
      rcases henv with rfl | hrest
      · -- it is the head: the call has it in hand now
        refine Or.inr (Or.inl ⟨k, w, _, env, now, Finmap.lookup_insert _, ?_⟩)
        simp [assignmentFor, hsub.2]
      · refine Or.inl ⟨env, ?_, hsub⟩
        simpa using hrest
  | _ => exact Or.inl ⟨env, henv, hsub⟩

/-- A task in hand stays there or gets its record, unless `create` fails. -/
theorem inHand_takes {s s' : CoreState Bytes} {a : Act} {o : Out Bytes} {j : String}
    (h : Takes cfg s a o s') (hC : CreateSucceeds j s a) (hh : InHand s j) :
    Located cfg s' j := by
  rcases hh with ⟨k, w, asg, submitted, now, hpc, hj⟩
  have hheld : s'.schedules.lookup k = some (.creating w asg submitted now) →
      Located cfg s' j := by
    intro hpc'
    exact Or.inr (Or.inl ⟨k, w, asg, submitted, now, hpc', hj⟩)
  -- a step of another call, or of one that stands elsewhere
  have hstay : ∀ n pc', s.schedules.lookup n ≠ some (.creating w asg submitted now) →
      (s.schedules.insert n pc').lookup k = some (.creating w asg submitted now) := by
    intro n pc' hn
    have hne : k ≠ n := by
      rintro rfl
      exact hn hpc
    exact (Finmap.lookup_insert_of_ne _ hne).trans hpc
  have hleft : ∀ n, s.schedules.lookup n ≠ some (.creating w asg submitted now) →
      (s.schedules.erase n).lookup k = some (.creating w asg submitted now) := by
    intro n hn
    have hne : k ≠ n := by
      rintro rfl
      exact hn hpc
    exact (Finmap.lookup_erase_ne hne).trans hpc
  cases h with
  | scheduleOne n hfree =>
      have hn : s.schedules.lookup n = none := Finmap.lookup_eq_none.mpr hfree
      exact hheld (hstay n _ (by simp [hn]))
  | directoryFailed n error hn =>
      exact hheld (hleft n (by simp [hn]))
  | noWorker n hn hread =>
      exact hheld (hleft n (by simp [hn]))
  | chosen n w' rest hn hread =>
      exact hheld (hstay n _ (by simp [hn]))
  | consumeFailed n error w' hn =>
      exact hheld (hleft n (by simp [hn]))
  | undecodable n f a' x now' w' error sub rest hn hqueue hfresh hdecode =>
      exact hheld (hleft n (by simp [hn]))
  | consumed n f a' x now' w' sub rest request hn hqueue hfresh hdecode =>
      exact hheld (hstay n _ (by simp [hn]))
  | createFailed n answer error w' asg' sub now' hn hcreate =>
      by_cases hsame : n = k
      · -- this is the failing `create` for job `j`
        subst hsame
        rw [hpc, Option.some.injEq] at hn
        cases hn
        exfalso
        apply hC
        have hno : ¬ (answer = .ok () ∧ asg.executionId ∉ s.executions) := by
          rintro ⟨hok, hnew⟩
          rcases hcreate with ⟨e, he⟩ | hex
          · rw [he] at hok
            cases hok
          · exact hnew hex
        simp only [failedCreate, hpc, if_neg hno, hj]
      · exact hheld ((Finmap.lookup_erase_ne (Ne.symm hsame)).trans hpc)
  | created n w' asg' sub now' hn hnew =>
      by_cases hsame : n = k
      · subst hsame
        rw [hpc, Option.some.injEq] at hn
        cases hn
        exact Or.inr (Or.inr ⟨_, _, Finmap.lookup_insert _, hj⟩)
      · exact hheld ((Finmap.lookup_insert_of_ne _ (Ne.symm hsame)).trans hpc)
  | dispatchFailed n messageId now' error w' asg' sub hn hfresh =>
      exact hheld (hleft n (by simp [hn]))
  | dispatched n messageId now' w' asg' sub hn hfresh =>
      exact hheld (hleft n (by simp [hn]))
  | _ => exact hheld hpc

theorem executed_takes {s s' : CoreState Bytes} {a : Act} {o : Out Bytes} {j : String}
    (h : Takes cfg s a o s') (he : Executed s j) : Executed s' j := by
  rcases he with ⟨id, e₀, he₀, hj⟩
  rcases executions_stay h he₀ with ⟨e, he, hid⟩
  have hjob : e.jobId = e₀.jobId := congrArg (fun x => x.2.1) hid
  exact ⟨id, e, he, hjob.trans hj⟩

/-- What is published is put on the task queue. -/
theorem queued_of_published {s s' : CoreState Bytes} {j : String} {a : Act} {o : Out Bytes}
    {env : BrokerEnvelope Bytes} (hi : Integrity cfg s) (h : Takes cfg s a o s')
    (henv : sentEnvelope (a, o) = some env) (hsub : IsSubmission j env) : Queued cfg s' j := by
  cases h with
  | published jobId request job envelope hpc =>
      cases henv
      rcases hi.accepting jobId _ hpc with ⟨-, mid, now, -, rfl⟩
      refine ⟨_, ?_, hsub⟩
      simp [CoreState.push, submitEnvelope]
  | dispatched k messageId now w assignment submitted hpc hfresh =>
      cases henv
      have hkinds : assignExecutionKind = submitTaskKind := hsub.1
      exact absurd hkinds (by decide)
  | _ => cases henv

/-- Along a run without failing `create` for job `j`, its task is located from
the moment it is published. -/
theorem located_of_conforms {tr : List (Act × Out Bytes)} {s : CoreState Bytes} {j : String}
    (h : (core cfg registry).Run tr s)
    (hC : (core cfg registry).Conforms (CreateSucceeds j) tr) :
    submissions tr j ≠ [] → Located cfg s j := by
  refine h.history_conforms (C := CreateSucceeds j)
    (P := fun tr s => submissions tr j ≠ [] → Located cfg s j) ?_ ?_ hC
  · intro hne
    exact absurd rfl hne
  · intro tr s a t b hrun ih hCa hs hne
    have htakes := step_takes hs
    by_cases hold : submissions tr j = []
    · -- the submission has just been published
      rw [submissions_snoc, hold, List.nil_append] at hne
      rcases List.exists_mem_of_ne_nil _ hne with ⟨env, henv⟩
      rcases List.mem_filter.mp henv with ⟨hsent, hsub⟩
      exact Or.inl (queued_of_published (core_integrity hrun) htakes
        (Option.mem_toList.mp hsent) (of_decide_eq_true hsub))
    · -- it was located before: queue, hand and record each pass it on
      rcases ih hold with hq | hh | he
      · exact queued_takes (core_genuine hrun) htakes hq
      · exact inHand_takes htakes hCa hh
      · exact Or.inr (Or.inr (executed_takes htakes he))

/-! ## Accepted tasks -/

/-- An accepted submission has been published. -/
theorem submissions_of_accepted {tr : List (Act × Out Bytes)} {s : CoreState Bytes} {j : String}
    (h : (core cfg registry).Run tr s) (hacc : AnsweredAccepted tr j) :
    submissions tr j ≠ [] := by
  rcases hacc with ⟨a, job, hmem⟩
  rcases List.append_of_mem hmem with ⟨p, q, rfl⟩
  rcases Machine.Steps.mid h with ⟨t, t', hrun, hstep, -⟩
  have htakes : Takes cfg t a (.accepted j (.ok { job := job, result := some acceptedResult }))
      t' := step_takes hstep
  cases htakes with
  | resultStored _ request job' hpc =>
      -- `accept` answers ACCEPTED from `storing`, which it reaches by publishing
      rcases (core_submitted hrun).once j request job' hpc with ⟨mid, now, honce⟩
      unfold submissions sent at honce ⊢
      rw [List.filterMap_append, List.filter_append, honce]
      simp

/-- **Accepted tasks.** At rest, every accepted job for which no `create` failed
has its envelope on the task queue or an execution record. -/
theorem accepted_task_accounted {tr : List (Act × Out Bytes)} {s : CoreState Bytes}
    (h : (core cfg registry).Run tr s) (hrest : AtRest s) :
    ∀ j, AnsweredAccepted tr j → (core cfg registry).Conforms (CreateSucceeds j) tr →
      Queued cfg s j ∨ Executed s j := by
  intro j hacc hC
  rcases located_of_conforms h hC (submissions_of_accepted h hacc) with hq | hh | he
  · exact Or.inl hq
  · -- nobody holds a task at rest
    rcases hh with ⟨k, w, asg, submitted, now, hpc, -⟩
    rw [hrest.2] at hpc
    simp at hpc
  · exact Or.inr he

/-- A job is accepted and consumed; `answer` is how the execution store takes it. -/
def oneTask (answer : Except String Unit) : List Act :=
  [.register (plainWorker "w") 0, .submit "j" "m" plainRequest 1, .published "j" (.ok ()),
   .resultStored "j" .done, .scheduleOne 0, .directoryRead 0 (.ok ()),
   .consumed 0 "f" "a" "x" 2, .created 0 answer]

theorem accepted_task_accounted_oneTask : ∃ tr s,
    symbolicCore.Run tr s ∧ AtRest s ∧ AnsweredAccepted tr "j" ∧
      (Queued symbolicConfig s "j" ∨ Executed s "j") := by
  rcases Machine.run_of_exec symbolicCore (oneTask (.ok ()) ++ [.dispatched 0 "d" 3 (.ok ())])
    (P := fun tr s => s.accepts = ∅ ∧ s.schedules = ∅ ∧
      (.resultStored "j" .done, .accepted "j" (.ok
        { job := some (newJob plainRequest "j" 1), result := some acceptedResult })) ∈ tr)
    (by decide +kernel) with ⟨tr, s, hrun, hacts, haccepts, hschedules, hmem⟩
  have hC : symbolicCore.Conforms (CreateSucceeds "j") tr := by
    refine Machine.conforms_of_checks ?_
    rw [hacts]
    decide +kernel
  have hacc : AnsweredAccepted tr "j" := ⟨_, _, hmem⟩
  exact ⟨tr, s, hrun, ⟨haccepts, hschedules⟩, hacc,
    accepted_task_accounted hrun ⟨haccepts, hschedules⟩ "j" hacc hC⟩

/-- `create` fails once: the accepted task is nowhere. -/
theorem accepted_task_dropped : ¬ ∀ tr s,
    symbolicCore.Run tr s → AtRest s → ∀ j, AnsweredAccepted tr j →
      Queued symbolicConfig s j ∨ Executed s j := by
  intro hall
  rcases Machine.run_of_exec symbolicCore (oneTask (.error "down"))
    (P := fun tr s => s.accepts = ∅ ∧ s.schedules = ∅ ∧ s.queues "tasks" = [] ∧
      s.executions = ∅ ∧
      (.resultStored "j" .done, .accepted "j" (.ok
        { job := some (newJob plainRequest "j" 1), result := some acceptedResult })) ∈ tr)
    (by decide +kernel) with
    ⟨tr, s, hrun, -, haccepts, hschedules, hqueue, hexecutions, hmem⟩
  rcases hall tr s hrun ⟨haccepts, hschedules⟩ "j" ⟨_, _, hmem⟩ with
    ⟨env, henv, -⟩ | ⟨id, e, he, -⟩
  · have hnone : env ∈ s.queues "tasks" := henv
    rw [hqueue] at hnone
    cases hnone
  · rw [hexecutions] at he
    simp at he

end ThreadWeave.Core
