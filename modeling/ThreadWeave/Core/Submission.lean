import ThreadWeave.Core.Integrity

/-!
# Submission

`accept` has three effects: it inserts the job, publishes the envelope and
stores a placeholder. A failing publish is rolled back; a failing `store_result`
is not, although the error that the client sees is of the same kind.

`submission_atomic`: a submission that has returned is atomic exactly if it is
not the failing `store_result` that made it return.
-/

namespace ThreadWeave.Core

open Runs (HashMap Machine)

variable {Bytes : Type} {cfg : Config Bytes} {registry : MemoryWorkerRegistry}

/-! ## The envelopes of a trace -/

/-- The envelope a step put on a queue. -/
def sentEnvelope : Act × Out Bytes → Option (BrokerEnvelope Bytes)
  | (_, .published envelope) => some envelope
  | (_, .dispatched envelope _ _) => some envelope
  | _ => none

def sent (tr : List (Act × Out Bytes)) : List (BrokerEnvelope Bytes) :=
  tr.filterMap sentEnvelope

/-- `env` carries the submission of job `j`. -/
def IsSubmission (j : String) (env : BrokerEnvelope Bytes) : Prop :=
  env.messageKind = submitTaskKind ∧ env.correlationId = some j

instance (j : String) (env : BrokerEnvelope Bytes) : Decidable (IsSubmission j env) :=
  inferInstanceAs (Decidable (_ ∧ _))

/-- The envelopes published for the submission of job `j`. -/
def submissions (tr : List (Act × Out Bytes)) (j : String) : List (BrokerEnvelope Bytes) :=
  (sent tr).filter fun env => decide (IsSubmission j env)

theorem sent_snoc (tr : List (Act × Out Bytes)) (x : Act × Out Bytes) :
    sent (tr ++ [x]) = sent tr ++ (sentEnvelope x).toList :=
  Runs.filterMap_snoc sentEnvelope tr x

theorem submissions_snoc (tr : List (Act × Out Bytes)) (x : Act × Out Bytes) (j : String) :
    submissions (tr ++ [x]) j = submissions tr j ++
      (sentEnvelope x).toList.filter fun env => decide (IsSubmission j env) := by
  unfold submissions
  rw [sent_snoc, List.filter_append]

/-- Where a sent envelope comes from. -/
theorem sentEnvelope_takes {s s' : CoreState Bytes} {a : Act} {o : Out Bytes}
    (h : Takes cfg s a o s') {env : BrokerEnvelope Bytes} (henv : sentEnvelope (a, o) = some env) :
    (∃ j request job, a = .published j (.ok ()) ∧
      s.accepts.lookup j = some (.publishing request job env)) ∨
    (∃ k workerId assignment submitted messageId now,
      s.schedules.lookup k = some (.publishing workerId assignment submitted) ∧
      env = assignEnvelope cfg workerId assignment submitted messageId now) := by
  cases h with
  | published jobId request job envelope hpc =>
      cases henv
      exact Or.inl ⟨jobId, request, job, rfl, hpc⟩
  | dispatched k messageId now workerId assignment submitted hpc hfresh =>
      cases henv
      exact Or.inr ⟨k, workerId, assignment, submitted, messageId, now, hpc, rfl⟩
  | _ => cases henv

/-! ## The history of a submission -/

def AcceptPc.request : AcceptPc Bytes → SubmitTaskRequest
  | .publishing request _ _ => request
  | .storing request _ => request

/-- What the trace says about the jobs and the submissions in progress. -/
structure Submitted (cfg : Config Bytes) (tr : List (Act × Out Bytes)) (s : CoreState Bytes) :
    Prop where
  /-- every envelope ever sent names a known job -/
  known : ∀ env ∈ sent tr, ∃ j, env.correlationId = some j ∧ Known s j
  /-- an `accept` works on the request that was submitted under its id -/
  request : ∀ j messageId request now o, (Act.submit j messageId request now, o) ∈ tr →
    j ∈ s.drawn ∧ ∀ pc, s.accepts.lookup j = some pc → pc.request = request
  /-- an `accept` that has published has published once -/
  once : ∀ j request job, s.accepts.lookup j = some (.storing request job) →
    ∃ messageId now, submissions tr j = [submitEnvelope cfg request j messageId now]

/-- Nothing has been sent for a job that is not known. -/
theorem Submitted.unsent {tr : List (Act × Out Bytes)} {s : CoreState Bytes}
    (h : Submitted cfg tr s) {j : String} (hj : ¬ Known s j) :
    ∀ env ∈ sent tr, env.correlationId ≠ some j := by
  intro env henv hid
  rcases h.known env henv with ⟨j', hj', hkn⟩
  rw [hid, Option.some.injEq] at hj'
  exact hj (hj' ▸ hkn)

theorem submissions_eq_nil {tr : List (Act × Out Bytes)} {j : String}
    (h : ∀ env ∈ sent tr, env.correlationId ≠ some j) : submissions tr j = [] := by
  unfold submissions
  rw [List.filter_eq_nil_iff]
  intro env henv hsub
  exact h env henv (of_decide_eq_true hsub).2

theorem not_known_of_publishing {s : CoreState Bytes} {j : String} {request : SubmitTaskRequest}
    {job : Job} {env : BrokerEnvelope Bytes}
    (hpc : s.accepts.lookup j = some (.publishing request job env)) : ¬ Known s j :=
  fun hkn => hkn.published request job env hpc

/-- Where an `accept` in progress comes from. -/
theorem accepts_of_takes {s s' : CoreState Bytes} {a : Act} {o : Out Bytes}
    (h : Takes cfg s a o s') {j : String} {pc : AcceptPc Bytes}
    (hpc : s'.accepts.lookup j = some pc) :
    s.accepts.lookup j = some pc ∨
    (∃ messageId request now, a = .submit j messageId request now ∧ j ∉ s.drawn ∧
      pc = .publishing request (newJob request j now)
        (submitEnvelope cfg request j messageId now)) ∨
    (∃ request job env, a = .published j (.ok ()) ∧ o = .published env ∧
      s.accepts.lookup j = some (.publishing request job env) ∧ pc = .storing request job) := by
  cases h with
  | submit jobId messageId request now hfresh =>
      rcases HashMap.lookup_insert_some hpc with ⟨rfl, rfl⟩ | ⟨-, hold⟩
      · exact Or.inr (Or.inl ⟨messageId, request, now, rfl,
          (hfresh.2 j List.mem_cons_self).1, rfl⟩)
      · exact Or.inl hold
  | published jobId request job envelope hn =>
      rcases HashMap.lookup_insert_some hpc with ⟨rfl, rfl⟩ | ⟨-, hold⟩
      · exact Or.inr (Or.inr ⟨request, job, envelope, rfl, rfl, hn, rfl⟩)
      · exact Or.inl hold
  | publishFailed jobId error request job envelope hn =>
      exact Or.inl (HashMap.lookup_erase_some hpc).2
  | resultStored jobId request job hn => exact Or.inl (HashMap.lookup_erase_some hpc).2
  | resultFailed jobId error request job hn => exact Or.inl (HashMap.lookup_erase_some hpc).2
  | resultLost jobId error request job hn => exact Or.inl (HashMap.lookup_erase_some hpc).2
  | _ => exact Or.inl hpc

/-- An `accept` that has published is not published again. -/
theorem submissions_stay {tr : List (Act × Out Bytes)} {s s' : CoreState Bytes} {a : Act}
    {o : Out Bytes} (hi : Integrity cfg s) (h : Takes cfg s a o s') {j : String}
    {request : SubmitTaskRequest} {job : Job}
    (hpc : s.accepts.lookup j = some (.storing request job)) :
    submissions (tr ++ [(a, o)]) j = submissions tr j := by
  rw [submissions_snoc]
  cases henv : sentEnvelope (a, o) with
  | none => simp
  | some env =>
      have hother : ¬ IsSubmission j env := by
        rintro ⟨hkind, hid⟩
        rcases sentEnvelope_takes h henv with
          ⟨j', request', job', -, hpc'⟩ | ⟨k, w, asg, sub, mid, now, -, rfl⟩
        · rcases hi.accepting j' _ hpc' with ⟨-, mid, now, -, rfl⟩
          have hjj : j' = j := Option.some.inj hid
          rw [hjj, hpc] at hpc'
          cases hpc'
        · -- assignments go out under another kind
          have hkinds : assignExecutionKind = submitTaskKind := hkind
          exact absurd hkinds (by decide)
      simp [hother]

theorem submitted_step {tr : List (Act × Out Bytes)} {s s' : CoreState Bytes} {a : Act}
    {o : Out Bytes} (hi : Integrity cfg s) (h : Takes cfg s a o s')
    (ih : Submitted cfg tr s) : Submitted cfg (tr ++ [(a, o)]) s' := by
  have hknown : ∀ j, Known s j → Known s' j := fun j hj => hj.takes hi.drawn h
  refine ⟨?_, ?_, ?_⟩
  -- `known`: an envelope of this step names a job that is known after it
  · intro env henv
    rw [sent_snoc, List.mem_append] at henv
    rcases henv with hold | hnew
    · rcases ih.known env hold with ⟨j, hj, hkn⟩
      exact ⟨j, hj, hknown j hkn⟩
    · rcases sentEnvelope_takes h (Option.mem_toList.mp hnew) with
        ⟨j, request, job, rfl, hpc⟩ | ⟨k, w, asg, sub, mid, now, hpc, rfl⟩
      · rcases hi.accepting j _ hpc with ⟨-, mid, now, -, rfl⟩
        exact ⟨j, rfl, known_of_published hi h⟩
      · exact ⟨asg.jobId, rfl, hknown _ (hi.scheduled k _ _ hpc rfl)⟩
  · intro j messageId request now o' hmem
    rw [List.mem_append, List.mem_singleton] at hmem
    rcases hmem with hold | hnew
    · rcases ih.request j messageId request now o' hold with ⟨hdrawn, hreq⟩
      refine ⟨drawn_stays h hdrawn, ?_⟩
      intro pc hpc
      rcases accepts_of_takes h hpc with
        hp | ⟨mid, req, t, rfl, hfresh, -⟩ | ⟨req, job, env, rfl, -, hp, rfl⟩
      · exact hreq pc hp
      · -- a second submission under the same id would need the id to be fresh
        exact absurd hdrawn hfresh
      · exact hreq (.publishing req job env) hp
    · -- this is the submission itself
      cases hnew
      cases h with
      | submit _ _ _ _ hfresh =>
          refine ⟨by simp [CoreState.draw], ?_⟩
          intro pc hpc
          rcases HashMap.lookup_insert_some hpc with ⟨-, rfl⟩ | ⟨hne, -⟩
          · rfl
          · exact absurd rfl hne
      | refused a k status ha => simp at ha
  · intro j request job hpc
    rcases accepts_of_takes h hpc with
      hp | ⟨mid, req, t, -, -, he⟩ | ⟨req, job', env, rfl, rfl, hp, he⟩
    · rw [submissions_stay hi h hp]
      exact ih.once j request job hp
    · cases he
    · -- published in this step: nothing was sent for the job before
      cases he
      rcases hi.accepting j _ hp with ⟨-, mid, now, -, rfl⟩
      have hnil : submissions tr j = [] :=
        submissions_eq_nil (ih.unsent (not_known_of_publishing hp))
      refine ⟨mid, now, ?_⟩
      rw [submissions_snoc, hnil]
      simp [sentEnvelope, IsSubmission, submitEnvelope]

theorem core_submitted {tr : List (Act × Out Bytes)} {s : CoreState Bytes}
    (h : (core cfg registry).Run tr s) : Submitted cfg tr s := by
  refine h.history (P := Submitted cfg) ?_ ?_
  · refine ⟨by simp [sent], by simp, ?_⟩
    intro j request job hpc
    simp [core, CoreState.start] at hpc
  · intro tr s a t b hrun ih hs
    exact submitted_step (core_integrity hrun) (step_takes hs) ih

/-! ## Atomic submission -/

/-- The steps of the `accept` of job `j`. -/
def ofAccept (j : String) : Act → Bool
  | .submit jobId _ _ _ => jobId == j
  | .published jobId _ => jobId == j
  | .resultStored jobId _ => jobId == j
  | _ => false

/-- The `accept` of job `j` found no entry of that name, and none of its steps
changed another job's entry. -/
def TouchesOnly (M : Machine (CoreState Bytes) Act (Out Bytes)) (tr : List (Act × Out Bytes))
    (j : String) : Prop :=
  ∀ p a o q t u, tr = p ++ (a, o) :: q → M.Run p t → M.step t a = some (u, o) →
    ofAccept j a = true →
    (∀ messageId request now, a = .submit j messageId request now → j ∉ t.jobs) ∧
    ∀ k, k ≠ j → u.jobs.lookup k = t.jobs.lookup k

/-- What a submission that has returned `r` leaves behind: nothing, or the job
and exactly one envelope that carries the request. -/
def Settled (cfg : Config Bytes) (tr : List (Act × Out Bytes)) (s : CoreState Bytes)
    (j : String) (request : SubmitTaskRequest) : Except Status SubmitTaskResponse → Prop
  | .error _ => j ∉ s.jobs ∧ ∀ env ∈ sent tr, env.correlationId ≠ some j
  | .ok response => ∃ job record env, response.job = some job ∧ job.jobId = j ∧
      s.jobs.lookup j = some record ∧ SameJob record.job job ∧
      submissions tr j = [env] ∧ env.destination = cfg.taskDestination ∧
      cfg.submitTask.decode env.payload = .ok request

/-- `store_result` fails for the placeholder of job `j`. -/
def StoreResultFails (j : String) (a : Act) : Prop :=
  ∃ error, a = .resultStored j (.failed error) ∨ a = .resultStored j (.lost error)

theorem touches_takes {s s' : CoreState Bytes} {a : Act} {o : Out Bytes} {j : String}
    (hi : Integrity cfg s) (h : Takes cfg s a o s') (ha : ofAccept j a = true) :
    (∀ messageId request now, a = .submit j messageId request now → j ∉ s.jobs) ∧
    ∀ k, k ≠ j → s'.jobs.lookup k = s.jobs.lookup k := by
  cases h with
  | submit jobId messageId request now hfresh =>
      have hj : jobId = j := beq_iff_eq.mp ha
      subst hj
      refine ⟨?_, fun k hk => Finmap.lookup_insert_of_ne _ hk⟩
      intro _ _ _ _
      exact Fresh.not_mem_jobs hi.drawn hfresh
  | publishFailed jobId error request job envelope hpc =>
      have hj : jobId = j := beq_iff_eq.mp ha
      subst hj
      exact ⟨by simp, fun k hk => Finmap.lookup_erase_ne hk⟩
  | refused a k status ha' =>
      -- steps of a `report_execution`
      rcases ha' with ⟨_, rfl⟩ | ⟨_, rfl⟩ | ⟨_, _, rfl⟩ | ⟨_, rfl⟩ <;> cases ha
  | jobUpdated => cases ha
  | _ => exact ⟨by simp, fun _ _ => rfl⟩

theorem touchesOnly {tr : List (Act × Out Bytes)} (j : String) :
    TouchesOnly (core cfg registry) tr j := by
  intro p a o q t u _ hrun hstep ha
  exact touches_takes (core_integrity hrun) (step_takes hstep) ha

/-- A rolled-back submission leaves nothing behind. -/
theorem settled_of_publishFailed {tr : List (Act × Out Bytes)} {s : CoreState Bytes}
    {x : Act × Out Bytes} {j : String} {request request' : SubmitTaskRequest} {job : Job}
    {env : BrokerEnvelope Bytes} {status : Status} (hs : Submitted cfg tr s)
    (hpc : s.accepts.lookup j = some (.publishing request' job env))
    (hx : sentEnvelope x = none) :
    Settled cfg (tr ++ [x]) { s with jobs := s.jobs.erase j, accepts := s.accepts.erase j } j
      request (.error status) := by
  refine ⟨by simp [Finmap.mem_erase], ?_⟩
  rw [sent_snoc, hx, Option.toList_none, List.append_nil]
  exact hs.unsent (not_known_of_publishing hpc)

/-- A completed submission leaves the job and one envelope. -/
theorem settled_of_resultStored {tr : List (Act × Out Bytes)} {s s' : CoreState Bytes}
    {x : Act × Out Bytes} {j : String} {request : SubmitTaskRequest} {job : Job}
    (hi : Integrity cfg s) (hs : Submitted cfg tr s)
    (hpc : s.accepts.lookup j = some (.storing request job))
    (hjobs : s'.jobs = s.jobs) (hx : sentEnvelope x = none) :
    Settled cfg (tr ++ [x]) s' j request
      (.ok { job := some job, result := some acceptedResult }) := by
  rcases hs.once j request job hpc with ⟨messageId, now, honce⟩
  rcases hi.accepting j _ hpc with ⟨⟨now', hnew⟩, record, hrec, hsame⟩
  refine ⟨job, record, submitEnvelope cfg request j messageId now, rfl, by rw [hnew]; rfl,
    hjobs ▸ hrec, hsame, ?_, rfl, cfg.submitTask.decode_encodeToVec request⟩
  rw [submissions_snoc, hx, honce]
  rfl

/-- After a failing `store_result` the job is still there. -/
theorem not_settled_of_storeResult {tr : List (Act × Out Bytes)} {s s' : CoreState Bytes}
    {j : String} {request request' : SubmitTaskRequest} {job : Job} {status : Status}
    (hi : Integrity cfg s) (hpc : s.accepts.lookup j = some (.storing request' job))
    (hjobs : s'.jobs = s.jobs) : ¬ Settled cfg tr s' j request (.error status) := by
  intro hset
  apply hset.1
  rw [hjobs]
  exact (hi.accepting j _ hpc).mem_jobs

/-- **Atomic submission.** A submission that has returned touched only its own
entry, and is settled exactly if it did not return because of `store_result`. -/
theorem submission_atomic {tr : List (Act × Out Bytes)} {s : CoreState Bytes} {a : Act}
    {j messageId : String} {request : SubmitTaskRequest} {now : Timestamp} {o : Out Bytes}
    {r : Except Status SubmitTaskResponse}
    (h : (core cfg registry).Run (tr ++ [(a, .accepted j r)]) s)
    (hsub : (Act.submit j messageId request now, o) ∈ tr) :
    (TouchesOnly (core cfg registry) (tr ++ [(a, .accepted j r)]) j ∧
      Settled cfg (tr ++ [(a, .accepted j r)]) s j request r) ↔ ¬ StoreResultFails j a := by
  rcases Machine.Steps.mid h with ⟨t, t', hrun, hstep, hend⟩
  have hs : t' = s := Machine.Steps.det .refl hend
  subst hs
  have hi := core_integrity hrun
  have hsubmitted := core_submitted hrun
  have hrequest := (hsubmitted.request j messageId request now o hsub).2
  -- that only the own entry is touched holds in any case
  rw [and_iff_right (touchesOnly j)]
  generalize hx : Out.accepted j r = x at hstep ⊢
  have htakes := step_takes hstep
  -- the four ways in which `accept` returns
  cases htakes with
  | publishFailed jobId error request' job envelope hpc =>
      cases hx
      constructor
      · rintro - ⟨e, he | he⟩ <;> cases he
      · intro _
        exact settled_of_publishFailed hsubmitted hpc rfl
  | resultStored jobId request' job hpc =>
      cases hx
      -- the pc carries the request that was submitted under this id
      have hreq : request' = request := hrequest _ hpc
      subst hreq
      constructor
      · rintro - ⟨e, he | he⟩ <;> cases he
      · intro _
        exact settled_of_resultStored hi hsubmitted hpc rfl rfl
  | resultFailed jobId error request' job hpc =>
      cases hx
      constructor
      · intro hset
        exact absurd hset (not_settled_of_storeResult hi hpc rfl)
      · intro hnot
        exact absurd ⟨error, Or.inl rfl⟩ hnot
  | resultLost jobId error request' job hpc =>
      cases hx
      constructor
      · intro hset
        exact absurd hset (not_settled_of_storeResult hi hpc rfl)
      · intro hnot
        exact absurd ⟨error, Or.inr rfl⟩ hnot
  | _ => cases hx

/-- One submission; `last` is how it ends. -/
def oneSubmission (last : Fate) : List Act :=
  [.submit "j" "m" plainRequest 1, .published "j" (.ok ()), .resultStored "j" last]

theorem submission_atomic_oneSubmission : ∃ tr s r,
    symbolicCore.Run (tr ++ [(.resultStored "j" .done, .accepted "j" (.ok r))]) s ∧
    (TouchesOnly symbolicCore (tr ++ [(.resultStored "j" .done, .accepted "j" (.ok r))]) "j" ∧
      Settled symbolicConfig (tr ++ [(.resultStored "j" .done, .accepted "j" (.ok r))]) s "j"
        plainRequest (.ok r)) := by
  let r : SubmitTaskResponse :=
    { job := some (newJob plainRequest "j" 1), result := some acceptedResult }
  rcases Machine.run_of_exec symbolicCore (oneSubmission .done)
    (P := fun tr _ => tr.getLast? = some (.resultStored "j" .done, .accepted "j" (.ok r)) ∧
      (.submit "j" "m" plainRequest 1, .silent) ∈ tr.dropLast)
    (by decide +kernel) with ⟨tr, s, hrun, -, hlast, hsub⟩
  rw [← List.dropLast_append_getLast? _ hlast] at hrun
  refine ⟨tr.dropLast, s, r, hrun, (submission_atomic hrun hsub).mpr ?_⟩
  rintro ⟨e, he | he⟩ <;> cases he

/-- `store_result` fails: the client sees an error, the job and its envelope
stay. -/
theorem submission_half_done : ¬ ∀ tr s a j messageId request now o r,
    symbolicCore.Run (tr ++ [(a, .accepted j r)]) s →
    (Act.submit j messageId request now, o) ∈ tr →
    TouchesOnly symbolicCore (tr ++ [(a, .accepted j r)]) j ∧
      Settled symbolicConfig (tr ++ [(a, .accepted j r)]) s j request r := by
  intro hall
  rcases Machine.run_of_exec symbolicCore (oneSubmission (.failed "down"))
    (P := fun tr s => tr.getLast? = some (.resultStored "j" (.failed "down"),
        .accepted "j" (.error ⟨.unavailable, "result backend is unavailable"⟩)) ∧
      (.submit "j" "m" plainRequest 1, .silent) ∈ tr.dropLast ∧ "j" ∈ s.jobs)
    (by decide +kernel) with ⟨tr, s, hrun, -, hlast, hsub, hjob⟩
  rw [← List.dropLast_append_getLast? _ hlast] at hrun
  exact (hall _ _ _ _ _ _ _ _ _ hrun hsub).2.1 hjob

end ThreadWeave.Core
