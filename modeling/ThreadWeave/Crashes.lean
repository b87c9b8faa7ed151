import ThreadWeave.Cluster

/-!
# What a crash loses

Nothing is handed over when a process of the cluster crashes.

* `crash_abandons` — what was sent to a worker before its crash nobody executes
  after it: the queue of the worker stays in Redis, and no list of assignments
  is read under another id.
* `crash_forgets` — a job is known to the control plane that accepted it and to
  no other one, so after the crash `GetJob` finds it nowhere, and the report
  that would finish it is refused although its outcome is stored.
-/

namespace ThreadWeave

open Runs (HashMap Machine)
open ThreadWeave.Core (Config CoreState Takes workerDestination)

variable {Bytes : Type} {cfg : Config Bytes} {registry : MemoryWorkerRegistry}
  {p q : List (ClusterAct × ClusterOut Bytes)} {s s' s₀ : ClusterState Bytes}

/-! ## A worker that has crashed -/

section Abandons

/-- The queue of a worker is read by that worker only. -/
theorem workerQueue_takes (hdest : ∀ w, cfg.taskDestination ≠ workerDestination w)
    {c c' : CoreState Bytes} {a : Core.Act} {o : Core.Out Bytes} (h : Takes cfg c a o c')
    (w : String) : c.queues (workerDestination w) <+: c'.queues (workerDestination w) := by
  have hpush : ∀ env, c.queues (workerDestination w) <+:
      (c.push env).queues (workerDestination w) := by
    intro env
    rw [Core.push_queues]
    split_ifs with hd
    · exact List.prefix_append _ _
    · exact List.prefix_refl _
  have hpop : ∀ rest, c.queues (workerDestination w) <+:
      Function.update c.queues cfg.taskDestination rest (workerDestination w) := by
    intro rest
    rw [Function.update_of_ne (hdest w).symm]
  cases h with
  | published j request job env hpc => exact hpush env
  | undecodable k f a x now w' error submitted rest => exact hpop rest
  | consumed k f a x now w' submitted rest => exact hpop rest
  | dispatched k mid now w' asg submitted hpc hfresh => exact hpush _
  | _ => exact List.prefix_refl _

/-- A worker that is gone stays gone, and its queue stays. -/
theorem gone_step (hdest : ∀ w, cfg.taskDestination ≠ workerDestination w) {w : String}
    (hborn : w ∈ s.born) (hgone : w ∉ s.workers) {a : ClusterAct} {o : ClusterOut Bytes}
    (h : s.step cfg a = some (s', o)) :
    w ∈ s'.born ∧ w ∉ s'.workers ∧ (∀ a', a = .worker a' → a'.actor ≠ some w) ∧
      s.redis.queues (workerDestination w) <+: s'.redis.queues (workerDestination w) := by
  cases a with
  | boot n =>
      simp only [ClusterState.step] at h
      split_ifs at h
      cases h
      exact ⟨hborn, hgone, by simp, List.prefix_refl _⟩
  | core n a =>
      rcases plane_cases h with ⟨m, c', co, -, hstep, rfl, rfl⟩
      exact ⟨hborn, hgone, by simp, workerQueue_takes hdest (Core.step_takes hstep) w⟩
  | crash n =>
      cases h
      exact ⟨hborn, hgone, by simp, List.prefix_refl _⟩
  | worker a =>
      rcases work_cases h with ⟨w', p, o', hactor, hnew, hstep, rfl, rfl⟩
      have hne : w ≠ w' := by
        rintro rfl
        rcases running_of_step hactor hstep with hstart | hmem
        · exact hnew ⟨hstart, hborn⟩
        · exact hgone hmem
      rcases worker_step_local hactor rfl rfl hstep with ⟨node, q, rfl, hq, -⟩
      refine ⟨Finset.mem_insert_of_mem hborn, ?_, ?_, ?_⟩
      · intro hmem
        rcases Finmap.mem_insert.mp hmem with he | hold
        · exact hne he
        · exact hgone hold
      · rintro _ ⟨⟩ hactor'
        exact hne (Option.some.inj (hactor'.symm.trans hactor))
      · have hkeep : q (workerDestination w) = s.redis.queues (workerDestination w) :=
          hq _ fun he => hne (Core.workerDestination_inj.mp he)
        change _ <+: q (workerDestination w)
        rw [hkeep]
  | workerCrash w' =>
      cases h
      exact ⟨hborn, fun hmem => hgone (Finmap.mem_erase.mp hmem).2, by simp, List.prefix_refl _⟩

theorem gone_steps (hdest : ∀ w, cfg.taskDestination ≠ workerDestination w) {w : String}
    (hborn : w ∈ s₀.born) (hgone : w ∉ s₀.workers)
    (h : (cluster cfg registry).Steps s₀ q s) :
    (w ∈ s.born ∧ w ∉ s.workers) ∧ (∀ a o, (.worker a, o) ∈ q → a.actor ≠ some w) ∧
      s₀.redis.queues (workerDestination w) <+: s.redis.queues (workerDestination w) := by
  induction h with
  | refl => exact ⟨⟨hborn, hgone⟩, by simp, List.prefix_refl _⟩
  | @snoc q s s' a o _ hs ih =>
      rcases ih with ⟨⟨hborn', hgone'⟩, hacts, hqueue⟩
      rcases gone_step hdest hborn' hgone' hs with ⟨hborn'', hgone'', hact, hqueue'⟩
      refine ⟨⟨hborn'', hgone''⟩, ?_, hqueue.trans hqueue'⟩
      intro a' o' hmem
      rcases List.mem_append.mp hmem with hold | hnew
      · exact hacts a' o' hold
      · rw [List.mem_singleton, Prod.mk.injEq] at hnew
        exact hact a' hnew.1.symm

/-- Nobody executes the job of `asg` in the steps `q`. -/
structure Abandoned (q : List (ClusterAct × ClusterOut Bytes)) (asg : AssignExecutionRequest) :
    Prop where
  received : ∀ d ∈ takenIn q, d.2.jobId ≠ asg.jobId
  handed : ∀ w sid asg',
    (.worker (.worker w (.nextFor sid)), .worker (.worker (.handed asg'))) ∈ q →
    asg'.jobId ≠ asg.jobId

theorem mem_takenIn {tr : List (ClusterAct × ClusterOut Bytes)}
    {d : String × AssignExecutionRequest} :
    d ∈ takenIn tr ↔ (.worker (.receive d.1), .worker (.received d.2)) ∈ tr := by
  unfold takenIn
  rw [List.mem_filterMap]
  constructor
  · rintro ⟨⟨a, o⟩, hmem, he⟩
    split at he
    · rename_i heq
      cases heq
      cases he
      exact hmem
    · cases he
  · intro hmem
    exact ⟨_, hmem, rfl⟩

/-- **A crashed worker takes its jobs with it.** What was sent to a worker
before its crash stays on its queue, on record and under its name, and after
the crash no worker receives the job and no session is handed it. -/
theorem crash_abandons (hdest : ∀ w, cfg.taskDestination ≠ workerDestination w) {w : String}
    {o : ClusterOut Bytes} (h₀ : (cluster cfg registry).Run p s₀) (hw : w ∈ s₀.workers)
    (h : (cluster cfg registry).Run (p ++ (.workerCrash w, o) :: q) s) :
    s₀.redis.queues (workerDestination w) <+: s.redis.queues (workerDestination w) ∧
    ∀ asg, (w, asg) ∈ sentOut p →
      (∃ e, s.redis.executions.lookup asg.executionId = some e ∧
        e.identity = (asg.executionId, asg.jobId, asg.assignmentId, w)) ∧
      Abandoned q asg := by
  rcases Machine.Steps.mid h with ⟨t, t', hp, hcrash, hq⟩
  obtain rfl : s₀ = t := Machine.Steps.det h₀ hp
  cases hcrash
  have hborn : w ∈ s₀.born := by
    rcases cluster_follows h₀ with ⟨u, -, hf⟩
    rcases Finmap.mem_iff.mp hw with ⟨node, hnode⟩
    exact hf.born w (Finmap.mem_of_lookup_eq_some (hf.workers w node hnode))
  have hgone : w ∉ s₀.workers.erase w := fun hmem => (Finmap.mem_erase.mp hmem).1 rfl
  rcases gone_steps hdest (by exact hborn) (by exact hgone) hq with ⟨-, hacts, hqueue⟩
  refine ⟨hqueue, ?_⟩
  intro asg hsent
  have hsent' : (w, asg) ∈ sentOut (p ++ (.workerCrash w, .silent) :: q) :=
    Runs.mem_filterMap_append hsent _
  -- a job is sent to one worker
  have hone : ∀ d ∈ takenIn (p ++ (.workerCrash w, .silent) :: q), d.2.jobId = asg.jobId →
      d = (w, asg) := fun d hd hjob =>
    List.inj_on_of_nodup_map (sentOut_nodup hdest h) (takenIn_sentOut hdest h d hd) hsent' hjob
  have hlater : ∀ x ∈ q, x ∈ p ++ (.workerCrash w, .silent) :: q :=
    fun x hx => List.mem_append_right p (List.mem_cons_of_mem _ hx)
  refine ⟨sentOut_recorded hdest h _ hsent', ?_, ?_⟩
  · intro d hd hjob
    have hmem := mem_takenIn.mp hd
    rw [hone d (mem_takenIn.mpr (hlater _ hmem)) hjob] at hmem
    exact hacts _ _ hmem rfl
  · intro w' sid asg' hmem hjob
    cases hone (w', asg') (handed_takenIn hdest h (hlater _ hmem)) hjob
    exact hacts _ _ hmem rfl

/-- A task waits on the queue of its worker. -/
def stranded : List ClusterAct :=
  [.boot 0, .core 0 (.register (Core.plainWorker "v") 0), .worker (.start "v"),
   .core 0 (.submit "j" "m" Core.plainRequest 1), .core 0 (.published "j" (.ok ()))] ++
  (Core.scheduled "j" "x" 0).map (.core 0)

/-- Another worker comes in and gets another task. -/
def replaced : List ClusterAct :=
  [.core 0 (.tick 31), .core 0 (.register (Core.plainWorker "w") 2), .worker (.start "w"),
   .core 0 (.submit "i" "n" Core.plainRequest 3), .core 0 (.published "i" (.ok ()))] ++
  (Core.scheduled "i" "y" 1).map (.core 0) ++
  [.worker (.receive "w"), .worker (.enqueue "w"), .worker (.worker "w" (.connect "s" ⟨0⟩)),
   .worker (.worker "w" (.nextFor "s"))]

theorem crash_abandons_stranded : ∃ p q o s₀ s,
    (cluster Core.symbolicConfig (.new 30 (by decide))).Run p s₀ ∧ "v" ∈ s₀.workers ∧
    (cluster Core.symbolicConfig (.new 30 (by decide))).Run (p ++ (.workerCrash "v", o) :: q) s ∧
    (takenIn q).map (fun d => d.2.jobId) = ["i"] ∧
    s₀.redis.queues (workerDestination "v") <+: s.redis.queues (workerDestination "v") ∧
    Abandoned q (Core.assignmentFor Core.plainRequest "j" "j-a" "x") := by
  rcases Machine.runs_of_exec (cluster Core.symbolicConfig (.new 30 (by decide))) stranded
    (.workerCrash "v" :: replaced)
    (P := fun p s₀ => "v" ∈ s₀.workers ∧
      ("v", Core.assignmentFor Core.plainRequest "j" "j-a" "x") ∈ sentOut p)
    (Q := fun q _ => (takenIn q).map (fun d => d.2.jobId) = ["i"]) (by decide +kernel) with
    ⟨p, s₀, q, s, hp, hq, -, hacts, ⟨hw, hsent⟩, htaken⟩
  cases q with
  | nil => cases hacts
  | cons x q =>
      rcases x with ⟨a, o⟩
      rw [List.map_cons, List.cons.injEq] at hacts
      rcases hacts with ⟨rfl, -⟩
      have hrun := Machine.Steps.trans hp hq
      have hlaw := crash_abandons Core.symbolicConfig_taskDestination hp hw hrun
      exact ⟨p, q, o, s₀, s, hp, hw, hrun, htaken, hlaw.1, (hlaw.2 _ hsent).2⟩

end Abandons

/-! ## A control plane that has crashed -/

section Forgets

variable {tr : List (ClusterAct × ClusterOut Bytes)}

/-- A job is in the map of the process it was submitted to, if anywhere. -/
structure Owned (tr : List (ClusterAct × ClusterOut Bytes)) (s : ClusterState Bytes) : Prop where
  one : ((submittedTo tr).map Prod.snd).Nodup
  drawn : ∀ d ∈ submittedTo tr, d.2 ∈ s.redis.drawn
  booted : ∀ d ∈ submittedTo tr, d.1 ∈ s.booted
  running : ∀ n ∈ s.planes, n ∈ s.booted
  jobs : ∀ n m, s.planes.lookup n = some m → ∀ j ∈ m.jobs, (n, j) ∈ submittedTo tr

theorem submittedTo_snoc (tr : List (ClusterAct × ClusterOut Bytes))
    (x : ClusterAct × ClusterOut Bytes) :
    submittedTo (tr ++ [x]) = submittedTo tr ++ submittedTo [x] :=
  List.filterMap_append

theorem submittedTo_core (n : Nat) (a : Core.Act) (o : Core.Out Bytes) :
    submittedTo [(.core n a, .core o)] = [] ∨
      ∃ j mid request now, a = .submit j mid request now ∧
        submittedTo [(.core n a, .core o)] = [(n, j)] := by
  cases a with
  | submit j mid request now => exact Or.inr ⟨j, mid, request, now, rfl, rfl⟩
  | _ => exact Or.inl rfl

/-- A job comes into the map by its submission. -/
theorem jobs_origin {c c' : CoreState Bytes} {a : Core.Act} {o : Core.Out Bytes}
    (h : Takes cfg c a o c') {j : String} (hj : j ∈ c'.jobs) :
    j ∈ c.jobs ∨ ∃ mid request now, a = .submit j mid request now := by
  rcases Core.jobs_cases h with ⟨i, mid, request, now, rfl, -, hjobs⟩ |
    ⟨i, error, request, job, env, -, -, hjobs⟩ |
    ⟨k, now, report, i, outcome, record, -, -, -, hrec, hjobs⟩ | ⟨hjobs, -⟩
  · rw [hjobs] at hj
    rcases Finmap.mem_insert.mp hj with rfl | hold
    · exact Or.inr ⟨mid, request, now, rfl⟩
    · exact Or.inl hold
  · rw [hjobs] at hj
    exact Or.inl (Finmap.mem_erase.mp hj).2
  · rw [hjobs] at hj
    rcases Finmap.mem_insert.mp hj with rfl | hold
    · exact Or.inl (Finmap.mem_of_lookup_eq_some hrec)
    · exact Or.inl hold
  · exact Or.inl (hjobs ▸ hj)

theorem owned_plane (h : Owned tr s) {n : Nat} {a : Core.Act} {o : ClusterOut Bytes}
    (hs : s.plane cfg n a = some (s', o)) : Owned (tr ++ [(.core n a, o)]) s' := by
  rcases plane_cases hs with ⟨m, c', co, hn, hstep, rfl, rfl⟩
  have htakes := Core.step_takes hstep
  have hdrawn : ∀ d ∈ submittedTo tr, d.2 ∈ c'.drawn :=
    fun d hd => Core.drawn_stays htakes (h.drawn d hd)
  have hboot : n ∈ s.booted := h.running n (Finmap.mem_of_lookup_eq_some hn)
  have hrunning : ∀ i ∈ s.planes.insert n c'.memory, i ∈ s.booted := by
    intro i hi
    rcases Finmap.mem_insert.mp hi with rfl | hold
    · exact hboot
    · exact h.running i hold
  have hjobs : ∀ i p, (s.planes.insert n c'.memory).lookup i = some p → ∀ j ∈ p.jobs,
      (i, j) ∈ submittedTo (tr ++ [(.core n a, .core co)]) := by
    intro i p hi j hj
    rw [submittedTo_snoc]
    rcases HashMap.lookup_insert_some hi with ⟨rfl, rfl⟩ | ⟨-, hold⟩
    · rcases jobs_origin htakes hj with hold | ⟨mid, request, now, rfl⟩
      · exact List.mem_append_left _ (h.jobs i m hn j hold)
      · exact List.mem_append_right _ (List.mem_singleton_self _)
    · exact List.mem_append_left _ (h.jobs i p hold j hj)
  rcases submittedTo_core n a co with hnone | ⟨j, mid, request, now, rfl, hnew⟩
  · have hsame : submittedTo (tr ++ [(.core n a, .core co)]) = submittedTo tr := by
      rw [submittedTo_snoc, hnone, List.append_nil]
    exact ⟨hsame ▸ h.one, hsame ▸ hdrawn, hsame ▸ h.booted, hrunning, hjobs⟩
  · have hadd : submittedTo (tr ++ [(.core n (.submit j mid request now), .core co)]) =
        submittedTo tr ++ [(n, j)] := by
      rw [submittedTo_snoc, hnew]
    cases htakes with
    | submit _ _ _ _ hfresh =>
        have hj : j ∉ s.redis.drawn := (hfresh.2 j List.mem_cons_self).1
        refine ⟨?_, ?_, ?_, hrunning, hjobs⟩
        · rw [hadd, List.map_append, List.nodup_append]
          refine ⟨h.one, List.nodup_singleton _, ?_⟩
          intro i hi i' hi' he
          rcases List.mem_map.mp hi with ⟨d, hd, rfl⟩
          rw [List.map_singleton, List.mem_singleton] at hi'
          have hold := h.drawn d hd
          rw [he, hi'] at hold
          exact hj hold
        · rw [hadd]
          intro d hd
          rcases List.mem_append.mp hd with hold | hlast
          · exact hdrawn d hold
          · rw [List.mem_singleton.mp hlast]
            simp [CoreState.redis, CoreState.draw]
        · rw [hadd]
          intro d hd
          rcases List.mem_append.mp hd with hold | hlast
          · exact h.booted d hold
          · rw [List.mem_singleton.mp hlast]
            exact hboot
    | refused _ _ _ h' => simp at h'

theorem owned_step (h : Owned tr s) {a : ClusterAct} {o : ClusterOut Bytes}
    (hs : s.step cfg a = some (s', o)) : Owned (tr ++ [(a, o)]) s' := by
  have hquiet : submittedTo [(a, o)] = [] → submittedTo (tr ++ [(a, o)]) = submittedTo tr := by
    intro hnone
    rw [submittedTo_snoc, hnone, List.append_nil]
  cases a with
  | boot n =>
      have hsame := hquiet rfl
      simp only [ClusterState.step] at hs
      split_ifs at hs with hn
      cases hs
      refine ⟨hsame ▸ h.one, hsame ▸ h.drawn, ?_, ?_, ?_⟩
      · rw [hsame]
        exact fun d hd => Finset.mem_insert_of_mem (h.booted d hd)
      · intro i hi
        rcases Finmap.mem_insert.mp hi with rfl | hold
        · exact Finset.mem_insert_self _ _
        · exact Finset.mem_insert_of_mem (h.running i hold)
      · rw [hsame]
        intro i p hi j hj
        rcases HashMap.lookup_insert_some hi with ⟨-, rfl⟩ | ⟨-, hold⟩
        · exact absurd hj Finmap.notMem_empty
        · exact h.jobs i p hold j hj
  | core n a => exact owned_plane h hs
  | crash n =>
      have hsame := hquiet rfl
      cases hs
      refine ⟨hsame ▸ h.one, hsame ▸ h.drawn, hsame ▸ h.booted, ?_, ?_⟩
      · exact fun i hi => h.running i (Finmap.mem_erase.mp hi).2
      · rw [hsame]
        exact fun i p hi => h.jobs i p (HashMap.lookup_erase_some hi).2
  | worker a =>
      have hsame := hquiet rfl
      rcases work_cases hs with ⟨w, p, o', hactor, -, hstep, rfl, rfl⟩
      rcases worker_step_local hactor rfl rfl hstep with ⟨node, q, rfl, -, -⟩
      exact ⟨hsame ▸ h.one, hsame ▸ h.drawn, hsame ▸ h.booted, h.running, hsame ▸ h.jobs⟩
  | workerCrash w =>
      have hsame := hquiet rfl
      cases hs
      exact ⟨hsame ▸ h.one, hsame ▸ h.drawn, hsame ▸ h.booted, h.running, hsame ▸ h.jobs⟩

theorem cluster_owned (h : (cluster cfg registry).Run tr s) : Owned tr s := by
  refine h.history (P := Owned) ⟨List.nodup_nil, ?_, ?_, ?_, ?_⟩ ?_
  · exact fun d hd => absurd hd List.not_mem_nil
  · exact fun d hd => absurd hd List.not_mem_nil
  · exact fun n hn => absurd hn Finmap.notMem_empty
  · intro n m hn
    simp [cluster] at hn
  · exact fun tr s a t o _ ho hs => owned_step ho hs

/-- A process that is gone does not come back. -/
theorem stopped_steps {n : Nat} (hbooted : n ∈ s₀.booted) (hgone : n ∉ s₀.planes)
    (h : (cluster cfg registry).Steps s₀ q s) : n ∈ s.booted ∧ n ∉ s.planes := by
  induction h with
  | refl => exact ⟨hbooted, hgone⟩
  | @snoc q s s' a o _ hs ih =>
      rcases ih with ⟨hbooted', hgone'⟩
      cases a with
      | boot i =>
          simp only [cluster, ClusterState.step] at hs
          split_ifs at hs with hi
          cases hs
          refine ⟨Finset.mem_insert_of_mem hbooted', ?_⟩
          intro hmem
          rcases Finmap.mem_insert.mp hmem with rfl | hold
          · exact hi hbooted'
          · exact hgone' hold
      | core i a =>
          rcases plane_cases hs with ⟨m, c', co, hi, -, -, rfl⟩
          refine ⟨hbooted', ?_⟩
          intro hmem
          rcases Finmap.mem_insert.mp hmem with rfl | hold
          · exact hgone' (Finmap.mem_of_lookup_eq_some hi)
          · exact hgone' hold
      | crash i =>
          cases hs
          exact ⟨hbooted', fun hmem => hgone' (Finmap.mem_erase.mp hmem).2⟩
      | worker a =>
          rcases work_cases hs with ⟨w, p, o', -, -, -, -, rfl⟩
          exact ⟨hbooted', hgone'⟩
      | workerCrash w =>
          cases hs
          exact ⟨hbooted', hgone'⟩

/-- After the crash of its process a job is in no map. -/
theorem forgotten {n : Nat} {j : String} {o : ClusterOut Bytes}
    (h : (cluster cfg registry).Run (p ++ (.crash n, o) :: q) s) (hj : (n, j) ∈ submittedTo p)
    {i : Nat} {m : Memory Bytes} (hi : s.planes.lookup i = some m) : j ∉ m.jobs := by
  intro hmem
  have hown := cluster_owned h
  rcases Machine.Steps.mid h with ⟨t, t', hp, hcrash, hq⟩
  cases hcrash
  have hbooted : n ∈ t.booted := (cluster_owned hp).booted (n, j) hj
  have hgone : n ∉ t.planes.erase n := fun hn => (Finmap.mem_erase.mp hn).1 rfl
  have hstop := stopped_steps (by exact hbooted) (by exact hgone) hq
  -- the process that has the job is the one it was submitted to
  have heq : (i, j) = (n, j) :=
    List.inj_on_of_nodup_map hown.one (hown.jobs i m hi j hmem)
      (Runs.mem_filterMap_append hj _) rfl
  rw [(Prod.mk.inj heq).1] at hi
  exact hstop.2 (Finmap.mem_of_lookup_eq_some hi)

/-- **A crashed control plane takes its jobs with it.** After the crash of the
process that accepted a job `GetJob` finds the job at no process, and a report
that has stored its outcome and the state of the execution is refused. -/
theorem crash_forgets {n : Nat} {j : String} {o : ClusterOut Bytes}
    (h : (cluster cfg registry).Run (p ++ (.crash n, o) :: q) s) (hj : (n, j) ∈ submittedTo p) :
    (∀ i m, s.planes.lookup i = some m →
      (s.redis.view m).getJob j = .error ⟨.notFound, "job not found"⟩) ∧
    ∀ i m k report outcome now s' o', s.planes.lookup i = some m →
      m.reports.lookup k = some (.finishing report j outcome) →
      (cluster cfg registry).step s (.core i (.jobUpdated k now)) = some (s', o') →
      o' = .core (.reported (.error ⟨.notFound, "job not found"⟩)) ∧ s'.redis = s.redis := by
  refine ⟨?_, ?_⟩
  · intro i m hi
    have hnone : m.jobs.lookup j = none := Finmap.lookup_eq_none.mpr (forgotten h hj hi)
    simp only [CoreState.getJob, Persisted.view, hnone]
  · intro i m k report outcome now s' o' hi hpc hs
    rcases plane_cases hs with ⟨m', c', co, hi', hstep, rfl, rfl⟩
    rw [hi, Option.some.injEq] at hi'
    subst hi'
    have hnone : m.jobs.lookup j = none := Finmap.lookup_eq_none.mpr (forgotten h hj hi)
    have hrefused : CoreState.updateJob m.jobs j outcome now =
        .error ⟨.notFound, "job not found"⟩ := by
      rcases Core.updateJob_cases m.jobs j outcome now with ⟨-, he⟩ | ⟨record, hrec, -⟩
      · exact he
      · rw [hnone] at hrec
        cases hrec
    simp only [CoreState.step, CoreState.jobUpdated, Persisted.view, hpc, hrefused,
      CoreState.refuse, Option.some.injEq, Prod.mk.injEq] at hstep
    rcases hstep with ⟨rfl, rfl⟩
    exact ⟨rfl, rfl⟩

/-- The task succeeds while the control plane that accepted it is down, and is
reported to another one. -/
def reportedElsewhere : List ClusterAct :=
  [.boot 1, .core 1 (.report 0 (Core.plainReport "x" .succeeded (some .empty))),
   .core 1 (.resolved 0 (.ok ())), .core 1 (.outcomeStored 0 .done),
   .core 1 (.stateUpdated 0 .done 4)]

theorem crash_forgets_reportedElsewhere : ∃ p q o s m,
    (cluster Core.symbolicConfig (.new 30 (by decide))).Run (p ++ (.crash 0, o) :: q) s ∧
    (0, "j") ∈ submittedTo p ∧
    s.planes.lookup 1 = some m ∧ (s.redis.backend.lookup "j").isSome ∧
    (s.redis.view m).getJob "j" = .error ⟨.notFound, "job not found"⟩ := by
  rcases Machine.runs_of_exec (cluster Core.symbolicConfig (.new 30 (by decide))) stranded
    (.crash 0 :: reportedElsewhere)
    (P := fun p _ => (0, "j") ∈ submittedTo p)
    (Q := fun _ s => 1 ∈ s.planes ∧ (s.redis.backend.lookup "j").isSome) (by decide +kernel) with
    ⟨p, s₀, q, s, hp, hq, -, hacts, hj, hone, hbackend⟩
  cases q with
  | nil => cases hacts
  | cons x q =>
      rcases x with ⟨a, o⟩
      rw [List.map_cons, List.cons.injEq] at hacts
      rcases hacts with ⟨rfl, -⟩
      have hrun := Machine.Steps.trans hp hq
      rcases Finmap.mem_iff.mp hone with ⟨m, hm⟩
      exact ⟨p, q, o, s, m, hrun, hj, hm, hbackend, (crash_forgets hrun hj).1 1 m hm⟩

end Forgets

end ThreadWeave
