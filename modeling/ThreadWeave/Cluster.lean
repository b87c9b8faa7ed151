import Mathlib.Data.Nat.Pairing
import ThreadWeave.Core.Client
import ThreadWeave.Delivery
import ThreadWeave.Order

/-!
# Control planes that come and go

The deployment restarts what has stopped: control planes and workers may crash
at any moment, several of them may run at a time, and Redis keeps its data. A
control plane that starts has an empty jobs map and no calls in progress; what
its predecessor had in hand is lost. A worker that starts draws a new id.

* `Memory`, `Persisted` — what a process loses, and what stays.
* `cluster` — the machine: any number of processes on one Redis.
* `Follows` — a cluster follows a pipeline that never crashes: a call whose
  process has crashed stands still there.

`restarts_at_most_once`: through all crashes and restarts a request is executed
at most once, and what a session is handed was submitted.
-/

namespace ThreadWeave

open Runs (HashMap Machine)
open ThreadWeave.Core (Config CoreState Takes workerDestination)

/-! ## The machine -/

/-- What a control plane keeps in its own memory. -/
structure Memory (Bytes : Type) where
  jobs : Core.Jobs
  accepts : HashMap String (Core.AcceptPc Bytes)
  reports : HashMap Nat Core.ReportPc
  schedules : HashMap Nat (Core.SchedulePc Bytes)

/-- What all processes share: the stores and the lists of the broker; the ids
that have been drawn; the time. -/
structure Persisted (Bytes : Type) where
  backend : HashMap String JobResult
  executions : Core.MemoryExecutionStore
  queues : String → List (BrokerEnvelope Bytes)
  registry : MemoryWorkerRegistry
  clock : Instant
  drawn : Finset String

section Parts

variable {Bytes : Type}

def Memory.empty (Bytes : Type) : Memory Bytes :=
  { jobs := ∅, accepts := ∅, reports := ∅, schedules := ∅ }

def Core.CoreState.memory (c : CoreState Bytes) : Memory Bytes :=
  { jobs := c.jobs, accepts := c.accepts, reports := c.reports, schedules := c.schedules }

def Core.CoreState.redis (c : CoreState Bytes) : Persisted Bytes :=
  { backend := c.backend, executions := c.executions, queues := c.queues,
    registry := c.registry, clock := c.clock, drawn := c.drawn }

/-- The control plane that one process is. -/
def Persisted.view (r : Persisted Bytes) (m : Memory Bytes) : CoreState Bytes :=
  { jobs := m.jobs, backend := r.backend, executions := r.executions, queues := r.queues,
    registry := r.registry, clock := r.clock, drawn := r.drawn, accepts := m.accepts,
    reports := m.reports, schedules := m.schedules }

end Parts

structure ClusterState (Bytes : Type) where
  redis : Persisted Bytes
  /-- the control planes that are running, by the number of their process -/
  planes : HashMap Nat (Memory Bytes)
  /-- the numbers that have been given out -/
  booted : Finset Nat
  /-- the workers that are running, by worker id -/
  workers : HashMap String WorkerNode
  /-- the worker ids that have been drawn -/
  born : Finset String

inductive ClusterAct where
  /-- a control plane starts, as a new process -/
  | boot (n : Nat)
  | core (n : Nat) (a : Core.Act)
  | crash (n : Nat)
  /-- a worker starts or takes a step -/
  | worker (a : PipelineAct)
  | workerCrash (w : String)
deriving DecidableEq

inductive ClusterOut (Bytes : Type) where
  | silent
  | core (o : Core.Out Bytes)
  | worker (o : PipelineOut Bytes)
deriving DecidableEq

namespace ClusterState

variable {Bytes : Type} (cfg : Config Bytes)

def plane (s : ClusterState Bytes) (n : Nat) (a : Core.Act) :
    Option (ClusterState Bytes × ClusterOut Bytes) :=
  match s.planes.lookup n with
  | none => none
  | some m =>
      ((s.redis.view m).step cfg a).map fun r =>
        ({ s with redis := r.1.redis, planes := s.planes.insert n r.1.memory }, .core r.2)

def work (s : ClusterState Bytes) (a : PipelineAct) :
    Option (ClusterState Bytes × ClusterOut Bytes) :=
  match a.actor with
  | none => none
  | some w =>
      -- `Worker::new` draws the worker id
      if a = .start w ∧ w ∈ s.born then none
      else
        (PipelineState.step cfg
          { core := s.redis.view (.empty Bytes), workers := s.workers } a).map fun r =>
          ({ s with
            redis := r.1.core.redis
            workers := r.1.workers
            born := insert w s.born }, .worker r.2)

def step (s : ClusterState Bytes) : ClusterAct → Option (ClusterState Bytes × ClusterOut Bytes)
  | .boot n =>
      if n ∈ s.booted then none
      else
        some ({ s with
          planes := s.planes.insert n (.empty Bytes)
          booted := insert n s.booted }, .silent)
  | .core n a => s.plane cfg n a
  | .crash n => some ({ s with planes := s.planes.erase n }, .silent)
  | .worker a => s.work cfg a
  | .workerCrash w => some ({ s with workers := s.workers.erase w }, .silent)

end ClusterState

/-- Control planes and workers on one Redis, from its start with none of them. -/
def cluster {Bytes : Type} (cfg : Config Bytes) (registry : MemoryWorkerRegistry) :
    Machine (ClusterState Bytes) ClusterAct (ClusterOut Bytes) where
  init :=
    { redis := (CoreState.start Bytes registry).redis
      planes := ∅
      booted := ∅
      workers := ∅
      born := ∅ }
  step := ClusterState.step cfg

/-! ## The pipeline that a cluster follows -/

/-- The calls of a process under numbers of their own. -/
def Core.Act.ofProcess (n : Nat) : Core.Act → Core.Act
  | .scheduleOne k => .scheduleOne (Nat.pair n k)
  | .directoryRead k answer => .directoryRead (Nat.pair n k) answer
  | .consumed k f a x now => .consumed (Nat.pair n k) f a x now
  | .consumeFailed k error => .consumeFailed (Nat.pair n k) error
  | .created k answer => .created (Nat.pair n k) answer
  | .dispatched k messageId now answer => .dispatched (Nat.pair n k) messageId now answer
  | a => a

/-- What the pipeline does meanwhile; reports are no matter of dispatch. -/
def piped {Bytes : Type} : ClusterAct × ClusterOut Bytes → List (PipelineAct × PipelineOut Bytes)
  | (.core n a, .core o) =>
      match a.reportCall with
      | some _ => []
      | none => [(.core (a.ofProcess n), .core o)]
  | (.worker a, .worker o) => [(a, o)]
  | _ => []

section Follows

variable {Bytes : Type} {cfg : Config Bytes}

/-- The stores of Redis as the pipeline has them; of an execution the state is
left out. -/
structure Alike (r : Persisted Bytes) (c : CoreState Bytes) : Prop where
  queues : c.queues = r.queues
  registry : c.registry = r.registry
  clock : c.clock = r.clock
  drawn : c.drawn = r.drawn
  executions : ∀ id, (c.executions.lookup id).map Core.ExecutionRecord.identity =
    (r.executions.lookup id).map Core.ExecutionRecord.identity

/-- The calls of the running processes are calls of the pipeline. -/
structure Includes (planes : HashMap Nat (Memory Bytes)) (booted : Finset Nat)
    (c : CoreState Bytes) : Prop where
  running : ∀ n ∈ planes, n ∈ booted
  accepts : ∀ n m, planes.lookup n = some m → ∀ j pc, m.accepts.lookup j = some pc →
    c.accepts.lookup j = some pc
  /-- one process has a job id -/
  apart : ∀ n n' m m' j, planes.lookup n = some m → planes.lookup n' = some m' →
    j ∈ m.accepts → j ∈ m'.accepts → n = n'
  drawn : ∀ j ∈ c.accepts, j ∈ c.drawn
  schedules : ∀ n m, planes.lookup n = some m → ∀ k,
    c.schedules.lookup (Nat.pair n k) = m.schedules.lookup k
  unused : ∀ n ∉ booted, ∀ k, Nat.pair n k ∉ c.schedules

structure Follows (s : ClusterState Bytes) (t : PipelineState Bytes) : Prop where
  alike : Alike s.redis t.core
  includes : Includes s.planes s.booted t.core
  workers : ∀ w node, s.workers.lookup w = some node → t.workers.lookup w = some node
  born : ∀ w ∈ t.workers, w ∈ s.born

/-! ## What one process writes -/

section Writes

variable {planes : HashMap Nat (Memory Bytes)} {booted : Finset Nat} {c c' : CoreState Bytes}
  {n : Nat} {m m' : Memory Bytes}

/-- A step that leaves the calls alone. -/
theorem Includes.same (h : Includes planes booted c) (hn : planes.lookup n = some m)
    (hma : m'.accepts = m.accepts) (hms : m'.schedules = m.schedules)
    (hca : c'.accepts = c.accepts) (hcs : c'.schedules = c.schedules)
    (hdrawn : c.drawn ⊆ c'.drawn) : Includes (planes.insert n m') booted c' := by
  -- every running process has the calls it had
  have hold : ∀ i p, (planes.insert n m').lookup i = some p →
      ∃ p₀, planes.lookup i = some p₀ ∧ p.accepts = p₀.accepts ∧ p.schedules = p₀.schedules := by
    intro i p hi
    rcases HashMap.lookup_insert_some hi with ⟨rfl, rfl⟩ | ⟨-, hp⟩
    · exact ⟨m, hn, hma, hms⟩
    · exact ⟨p, hp, rfl, rfl⟩
  refine ⟨?_, ?_, ?_, ?_, ?_, ?_⟩
  · intro i hi
    rcases Finmap.mem_insert.mp hi with rfl | hp
    · exact h.running i (Finmap.mem_of_lookup_eq_some hn)
    · exact h.running i hp
  · intro i p hi j pc hpc
    rcases hold i p hi with ⟨p₀, hp₀, ha, -⟩
    rw [hca]
    exact h.accepts i p₀ hp₀ j pc (ha ▸ hpc)
  · intro i i' p p' j hi hi' hj hj'
    rcases hold i p hi with ⟨p₀, hp₀, ha, -⟩
    rcases hold i' p' hi' with ⟨p₀', hp₀', ha', -⟩
    exact h.apart i i' p₀ p₀' j hp₀ hp₀' (ha ▸ hj) (ha' ▸ hj')
  · intro j hj
    rw [hca] at hj
    exact hdrawn (h.drawn j hj)
  · intro i p hi k
    rcases hold i p hi with ⟨p₀, hp₀, -, hs⟩
    rw [hcs, hs]
    exact h.schedules i p₀ hp₀ k
  · rw [hcs]
    exact h.unused

/-- The pipeline changes elsewhere. -/
theorem Includes.congr (h : Includes planes booted c) (hca : c'.accepts = c.accepts)
    (hcs : c'.schedules = c.schedules) (hcd : c'.drawn = c.drawn) :
    Includes planes booted c' := by
  refine ⟨h.running, ?_, h.apart, ?_, ?_, ?_⟩
  · rw [hca]
    exact h.accepts
  · rw [hca, hcd]
    exact h.drawn
  · rw [hcs]
    exact h.schedules
  · rw [hcs]
    exact h.unused

theorem Includes.boot (h : Includes planes booted c) (hn : n ∉ booted) :
    Includes (planes.insert n (.empty Bytes)) (insert n booted) c := by
  refine ⟨?_, ?_, ?_, h.drawn, ?_, ?_⟩
  · intro i hi
    rcases Finmap.mem_insert.mp hi with rfl | hp
    · exact Finset.mem_insert_self _ _
    · exact Finset.mem_insert_of_mem (h.running i hp)
  · intro i p hi j pc hpc
    rcases HashMap.lookup_insert_some hi with ⟨-, rfl⟩ | ⟨-, hp⟩
    · simp [Memory.empty] at hpc
    · exact h.accepts i p hp j pc hpc
  · intro i i' p p' j hi hi' hj hj'
    rcases HashMap.lookup_insert_some hi with ⟨-, rfl⟩ | ⟨-, hp⟩
    · exact absurd hj Finmap.notMem_empty
    · rcases HashMap.lookup_insert_some hi' with ⟨-, rfl⟩ | ⟨-, hp'⟩
      · exact absurd hj' Finmap.notMem_empty
      · exact h.apart i i' p p' j hp hp' hj hj'
  · intro i p hi k
    rcases HashMap.lookup_insert_some hi with ⟨rfl, rfl⟩ | ⟨-, hp⟩
    · -- the numbers of a process are its own
      rw [Finmap.lookup_eq_none.mpr (h.unused i hn k)]
      rfl
    · exact h.schedules i p hp k
  · intro i hi k
    exact h.unused i (fun hb => hi (Finset.mem_insert_of_mem hb)) k

theorem Includes.crash (h : Includes planes booted c) (n : Nat) :
    Includes (planes.erase n) booted c := by
  have hold : ∀ i p, (planes.erase n).lookup i = some p → planes.lookup i = some p :=
    fun i p hi => (HashMap.lookup_erase_some hi).2
  refine ⟨?_, ?_, ?_, h.drawn, ?_, h.unused⟩
  · intro i hi
    exact h.running i (Finmap.mem_erase.mp hi).2
  · intro i p hi
    exact h.accepts i p (hold i p hi)
  · intro i i' p p' j hi hi'
    exact h.apart i i' p p' j (hold i p hi) (hold i' p' hi')
  · intro i p hi
    exact h.schedules i p (hold i p hi)

/-- A process writes one of its `accept` calls. -/
theorem Includes.accept (h : Includes planes booted c) (hn : planes.lookup n = some m)
    {j : String} {entry : Option (Core.AcceptPc Bytes)}
    (hma : ∀ i, m'.accepts.lookup i = if i = j then entry else m.accepts.lookup i)
    (hca : ∀ i, c'.accepts.lookup i = if i = j then entry else c.accepts.lookup i)
    (hms : m'.schedules = m.schedules) (hcs : c'.schedules = c.schedules)
    (hown : j ∈ m.accepts ∨ j ∉ c.drawn) (hdrawn : c.drawn ⊆ c'.drawn) (hj : j ∈ c'.drawn) :
    Includes (planes.insert n m') booted c' := by
  -- no other process has a call for this job
  have hother : ∀ i p, i ≠ n → planes.lookup i = some p → j ∉ p.accepts := by
    intro i p hin hi hmem
    rcases hown with hmine | hnew
    · exact hin (h.apart i n p m j hi hn hmem hmine)
    · rcases Finmap.mem_iff.mp hmem with ⟨pc, hpc⟩
      exact hnew (h.drawn j (Finmap.mem_of_lookup_eq_some (h.accepts i p hi j pc hpc)))
  have hmem : ∀ i, i ∈ m'.accepts → i = j ∨ i ∈ m.accepts := by
    intro i hi
    rcases Finmap.mem_iff.mp hi with ⟨pc, hpc⟩
    rw [hma] at hpc
    split_ifs at hpc with hij
    · exact Or.inl hij
    · exact Or.inr (Finmap.mem_of_lookup_eq_some hpc)
  refine ⟨?_, ?_, ?_, ?_, ?_, ?_⟩
  · intro i hi
    rcases Finmap.mem_insert.mp hi with rfl | hp
    · exact h.running i (Finmap.mem_of_lookup_eq_some hn)
    · exact h.running i hp
  · intro i p hi i' pc hpc
    rw [hca]
    rcases HashMap.lookup_insert_some hi with ⟨rfl, rfl⟩ | ⟨hin, hp⟩
    · rw [hma] at hpc
      split_ifs at hpc ⊢ with hij
      · exact hpc
      · exact h.accepts i m hn i' pc hpc
    · have hij : i' ≠ j := by
        rintro rfl
        exact hother i p hin hp (Finmap.mem_of_lookup_eq_some hpc)
      rw [if_neg hij]
      exact h.accepts i p hp i' pc hpc
  · intro i i' p p' i'' hi hi' hp hp'
    rcases HashMap.lookup_insert_some hi with ⟨rfl, rfl⟩ | ⟨hin, hold⟩
    · rcases HashMap.lookup_insert_some hi' with ⟨rfl, rfl⟩ | ⟨hin', hold'⟩
      · rfl
      · rcases hmem i'' hp with rfl | hmine
        · exact absurd hp' (hother i' p' hin' hold')
        · exact h.apart i i' m p' i'' hn hold' hmine hp'
    · rcases HashMap.lookup_insert_some hi' with ⟨rfl, rfl⟩ | ⟨hin', hold'⟩
      · rcases hmem i'' hp' with rfl | hmine
        · exact absurd hp (hother i p hin hold)
        · exact h.apart i i' p m i'' hold hn hp hmine
      · exact h.apart i i' p p' i'' hold hold' hp hp'
  · intro i hi
    rcases Finmap.mem_iff.mp hi with ⟨pc, hpc⟩
    rw [hca] at hpc
    split_ifs at hpc with hij
    · exact hij ▸ hj
    · exact hdrawn (h.drawn i (Finmap.mem_of_lookup_eq_some hpc))
  · intro i p hi k
    rw [hcs]
    rcases HashMap.lookup_insert_some hi with ⟨rfl, rfl⟩ | ⟨-, hp⟩
    · rw [hms]
      exact h.schedules i m hn k
    · exact h.schedules i p hp k
  · rw [hcs]
    exact h.unused

/-- A process writes one of its `schedule_one` calls. -/
theorem Includes.schedule (h : Includes planes booted c) (hn : planes.lookup n = some m)
    {k : Nat} {entry : Option (Core.SchedulePc Bytes)}
    (hms : ∀ i, m'.schedules.lookup i = if i = k then entry else m.schedules.lookup i)
    (hcs : ∀ i, c'.schedules.lookup i =
      if i = Nat.pair n k then entry else c.schedules.lookup i)
    (hma : m'.accepts = m.accepts) (hca : c'.accepts = c.accepts)
    (hdrawn : c.drawn ⊆ c'.drawn) : Includes (planes.insert n m') booted c' := by
  have hold : ∀ i p, (planes.insert n m').lookup i = some p →
      ∃ p₀, planes.lookup i = some p₀ ∧ p.accepts = p₀.accepts := by
    intro i p hi
    rcases HashMap.lookup_insert_some hi with ⟨rfl, rfl⟩ | ⟨-, hp⟩
    · exact ⟨m, hn, hma⟩
    · exact ⟨p, hp, rfl⟩
  refine ⟨?_, ?_, ?_, ?_, ?_, ?_⟩
  · intro i hi
    rcases Finmap.mem_insert.mp hi with rfl | hp
    · exact h.running i (Finmap.mem_of_lookup_eq_some hn)
    · exact h.running i hp
  · intro i p hi j pc hpc
    rcases hold i p hi with ⟨p₀, hp₀, ha⟩
    rw [hca]
    exact h.accepts i p₀ hp₀ j pc (ha ▸ hpc)
  · intro i i' p p' j hi hi' hj hj'
    rcases hold i p hi with ⟨p₀, hp₀, ha⟩
    rcases hold i' p' hi' with ⟨p₀', hp₀', ha'⟩
    exact h.apart i i' p₀ p₀' j hp₀ hp₀' (ha ▸ hj) (ha' ▸ hj')
  · intro j hj
    rw [hca] at hj
    exact hdrawn (h.drawn j hj)
  · intro i p hi k'
    rw [hcs]
    rcases HashMap.lookup_insert_some hi with ⟨rfl, rfl⟩ | ⟨hin, hp⟩
    · rw [hms]
      by_cases hk : k' = k
      · rw [if_pos hk, if_pos (by rw [hk])]
      · rw [if_neg hk, if_neg (by simp [Nat.pair_eq_pair, hk])]
        exact h.schedules i m hn k'
    · rw [if_neg (by simp [Nat.pair_eq_pair, hin])]
      exact h.schedules i p hp k'
  · intro i hi k' hmem
    rcases Finmap.mem_iff.mp hmem with ⟨pc, hpc⟩
    rw [hcs] at hpc
    split_ifs at hpc with hk
    · -- a process that writes is running
      rw [(Nat.pair_eq_pair.mp hk).1] at hi
      exact hi (h.running n (Finmap.mem_of_lookup_eq_some hn))
    · exact h.unused i hi k' (Finmap.mem_of_lookup_eq_some hpc)

end Writes

/-! ## Step by step -/

section Steps

variable {planes : HashMap Nat (Memory Bytes)} {booted : Finset Nat} {n : Nat} {m : Memory Bytes}
  {r : Persisted Bytes} {t c c' : CoreState Bytes} {o : Core.Out Bytes}

/-- The pipeline takes the step of a process. -/
def StepMatched (cfg : Config Bytes) (planes : HashMap Nat (Memory Bytes)) (booted : Finset Nat)
    (n : Nat) (t : CoreState Bytes) (a : Core.Act) (o : Core.Out Bytes) (c' : CoreState Bytes) :
    Prop :=
  ∃ t', t.step cfg (a.ofProcess n) = some (t', o) ∧ Alike c'.redis t' ∧
    Includes (planes.insert n c'.memory) booted t'

theorem Alike.fresh (h : Alike r t) {ids : List String} (hfresh : (r.view m).Fresh ids) :
    t.Fresh ids := by
  refine ⟨hfresh.1, ?_⟩
  intro id hid
  rw [h.drawn]
  exact hfresh.2 id hid

theorem Alike.draw (h : Alike r t) (ids : List String) :
    Alike ((r.view m).draw ids).redis (t.draw ids) where
  queues := h.queues
  registry := h.registry
  clock := h.clock
  drawn := by
    change t.drawn ∪ ids.toFinset = r.drawn ∪ ids.toFinset
    rw [h.drawn]
  executions := h.executions

theorem Alike.push (h : Alike r t) (env : BrokerEnvelope Bytes) :
    Alike ((r.view m).push env).redis (t.push env) where
  queues := by
    change Function.update t.queues env.destination (t.queues env.destination ++ [env]) =
      Function.update r.queues env.destination (r.queues env.destination ++ [env])
    rw [h.queues]
  registry := h.registry
  clock := h.clock
  drawn := h.drawn
  executions := h.executions

theorem Alike.pop (h : Alike r t) (d : String) (rest : List (BrokerEnvelope Bytes)) :
    Alike ((r.view m).pop d rest).redis (t.pop d rest) where
  queues := by
    change Function.update t.queues d rest = Function.update r.queues d rest
    rw [h.queues]
  registry := h.registry
  clock := h.clock
  drawn := h.drawn
  executions := h.executions

theorem subset_draw (c : CoreState Bytes) (ids : List String) : c.drawn ⊆ (c.draw ids).drawn :=
  Finset.subset_union_left

/-- The text of a refused `create` is not among what `Takes` says. -/
def Core.Act.creates : Core.Act → Bool
  | .created _ _ => true
  | _ => false

/-- Any other branch of `accept` and `schedule_one` that is listed can be run. -/
theorem step_of_takes {s s' : CoreState Bytes} {a : Core.Act} (h : Takes cfg s a o s')
    (hreport : a.reportCall = none) (hcreate : a.creates = false) :
    s.step cfg a = some (s', o) := by
  cases h with
  | submit j mid request now hfresh => simp [CoreState.step, CoreState.submit, hfresh]
  | publishFailed j error request job envelope hpc =>
      simp [CoreState.step, CoreState.published, hpc]
  | published j request job envelope hpc => simp [CoreState.step, CoreState.published, hpc]
  | resultStored j request job hpc => simp [CoreState.step, CoreState.resultStored, hpc]
  | resultFailed j error request job hpc => simp [CoreState.step, CoreState.resultStored, hpc]
  | resultLost j error request job hpc => simp [CoreState.step, CoreState.resultStored, hpc]
  | scheduleOne k hfree => simp [CoreState.step, CoreState.scheduleOne, hfree]
  | directoryFailed k error hpc =>
      simp [CoreState.step, CoreState.directoryRead, CoreState.leave, hpc]
  | noWorker k hpc hread =>
      simp [CoreState.step, CoreState.directoryRead, CoreState.leave, hpc, hread]
  | chosen k w rest hpc hread => simp [CoreState.step, CoreState.directoryRead, hpc, hread]
  | consumeFailed k error w hpc =>
      simp [CoreState.step, CoreState.consumeFailed, CoreState.leave, hpc]
  | undecodable k f a x now w error submitted rest hpc hqueue hfresh hdecode =>
      simp [CoreState.step, CoreState.consumed, CoreState.leave, hpc, hqueue, hfresh, hdecode,
        CoreState.draw]
  | consumed k f a x now w submitted rest request hpc hqueue hfresh hdecode =>
      simp [CoreState.step, CoreState.consumed, hpc, hqueue, hfresh, hdecode]
  | createFailed => cases hcreate
  | created => cases hcreate
  | dispatchFailed k mid now error w asg submitted hpc hfresh =>
      simp [CoreState.step, CoreState.dispatched, CoreState.leave, hpc, hfresh, CoreState.draw]
  | dispatched k mid now w asg submitted hpc hfresh =>
      simp [CoreState.step, CoreState.dispatched, hpc, hfresh]
  | tick => rfl
  | register => rfl
  | heartbeat => rfl
  | refused a k status ha =>
      rcases ha with ⟨_, rfl⟩ | ⟨_, rfl⟩ | ⟨_, _, rfl⟩ | ⟨_, rfl⟩ <;> cases hreport
  | _ => cases hreport

theorem accept_matched (ha : Alike r t) (hi : Includes planes booted t)
    (hn : planes.lookup n = some m) {a : Core.Act}
    (hact : (∃ j mid request now, a = .submit j mid request now) ∨
      (∃ j answer, a = .published j answer) ∨ ∃ j fate, a = .resultStored j fate)
    (h : Takes cfg (r.view m) a o c') : StepMatched cfg planes booted n t a o c' := by
  -- the pipeline has the call, and its id has been drawn
  have hcall : ∀ j pc, m.accepts.lookup j = some pc →
      t.accepts.lookup j = some pc ∧ j ∈ m.accepts ∧ j ∈ t.drawn := by
    intro j pc hpc
    have hpc' := hi.accepts n m hn j pc hpc
    exact ⟨hpc', Finmap.mem_of_lookup_eq_some hpc,
      hi.drawn j (Finmap.mem_of_lookup_eq_some hpc')⟩
  rcases hact with ⟨j, mid, request, now, rfl⟩ | ⟨j, answer, rfl⟩ | ⟨j, fate, rfl⟩
  · cases h with
    | submit _ _ _ _ hfresh =>
        have hfresh' := ha.fresh hfresh
        refine ⟨_, step_of_takes (.submit j mid request now hfresh') rfl rfl, ?_, ?_⟩
        · have hdraw : Alike ((r.view m).draw [j, mid]).redis (t.draw [j, mid]) := ha.draw _
          exact ⟨hdraw.queues, hdraw.registry, hdraw.clock, hdraw.drawn, hdraw.executions⟩
        · refine hi.accept hn (HashMap.lookup_insert_ite _ j · _)
            (HashMap.lookup_insert_ite _ j · _) rfl rfl
            (Or.inr (hfresh'.2 j List.mem_cons_self).1) (subset_draw t _) ?_
          simp [CoreState.draw]
    | refused _ _ _ h' => simp at h'
  · cases h with
    | publishFailed _ error request job envelope hpc =>
        obtain ⟨hpc', hown, hj⟩ := hcall j _ hpc
        exact ⟨_, step_of_takes (.publishFailed j error request job envelope hpc') rfl rfl,
          ⟨ha.queues, ha.registry, ha.clock, ha.drawn, ha.executions⟩,
          hi.accept hn (HashMap.lookup_erase_ite _ j) (HashMap.lookup_erase_ite _ j) rfl rfl
            (Or.inl hown) (Finset.Subset.refl _) hj⟩
    | published _ request job envelope hpc =>
        obtain ⟨hpc', hown, hj⟩ := hcall j _ hpc
        refine ⟨_, step_of_takes (.published j request job envelope hpc') rfl rfl, ?_, ?_⟩
        · have hpush : Alike ((r.view m).push envelope).redis (t.push envelope) := ha.push _
          exact ⟨hpush.queues, hpush.registry, hpush.clock, hpush.drawn, hpush.executions⟩
        · exact hi.accept hn (HashMap.lookup_insert_ite _ j · _)
            (HashMap.lookup_insert_ite _ j · _) rfl rfl (Or.inl hown) (Finset.Subset.refl _) hj
    | refused _ _ _ h' => simp at h'
  · cases h with
    | resultStored _ request job hpc =>
        obtain ⟨hpc', hown, hj⟩ := hcall j _ hpc
        exact ⟨_, step_of_takes (.resultStored j request job hpc') rfl rfl,
          ⟨ha.queues, ha.registry, ha.clock, ha.drawn, ha.executions⟩,
          hi.accept hn (HashMap.lookup_erase_ite _ j) (HashMap.lookup_erase_ite _ j) rfl rfl
            (Or.inl hown) (Finset.Subset.refl _) hj⟩
    | resultFailed _ error request job hpc =>
        obtain ⟨hpc', hown, hj⟩ := hcall j _ hpc
        exact ⟨_, step_of_takes (.resultFailed j error request job hpc') rfl rfl,
          ⟨ha.queues, ha.registry, ha.clock, ha.drawn, ha.executions⟩,
          hi.accept hn (HashMap.lookup_erase_ite _ j) (HashMap.lookup_erase_ite _ j) rfl rfl
            (Or.inl hown) (Finset.Subset.refl _) hj⟩
    | resultLost _ error request job hpc =>
        obtain ⟨hpc', hown, hj⟩ := hcall j _ hpc
        exact ⟨_, step_of_takes (.resultLost j error request job hpc') rfl rfl,
          ⟨ha.queues, ha.registry, ha.clock, ha.drawn, ha.executions⟩,
          hi.accept hn (HashMap.lookup_erase_ite _ j) (HashMap.lookup_erase_ite _ j) rfl rfl
            (Or.inl hown) (Finset.Subset.refl _) hj⟩
    | refused _ _ _ h' => simp at h'

theorem schedule_matched (ha : Alike r t) (hi : Includes planes booted t)
    (hn : planes.lookup n = some m) {a : Core.Act}
    (hact : (∃ k, a = .scheduleOne k) ∨ (∃ k answer, a = .directoryRead k answer) ∨
      (∃ k f a' x now, a = .consumed k f a' x now) ∨ (∃ k error, a = .consumeFailed k error) ∨
      ∃ k mid now answer, a = .dispatched k mid now answer)
    (h : Takes cfg (r.view m) a o c') : StepMatched cfg planes booted n t a o c' := by
  have hcall : ∀ k, t.schedules.lookup (Nat.pair n k) = m.schedules.lookup k := hi.schedules n m hn
  have hread : t.registry.availableWorkers t.clock = r.registry.availableWorkers r.clock := by
    rw [ha.registry, ha.clock]
  rcases hact with ⟨k, rfl⟩ | ⟨k, answer, rfl⟩ | ⟨k, f, a', x, now, rfl⟩ | ⟨k, error, rfl⟩ |
    ⟨k, mid, now, answer, rfl⟩
  · cases h with
    | scheduleOne _ hfree =>
        have hfree' : Nat.pair n k ∉ t.schedules := by
          rw [← Finmap.lookup_eq_none, hcall]
          exact Finmap.lookup_eq_none.mpr hfree
        exact ⟨_, step_of_takes (.scheduleOne _ hfree') rfl rfl,
          ⟨ha.queues, ha.registry, ha.clock, ha.drawn, ha.executions⟩,
          hi.schedule hn (HashMap.lookup_insert_ite _ k · _)
            (HashMap.lookup_insert_ite _ _ · _) rfl rfl (Finset.Subset.refl _)⟩
    | refused _ _ _ h' => simp at h'
  · cases h with
    | directoryFailed _ error hpc =>
        exact ⟨_, step_of_takes (.directoryFailed _ error ((hcall k).trans hpc)) rfl rfl,
          ⟨ha.queues, ha.registry, ha.clock, ha.drawn, ha.executions⟩,
          hi.schedule hn (HashMap.lookup_erase_ite _ k) (HashMap.lookup_erase_ite _ _) rfl rfl
            (Finset.Subset.refl _)⟩
    | noWorker _ hpc hnone =>
        exact ⟨_, step_of_takes (.noWorker _ ((hcall k).trans hpc) (hread ▸ hnone)) rfl rfl,
          ⟨ha.queues, congrArg Prod.fst hread, ha.clock, ha.drawn, ha.executions⟩,
          hi.schedule hn (HashMap.lookup_erase_ite _ k) (HashMap.lookup_erase_ite _ _) rfl rfl
            (Finset.Subset.refl _)⟩
    | chosen _ w rest hpc hsome =>
        exact ⟨_, step_of_takes (.chosen _ w rest ((hcall k).trans hpc) (hread ▸ hsome)) rfl rfl,
          ⟨ha.queues, congrArg Prod.fst hread, ha.clock, ha.drawn, ha.executions⟩,
          hi.schedule hn (HashMap.lookup_insert_ite _ k · _)
            (HashMap.lookup_insert_ite _ _ · _) rfl rfl (Finset.Subset.refl _)⟩
    | refused _ _ _ h' => simp at h'
  · have htake : ∀ submitted rest, r.queues cfg.taskDestination = submitted :: rest →
        t.queues cfg.taskDestination = submitted :: rest := fun _ _ hqueue => ha.queues ▸ hqueue
    have hpop : ∀ rest, Alike (((r.view m).draw [f, a', x]).pop cfg.taskDestination rest).redis
        ((t.draw [f, a', x]).pop cfg.taskDestination rest) := fun rest => (ha.draw _).pop _ rest
    cases h with
    | undecodable _ _ _ _ _ w error submitted rest hpc hqueue hfresh hdecode =>
        refine ⟨_, step_of_takes (.undecodable _ f a' x now w error submitted rest
          ((hcall k).trans hpc) (htake _ _ hqueue) (ha.fresh hfresh) hdecode) rfl rfl, ?_, ?_⟩
        · have hp := hpop rest
          exact ⟨hp.queues, hp.registry, hp.clock, hp.drawn, hp.executions⟩
        · exact hi.schedule hn (HashMap.lookup_erase_ite _ k) (HashMap.lookup_erase_ite _ _) rfl rfl
            (subset_draw t _)
    | consumed _ _ _ _ _ w submitted rest request hpc hqueue hfresh hdecode =>
        refine ⟨_, step_of_takes (.consumed _ f a' x now w submitted rest request
          ((hcall k).trans hpc) (htake _ _ hqueue) (ha.fresh hfresh) hdecode) rfl rfl, ?_, ?_⟩
        · have hp := hpop rest
          exact ⟨hp.queues, hp.registry, hp.clock, hp.drawn, hp.executions⟩
        · exact hi.schedule hn (HashMap.lookup_insert_ite _ k · _)
            (HashMap.lookup_insert_ite _ _ · _) rfl rfl (subset_draw t _)
    | refused _ _ _ h' => simp at h'
  · cases h with
    | consumeFailed _ _ w hpc =>
        exact ⟨_, step_of_takes (.consumeFailed _ error w ((hcall k).trans hpc)) rfl rfl,
          ⟨ha.queues, ha.registry, ha.clock, ha.drawn, ha.executions⟩,
          hi.schedule hn (HashMap.lookup_erase_ite _ k) (HashMap.lookup_erase_ite _ _) rfl rfl
            (Finset.Subset.refl _)⟩
    | refused _ _ _ h' => simp at h'
  · cases h with
    | dispatchFailed _ _ _ error w asg submitted hpc hfresh =>
        refine ⟨_, step_of_takes (.dispatchFailed _ mid now error w asg submitted
          ((hcall k).trans hpc) (ha.fresh hfresh)) rfl rfl, ?_, ?_⟩
        · have hdraw : Alike ((r.view m).draw [mid]).redis (t.draw [mid]) := ha.draw _
          exact ⟨hdraw.queues, hdraw.registry, hdraw.clock, hdraw.drawn, hdraw.executions⟩
        · exact hi.schedule hn (HashMap.lookup_erase_ite _ k) (HashMap.lookup_erase_ite _ _) rfl rfl
            (subset_draw t _)
    | dispatched _ _ _ w asg submitted hpc hfresh =>
        refine ⟨_, step_of_takes (.dispatched _ mid now w asg submitted ((hcall k).trans hpc)
          (ha.fresh hfresh)) rfl rfl, ?_, ?_⟩
        · have hpush := (ha.draw (m := m) [mid]).push (m := m)
            (Core.assignEnvelope cfg w asg submitted mid now)
          exact ⟨hpush.queues, hpush.registry, hpush.clock, hpush.drawn, hpush.executions⟩
        · exact hi.schedule hn (HashMap.lookup_erase_ite _ k) (HashMap.lookup_erase_ite _ _) rfl rfl
            (subset_draw t _)
    | refused _ _ _ h' => simp at h'

theorem Alike.mem_executions (h : Alike r t) (id : String) :
    id ∈ t.executions ↔ id ∈ r.executions := by
  have hid := congrArg Option.isSome (h.executions id)
  rw [Option.isSome_map, Option.isSome_map] at hid
  rw [← Finmap.lookup_isSome, ← Finmap.lookup_isSome, hid]

theorem step_created {s : CoreState Bytes} {k : Nat} {w : String}
    {asg : AssignExecutionRequest} {submitted : BrokerEnvelope Bytes} {now : Timestamp}
    (hpc : s.schedules.lookup k = some (.creating w asg submitted now))
    (hnew : asg.executionId ∉ s.executions) :
    s.step cfg (.created k (.ok ())) = some ({ s with
      executions := s.executions.insert asg.executionId (Core.executionFor asg w now)
      schedules := s.schedules.insert k (.publishing w asg submitted) }, .silent) := by
  simp [CoreState.step, CoreState.created, hpc, Except.bind, Core.MemoryExecutionStore.create,
    Core.executionFor, hnew]

theorem created_matched (ha : Alike r t) (hi : Includes planes booted t)
    (hn : planes.lookup n = some m) {k : Nat} {answer : Except String Unit}
    (h : (r.view m).step cfg (.created k answer) = some (c', o)) :
    StepMatched cfg planes booted n t (.created k answer) o c' := by
  simp only [CoreState.step, CoreState.created] at h
  split at h
  · rename_i w asg submitted now hpc
    have hpc' : t.schedules.lookup (Nat.pair n k) = some (.creating w asg submitted now) :=
      (hi.schedules n m hn k).trans hpc
    have hleave : ∀ e, (answer.bind fun _ =>
        t.executions.create (Core.executionFor asg w now)) = .error e →
        StepMatched cfg planes booted n t (.created k answer)
          (.scheduled (.error ("execution store is unavailable: " ++ e)))
          { r.view m with schedules := m.schedules.erase k } := by
      intro e he
      refine ⟨{ t with schedules := t.schedules.erase (Nat.pair n k) }, ?_,
        ⟨ha.queues, ha.registry, ha.clock, ha.drawn, ha.executions⟩, ?_⟩
      · simp only [Core.Act.ofProcess, CoreState.step, CoreState.created, hpc', he,
          CoreState.leave]
      · exact hi.schedule hn (HashMap.lookup_erase_ite _ k) (HashMap.lookup_erase_ite _ _) rfl rfl
          (Finset.Subset.refl _)
    cases answer with
    | error e =>
        cases h
        exact hleave e rfl
    | ok u =>
        -- the stores have the same ids, so `create` answers the same
        by_cases hmem : asg.executionId ∈ r.executions
        · simp only [Except.bind, Core.MemoryExecutionStore.create, Core.executionFor,
            Persisted.view, hmem, if_true] at h
          cases h
          exact hleave _ (if_pos ((ha.mem_executions _).mpr hmem))
        · have hmem' : asg.executionId ∉ t.executions := (ha.mem_executions _).not.mpr hmem
          simp only [Except.bind, Core.MemoryExecutionStore.create, Core.executionFor,
            Persisted.view, hmem, if_false] at h
          cases h
          refine ⟨_, step_created hpc' hmem', ⟨ha.queues, ha.registry, ha.clock, ha.drawn, ?_⟩, ?_⟩
          · intro id
            change ((t.executions.insert _ _).lookup id).map _ =
              ((r.executions.insert _ _).lookup id).map _
            rw [HashMap.lookup_insert_ite, HashMap.lookup_insert_ite]
            split_ifs with hid
            · rfl
            · exact ha.executions id
          · exact hi.schedule hn (HashMap.lookup_insert_ite _ k · _)
              (HashMap.lookup_insert_ite _ _ · _) rfl rfl (Finset.Subset.refl _)
  · cases h

/-- A process takes a step other than of a report, and the pipeline takes it too. -/
theorem plane_matched (ha : Alike r t) (hi : Includes planes booted t)
    (hn : planes.lookup n = some m) {a : Core.Act} (hreport : a.reportCall = none)
    (h : (r.view m).step cfg a = some (c', o)) : StepMatched cfg planes booted n t a o c' := by
  cases a with
  | submit j mid request now =>
      exact accept_matched ha hi hn (Or.inl ⟨j, mid, request, now, rfl⟩) (Core.step_takes h)
  | published j answer =>
      exact accept_matched ha hi hn (Or.inr (Or.inl ⟨j, answer, rfl⟩)) (Core.step_takes h)
  | resultStored j fate =>
      exact accept_matched ha hi hn (Or.inr (Or.inr ⟨j, fate, rfl⟩)) (Core.step_takes h)
  | scheduleOne k => exact schedule_matched ha hi hn (by simp) (Core.step_takes h)
  | directoryRead k answer => exact schedule_matched ha hi hn (by simp) (Core.step_takes h)
  | consumed k f a' x now => exact schedule_matched ha hi hn (by simp) (Core.step_takes h)
  | consumeFailed k error => exact schedule_matched ha hi hn (by simp) (Core.step_takes h)
  | dispatched k mid now answer => exact schedule_matched ha hi hn (by simp) (Core.step_takes h)
  | created k answer => exact created_matched ha hi hn h
  | tick elapsed =>
      cases h
      refine ⟨_, rfl, ⟨ha.queues, ha.registry, ?_, ha.drawn, ha.executions⟩,
        hi.same hn rfl rfl rfl rfl (Finset.Subset.refl _)⟩
      exact congrArg (· + elapsed) ha.clock
  | register registration wall =>
      have hreg : t.registry.register registration t.clock wall =
          r.registry.register registration r.clock wall := by rw [ha.registry, ha.clock]
      cases h
      refine ⟨{ t with registry := (r.registry.register registration r.clock wall).1 }, ?_,
        ⟨ha.queues, rfl, ha.clock, ha.drawn, ha.executions⟩,
        hi.same hn rfl rfl rfl rfl (Finset.Subset.refl _)⟩
      simp only [Core.Act.ofProcess, CoreState.step, hreg]
      rfl
  | heartbeat w generation wall =>
      have hbeat : t.registry.heartbeat w generation t.clock wall =
          r.registry.heartbeat w generation r.clock wall := by rw [ha.registry, ha.clock]
      cases h
      refine ⟨{ t with registry := (r.registry.heartbeat w generation r.clock wall).1 }, ?_,
        ⟨ha.queues, rfl, ha.clock, ha.drawn, ha.executions⟩,
        hi.same hn rfl rfl rfl rfl (Finset.Subset.refl _)⟩
      simp only [Core.Act.ofProcess, CoreState.step, hbeat]
      rfl
  | _ => cases hreport

/-- A report changes no execution but in its state, and no call of another kind. -/
theorem report_frame {a : Core.Act} {k : Nat} (hreport : a.reportCall = some k)
    (h : Takes cfg c a o c') :
    c'.queues = c.queues ∧ c'.registry = c.registry ∧ c'.clock = c.clock ∧ c'.drawn = c.drawn ∧
      c'.accepts = c.accepts ∧ c'.schedules = c.schedules ∧
      ∀ id, (c'.executions.lookup id).map Core.ExecutionRecord.identity =
        (c.executions.lookup id).map Core.ExecutionRecord.identity := by
  have hupdate : ∀ x e state now, c.executions.lookup x = some e → ∀ id,
      ((c.executions.insert x { e with state := state, updatedAt := now }).lookup id).map
        Core.ExecutionRecord.identity =
      (c.executions.lookup id).map Core.ExecutionRecord.identity := by
    intro x e state now he id
    rw [HashMap.lookup_insert_ite]
    split_ifs with hid
    · rw [hid, he]
      rfl
    · rfl
  cases h with
  | stateUpdated _ now report state j outcome e hpc he =>
      exact ⟨rfl, rfl, rfl, rfl, rfl, rfl, hupdate report.executionId e state now he⟩
  | stateLost _ error now report state j outcome e hpc he =>
      exact ⟨rfl, rfl, rfl, rfl, rfl, rfl, hupdate report.executionId e state now he⟩
  | reportUnknown | report | refused | resolvedRunning | resolvedTerminal | outcomeStored
  | outcomeLost | jobUpdated => exact ⟨rfl, rfl, rfl, rfl, rfl, rfl, fun _ => rfl⟩
  | _ => cases hreport

/-- A worker looks at its own node and its own queue, and writes there. -/
theorem worker_step_local {s t p : PipelineState Bytes} {a : PipelineAct} {w : String}
    {o : PipelineOut Bytes} (hactor : a.actor = some w) (hq : t.core.queues = s.core.queues)
    (hw : t.workers.lookup w = s.workers.lookup w) (h : s.step cfg a = some (p, o)) :
    ∃ node q, p = { core := { s.core with queues := q }, workers := s.workers.insert w node } ∧
      (∀ d, d ≠ workerDestination w → q d = s.core.queues d) ∧
      t.step cfg a =
        some ({ core := { t.core with queues := q }, workers := t.workers.insert w node }, o) := by
  cases a with
  | core a => cases hactor
  | start w' =>
      cases hactor
      simp only [PipelineState.step] at h
      split_ifs at h with hmem
      cases h
      have hmem' : w ∉ t.workers := by
        rw [← Finmap.lookup_eq_none, hw]
        exact Finmap.lookup_eq_none.mpr hmem
      refine ⟨_, s.core.queues, rfl, fun _ _ => rfl, ?_⟩
      simp only [PipelineState.step, if_neg hmem', PipelineState.setNode, ← hq]
  | receive w' =>
      cases hactor
      simp only [PipelineState.step, PipelineState.receive] at h
      split at h
      · cases h
      · rename_i node hnode
        split at h
        · rename_i env rest hloop hqueue
          split at h
          · rename_i error hdecode
            cases h
            refine ⟨_, _, rfl, fun d hd => Function.update_of_ne hd _ _, ?_⟩
            simp only [PipelineState.step, PipelineState.receive, hw, hnode, hloop, hq, hqueue,
              hdecode, PipelineState.setNode, CoreState.pop]
          · rename_i asg hdecode
            cases h
            refine ⟨_, _, rfl, fun d hd => Function.update_of_ne hd _ _, ?_⟩
            simp only [PipelineState.step, PipelineState.receive, hw, hnode, hloop, hq, hqueue,
              hdecode, PipelineState.setNode, CoreState.pop]
        · cases h
  | receiveFailed w' error =>
      cases hactor
      simp only [PipelineState.step, PipelineState.receiveFailed] at h
      split at h
      · cases h
      · rename_i node hnode
        split_ifs at h with hloop
        cases h
        refine ⟨_, s.core.queues, rfl, fun _ _ => rfl, ?_⟩
        simp only [PipelineState.step, PipelineState.receiveFailed, hw, hnode, if_pos hloop,
          PipelineState.setNode, ← hq]
  | enqueue w' =>
      cases hactor
      simp only [PipelineState.step, PipelineState.enqueue] at h
      split at h
      · cases h
      · rename_i node hnode
        split at h
        · rename_i asg hloop
          split at h
          · rename_i pending status hqueue
            cases h
            refine ⟨_, s.core.queues, rfl, fun _ _ => rfl, ?_⟩
            simp only [PipelineState.step, PipelineState.enqueue, hw, hnode, hloop, hqueue,
              PipelineState.setNode, ← hq]
          · rename_i pending u hqueue
            cases h
            refine ⟨_, s.core.queues, rfl, fun _ _ => rfl, ?_⟩
            simp only [PipelineState.step, PipelineState.enqueue, hw, hnode, hloop, hqueue,
              PipelineState.setNode, ← hq]
        · cases h
  | worker w' act =>
      cases hactor
      simp only [PipelineState.step] at h
      split at h
      · cases h
      · rename_i node hnode
        split_ifs at h with hact
        rcases Option.map_eq_some_iff.mp h with ⟨⟨state, answer⟩, hstep, he⟩
        cases he
        refine ⟨_, s.core.queues, rfl, fun _ _ => rfl, ?_⟩
        simp only [PipelineState.step, hw, hnode, if_neg hact, hstep, Option.map_some,
          PipelineState.setNode, ← hq]

/-- Only a worker that runs takes steps. -/
theorem running_of_step {s p : PipelineState Bytes} {a : PipelineAct} {w : String}
    {o : PipelineOut Bytes} (hactor : a.actor = some w) (h : s.step cfg a = some (p, o)) :
    a = .start w ∨ w ∈ s.workers := by
  by_cases hmem : w ∈ s.workers
  · exact Or.inr hmem
  · have hnone : s.workers.lookup w = none := Finmap.lookup_eq_none.mpr hmem
    cases a with
    | core a => cases hactor
    | start w' =>
        cases hactor
        exact Or.inl rfl
    | receive w' =>
        cases hactor
        simp [PipelineState.step, PipelineState.receive, hnone] at h
    | receiveFailed w' error =>
        cases hactor
        simp [PipelineState.step, PipelineState.receiveFailed, hnone] at h
    | enqueue w' =>
        cases hactor
        simp [PipelineState.step, PipelineState.enqueue, hnone] at h
    | worker w' act =>
        cases hactor
        simp [PipelineState.step, hnone] at h

/-- The pipeline has the same record of a worker, or neither has one. -/
theorem Follows.node {s : ClusterState Bytes} {t p : PipelineState Bytes} (hf : Follows s t)
    {a : PipelineAct} {w : String} {o : PipelineOut Bytes} (hactor : a.actor = some w)
    (hborn : ¬(a = .start w ∧ w ∈ s.born))
    (h : PipelineState.step cfg { core := s.redis.view (.empty Bytes), workers := s.workers } a =
      some (p, o)) : t.workers.lookup w = s.workers.lookup w := by
  cases hnode : s.workers.lookup w with
  | some node => exact hf.workers w node hnode
  | none =>
      rcases running_of_step hactor h with hstart | hmem
      · rw [Finmap.lookup_eq_none]
        intro hmem
        exact hborn ⟨hstart, hf.born w hmem⟩
      · exact absurd hmem (Finmap.lookup_eq_none.mp hnode)

theorem work_cases {s s' : ClusterState Bytes} {a : PipelineAct} {o : ClusterOut Bytes}
    (h : s.work cfg a = some (s', o)) :
    ∃ w p o', a.actor = some w ∧ ¬(a = .start w ∧ w ∈ s.born) ∧
      PipelineState.step cfg { core := s.redis.view (.empty Bytes), workers := s.workers } a =
        some (p, o') ∧ o = .worker o' ∧
      s' = { s with
        redis := p.core.redis
        workers := p.workers
        born := insert w s.born } := by
  unfold ClusterState.work at h
  split at h
  · cases h
  · rename_i w hactor
    split_ifs at h with hborn
    rcases Option.map_eq_some_iff.mp h with ⟨⟨p, o'⟩, hstep, he⟩
    cases he
    exact ⟨w, p, o', hactor, hborn, hstep, rfl, rfl⟩

theorem work_matched {s s' : ClusterState Bytes} {t : PipelineState Bytes} (hf : Follows s t)
    {a : PipelineAct} {o : ClusterOut Bytes} (h : s.work cfg a = some (s', o)) :
    ∃ t' o', o = .worker o' ∧ t.step cfg a = some (t', o') ∧ Follows s' t' := by
  rcases work_cases h with ⟨w, p, o', hactor, hborn, hstep, rfl, rfl⟩
  rcases worker_step_local hactor hf.alike.queues (hf.node hactor hborn hstep) hstep with
    ⟨node, q, rfl, -, hstep'⟩
  refine ⟨_, o', rfl, hstep', ⟨rfl, hf.alike.registry, hf.alike.clock, hf.alike.drawn,
    hf.alike.executions⟩, hf.includes.congr rfl rfl rfl, ?_, ?_⟩
  · intro w' node' hnode'
    rcases HashMap.lookup_insert_some hnode' with ⟨rfl, rfl⟩ | ⟨hne, hold⟩
    · exact Finmap.lookup_insert _
    · rw [Finmap.lookup_insert_of_ne _ hne]
      exact hf.workers w' node' hold
  · intro w' hmem
    rcases Finmap.mem_insert.mp hmem with rfl | hold
    · exact Finset.mem_insert_self _ _
    · exact Finset.mem_insert_of_mem (hf.born w' hold)

theorem plane_cases {s s' : ClusterState Bytes} {a : Core.Act} {o : ClusterOut Bytes}
    (h : s.plane cfg n a = some (s', o)) :
    ∃ m c' co, s.planes.lookup n = some m ∧ (s.redis.view m).step cfg a = some (c', co) ∧
      o = .core co ∧
      s' = { s with redis := c'.redis, planes := s.planes.insert n c'.memory } := by
  unfold ClusterState.plane at h
  split at h
  · cases h
  · rename_i m hn
    rcases Option.map_eq_some_iff.mp h with ⟨⟨c', co⟩, hstep, he⟩
    cases he
    exact ⟨m, c', co, hn, hstep, rfl, rfl⟩

theorem plane_follows {s s' : ClusterState Bytes} {t : PipelineState Bytes} (hf : Follows s t)
    {a : Core.Act} {o : ClusterOut Bytes} {registry : MemoryWorkerRegistry}
    (h : s.plane cfg n a = some (s', o)) :
    ∃ t', (pipeline cfg registry).Steps t (piped (.core n a, o)) t' ∧ Follows s' t' := by
  rcases plane_cases h with ⟨m, c', co, hn, hstep, rfl, rfl⟩
  cases hreport : a.reportCall with
  | none =>
      rcases plane_matched hf.alike hf.includes hn hreport hstep with ⟨t', hstep', ha', hi'⟩
      have hone : (pipeline cfg registry).step t (.core (a.ofProcess n)) =
          some ({ t with core := t' }, .core co) := by
        simp only [pipeline, PipelineState.step, hstep', Option.map_some]
      refine ⟨{ t with core := t' }, ?_, ha', hi', hf.workers, hf.born⟩
      simp only [piped, hreport]
      exact Machine.Steps.snoc .refl hone
  | some k =>
      rcases report_frame hreport (Core.step_takes hstep) with ⟨hq, hreg, hc, hd, ha, hs, hx⟩
      have hf' := hf.alike
      refine ⟨t, ?_, ⟨hf'.queues.trans hq.symm, hf'.registry.trans hreg.symm,
        hf'.clock.trans hc.symm, hf'.drawn.trans hd.symm, ?_⟩,
        hf.includes.same hn ha hs rfl rfl (Finset.Subset.refl _), hf.workers, hf.born⟩
      · simp only [piped, hreport]
        exact .refl
      · intro id
        exact (hf'.executions id).trans (hx id).symm

theorem follows_step {s s' : ClusterState Bytes} {t : PipelineState Bytes} (hf : Follows s t)
    {a : ClusterAct} {o : ClusterOut Bytes} {registry : MemoryWorkerRegistry}
    (h : s.step cfg a = some (s', o)) :
    ∃ t', (pipeline cfg registry).Steps t (piped (a, o)) t' ∧ Follows s' t' := by
  cases a with
  | boot n =>
      simp only [ClusterState.step] at h
      split_ifs at h with hn
      cases h
      exact ⟨t, .refl, hf.alike, hf.includes.boot hn, hf.workers, hf.born⟩
  | core n a => exact plane_follows hf h
  | crash n =>
      cases h
      exact ⟨t, .refl, hf.alike, hf.includes.crash n, hf.workers, hf.born⟩
  | worker a =>
      rcases work_matched hf h with ⟨t', o', rfl, hstep, hf'⟩
      exact ⟨t', Machine.Steps.snoc .refl hstep, hf'⟩
  | workerCrash w =>
      cases h
      refine ⟨t, .refl, hf.alike, hf.includes, ?_, hf.born⟩
      intro w' node hnode
      exact hf.workers w' node (HashMap.lookup_erase_some hnode).2

/-- What a cluster does a pipeline does that never crashes. -/
theorem cluster_follows {registry : MemoryWorkerRegistry}
    {tr : List (ClusterAct × ClusterOut Bytes)} {s : ClusterState Bytes}
    (h : (cluster cfg registry).Run tr s) :
    ∃ t, (pipeline cfg registry).Run (tr.flatMap piped) t ∧ Follows s t := by
  refine h.simulation (R := Follows) ⟨⟨rfl, rfl, rfl, rfl, fun _ => rfl⟩, ?_, ?_, ?_⟩ ?_
  · refine ⟨?_, ?_, ?_, ?_, ?_, ?_⟩ <;>
      simp [cluster, pipeline, CoreState.start, Finmap.notMem_empty]
  · simp [cluster]
  · simp [pipeline, Finmap.notMem_empty]
  · intro s a s' o t hf hs
    exact follows_step hf hs

end Steps

/-! ## At most once -/

section Histories

variable {tr : List (ClusterAct × ClusterOut Bytes)} {s s' : ClusterState Bytes}

/-- The jobs that `accept` calls have drawn, each with its process. -/
def submittedTo (tr : List (ClusterAct × ClusterOut Bytes)) : List (Nat × String) :=
  tr.filterMap fun
    | (.core n (.submit jobId _ _ _), .core _) => some (n, jobId)
    | _ => none

/-- The assignments sent by any process, each with the worker it was sent to. -/
def sentOut (tr : List (ClusterAct × ClusterOut Bytes)) : List (String × AssignExecutionRequest) :=
  tr.filterMap fun
    | (.core _ _, .core o) => o.dispatch
    | _ => none

/-- The assignments received, each with the worker that took it off its queue. -/
def takenIn (tr : List (ClusterAct × ClusterOut Bytes)) : List (String × AssignExecutionRequest) :=
  tr.filterMap fun
    | (.worker (.receive w), .worker (.received assignment)) => some (w, assignment)
    | _ => none

/-- Reports send nothing. -/
theorem report_dispatch {c c' : CoreState Bytes} {a : Core.Act} {o : Core.Out Bytes} {k : Nat}
    (hreport : a.reportCall = some k) (h : Takes cfg c a o c') : o.dispatch = none := by
  cases h with
  | dispatched => cases hreport
  | _ => rfl

/-- The pipeline shows what the cluster shows. -/
theorem piped_entry {a : ClusterAct} {o : ClusterOut Bytes}
    (h : s.step cfg a = some (s', o)) :
    submissions (piped (a, o)) = (submittedTo [(a, o)]).map Prod.snd ∧
      dispatches (piped (a, o)) = sentOut [(a, o)] ∧
      receipts (piped (a, o)) = takenIn [(a, o)] := by
  cases a with
  | boot n | crash n | workerCrash w => exact ⟨rfl, rfl, rfl⟩
  | core n a =>
      rcases plane_cases h with ⟨m, c', co, -, hstep, rfl, -⟩
      cases hreport : a.reportCall with
      | some k =>
          have hnone := report_dispatch hreport (Core.step_takes hstep)
          have hsent : sentOut [(.core n a, .core co)] = [] := by simp [sentOut, hnone]
          rw [hsent]
          simp only [piped, hreport]
          cases a <;> first | exact ⟨rfl, rfl, rfl⟩ | cases hreport
      | none =>
          simp only [piped, hreport]
          cases a <;> exact ⟨rfl, rfl, rfl⟩
  | worker a =>
      rcases work_cases h with ⟨w, p, o', hactor, -, -, rfl, -⟩
      cases a with
      | core c => cases hactor
      | receive w => cases o' <;> exact ⟨rfl, rfl, rfl⟩
      | _ => exact ⟨rfl, rfl, rfl⟩

theorem piped_histories {registry : MemoryWorkerRegistry} (h : (cluster cfg registry).Run tr s) :
    submissions (tr.flatMap piped) = (submittedTo tr).map Prod.snd ∧
      dispatches (tr.flatMap piped) = sentOut tr ∧ receipts (tr.flatMap piped) = takenIn tr := by
  refine h.history (P := fun tr _ => submissions (tr.flatMap piped) =
    (submittedTo tr).map Prod.snd ∧ dispatches (tr.flatMap piped) = sentOut tr ∧
    receipts (tr.flatMap piped) = takenIn tr) ⟨rfl, rfl, rfl⟩ ?_
  intro tr s a t o _ ⟨hsub, hsent, hrecv⟩ hs
  rcases piped_entry hs with ⟨hsub', hsent', hrecv'⟩
  unfold submissions submittedTo dispatches sentOut receipts takenIn at *
  simp only [List.flatMap_append, List.flatMap_singleton, List.filterMap_append, List.map_append,
    hsub, hsent, hrecv, hsub', hsent', hrecv', and_self]

/-- `request` was submitted to some process as job `j`. -/
def SubmittedAs (tr : List (ClusterAct × ClusterOut Bytes)) (j : String)
    (request : SubmitTaskRequest) : Prop :=
  ∃ n messageId now o, (.core n (.submit j messageId request now), o) ∈ tr

theorem submittedAs_entry {a : ClusterAct} {o : ClusterOut Bytes} {j mid : String}
    {request : SubmitTaskRequest} {now : Timestamp} {o' : PipelineOut Bytes}
    (h : s.step cfg a = some (s', o))
    (hmem : (PipelineAct.core (.submit j mid request now), o') ∈ piped (a, o)) :
    ∃ n, a = .core n (.submit j mid request now) := by
  cases a with
  | boot n | crash n | workerCrash w => exact absurd hmem List.not_mem_nil
  | core n a =>
      rcases plane_cases h with ⟨m, c', co, -, -, rfl, -⟩
      cases a <;> simp_all [piped, Core.Act.reportCall, Core.Act.ofProcess]
  | worker a =>
      rcases work_cases h with ⟨w, p, o', hactor, -, -, rfl, -⟩
      rw [piped, List.mem_singleton, Prod.mk.injEq] at hmem
      rw [← hmem.1] at hactor
      cases hactor

theorem submittedAs_of_piped {registry : MemoryWorkerRegistry}
    (h : (cluster cfg registry).Run tr s) : ∀ j request,
      Submitted (tr.flatMap piped) j request → SubmittedAs tr j request := by
  refine h.history (P := fun tr _ => ∀ j request,
    Submitted (tr.flatMap piped) j request → SubmittedAs tr j request) ?_ ?_
  · rintro j request ⟨mid, now, o, hmem⟩
    exact absurd hmem List.not_mem_nil
  · rintro tr s a t o - ih hs j request ⟨mid, now, o', hmem⟩
    rw [List.flatMap_append, List.flatMap_singleton, List.mem_append] at hmem
    rcases hmem with hold | hnew
    · rcases ih j request ⟨mid, now, o', hold⟩ with ⟨n, mid', now', o'', hmem'⟩
      exact ⟨n, mid', now', o'', List.mem_append_left _ hmem'⟩
    · rcases submittedAs_entry hs hnew with ⟨n, rfl⟩
      exact ⟨n, mid, now, o, List.mem_append_right _ (List.mem_singleton_self _)⟩

/-- No job is sent out twice, by whichever process. -/
theorem sentOut_nodup (hdest : ∀ w, cfg.taskDestination ≠ workerDestination w)
    {registry : MemoryWorkerRegistry} (h : (cluster cfg registry).Run tr s) :
    ((sentOut tr).map fun d => d.2.jobId).Nodup := by
  rcases cluster_follows h with ⟨t, hrun, -⟩
  rw [← (piped_histories h).2.1]
  exact (pipeline_delivery hdest hrun).sent.once.sent_nodup

/-- What is sent out is on record. -/
theorem sentOut_recorded (hdest : ∀ w, cfg.taskDestination ≠ workerDestination w)
    {registry : MemoryWorkerRegistry} (h : (cluster cfg registry).Run tr s) :
    ∀ d ∈ sentOut tr, ∃ e, s.redis.executions.lookup d.2.executionId = some e ∧
      e.identity = (d.2.executionId, d.2.jobId, d.2.assignmentId, d.1) := by
  rcases cluster_follows h with ⟨t, hrun, hf⟩
  intro d hmem
  rw [← (piped_histories h).2.1] at hmem
  rcases (pipeline_delivery hdest hrun).sent.recorded d hmem with ⟨e', he', hid⟩
  have hsame := hf.alike.executions d.2.executionId
  rw [he', Option.map_some] at hsame
  rcases Option.map_eq_some_iff.mp hsame.symm with ⟨e, he, hide⟩
  exact ⟨e, he, hide.trans hid⟩

theorem takenIn_sentOut (hdest : ∀ w, cfg.taskDestination ≠ workerDestination w)
    {registry : MemoryWorkerRegistry} (h : (cluster cfg registry).Run tr s) :
    ∀ d ∈ takenIn tr, d ∈ sentOut tr := by
  rcases cluster_follows h with ⟨t, hrun, -⟩
  rw [← (piped_histories h).2.2, ← (piped_histories h).2.1]
  exact fun d hmem => (pipeline_delivery hdest hrun).receipts_subperm.subset hmem

/-- What a session was handed its worker has received. -/
theorem handed_takenIn (hdest : ∀ w, cfg.taskDestination ≠ workerDestination w)
    {registry : MemoryWorkerRegistry} (h : (cluster cfg registry).Run tr s) {w sid : String}
    {asg : AssignExecutionRequest}
    (hmem : (.worker (.worker w (.nextFor sid)), .worker (.worker (.handed asg))) ∈ tr) :
    (w, asg) ∈ takenIn tr := by
  rcases cluster_follows h with ⟨t, hrun, -⟩
  rw [← (piped_histories h).2.2]
  exact handed_received hdest hrun w sid asg
    (List.mem_flatMap.mpr ⟨_, hmem, List.mem_singleton_self _⟩)

/-- A request leaves at most one trace, whatever crashes and starts again. -/
structure OnceInCluster (tr : List (ClusterAct × ClusterOut Bytes)) (s : ClusterState Bytes) :
    Prop where
  /-- a job id stands for one request, submitted to one process -/
  jobs : ((submittedTo tr).map Prod.snd).Nodup
  executions : ∀ id id' e e', s.redis.executions.lookup id = some e →
    s.redis.executions.lookup id' = some e' → e.jobId = e'.jobId → id = id'
  executed : ∀ id e, s.redis.executions.lookup id = some e →
    ∃ n, (n, e.jobId) ∈ submittedTo tr
  sentOnce : ((sentOut tr).map fun d => d.2.jobId).Nodup
  recorded : ∀ d ∈ sentOut tr, ∃ e, s.redis.executions.lookup d.2.executionId = some e ∧
    e.identity = (d.2.executionId, d.2.jobId, d.2.assignmentId, d.1)
  receivedOnce : ((takenIn tr).map fun d => d.2.jobId).Nodup
  received : ∀ d ∈ takenIn tr, d ∈ sentOut tr
  handed : ∀ w sid asg,
    (.worker (.worker w (.nextFor sid)), .worker (.worker (.handed asg))) ∈ tr →
    (w, asg) ∈ takenIn tr ∧ ∃ request, SubmittedAs tr asg.jobId request ∧ Core.Carries request asg

/-- **At most once through crashes.** Control planes and workers may crash and
start again at any moment, any number of them may run at a time: a request has
at most one record, one assignment and one worker that receives it, and what a
session is handed was submitted. -/
theorem restarts_at_most_once (hdest : ∀ w, cfg.taskDestination ≠ workerDestination w)
    {registry : MemoryWorkerRegistry} (h : (cluster cfg registry).Run tr s) :
    OnceInCluster tr s := by
  rcases cluster_follows h with ⟨t, hrun, hf⟩
  have hd := pipeline_delivery hdest hrun
  rcases piped_histories h with ⟨hsub, hsent, hrecv⟩
  -- the records of Redis are those of the pipeline, but for their states
  have hrecord : ∀ id e, s.redis.executions.lookup id = some e →
      ∃ e', t.core.executions.lookup id = some e' ∧ e'.jobId = e.jobId := by
    intro id e he
    have hid := hf.alike.executions id
    rw [he, Option.map_some, Option.map_eq_some_iff] at hid
    rcases hid with ⟨e', he', hid⟩
    exact ⟨e', he', congrArg (fun i => i.2.1) hid⟩
  refine ⟨hsub ▸ hd.sent.distinct, ?_, ?_, sentOut_nodup hdest h, sentOut_recorded hdest h,
    hrecv ▸ hd.receipts_nodup, takenIn_sentOut hdest h, ?_⟩
  · intro id id' e₁ e₂ he₁ he₂ hjobs
    rcases hrecord id e₁ he₁ with ⟨f₁, hf₁, hj₁⟩
    rcases hrecord id' e₂ he₂ with ⟨f₂, hf₂, hj₂⟩
    exact hd.sent.once.record_unique hf₁ hf₂ (hj₁.trans (hjobs.trans hj₂.symm))
  · intro id e he
    rcases hrecord id e he with ⟨e', he', hj⟩
    have hmem : e'.jobId ∈ submissions (tr.flatMap piped) := by
      apply hd.sent.submitted
      exact Multiset.mem_of_le (Core.recordTokens_le cfg t.core) (Core.mem_recordTokens he')
    rw [hsub, hj] at hmem
    rcases List.mem_map.mp hmem with ⟨⟨n, j⟩, hmem', rfl⟩
    exact ⟨n, hmem'⟩
  · intro w sid asg hmem
    have htaken := handed_takenIn hdest h hmem
    have hdisp : (w, asg) ∈ dispatches (tr.flatMap piped) := by
      rw [hsent]
      exact takenIn_sentOut hdest h _ htaken
    rcases hd.sent.madeOf _ hdisp with ⟨request, hsubm, hcarries⟩
    exact ⟨htaken, request, submittedAs_of_piped h _ _ hsubm, hcarries⟩

/-- A task goes through three control planes to its worker: the first one
crashes within `accept`, the second one after it has sent the assignment. -/
def relayed : List ClusterAct :=
  [.boot 0, .core 0 (.register (Core.plainWorker "w") 0), .worker (.start "w"),
   .core 0 (.submit "j" "m" Core.plainRequest 1), .core 0 (.published "j" (.ok ())),
   .crash 0, .boot 1] ++
  (Core.scheduled "j" "x" 0).map (.core 1) ++
  [.crash 1, .worker (.receive "w"), .worker (.enqueue "w"),
   .worker (.worker "w" (.connect "s" ⟨0⟩)), .worker (.worker "w" (.nextFor "s")), .boot 2,
   .core 2 (.report 0 (Core.plainReport "x" .running none))]

theorem restarts_at_most_once_relayed : ∃ tr s,
    (cluster Core.symbolicConfig (.new 30 (by decide))).Run tr s ∧
      tr.map Prod.fst = relayed ∧ submittedTo tr = [(0, "j")] ∧
      (.worker (.worker "w" (.nextFor "s")), .worker (.worker
        (.handed (Core.assignmentFor Core.plainRequest "j" "j-a" "x")))) ∈ tr ∧
      OnceInCluster tr s := by
  rcases Machine.run_of_exec (cluster Core.symbolicConfig (.new 30 (by decide))) relayed
    (P := fun tr _ => submittedTo tr = [(0, "j")] ∧
      (.worker (.worker "w" (.nextFor "s")), .worker (.worker
        (.handed (Core.assignmentFor Core.plainRequest "j" "j-a" "x")))) ∈ tr)
    (by decide +kernel) with ⟨tr, s, hrun, hacts, hsub, hmem⟩
  exact ⟨tr, s, hrun, hacts, hsub, hmem,
    restarts_at_most_once Core.symbolicConfig_taskDestination hrun⟩

end Histories

end Follows

end ThreadWeave
