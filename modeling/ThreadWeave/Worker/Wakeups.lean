import ThreadWeave.Rust.Notify
import ThreadWeave.Worker.Sessions

/-!
# Who looks at the queue

The worker of `Sessions` together with the `Notify` that its sessions sleep on:
a task may leave `notified.await` only when its future is ready, `enqueue` and
`disconnect` notify in a step of their own after they have released the lock,
and `select!` drops the future together with `next_for`. Every step of this
machine is a step of the worker, or none.

`no_lost_wakeup`: a queue with something in it does not stay beside sleeping
sessions, in every run in which a session that goes leaves somebody behind to
look at the queue. `wakeup_lost` says that this is what it takes: `disconnect`
notifies for what it requeues, not for a notification that its session has used
up without looking.
-/

namespace ThreadWeave.Worker

open Runs (HashMap Machine)
open Rust (Notified Notify)

/-! ## The machine -/

structure WakeState where
  worker : WorkerState
  /-- `available`, with the future of each session that is inside `next_for` -/
  notify : Notify String
  /-- the `enqueue` calls between the push and `notify_one` -/
  enqueues : Nat
  /-- the `disconnect` calls between the requeueing and `notify_waiters` -/
  requeues : Nat

inductive WakeAct where
  | enqueue (assignment : AssignExecutionRequest)
  /-- the `notify_one` of an `enqueue` -/
  | notifyOne (target : Option String)
  /-- the `notify_waiters` of a `disconnect` -/
  | notifyWaiters
  /-- an event handler, `cancel`, a new session, the end of a branch -/
  | other (a : Act)
  /-- `next_for` creates its future and asks for the lock -/
  | enter (sid : String)
  /-- `next_for` gets the lock -/
  | nextFor (sid : String)
  /-- `notified.await` is polled -/
  | poll (sid : String)
  /-- `select!` takes the inbound branch and drops `next_for` -/
  | inbound (sid : String) (target : Option String)
  /-- the loop breaks -/
  | leave (sid : String) (target : Option String)
  | disconnect (sid : String) (ids : List String)
deriving DecidableEq

/-- The steps that neither touch the queue nor the future of a session. -/
def Act.isPlain : Act → Bool
  | .call _ _ | .cancel _ _ | .connect _ _ | .resume _ => true
  | _ => false

namespace WakeState

/-- The lock is released and the future not polled yet: not a point where
`select!` can take the other branch. -/
def betweenAwaits (s : WakeState) (sid : String) : Bool :=
  s.worker.tasks.lookup sid = some .waiting ∧
    ∃ called ∈ [false, true], s.notify.futures.lookup sid = some (.fresh called)

/-- `select!` leaves `next_for` with the worker's step `a`. -/
def select (s : WakeState) (sid : String) (target : Option String) (a : Act) :
    Option (WakeState × Answer) :=
  if s.betweenAwaits sid then none
  else
    match s.notify.drop sid target with
    | none => none
    | some n => (s.worker.step a).map fun r => ({ s with worker := r.1, notify := n }, r.2)

def step (s : WakeState) : WakeAct → Option (WakeState × Answer)
  | .enqueue a =>
      (s.worker.step (.enqueue a)).map fun r =>
        ({ s with
          worker := r.1
          enqueues := if r.2 = .enqueued (.ok ()) then s.enqueues + 1 else s.enqueues }, r.2)
  | .notifyOne target =>
      if 0 < s.enqueues then
        (s.notify.notifyOne target).map fun n =>
          ({ s with notify := n, enqueues := s.enqueues - 1 }, .silent)
      else none
  | .notifyWaiters =>
      if 0 < s.requeues then
        some ({ s with notify := s.notify.notifyWaiters, requeues := s.requeues - 1 }, .silent)
      else none
  | .other a =>
      if a.isPlain then (s.worker.step a).map fun r => ({ s with worker := r.1 }, r.2) else none
  | .enter sid =>
      if s.worker.tasks.lookup sid = some .locking ∧ sid ∉ s.notify.futures then
        some ({ s with notify := s.notify.notified sid }, .silent)
      else none
  | .nextFor sid =>
      if sid ∈ s.notify.futures then
        (s.worker.step (.nextFor sid)).map fun r =>
          match r.2 with
          -- `next_for` returns, its future was never polled
          | .handed a =>
              ({ s with
                worker := r.1
                notify := { s.notify with futures := s.notify.futures.erase sid } }, .handed a)
          | answer => ({ s with worker := r.1 }, answer)
      else none
  | .poll sid =>
      if s.worker.tasks.lookup sid = some .waiting then
        match s.notify.poll sid with
        | none => none
        | some (n, false) => some ({ s with notify := n }, .silent)
        | some (n, true) =>
            (s.worker.step (.notified sid)).map fun r =>
              ({ s with worker := r.1, notify := n }, r.2)
      else none
  | .inbound sid target => s.select sid target (.inbound sid)
  | .leave sid target => s.select sid target (.leave sid)
  | .disconnect sid ids =>
      (s.worker.step (.disconnect sid ids)).map fun r =>
        ({ s with
          worker := r.1
          requeues :=
            if (s.worker.pending.disconnect sid ids).any Prod.snd then s.requeues + 1
            else s.requeues }, r.2)

end WakeState

/-- The worker and its `Notify`, from the start. -/
def wakeups : Machine WakeState WakeAct Answer where
  init := { worker := worker.init, notify := .new, enqueues := 0, requeues := 0 }
  step := WakeState.step

/-! ## What a step of the worker does to its tasks -/

section Tasks

variable {w w' : WorkerState} {a : Act} {ans : Answer} {sid : String}

theorem move_eq {ready : SessionPc → Bool} {pc : SessionPc}
    (h : w.move sid ready pc = some (w', ans)) :
    w' = { w with tasks := w.tasks.insert sid pc } := by
  unfold WorkerState.move at h
  split_ifs at h
  cases h
  rfl

/-- A plain step changes no task, or one goes to ask for the lock. -/
theorem plain_tasks (ha : a.isPlain) (h : w.step a = some (w', ans)) :
    (w'.tasks = w.tasks ∧ w'.pending.queue = w.pending.queue) ∨
      ∃ sid, w'.tasks = w.tasks.insert sid .locking := by
  cases a with
  | call c now =>
      simp only [WorkerState.step, Option.some.injEq, Prod.mk.injEq] at h
      rcases h with ⟨rfl, -⟩
      rcases PendingState.onCall_cases w.pending c now with ⟨status, he⟩ | ⟨r, reply, -, he⟩
      · exact Or.inl ⟨rfl, by rw [he]⟩
      · exact Or.inl ⟨rfl, by rw [he]⟩
  | cancel id reason =>
      simp only [WorkerState.step, Option.some.injEq, Prod.mk.injEq] at h
      rcases h with ⟨rfl, -⟩
      exact Or.inl ⟨rfl, rfl⟩
  | connect sid sender =>
      simp only [WorkerState.step] at h
      split_ifs at h
      cases h
      exact Or.inr ⟨sid, rfl⟩
  | resume sid =>
      have he := move_eq h
      exact Or.inr ⟨sid, by rw [he]⟩
  | _ => cases ha

/-- `next_for` finds nothing and goes on to wait, returns an assignment, or
panics at the lock. -/
theorem nextFor_tasks (h : w.step (.nextFor sid) = some (w', ans)) :
    (w'.pending.queue = [] ∧ (∀ a, ans ≠ .handed a) ∧
      w'.tasks = w.tasks.insert sid .waiting) ∨
    (∃ a, ans = .handed a ∧ w'.tasks = w.tasks.insert sid (.sending a)) ∨
    ((∀ a, ans ≠ .handed a) ∧ w.tasks.lookup sid = some .locking ∧ w'.tasks = w.tasks) := by
  simp only [WorkerState.step] at h
  split_ifs at h with hpc
  rcases PendingState.nextFor_cases w.pending sid with
    ⟨hq, he⟩ | ⟨id, q, hq, -, he⟩ | ⟨id, q, r, hq, -, he⟩
  · rw [he] at h
    cases h
    exact Or.inl ⟨hq, by simp, rfl⟩
  · rw [he] at h
    cases h
    exact Or.inr (Or.inr ⟨by simp, hpc, rfl⟩)
  · rw [he] at h
    cases h
    exact Or.inr (Or.inl ⟨_, rfl, rfl⟩)

/-- `disconnect` says that it has requeued something exactly if it has. -/
theorem disconnect_tasks {ids : List String} (h : w.step (.disconnect sid ids) = some (w', ans)) :
    w.tasks.lookup sid = some .closing ∧ w'.tasks = w.tasks.insert sid .closed ∧
      ids.toFinset = w.pending.heldBy sid ∧
      w'.pending.queue = w.pending.queue ++ ids.filter w.pending.isAssigned ∧
      (w.pending.disconnect sid ids).any Prod.snd = ids.any w.pending.isAssigned := by
  simp only [WorkerState.step] at h
  split_ifs at h with hguard
  rcases hguard with ⟨hpc, hnd, hids⟩
  rcases PendingState.disconnect_spec hnd hids with ⟨m, he, -⟩
  rw [he] at h ⊢
  cases h
  exact ⟨hpc, rfl, hids, rfl, rfl⟩

end Tasks

/-! ## What a step can do -/

/-- One step, by what it does to the worker and to its `Notify`. -/
inductive Wakes (s : WakeState) : WakeAct → WakeState → Prop where
  | enqueue (a : AssignExecutionRequest) (w : WorkerState) (ans : Answer)
      (hstep : s.worker.step (.enqueue a) = some (w, ans)) :
      Wakes s (.enqueue a)
        { s with
          worker := w
          enqueues := if ans = .enqueued (.ok ()) then s.enqueues + 1 else s.enqueues }
  | notifyOne (target : Option String) (n : Notify String) (hcall : 0 < s.enqueues)
      (hn : s.notify.notifyOne target = some n) :
      Wakes s (.notifyOne target) { s with notify := n, enqueues := s.enqueues - 1 }
  | notifyWaiters (hcall : 0 < s.requeues) :
      Wakes s .notifyWaiters
        { s with notify := s.notify.notifyWaiters, requeues := s.requeues - 1 }
  | other (a : Act) (w : WorkerState) (ans : Answer) (ha : a.isPlain)
      (hstep : s.worker.step a = some (w, ans)) :
      Wakes s (.other a) { s with worker := w }
  | enter (sid : String) (htask : s.worker.tasks.lookup sid = some .locking) :
      Wakes s (.enter sid) { s with notify := s.notify.notified sid }
  | handed (sid : String) (a : AssignExecutionRequest) (w : WorkerState)
      (hstep : s.worker.step (.nextFor sid) = some (w, .handed a)) :
      Wakes s (.nextFor sid)
        { s with
          worker := w
          notify := { s.notify with futures := s.notify.futures.erase sid } }
  | nextFor (sid : String) (w : WorkerState) (ans : Answer) (hans : ∀ a, ans ≠ .handed a)
      (hstep : s.worker.step (.nextFor sid) = some (w, ans)) :
      Wakes s (.nextFor sid) { s with worker := w }
  | waits (sid : String) (n : Notify String)
      (htask : s.worker.tasks.lookup sid = some .waiting)
      (hpoll : s.notify.poll sid = some (n, false)) :
      Wakes s (.poll sid) { s with notify := n }
  | woken (sid : String) (n : Notify String) (w : WorkerState) (ans : Answer)
      (hpoll : s.notify.poll sid = some (n, true))
      (hstep : s.worker.step (.notified sid) = some (w, ans)) :
      Wakes s (.poll sid) { s with worker := w, notify := n }
  | inbound (sid : String) (target : Option String) (n : Notify String) (w : WorkerState)
      (ans : Answer) (hdrop : s.notify.drop sid target = some n)
      (hstep : s.worker.step (.inbound sid) = some (w, ans)) :
      Wakes s (.inbound sid target) { s with worker := w, notify := n }
  | leave (sid : String) (target : Option String) (n : Notify String) (w : WorkerState)
      (ans : Answer) (hdrop : s.notify.drop sid target = some n)
      (hstep : s.worker.step (.leave sid) = some (w, ans)) :
      Wakes s (.leave sid target) { s with worker := w, notify := n }
  | disconnect (sid : String) (ids : List String) (w : WorkerState) (ans : Answer)
      (hstep : s.worker.step (.disconnect sid ids) = some (w, ans)) :
      Wakes s (.disconnect sid ids)
        { s with
          worker := w
          requeues :=
            if (s.worker.pending.disconnect sid ids).any Prod.snd then s.requeues + 1
            else s.requeues }

theorem select_eq {s s' : WakeState} {sid : String} {target : Option String} {a : Act}
    {ans : Answer} (h : s.select sid target a = some (s', ans)) :
    ∃ n w, s.notify.drop sid target = some n ∧ s.worker.step a = some (w, ans) ∧
      s' = { s with worker := w, notify := n } := by
  unfold WakeState.select at h
  split_ifs at h
  split at h
  · cases h
  · rename_i n hdrop
    rcases Option.map_eq_some_iff.mp h with ⟨⟨w, ans'⟩, hstep, he⟩
    cases he
    exact ⟨n, w, hdrop, hstep, rfl⟩

theorem step_wakes {s s' : WakeState} {a : WakeAct} {ans : Answer}
    (h : s.step a = some (s', ans)) : Wakes s a s' := by
  cases a with
  | enqueue a =>
      unfold WakeState.step at h
      rcases Option.map_eq_some_iff.mp h with ⟨⟨w, ans'⟩, hstep, he⟩
      cases he
      exact .enqueue a w _ hstep
  | notifyOne target =>
      simp only [WakeState.step] at h
      split_ifs at h with hcall
      rcases Option.map_eq_some_iff.mp h with ⟨n, hn, he⟩
      cases he
      exact .notifyOne target n hcall hn
  | notifyWaiters =>
      simp only [WakeState.step] at h
      split_ifs at h with hcall
      cases h
      exact .notifyWaiters hcall
  | other a =>
      simp only [WakeState.step] at h
      split_ifs at h with ha
      rcases Option.map_eq_some_iff.mp h with ⟨⟨w, ans'⟩, hstep, he⟩
      cases he
      exact .other a w _ ha hstep
  | enter sid =>
      simp only [WakeState.step] at h
      split_ifs at h with hguard
      cases h
      exact .enter sid hguard.1
  | nextFor sid =>
      simp only [WakeState.step] at h
      split_ifs at h
      rcases Option.map_eq_some_iff.mp h with ⟨⟨w, ans'⟩, hstep, he⟩
      cases ans' with
      | handed a =>
          cases he
          exact .handed sid a w hstep
      | _ =>
          cases he
          exact .nextFor sid w _ (by simp) hstep
  | poll sid =>
      simp only [WakeState.step] at h
      split_ifs at h with htask
      split at h
      · cases h
      · rename_i n hpoll
        cases h
        exact .waits sid n htask hpoll
      · rename_i n hpoll
        rcases Option.map_eq_some_iff.mp h with ⟨⟨w, ans'⟩, hstep, he⟩
        cases he
        exact .woken sid n w _ hpoll hstep
  | inbound sid target =>
      rcases select_eq h with ⟨n, w, hdrop, hstep, rfl⟩
      exact .inbound sid target n w ans hdrop hstep
  | leave sid target =>
      rcases select_eq h with ⟨n, w, hdrop, hstep, rfl⟩
      exact .leave sid target n w ans hdrop hstep
  | disconnect sid ids =>
      rcases Option.map_eq_some_iff.mp h with ⟨⟨w, ans'⟩, hstep, he⟩
      cases he
      exact .disconnect sid ids w _ hstep

/-- Every step is one of the worker, or leaves the worker as it is. -/
theorem Wakes.worker_step {s s' : WakeState} {a : WakeAct} (h : Wakes s a s') :
    s'.worker = s.worker ∨ ∃ act ans, s.worker.step act = some (s'.worker, ans) := by
  cases h with
  | enqueue a w ans hstep => exact Or.inr ⟨_, ans, hstep⟩
  | other a w ans ha hstep => exact Or.inr ⟨_, ans, hstep⟩
  | handed sid a w hstep => exact Or.inr ⟨_, _, hstep⟩
  | nextFor sid w ans hans hstep => exact Or.inr ⟨_, ans, hstep⟩
  | woken sid n w ans hpoll hstep => exact Or.inr ⟨_, ans, hstep⟩
  | inbound sid target n w ans hdrop hstep => exact Or.inr ⟨_, ans, hstep⟩
  | leave sid target n w ans hdrop hstep => exact Or.inr ⟨_, ans, hstep⟩
  | disconnect sid ids w ans hstep => exact Or.inr ⟨_, ans, hstep⟩
  | _ => exact Or.inl rfl

/-! ## Idle and awake -/

/-- Suspended in `next_for`, or about to be, and not notified. -/
def Idle (s : WakeState) (sid : String) : Prop :=
  s.worker.tasks.lookup sid = some .waiting ∧
    ∃ f ∈ s.notify.futures.lookup sid, f.Incomplete

/-- Idle, and about to poll its future for the first time. -/
def Polling (s : WakeState) (sid : String) : Prop :=
  s.worker.tasks.lookup sid = some .waiting ∧
    s.notify.futures.lookup sid = some (.fresh false)

/-- Connected and not idle: the task comes back to the queue if it does not end. -/
def Awake (s : WakeState) (sid : String) : Prop :=
  (∃ pc ∈ s.worker.tasks.lookup sid, pc ≠ .closed) ∧ ¬ Idle s sid

/-- Somebody for whom `P` holds will look at the queue, or a notification is on
its way. -/
def Attended (s : WakeState) (P : String → Prop) : Prop :=
  0 < s.enqueues ∨ 0 < s.requeues ∨ (∃ sid, P sid ∧ Awake s sid) ∨
    (s.notify.permit = true ∧ ∃ sid, P sid ∧ Polling s sid)

section Views

variable {s s' : WakeState} {sid : String}

instance : Decidable (Idle s sid) := inferInstanceAs (Decidable (_ ∧ _))

instance : Decidable (Polling s sid) := inferInstanceAs (Decidable (_ ∧ _))

instance : Decidable (Awake s sid) := inferInstanceAs (Decidable (_ ∧ _))

/-- What is said of sessions with a task can be looked up. -/
theorem exists_task_iff {P : String → Prop} (hP : ∀ sid, P sid → sid ∈ s.worker.tasks) :
    (∃ sid ∈ s.worker.tasks.keys, P sid) ↔ ∃ sid, P sid := by
  constructor
  · rintro ⟨sid, -, h⟩
    exact ⟨sid, h⟩
  · rintro ⟨sid, h⟩
    exact ⟨sid, Finmap.mem_keys.mpr (hP sid h), h⟩

instance : Decidable (∃ sid, Idle s sid) :=
  decidable_of_iff _ (exists_task_iff fun _ h => Finmap.mem_of_lookup_eq_some h.1)

instance (P : String → Prop) [DecidablePred P] : Decidable (∃ sid, P sid ∧ Awake s sid) :=
  decidable_of_iff _ (exists_task_iff fun _ h =>
    Finmap.mem_of_lookup_eq_some h.2.1.choose_spec.1)

instance (P : String → Prop) [DecidablePred P] : Decidable (∃ sid, P sid ∧ Polling s sid) :=
  decidable_of_iff _ (exists_task_iff fun _ h => Finmap.mem_of_lookup_eq_some h.2.1)

instance (P : String → Prop) [DecidablePred P] : Decidable (Attended s P) :=
  inferInstanceAs (Decidable (_ ∨ _ ∨ _ ∨ _))

theorem awake_of_task {pc : SessionPc} (hpc : s.worker.tasks.lookup sid = some pc)
    (hclosed : pc ≠ .closed) (hwaiting : pc ≠ .waiting) : Awake s sid := by
  refine ⟨⟨pc, hpc, hclosed⟩, ?_⟩
  rintro ⟨hw, -⟩
  rw [hpc, Option.some.injEq] at hw
  exact hwaiting hw

theorem attended_of_task {pc : SessionPc} (hpc : s.worker.tasks.lookup sid = some pc)
    (hclosed : pc ≠ .closed) (hwaiting : pc ≠ .waiting) : Attended s fun _ => True :=
  Or.inr (Or.inr (Or.inl ⟨sid, trivial, awake_of_task hpc hclosed hwaiting⟩))

/-- Both are seen from the task and its future. -/
theorem Idle.of_eq (h : Idle s sid)
    (htask : s'.worker.tasks.lookup sid = s.worker.tasks.lookup sid)
    (hfuture : s'.notify.futures.lookup sid = s.notify.futures.lookup sid) : Idle s' sid := by
  unfold Idle at h ⊢
  rw [htask, hfuture]
  exact h

theorem Awake.of_eq (h : Awake s sid)
    (htask : s'.worker.tasks.lookup sid = s.worker.tasks.lookup sid)
    (hfuture : s'.notify.futures.lookup sid = s.notify.futures.lookup sid) : Awake s' sid := by
  refine ⟨?_, ?_⟩
  · rw [htask]
    exact h.1
  · intro hidle
    exact h.2 (hidle.of_eq htask.symm hfuture.symm)

end Views

/-! ## The invariant -/

/-- A session that goes has an assignment to requeue, or nobody is left asleep
beside a queue with something in it: the queue is empty, nobody is idle, or
somebody else will look. -/
def HandsOver (s : WakeState) : WakeAct → Prop
  | .disconnect sid _ =>
      (∃ id ∈ s.worker.pending.heldBy sid, s.worker.pending.isAssigned id) ∨
      s.worker.pending.queue = [] ∨ (¬ ∃ other, Idle s other) ∨ Attended s (· ≠ sid)
  | _ => True

instance (s : WakeState) (a : WakeAct) : Decidable (HandsOver s a) :=
  match a with
  | .disconnect sid _ => inferInstanceAs (Decidable (
      (∃ id ∈ s.worker.pending.heldBy sid, s.worker.pending.isAssigned id) ∨
      s.worker.pending.queue = [] ∨ (¬ ∃ other, Idle s other) ∨ Attended s (· ≠ sid)))
  | .enqueue _ => isTrue trivial
  | .notifyOne _ => isTrue trivial
  | .notifyWaiters => isTrue trivial
  | .other _ => isTrue trivial
  | .enter _ => isTrue trivial
  | .nextFor _ => isTrue trivial
  | .poll _ => isTrue trivial
  | .inbound _ _ => isTrue trivial
  | .leave _ _ => isTrue trivial

structure WakeInv (s : WakeState) : Prop where
  inv : Inv s.worker
  /-- the futures belong to tasks inside `next_for` -/
  entered : ∀ sid ∈ s.notify.futures,
    s.worker.tasks.lookup sid = some .locking ∨ s.worker.tasks.lookup sid = some .waiting
  attended : s.worker.pending.queue ≠ [] → (∃ sid, Idle s sid) → Attended s fun _ => True

section Steps

variable {s s' : WakeState} {a : WakeAct}

theorem entered_step (h : Wakes s a s')
    (he : ∀ sid ∈ s.notify.futures,
      s.worker.tasks.lookup sid = some .locking ∨ s.worker.tasks.lookup sid = some .waiting) :
    ∀ sid ∈ s'.notify.futures,
      s'.worker.tasks.lookup sid = some .locking ∨ s'.worker.tasks.lookup sid = some .waiting := by
  -- one task moves, its future is gone or it stays inside `next_for`
  have hmoved (w : WorkerState) (v : String) (pc : SessionPc)
      (hw : w.tasks = s.worker.tasks.insert v pc) (sid : String) (hsid : sid ∈ s.notify.futures)
      (hv : sid = v → pc = .locking ∨ pc = .waiting) :
      w.tasks.lookup sid = some .locking ∨ w.tasks.lookup sid = some .waiting := by
    rw [hw, Runs.HashMap.lookup_insert_ite]
    split_ifs with hid
    · exact (hv hid).imp (congrArg some) (congrArg some)
    · exact he sid hsid
  cases h with
  | enqueue a w ans hstep =>
      cases hstep
      exact he
  | notifyOne target n hcall hn => exact fun sid hsid => he sid (Notify.mem_of_notifyOne hn hsid)
  | notifyWaiters hcall => exact fun sid hsid => he sid (Notify.mem_notifyWaiters.mp hsid)
  | other a w ans ha hstep =>
      intro sid hsid
      rcases plain_tasks ha hstep with ⟨hw, -⟩ | ⟨v, hw⟩
      · rw [hw]
        exact he sid hsid
      · exact hmoved w v .locking hw sid hsid fun _ => Or.inl rfl
  | enter v htask =>
      intro sid hsid
      rcases Finmap.mem_insert.mp hsid with rfl | hold
      · exact Or.inl htask
      · exact he sid hold
  | handed v asg w hstep =>
      intro sid hsid
      rcases Finmap.mem_erase.mp hsid with ⟨hne, hold⟩
      rcases nextFor_tasks hstep with ⟨-, hans, -⟩ | ⟨asg', -, hw⟩ | ⟨hans, -⟩
      · exact absurd rfl (hans asg)
      · exact hmoved w v _ hw sid hold fun hv => absurd hv hne
      · exact absurd rfl (hans asg)
  | nextFor v w ans hans hstep =>
      intro sid hsid
      rcases nextFor_tasks hstep with ⟨-, -, hw⟩ | ⟨asg, rfl, -⟩ | ⟨-, -, hw⟩
      · exact hmoved w v .waiting hw sid hsid fun _ => Or.inr rfl
      · exact absurd rfl (hans asg)
      · rw [hw]
        exact he sid hsid
  | waits v n htask hpoll =>
      intro sid hsid
      rcases Notify.poll_cases hpoll with ⟨hf, -⟩ | ⟨-, rfl⟩ | ⟨-, -, -, rfl⟩
      · cases hf
      · exact he sid hsid
      · rcases Finmap.mem_insert.mp hsid with rfl | hold
        · exact Or.inr htask
        · exact he sid hold
  | woken v n w ans hpoll hstep =>
      intro sid hsid
      have hw : w = { s.worker with tasks := s.worker.tasks.insert v .locking } := move_eq hstep
      rcases Notify.poll_cases hpoll with ⟨-, hf⟩ | ⟨hf, -⟩ | ⟨hf, -⟩
      · rw [hf] at hsid
        exact hmoved w v .locking (by rw [hw]) sid (Finmap.mem_erase.mp hsid).2 fun _ => Or.inl rfl
      · cases hf
      · cases hf
  | inbound v target n w ans hdrop hstep =>
      intro sid hsid
      have hw : w = { s.worker with tasks := s.worker.tasks.insert v .handling } := move_eq hstep
      rcases Notify.mem_of_drop hdrop hsid with ⟨hne, hold⟩
      exact hmoved w v _ (by rw [hw]) sid hold fun hv => absurd hv hne
  | leave v target n w ans hdrop hstep =>
      intro sid hsid
      have hw : w = { s.worker with tasks := s.worker.tasks.insert v .closing } := move_eq hstep
      rcases Notify.mem_of_drop hdrop hsid with ⟨hne, hold⟩
      exact hmoved w v _ (by rw [hw]) sid hold fun hv => absurd hv hne
  | disconnect v ids w ans hstep =>
      intro sid hsid
      rcases disconnect_tasks hstep with ⟨hpc, hw, -⟩
      refine hmoved w v _ hw sid hsid ?_
      rintro rfl
      -- the task that disconnects is no longer inside `next_for`
      rcases he sid hsid with h | h
      · rw [hpc] at h
        cases h
      · rw [hpc] at h
        cases h

/-- `notify_one` finds somebody asleep, or somebody about to poll finds the permit. -/
theorem attended_notifyOne {target : Option String} {n : Notify String}
    (he : ∀ sid ∈ s.notify.futures,
      s.worker.tasks.lookup sid = some .locking ∨ s.worker.tasks.lookup sid = some .waiting)
    (hn : s.notify.notifyOne target = some n)
    (hs' : s' = { s with notify := n, enqueues := s.enqueues - 1 })
    (hidle : ∃ sid, Idle s' sid) : Attended s' fun _ => True := by
  subst hs'
  rcases Notify.notifyOne_cases hn with ⟨sid, -, hreg, rfl⟩ | ⟨hnone, rfl⟩
  · refine Or.inr (Or.inr (Or.inl ⟨sid, trivial, ?_, ?_⟩))
    · rcases he sid (Finmap.mem_of_lookup_eq_some hreg) with h | h
      · exact ⟨_, h, by simp⟩
      · exact ⟨_, h, by simp⟩
    · rintro ⟨-, f, hf, hinc⟩
      have hone : f = .one := by
        simpa using hf.symm
      rw [hone] at hinc
      exact absurd hinc (by decide)
  · rcases hidle with ⟨sid, htask, f, hf, hinc⟩
    refine Or.inr (Or.inr (Or.inr ⟨rfl, sid, trivial, htask, ?_⟩))
    rcases hinc with rfl | rfl
    · exact hf
    · exact absurd hf (hnone sid)

/-- A future that finds neither a notification nor the permit waits; whoever was
to look at the queue still is. -/
theorem attended_waits {sid : String} {n : Notify String} (hi : WakeInv s)
    (htask : s.worker.tasks.lookup sid = some .waiting)
    (hpoll : s.notify.poll sid = some (n, false)) (hs' : s' = { s with notify := n })
    (hqueue : s.worker.pending.queue ≠ []) (hidle : ∃ sid, Idle s' sid) :
    Attended s' fun _ => True := by
  subst hs'
  rcases Notify.poll_cases hpoll with ⟨hf, -⟩ | ⟨-, rfl⟩ | ⟨-, hpermit, hfresh, rfl⟩
  · cases hf
  · exact hi.attended hqueue hidle
  · have hself : Idle s sid := ⟨htask, _, hfresh, Or.inl rfl⟩
    rcases hi.attended hqueue ⟨sid, hself⟩ with he | hr | ⟨v, -, hv⟩ | ⟨hp, -⟩
    · exact Or.inl he
    · exact Or.inr (Or.inl hr)
    · have hne : v ≠ sid := by
        rintro rfl
        exact hv.2 hself
      refine Or.inr (Or.inr (Or.inl ⟨v, trivial, hv.of_eq rfl ?_⟩))
      exact Finmap.lookup_insert_of_ne _ hne
    · rw [hpermit] at hp
      cases hp

/-- A session goes. -/
theorem attended_disconnect {sid : String} {ids : List String} {w : WorkerState} {ans : Answer}
    (hstep : s.worker.step (.disconnect sid ids) = some (w, ans))
    (hover : HandsOver s (.disconnect sid ids))
    (hs' : s' = { s with
      worker := w
      requeues :=
        if (s.worker.pending.disconnect sid ids).any Prod.snd then s.requeues + 1
        else s.requeues })
    (hqueue : w.pending.queue ≠ []) (hidle : ∃ sid, Idle s' sid) :
    Attended s' fun _ => True := by
  subst hs'
  rcases disconnect_tasks hstep with ⟨hpc, htasks, hids, hq, hflag⟩
  have hother : ∀ v, v ≠ sid → w.tasks.lookup v = s.worker.tasks.lookup v := by
    intro v hv
    rw [htasks]
    exact Finmap.lookup_insert_of_ne _ hv
  by_cases hheld : ids.any s.worker.pending.isAssigned = true
  · -- it requeues, and notifies in its next step
    refine Or.inr (Or.inl ?_)
    simp only [hflag, hheld, if_true]
    omega
  · have hnone : ∀ id ∈ ids, ¬ s.worker.pending.isAssigned id = true := by
      intro id hid hassigned
      exact hheld (List.any_eq_true.mpr ⟨id, hid, hassigned⟩)
    rcases hover with ⟨id, hid, hassigned⟩ | hempty | hall | hatt
    · rw [← hids, List.mem_toFinset] at hid
      exact absurd hassigned (hnone id hid)
    · -- nothing was queued, and nothing is requeued
      rw [hq, hempty, List.filter_eq_nil_iff.mpr hnone] at hqueue
      exact absurd rfl hqueue
    · rcases hidle with ⟨v, hv⟩
      have hne : v ≠ sid := by
        rintro rfl
        have hclosed : w.tasks.lookup v = some .closed := by
          rw [htasks]
          exact Finmap.lookup_insert _
        have hwaiting : w.tasks.lookup v = some .waiting := hv.1
        rw [hclosed] at hwaiting
        cases hwaiting
      exact absurd ⟨v, hv.of_eq (hother v hne).symm rfl⟩ hall
    · rcases hatt with he | hr | ⟨v, hne, hv⟩ | ⟨hp, v, hne, hv⟩
      · exact Or.inl he
      · refine Or.inr (Or.inl ?_)
        simp only [hflag, hheld]
        exact hr
      · exact Or.inr (Or.inr (Or.inl ⟨v, trivial, hv.of_eq (hother v hne) rfl⟩))
      · exact Or.inr (Or.inr (Or.inr ⟨hp, v, trivial, (hother v hne).trans hv.1, hv.2⟩))

theorem attended_step (hi : WakeInv s) (h : Wakes s a s') (hover : HandsOver s a)
    (hqueue : s'.worker.pending.queue ≠ []) (hidle : ∃ sid, Idle s' sid) :
    Attended s' fun _ => True := by
  cases h with
  | enqueue asg w ans hstep =>
      rcases PendingState.enqueue_cases s.worker.pending asg with ⟨status, he⟩ | ⟨-, he⟩
      · -- refused: nothing has changed
        simp only [WorkerState.step, he, Option.some.injEq, Prod.mk.injEq] at hstep
        rcases hstep with ⟨rfl, rfl⟩
        exact hi.attended hqueue hidle
      · simp only [WorkerState.step, he, Option.some.injEq, Prod.mk.injEq] at hstep
        rcases hstep with ⟨rfl, rfl⟩
        exact Or.inl (Nat.succ_pos _)
  | notifyOne target n hcall hn => exact attended_notifyOne hi.entered hn rfl hidle
  | notifyWaiters hcall =>
      rcases hidle with ⟨sid, -, f, hf, hinc⟩
      exact absurd hinc (Notify.complete_of_notifyWaiters hf)
  | other act w ans ha hstep =>
      rcases plain_tasks ha hstep with ⟨htasks, hq⟩ | ⟨v, htasks⟩
      · have hw (v : String) : w.tasks.lookup v = s.worker.tasks.lookup v := by rw [htasks]
        rcases hidle with ⟨sid, hsid⟩
        rcases hi.attended (hq ▸ hqueue) ⟨sid, hsid.of_eq (hw sid).symm rfl⟩ with
          he | hr | ⟨v, -, hv⟩ | ⟨hp, v, -, hv⟩
        · exact Or.inl he
        · exact Or.inr (Or.inl hr)
        · exact Or.inr (Or.inr (Or.inl ⟨v, trivial, hv.of_eq (hw v) rfl⟩))
        · exact Or.inr (Or.inr (Or.inr ⟨hp, v, trivial, (hw v).trans hv.1, hv.2⟩))
      · have hpc : w.tasks.lookup v = some .locking := by
          rw [htasks]
          exact Finmap.lookup_insert _
        exact attended_of_task hpc (by simp) (by simp)
  | enter sid htask => exact attended_of_task htask (by simp) (by simp)
  | handed sid asg w hstep =>
      rcases nextFor_tasks hstep with ⟨-, hans, -⟩ | ⟨asg', -, htasks⟩ | ⟨hans, -⟩
      · exact absurd rfl (hans asg)
      · have hpc : w.tasks.lookup sid = some (.sending asg') := by
          rw [htasks]
          exact Finmap.lookup_insert _
        exact attended_of_task hpc (by simp) (by simp)
      · exact absurd rfl (hans asg)
  | nextFor sid w ans hans hstep =>
      rcases nextFor_tasks hstep with ⟨hempty, -⟩ | ⟨asg, rfl, -⟩ | ⟨-, hpc, htasks⟩
      · exact absurd hempty hqueue
      · exact absurd rfl (hans asg)
      · have hpc' : w.tasks.lookup sid = some .locking := by
          rw [htasks]
          exact hpc
        exact attended_of_task hpc' (by simp) (by simp)
  | waits sid n htask hpoll => exact attended_waits hi htask hpoll rfl hqueue hidle
  | woken sid n w ans hpoll hstep =>
      have hw : w = { s.worker with tasks := s.worker.tasks.insert sid .locking } := move_eq hstep
      subst hw
      exact attended_of_task (Finmap.lookup_insert _) (by simp) (by simp)
  | inbound sid target n w ans hdrop hstep =>
      have hw : w = { s.worker with tasks := s.worker.tasks.insert sid .handling } := move_eq hstep
      subst hw
      exact attended_of_task (Finmap.lookup_insert _) (by simp) (by simp)
  | leave sid target n w ans hdrop hstep =>
      -- from here to `disconnect` the session still counts
      have hw : w = { s.worker with tasks := s.worker.tasks.insert sid .closing } := move_eq hstep
      subst hw
      exact attended_of_task (Finmap.lookup_insert _) (by simp) (by simp)
  | disconnect sid ids w ans hstep => exact attended_disconnect hstep hover rfl hqueue hidle

theorem wakeInv_step (hi : WakeInv s) (h : Wakes s a s') (hover : HandsOver s a) :
    WakeInv s' := by
  refine ⟨?_, entered_step h hi.entered, attended_step hi h hover⟩
  rcases h.worker_step with he | ⟨act, ans, hstep⟩
  · rw [he]
    exact hi.inv
  · exact (step_effect hi.inv hstep).1

end Steps

/-! ## The law -/

/-- Assignments are queued, no `enqueue` and no `disconnect` is in progress, and
all the sessions there are sleep at `notified.await` without a notification. -/
structure Stuck (s : WakeState) : Prop where
  queued : s.worker.pending.queue ≠ []
  enqueues : s.enqueues = 0
  requeues : s.requeues = 0
  connected : ∃ sid, sid ∈ s.worker.pending.sessions
  asleep : ∀ sid ∈ s.worker.pending.sessions,
    s.worker.tasks.lookup sid = some .waiting ∧
      s.notify.futures.lookup sid = some .registered

theorem WakeInv.not_stuck {s : WakeState} (hi : WakeInv s) : ¬ Stuck s := by
  intro hs
  -- whoever is connected sleeps
  have hasleep : ∀ sid pc, s.worker.tasks.lookup sid = some pc → pc ≠ .closed →
      s.worker.tasks.lookup sid = some .waiting ∧
        s.notify.futures.lookup sid = some .registered := by
    intro sid pc hpc hne
    exact hs.asleep sid ((hi.inv.sessions sid).mpr ⟨pc, hpc, hne⟩)
  rcases hs.connected with ⟨sid, hsid⟩
  have hidle : Idle s sid := ⟨(hs.asleep sid hsid).1, _, (hs.asleep sid hsid).2, Or.inr rfl⟩
  rcases hi.attended hs.queued ⟨sid, hidle⟩ with
    he | hr | ⟨v, -, ⟨pc, hpc, hne⟩, hv⟩ | ⟨-, v, -, hv⟩
  · rw [hs.enqueues] at he
    exact Nat.lt_irrefl 0 he
  · rw [hs.requeues] at hr
    exact Nat.lt_irrefl 0 hr
  · have hslp := hasleep v pc hpc hne
    exact hv ⟨hslp.1, _, hslp.2, Or.inr rfl⟩
  · have hslp := hasleep v .waiting hv.1 (by simp)
    rw [hv.2] at hslp
    cases hslp.2

theorem wakeInv_init : WakeInv wakeups.init := by
  refine ⟨inv_init, ?_, ?_⟩
  · intro sid hsid
    simp [wakeups, Notify.new, Finmap.notMem_empty] at hsid
  · intro hqueue
    simp [wakeups, worker, PendingState.empty] at hqueue

/-- **No lost wake-up.** In every run in which each session that goes hands over,
no state is reached in which everybody sleeps beside the queue. -/
theorem no_lost_wakeup {tr : List (WakeAct × Answer)} {s : WakeState} (h : wakeups.Run tr s)
    (hover : wakeups.Conforms HandsOver tr) : ¬ Stuck s := by
  have hi : WakeInv s := by
    refine h.history_conforms (P := fun _ s => WakeInv s) wakeInv_init ?_ hover
    intro tr s a t ans _ hi hc hs
    exact wakeInv_step hi (step_wakes hs) hc
  exact hi.not_stuck

/-! ## What it takes -/

/-- Everybody sleeps beside the queue or is about to, and finds no permit. -/
structure Deserted (s : WakeState) : Prop where
  queued : s.worker.pending.queue ≠ []
  enqueues : s.enqueues = 0
  requeues : s.requeues = 0
  connected : ∃ sid, sid ∈ s.worker.pending.sessions
  idle : ∀ sid ∈ s.worker.pending.sessions, Idle s sid
  spent : s.notify.permit = true → ∀ sid ∈ s.worker.pending.sessions, ¬ Polling s sid

/-- How many futures have not been polled. -/
def unpolled (n : Notify String) : Nat :=
  (HashMap.collect (fun f => if f = Notified.fresh false then some f else none) n.futures).card

theorem unpolled_registered {n : Notify String} {sid : String}
    (h : n.futures.lookup sid = some (.fresh false)) :
    unpolled { n with futures := n.futures.insert sid .registered } < unpolled n := by
  unfold unpolled
  rw [HashMap.collect_insert, HashMap.collect_of_lookup _ h]
  simp

/-- The sessions that are still about to poll do so, and nobody is left. -/
theorem Deserted.stuck {s : WakeState} (h : Deserted s) :
    ∃ tr t, wakeups.Steps s tr t ∧ (∀ x ∈ tr, ∃ sid, x.1 = .poll sid) ∧ Stuck t := by
  generalize hk : unpolled s.notify = k
  induction k using Nat.strong_induction_on generalizing s with
  | _ k ih =>
      by_cases hpoll : ∃ sid ∈ s.worker.pending.sessions, Polling s sid
      · rcases hpoll with ⟨sid, hsid, hpolling⟩
        have hpermit : s.notify.permit = false := by
          rw [← Bool.not_eq_true]
          intro hp
          exact h.spent hp sid hsid hpolling
        set n : Notify String :=
          { s.notify with futures := s.notify.futures.insert sid .registered } with hn
        have hstep : wakeups.step s (.poll sid) = some ({ s with notify := n }, .silent) := by
          simp [wakeups, WakeState.step, hpolling.1, Notify.poll, hpolling.2, hpermit, hn]
        have hlookup (v : String) : n.futures.lookup v =
            if v = sid then some .registered else s.notify.futures.lookup v :=
          HashMap.lookup_insert_ite _ _ _ _
        have hnext : Deserted { s with notify := n } := by
          refine ⟨h.queued, h.enqueues, h.requeues, h.connected, ?_, ?_⟩
          · intro v hv
            rcases h.idle v hv with ⟨htask, f, hf, hinc⟩
            by_cases hvs : v = sid
            · exact ⟨htask, .registered, by simp [hlookup, hvs], Or.inr rfl⟩
            · refine ⟨htask, f, ?_, hinc⟩
              simpa [hlookup, hvs] using hf
          · intro hp
            exact absurd hp (by simp [hn, hpermit])
        have hless : unpolled n < k := hk ▸ unpolled_registered hpolling.2
        rcases ih _ hless hnext rfl with ⟨tr, t, hsteps, hpolls, hstuck⟩
        refine ⟨(.poll sid, .silent) :: tr, t, ?_, ?_, hstuck⟩
        · have hone : wakeups.Steps s [(.poll sid, .silent)] { s with notify := n } :=
            .snoc .refl hstep
          exact hone.trans hsteps
        · intro x hx
          rcases List.mem_cons.mp hx with rfl | hx
          · exact ⟨sid, rfl⟩
          · exact hpolls x hx
      · refine ⟨[], s, .refl, by simp, h.queued, h.enqueues, h.requeues, h.connected, ?_⟩
        intro sid hsid
        rcases h.idle sid hsid with ⟨htask, f, hf, rfl | rfl⟩
        · exact absurd ⟨sid, hsid, htask, hf⟩ hpoll
        · exact ⟨htask, hf⟩

/-- A session that goes without handing over leaves everybody asleep, as soon
as those that are about to sleep do. -/
theorem wakeup_lost {tr : List (WakeAct × Answer)} {s t : WakeState} {sid : String}
    {ids : List String} {ans : Answer} (h : wakeups.Run tr s)
    (hstep : wakeups.step s (.disconnect sid ids) = some (t, ans))
    (hover : ¬ HandsOver s (.disconnect sid ids)) :
    ∃ tr' u, wakeups.Steps t tr' u ∧ (∀ x ∈ tr', ∃ v, x.1 = .poll v) ∧ Stuck u := by
  have hinv {tr : List (WakeAct × Answer)} {s : WakeState} (h : wakeups.Run tr s) :
      Inv s.worker := by
    refine h.invariant (I := fun s => Inv s.worker) inv_init ?_
    intro s a t b hi hs
    rcases (step_wakes hs).worker_step with he | ⟨act, ans, hw⟩
    · rw [he]
      exact hi
    · exact (step_effect hi hw).1
  have hlive := (hinv (h.snoc hstep)).sessions
  simp only [HandsOver, Attended, not_or, not_not] at hover
  rcases hover with ⟨hheld, hqueue, ⟨other, hother⟩, henq, hreq, hawake, hpermit⟩
  have hwakes : Wakes s (.disconnect sid ids) t := step_wakes hstep
  cases hwakes with
  | disconnect _ _ w ans hw =>
      rcases disconnect_tasks hw with ⟨hpc, htasks, hids, hq, hflag⟩
      have hnone : ids.any s.worker.pending.isAssigned = false := by
        rw [List.any_eq_false]
        intro id hid hassigned
        exact hheld ⟨id, hids ▸ List.mem_toFinset.mpr hid, hassigned⟩
      have hsame : ∀ v, v ≠ sid → w.tasks.lookup v = s.worker.tasks.lookup v := by
        intro v hv
        rw [htasks]
        exact Finmap.lookup_insert_of_ne _ hv
      have hself : w.tasks.lookup sid = some .closed := by
        rw [htasks]
        exact Finmap.lookup_insert _
      -- who is still connected was there before, and was idle
      have hothers : ∀ v, v ∈ w.pending.sessions → v ≠ sid ∧ Idle s v := by
        intro v hv
        rcases (hlive v).mp hv with ⟨pc, hvpc, hne⟩
        have hvs : v ≠ sid := by
          rintro rfl
          have hclosed : some pc = some SessionPc.closed := hvpc.symm.trans hself
          exact hne (Option.some.inj hclosed)
        refine ⟨hvs, ?_⟩
        by_contra hidle
        exact hawake ⟨v, hvs, ⟨pc, (hsame v hvs).symm.trans hvpc, hne⟩, hidle⟩
      have hne : other ≠ sid := by
        rintro rfl
        rw [hother.1] at hpc
        cases hpc
      apply Deserted.stuck
      refine ⟨?_, Nat.eq_zero_of_not_pos henq, ?_, ⟨other, ?_⟩, ?_, ?_⟩
      · rw [hq]
        exact fun he => hqueue (List.append_eq_nil_iff.mp he).1
      · simp only [hflag, hnone, Bool.false_eq_true, if_false]
        exact Nat.eq_zero_of_not_pos hreq
      · exact (hlive other).mpr ⟨.waiting, (hsame other hne).trans hother.1, by simp⟩
      · intro v hv
        rcases hothers v hv with ⟨hvs, hidle⟩
        exact hidle.of_eq (hsame v hvs) rfl
      · intro hp v hv hpolling
        rcases hothers v hv with ⟨hvs, -⟩
        exact hpermit ⟨hp, v, hvs, (hsame v hvs).symm.trans hpolling.1, hpolling.2⟩

/-! ## A session that goes too early -/

/-- Session `sid` finds the queue empty and goes to sleep. -/
def sleeps (sid : String) : List WakeAct := [.enter sid, .nextFor sid, .poll sid]

/-- Two sessions sleep, an assignment comes and wakes `s`, whose next wait for
the lock is cut short by the end of its stream. -/
def wokenAndGone : List WakeAct :=
  [.other (.connect "s" ⟨0⟩), .other (.connect "t" ⟨1⟩)] ++ sleeps "s" ++ sleeps "t" ++
  [.enqueue (plainAssignment "a" "x" "j"), .notifyOne (some "s"), .poll "s", .enter "s",
   .leave "s" none]

/-- Before `s` is gone an event keeps `t` busy: it will look at the queue. -/
theorem no_lost_wakeup_busy : ∃ tr s, wakeups.Run tr s ∧
    tr.map Prod.fst = wokenAndGone ++ [.inbound "t" none, .disconnect "s" []] ∧
    s.worker.pending.queue = ["a"] ∧ s.worker.pending.sessions.keys = {"t"} ∧ ¬ Stuck s := by
  rcases Machine.run_of_exec wakeups (wokenAndGone ++ [.inbound "t" none, .disconnect "s" []])
    (P := fun _ s => s.worker.pending.queue = ["a"] ∧ s.worker.pending.sessions.keys = {"t"})
    (by decide +kernel) with ⟨tr, s, hrun, hacts, hqueue, hsessions⟩
  have hover : wakeups.Conforms HandsOver tr := by
    apply Machine.conforms_of_checks
    rw [hacts]
    decide +kernel
  exact ⟨tr, s, hrun, hacts, hqueue, hsessions, no_lost_wakeup hrun hover⟩

/-- `s` has used the notification up and goes; `t` sleeps beside the queue. -/
theorem asleep_beside_the_queue : ∃ tr s, wakeups.Run tr s ∧
    tr.map Prod.fst = wokenAndGone ++ [.disconnect "s" []] ∧ Stuck s := by
  rcases Machine.run_of_exec wakeups (wokenAndGone ++ [.disconnect "s" []])
    (P := fun _ s => s.worker.pending.queue = ["a"] ∧ s.enqueues = 0 ∧ s.requeues = 0 ∧
      s.worker.pending.sessions.keys = {"t"} ∧ s.worker.tasks.lookup "t" = some .waiting ∧
      s.notify.futures.lookup "t" = some .registered)
    (by decide +kernel) with ⟨tr, s, hrun, hacts, hqueue, henq, hreq, hsessions, htask, hfuture⟩
  have hmem : ∀ sid, sid ∈ s.worker.pending.sessions ↔ sid = "t" := by
    intro sid
    rw [← Finmap.mem_keys, hsessions, Finset.mem_singleton]
  refine ⟨tr, s, hrun, hacts, ?_, henq, hreq, ⟨"t", (hmem "t").mpr rfl⟩, ?_⟩
  · rw [hqueue]
    simp
  · intro sid hsid
    rw [(hmem sid).mp hsid]
    exact ⟨htask, hfuture⟩

end ThreadWeave.Worker
