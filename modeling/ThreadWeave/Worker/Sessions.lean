import ThreadWeave.Runs.Machine
import ThreadWeave.Worker.Pending

/-!
# Runtime sessions over `PendingExecutions`

The worker as a machine: the state behind the mutex plus one task for every
runtime session ever opened. A session task runs the loop of
`runtime_session`; its position is one of the await points of that loop.

* `locking` / `waiting` — inside `next_for`, at `state.lock().await` or at
  `notified.await`. `select!` drops `next_for` from either of them when an
  event arrives (`inbound`) or the stream ends (`leave`).
* `sending` / `handling` — in the body of a branch.
* `closing` / `closed` — after `break`, before and after `disconnect`.

Wake-ups are not restricted here (`notified` may fire whenever a task waits)
and event calls may come from anywhere, so the runs of this machine include
those of the worker.

* `step_works` — what one step can do, branch by branch.
* `worker_inv` — the representation invariant of `PendingState`, linked with
  the session tasks.
* `step_effect` — what one step does to `PendingState` and how it shows in the
  trace; the histories of the next modules are inductions over it.
-/

namespace ThreadWeave.Worker

open Runs (HashMap Machine)
open PendingState (Call Reply Accepts)

/-! ## The machine -/

/-- Where a session task stands. -/
inductive SessionPc where
  | locking | waiting
  | sending (assignment : AssignExecutionRequest)
  | handling
  | closing | closed
deriving DecidableEq

structure WorkerState where
  pending : PendingState
  tasks : HashMap String SessionPc
deriving DecidableEq

inductive Act where
  /-- `enqueue`, called by the assignment loop -/
  | enqueue (assignment : AssignExecutionRequest)
  /-- one of the event handlers, called by any session -/
  | call (c : Call) (now : Instant)
  | cancel (assignmentId : String) (reason : Option String)
  /-- `register_session` under a fresh id; the task is spawned -/
  | connect (sid : String) (sender : Sender)
  /-- `next_for` gets the lock -/
  | nextFor (sid : String)
  /-- the notification `next_for` waits for -/
  | notified (sid : String)
  /-- `select!` takes the inbound branch and drops `next_for` -/
  | inbound (sid : String)
  /-- the body of a branch ends and the loop goes round -/
  | resume (sid : String)
  /-- the loop breaks -/
  | leave (sid : String)
  /-- `disconnect`, with the iteration order of the record map -/
  | disconnect (sid : String) (ids : List String)
deriving DecidableEq

inductive Answer where
  | silent
  | enqueued (r : Except Status Unit)
  | called (r : Except Status Reply)
  | cancelled (r : Except Status (Sender × CancelExecution))
  | handed (a : AssignExecutionRequest)
  | panicked (message : String)
deriving DecidableEq

namespace WorkerState

/-- Move the task of `sid` to `pc` if it stands at one of the `ready` points. -/
def move (w : WorkerState) (sid : String) (ready : SessionPc → Bool) (pc : SessionPc) :
    Option (WorkerState × Answer) :=
  if (w.tasks.lookup sid).any ready then
    some ({ w with tasks := w.tasks.insert sid pc }, .silent)
  else none

/-- `select!` is polling its two branches. -/
def selecting : SessionPc → Bool
  | .locking | .waiting => true
  | _ => false

/-- The body of a branch is running. -/
def inBranch : SessionPc → Bool
  | .sending _ | .handling => true
  | _ => false

def step (w : WorkerState) : Act → Option (WorkerState × Answer)
  | .enqueue a =>
      let r := w.pending.enqueue a
      some ({ w with pending := r.1 }, .enqueued r.2)
  | .call c now =>
      let r := w.pending.onCall c now
      some ({ w with pending := r.1 }, .called r.2)
  | .cancel a reason => some (w, .cancelled (w.pending.cancel a reason))
  | .connect sid sender =>
      if sid ∈ w.tasks then none
      else some ({ pending := w.pending.registerSession sid sender,
                   tasks := w.tasks.insert sid .locking }, .silent)
  | .nextFor sid =>
      if w.tasks.lookup sid = some .locking then
        match w.pending.nextFor sid with
        | (p, .empty) => some ({ pending := p, tasks := w.tasks.insert sid .waiting }, .silent)
        | (p, .handed a) =>
            some ({ pending := p, tasks := w.tasks.insert sid (.sending a) }, .handed a)
        | (p, .panicked message) => some ({ w with pending := p }, .panicked message)
      else none
  | .notified sid => w.move sid (· == .waiting) .locking
  | .inbound sid => w.move sid selecting .handling
  | .resume sid => w.move sid inBranch .locking
  | .leave sid => w.move sid (fun pc => selecting pc || inBranch pc) .closing
  | .disconnect sid ids =>
      if w.tasks.lookup sid = some .closing ∧ ids.Nodup ∧
          ids.toFinset = w.pending.heldBy sid then
        match w.pending.disconnect sid ids with
        | none => some (w, .panicked "selected record exists")
        | some (p, _) => some ({ pending := p, tasks := w.tasks.insert sid .closed }, .silent)
      else none

end WorkerState

/-- The worker, from its start with no assignment and no session. -/
def worker : Machine WorkerState Act Answer where
  init := { pending := .empty, tasks := ∅ }
  step := WorkerState.step

/-! ## The representation invariant -/

/-- What holds of the record stored under `id`. -/
structure RecordOk (p : PendingState) (id : String) (r : AssignmentRecord) : Prop where
  keyed : r.assignment.assignmentId = id
  unowned : r.state ∈ [.pending, .succeeded, .failed] → r.sessionId = none
  owned : r.state = .assigned → r.sessionId.isSome
  connected : ∀ sid, r.sessionId = some sid → sid ∈ p.sessions
  unstarted : r.state ∈ [.pending, .assigned] →
    r.lastSequenceNumber = none ∧ r.startedAt = none ∧ r.metrics = []
  running : r.state = .running → r.startedAt.isSome

/-- The representation invariant of `PendingState`. -/
structure Rep (p : PendingState) : Prop where
  nodup : p.queue.Nodup
  queued : ∀ id, id ∈ p.queue ↔ ∃ r, p.assignments.lookup id = some r ∧ r.state = .pending
  records : ∀ id r, p.assignments.lookup id = some r → RecordOk p id r

/-- The task of `sid` exists and has not run `disconnect` yet. -/
def Live (w : WorkerState) (sid : String) : Prop :=
  ∃ pc, w.tasks.lookup sid = some pc ∧ pc ≠ .closed

structure Inv (w : WorkerState) : Prop where
  rep : Rep w.pending
  sessions : ∀ sid, sid ∈ w.pending.sessions ↔ Live w sid

theorem rep_empty : Rep .empty where
  nodup := List.nodup_nil
  queued := by simp [PendingState.empty]
  records := by simp [PendingState.empty]

/-! ## Each operation keeps the invariant -/

/-- A record is still fine when sessions are only added. -/
theorem RecordOk.mono {p q : PendingState} {id : String} {r : AssignmentRecord}
    (h : RecordOk p id r) (hs : ∀ sid, sid ∈ p.sessions → sid ∈ q.sessions) :
    RecordOk q id r :=
  { h with connected := fun sid hsid => hs sid (h.connected sid hsid) }

theorem Rep.enqueue {p : PendingState} (h : Rep p) {a : AssignExecutionRequest}
    (hnew : a.assignmentId ∉ p.assignments) :
    Rep { p with
      queue := p.queue ++ [a.assignmentId]
      assignments := p.assignments.insert a.assignmentId (PendingState.newRecord a) } := by
  have hnone : p.assignments.lookup a.assignmentId = none := Finmap.lookup_eq_none.mpr hnew
  have hnotq : a.assignmentId ∉ p.queue := by
    intro hq
    rcases (h.queued _).mp hq with ⟨r, hr, -⟩
    rw [hnone] at hr
    cases hr
  refine ⟨?_, ?_, ?_⟩
  · rw [List.nodup_append]
    refine ⟨h.nodup, List.nodup_singleton _, ?_⟩
    intro x hx y hy hxy
    rw [List.mem_singleton] at hy
    exact hnotq (hy ▸ hxy ▸ hx)
  · intro id
    rw [List.mem_append, List.mem_singleton]
    simp only [Runs.HashMap.lookup_insert_ite]
    by_cases hid : id = a.assignmentId
    · simp [hid, PendingState.newRecord]
    · simp [hid, h.queued id]
  · intro id r hr
    simp only [Runs.HashMap.lookup_insert_ite] at hr
    split_ifs at hr with hid
    · cases hr
      exact ⟨by simp [PendingState.newRecord, hid], by simp [PendingState.newRecord],
        by simp [PendingState.newRecord], by simp [PendingState.newRecord],
        by simp [PendingState.newRecord], by simp [PendingState.newRecord]⟩
    · exact (h.records id r hr).mono fun _ hs => hs

/-- Writing back a record that is not pending before or after. -/
theorem Rep.replace {p : PendingState} (h : Rep p) {id : String} {r r' : AssignmentRecord}
    (hr : p.assignments.lookup id = some r) (hst : r.state ≠ .pending)
    (hst' : r'.state ≠ .pending) (hok : RecordOk p id r') :
    Rep { p with assignments := p.assignments.insert id r' } := by
  refine ⟨h.nodup, ?_, ?_⟩
  · intro k
    simp only [Runs.HashMap.lookup_insert_ite]
    rw [h.queued k]
    by_cases hk : k = id
    · subst hk
      simp [hr, hst, hst']
    · simp [hk]
  · intro k rec hrec
    simp only [Runs.HashMap.lookup_insert_ite] at hrec
    split_ifs at hrec with hk
    · cases hrec
      subst hk
      exact hok.mono fun _ hs => hs
    · exact (h.records k rec hrec).mono fun _ hs => hs

/-- An accepted call moves the record along the lifecycle. -/
theorem RecordOk.advance {p : PendingState} {id : String} {c : Call} {r : AssignmentRecord}
    (h : RecordOk p id r) (hst : r.state = c.requires) (now : Instant) :
    RecordOk p id (c.advance now r) := by
  cases c with
  | started e =>
      exact ⟨h.keyed, by simp [Call.advance], by simp [Call.advance], h.connected,
        by simp [Call.advance], by simp [Call.advance]⟩
  | progress e =>
      have hrun : r.state = .running := hst
      exact ⟨h.keyed, h.unowned, h.owned, h.connected, by simp [Call.advance, hrun], h.running⟩
  | metrics e =>
      have hrun : r.state = .running := hst
      exact ⟨h.keyed, h.unowned, h.owned, h.connected, by simp [Call.advance, hrun], h.running⟩
  | terminal a x n ok =>
      refine ⟨h.keyed, by simp [Call.advance], ?_, by simp [Call.advance], ?_, ?_⟩
      all_goals cases ok <;> simp [Call.advance]

theorem PendingState.Call.advance_not_pending (c : Call) (now : Instant) (r : AssignmentRecord)
    (hst : r.state = c.requires) : (c.advance now r).state ≠ .pending := by
  cases c with
  | started e => simp [Call.advance]
  | progress e => simp [Call.advance, hst, Call.requires]
  | metrics e => simp [Call.advance, hst, Call.requires]
  | terminal a x n ok => cases ok <;> simp [Call.advance]

theorem PendingState.Call.advance_not_assigned (c : Call) (now : Instant) (r : AssignmentRecord)
    (hst : r.state = c.requires) : (c.advance now r).state ≠ .assigned := by
  cases c with
  | started e => simp [Call.advance]
  | progress e => simp [Call.advance, hst, Call.requires]
  | metrics e => simp [Call.advance, hst, Call.requires]
  | terminal a x n ok => cases ok <;> simp [Call.advance]

theorem Rep.call {p : PendingState} (h : Rep p) {c : Call} {r : AssignmentRecord}
    (hacc : p.Accepts c r) (now : Instant) :
    Rep { p with assignments := p.assignments.insert c.assignmentId (c.advance now r) } := by
  have hst : r.state ≠ .pending := by
    rw [hacc.state]
    cases c <;> simp [Call.requires]
  have hok : RecordOk p c.assignmentId (c.advance now r) :=
    (h.records _ _ hacc.found).advance hacc.state now
  exact h.replace hacc.found hst (c.advance_not_pending now r hacc.state) hok

theorem Rep.head_pending {p : PendingState} (h : Rep p) {id : String} {q : List String}
    {r : AssignmentRecord} (hq : p.queue = id :: q)
    (hr : p.assignments.lookup id = some r) : r.state = .pending := by
  rcases (h.queued id).mp (hq ▸ List.mem_cons_self) with ⟨r₀, hr₀, hst⟩
  rw [hr] at hr₀
  cases hr₀
  exact hst

/-- Handing out the head of the queue. -/
theorem Rep.hand {p : PendingState} (h : Rep p) {sid id : String} {q : List String}
    {r : AssignmentRecord} (hsid : sid ∈ p.sessions) (hq : p.queue = id :: q)
    (hr : p.assignments.lookup id = some r) :
    Rep { p with
      queue := q
      assignments := p.assignments.insert id
        { r with state := .assigned, sessionId := some sid } } := by
  have hnd : id ∉ q ∧ q.Nodup := List.nodup_cons.mp (hq ▸ h.nodup)
  have hpend : r.state = .pending := h.head_pending hq hr
  refine ⟨hnd.2, ?_, ?_⟩
  · intro k
    simp only [Runs.HashMap.lookup_insert_ite]
    by_cases hk : k = id
    · subst hk
      simp [hnd.1]
    · have hkq : k ∈ q ↔ k ∈ p.queue := by simp [hq, hk]
      simp [hk, hkq, h.queued k]
  · intro k rec hrec
    simp only [Runs.HashMap.lookup_insert_ite] at hrec
    split_ifs at hrec with hk
    · cases hrec
      have hok := h.records id r hr
      have hun := hok.unstarted (by simp [hpend])
      exact ⟨hk ▸ hok.keyed, by simp, by simp, by simp [hsid], by simpa using hun, by simp⟩
    · exact (h.records k rec hrec).mono fun _ hs => hs

/-- A record survives the end of another session, or of its own once it is
detached. -/
theorem RecordOk.disconnect {p q : PendingState} {sid id : String} {r : AssignmentRecord}
    (h : RecordOk p id r) (hq : q.sessions = p.sessions.erase sid)
    (hne : r.sessionId ≠ some sid) : RecordOk q id r := by
  refine { h with connected := ?_ }
  intro sid' hsid'
  have hdiff : sid' ≠ sid := fun he => hne (he ▸ hsid')
  rw [hq, Finmap.mem_erase]
  exact ⟨hdiff, h.connected sid' hsid'⟩

theorem RecordOk.detach {p q : PendingState} {id : String} {r : AssignmentRecord}
    (h : RecordOk p id r) : RecordOk q id (PendingState.detach r) := by
  by_cases hst : r.state = .assigned
  · have hun := h.unstarted (by simp [hst])
    exact ⟨h.keyed, by simp [PendingState.detach], by simp [PendingState.detach, hst],
      by simp [PendingState.detach], fun _ => hun, by simp [PendingState.detach, hst]⟩
  · refine ⟨h.keyed, by simp [PendingState.detach], by simp [PendingState.detach, hst],
      by simp [PendingState.detach], ?_, by simpa [PendingState.detach, hst] using h.running⟩
    simpa [PendingState.detach, hst] using h.unstarted

theorem Rep.disconnect {p : PendingState} (h : Rep p) {sid : String} {ids : List String}
    {m : HashMap String AssignmentRecord} (hnd : ids.Nodup)
    (hids : ids.toFinset = p.heldBy sid)
    (hm : ∀ k, m.lookup k = if k ∈ p.heldBy sid then
      (p.assignments.lookup k).map PendingState.detach else p.assignments.lookup k) :
    Rep { queue := p.queue ++ ids.filter p.isAssigned
          assignments := m
          sessions := p.sessions.erase sid } := by
  have hheld : ∀ k, k ∈ ids ↔ k ∈ p.heldBy sid := by
    intro k
    rw [← hids, List.mem_toFinset]
  -- a held record is pending afterwards exactly if it was assigned
  have hpend : ∀ k, k ∈ p.heldBy sid → k ∉ p.queue := by
    intro k hk hq
    rcases PendingState.mem_heldBy.mp hk with ⟨r, hr, hsess⟩
    rcases (h.queued k).mp hq with ⟨r', hr', hst⟩
    rw [hr] at hr'
    cases hr'
    have hnone := (h.records k r hr).unowned (by simp [hst])
    rw [hsess] at hnone
    cases hnone
  refine ⟨?_, ?_, ?_⟩
  · rw [List.nodup_append]
    refine ⟨h.nodup, hnd.filter _, ?_⟩
    intro x hx y hy hxy
    subst hxy
    exact hpend x ((hheld x).mp (List.mem_filter.mp hy).1) hx
  · intro k
    rw [List.mem_append, List.mem_filter, hheld k]
    show _ ↔ ∃ r, m.lookup k = some r ∧ r.state = .pending
    rw [hm k]
    by_cases hk : k ∈ p.heldBy sid
    · rcases PendingState.mem_heldBy.mp hk with ⟨r, hr, hsess⟩
      have hnp : r.state ≠ .pending := by
        intro hst
        have hnone := (h.records k r hr).unowned (by simp [hst])
        rw [hsess] at hnone
        cases hnone
      simp [hk, hpend k hk, hr, PendingState.isAssigned, PendingState.detach, hnp]
    · simp [hk, h.queued k]
  · intro k rec hrec
    have hrec' : m.lookup k = some rec := hrec
    rw [hm k] at hrec'
    split_ifs at hrec' with hk
    · rcases Option.map_eq_some_iff.mp hrec' with ⟨r, hr, rfl⟩
      exact (h.records k r hr).detach
    · have hne : rec.sessionId ≠ some sid := by
        intro hsess
        exact hk (PendingState.mem_heldBy.mpr ⟨rec, hrec', hsess⟩)
      exact (h.records k rec hrec').disconnect rfl hne

/-! ## Steps and runs -/

/-- What a step leaves behind for an observer of the worker. -/
inductive Obs where
  | enqueued (id : String)
  | accepted (c : Call)
  | handed (id sid : String)
  | disconnected (sid : String)
deriving DecidableEq

def observe : Act × Answer → Option Obs
  | (.enqueue a, .enqueued (.ok _)) => some (.enqueued a.assignmentId)
  | (.call c _, .called (.ok _)) => some (.accepted c)
  | (.nextFor sid, .handed a) => some (.handed a.assignmentId sid)
  | (.disconnect sid _, .silent) => some (.disconnected sid)
  | _ => none

/-- The effect of one step on `PendingState`, with its observation. -/
inductive Effect (p : PendingState) : Option Obs → PendingState → Prop where
  | quiet : Effect p none p
  | opened (sid : String) (sender : Sender) : Effect p none (p.registerSession sid sender)
  | enqueued (a : AssignExecutionRequest) (hnew : a.assignmentId ∉ p.assignments) :
      Effect p (some (.enqueued a.assignmentId))
        { p with
          queue := p.queue ++ [a.assignmentId]
          assignments := p.assignments.insert a.assignmentId (PendingState.newRecord a) }
  | accepted (c : Call) (now : Instant) (r : AssignmentRecord) (hacc : p.Accepts c r) :
      Effect p (some (.accepted c))
        { p with assignments := p.assignments.insert c.assignmentId (c.advance now r) }
  | handed (sid id : String) (q : List String) (r : AssignmentRecord)
      (hsid : sid ∈ p.sessions) (hq : p.queue = id :: q)
      (hr : p.assignments.lookup id = some r) :
      Effect p (some (.handed id sid))
        { p with
          queue := q
          assignments := p.assignments.insert id
            { r with state := .assigned, sessionId := some sid } }
  | disconnected (sid : String) (ids : List String) (m : HashMap String AssignmentRecord)
      (hnd : ids.Nodup) (hids : ids.toFinset = p.heldBy sid)
      (hm : ∀ k, m.lookup k = if k ∈ p.heldBy sid then
        (p.assignments.lookup k).map PendingState.detach else p.assignments.lookup k) :
      Effect p (some (.disconnected sid))
        { queue := p.queue ++ ids.filter p.isAssigned
          assignments := m
          sessions := p.sessions.erase sid }

theorem Rep.effect {p p' : PendingState} {o : Option Obs} (h : Rep p) (he : Effect p o p') :
    Rep p' := by
  cases he with
  | quiet => exact h
  | opened sid sender =>
      refine ⟨h.nodup, h.queued, ?_⟩
      intro id r hr
      refine (h.records id r hr).mono ?_
      intro sid' hsid'
      exact Finmap.mem_insert.mpr (Or.inr hsid')
  | enqueued a hnew => exact h.enqueue hnew
  | accepted c now r hacc => exact h.call hacc now
  | handed sid id q r hsid hq hr => exact h.hand hsid hq hr
  | disconnected sid ids m hnd hids hm => exact h.disconnect hnd hids hm

/-- One step of the worker, by the branch of the code that is run. -/
inductive Works (w : WorkerState) : Act → Answer → WorkerState → Prop where
  | enqueueRefused (a : AssignExecutionRequest) (status : Status) :
      Works w (.enqueue a) (.enqueued (.error status)) w
  | enqueued (a : AssignExecutionRequest) (hnew : a.assignmentId ∉ w.pending.assignments) :
      Works w (.enqueue a) (.enqueued (.ok ()))
        { w with pending := { w.pending with
          queue := w.pending.queue ++ [a.assignmentId]
          assignments := w.pending.assignments.insert a.assignmentId (PendingState.newRecord a) } }
  | callRefused (c : Call) (now : Instant) (status : Status) :
      Works w (.call c now) (.called (.error status)) w
  | called (c : Call) (now : Instant) (r : AssignmentRecord) (reply : Reply)
      (hacc : w.pending.Accepts c r) :
      Works w (.call c now) (.called (.ok reply))
        { w with pending := { w.pending with
          assignments := w.pending.assignments.insert c.assignmentId (c.advance now r) } }
  | cancelled (a : String) (reason : Option String) :
      Works w (.cancel a reason) (.cancelled (w.pending.cancel a reason)) w
  | connected (sid : String) (sender : Sender) (hnew : sid ∉ w.tasks) :
      Works w (.connect sid sender) .silent
        { pending := w.pending.registerSession sid sender
          tasks := w.tasks.insert sid .locking }
  | waits (sid : String) (hpc : w.tasks.lookup sid = some .locking) :
      Works w (.nextFor sid) .silent { w with tasks := w.tasks.insert sid .waiting }
  | handed (sid id : String) (q : List String) (r : AssignmentRecord)
      (hpc : w.tasks.lookup sid = some .locking) (hq : w.pending.queue = id :: q)
      (hr : w.pending.assignments.lookup id = some r) :
      Works w (.nextFor sid) (.handed r.assignment)
        { pending := { w.pending with
            queue := q
            assignments := w.pending.assignments.insert id
              { r with state := .assigned, sessionId := some sid } }
          tasks := w.tasks.insert sid (.sending r.assignment) }
  | unrecorded (sid id : String) (q : List String) (hq : w.pending.queue = id :: q)
      (hnone : id ∉ w.pending.assignments) :
      Works w (.nextFor sid) (.panicked "queued assignment exists")
        { w with pending := { w.pending with queue := q } }
  /-- a task moves on between two points where it is live -/
  | moved (a : Act) (sid : String) (pc pc' : SessionPc)
      (ha : a ∈ [.notified sid, .inbound sid, .resume sid, .leave sid])
      (hpc : w.tasks.lookup sid = some pc) (hne : pc ≠ .closed) (hne' : pc' ≠ .closed) :
      Works w a .silent { w with tasks := w.tasks.insert sid pc' }
  | disconnected (sid : String) (ids : List String) (m : HashMap String AssignmentRecord)
      (hpc : w.tasks.lookup sid = some .closing) (hnd : ids.Nodup)
      (hids : ids.toFinset = w.pending.heldBy sid)
      (hm : ∀ k, m.lookup k = if k ∈ w.pending.heldBy sid then
        (w.pending.assignments.lookup k).map PendingState.detach
        else w.pending.assignments.lookup k) :
      Works w (.disconnect sid ids) .silent
        { pending :=
            { queue := w.pending.queue ++ ids.filter w.pending.isAssigned
              assignments := m
              sessions := w.pending.sessions.erase sid }
          tasks := w.tasks.insert sid .closed }

theorem move_works {w w' : WorkerState} {a : Act} {sid : String} {ready : SessionPc → Bool}
    {pc : SessionPc} {ans : Answer} (h : w.move sid ready pc = some (w', ans))
    (ha : a ∈ [.notified sid, .inbound sid, .resume sid, .leave sid])
    (hready : ready .closed = false) (hpc : pc ≠ .closed) : Works w a ans w' := by
  unfold WorkerState.move at h
  split_ifs at h with hany
  rcases (Option.any_eq_true _ _).mp hany with ⟨pc₀, hpc₀, hr₀⟩
  have hne : pc₀ ≠ .closed := by
    intro he
    rw [he, hready] at hr₀
    cases hr₀
  cases h
  exact .moved a sid pc₀ pc ha hpc₀ hne hpc

/-- Every step runs one branch of the code. The `expect` of `disconnect` holds,
because the loop runs over the records it has just selected. -/
theorem step_works {w w' : WorkerState} {a : Act} {ans : Answer}
    (h : w.step a = some (w', ans)) : Works w a ans w' := by
  cases a with
  | enqueue asg =>
      rcases PendingState.enqueue_cases w.pending asg with ⟨status, he⟩ | ⟨hnew, he⟩
      · simp only [WorkerState.step, he, Option.some.injEq, Prod.mk.injEq] at h
        rcases h with ⟨rfl, rfl⟩
        exact .enqueueRefused asg status
      · simp only [WorkerState.step, he, Option.some.injEq, Prod.mk.injEq] at h
        rcases h with ⟨rfl, rfl⟩
        exact .enqueued asg hnew
  | call c now =>
      rcases PendingState.onCall_cases w.pending c now with ⟨status, he⟩ | ⟨r, reply, hacc, he⟩
      · simp only [WorkerState.step, he, Option.some.injEq, Prod.mk.injEq] at h
        rcases h with ⟨rfl, rfl⟩
        exact .callRefused c now status
      · simp only [WorkerState.step, he, Option.some.injEq, Prod.mk.injEq] at h
        rcases h with ⟨rfl, rfl⟩
        exact .called c now r reply hacc
  | cancel asg reason =>
      cases h
      exact .cancelled asg reason
  | connect sid sender =>
      simp only [WorkerState.step] at h
      split_ifs at h with hmem
      cases h
      exact .connected sid sender hmem
  | nextFor sid =>
      simp only [WorkerState.step] at h
      split_ifs at h with hpc
      rcases PendingState.nextFor_cases w.pending sid with
        ⟨hq, he⟩ | ⟨id, q, hq, hnone, he⟩ | ⟨id, q, r, hq, hr, he⟩
      · simp only [he, Option.some.injEq, Prod.mk.injEq] at h
        rcases h with ⟨rfl, rfl⟩
        exact .waits sid hpc
      · simp only [he, Option.some.injEq, Prod.mk.injEq] at h
        rcases h with ⟨rfl, rfl⟩
        exact .unrecorded sid id q hq hnone
      · simp only [he, Option.some.injEq, Prod.mk.injEq] at h
        rcases h with ⟨rfl, rfl⟩
        exact .handed sid id q r hpc hq hr
  | notified sid => exact move_works h (by simp) rfl (by simp)
  | inbound sid => exact move_works h (by simp) rfl (by simp)
  | resume sid => exact move_works h (by simp) rfl (by simp)
  | leave sid => exact move_works h (by simp) rfl (by simp)
  | disconnect sid ids =>
      simp only [WorkerState.step] at h
      split_ifs at h with hguard
      rcases hguard with ⟨hpc, hnd, hids⟩
      rcases PendingState.disconnect_spec hnd hids with ⟨m, hdis, hm⟩
      simp only [hdis, Option.some.injEq, Prod.mk.injEq] at h
      rcases h with ⟨rfl, rfl⟩
      exact .disconnected sid ids m hpc hnd hids hm

/-- A task that only moves on between two live points. -/
theorem live_insert {w : WorkerState} {sid : String} {pc pc' : SessionPc}
    (hpc : w.tasks.lookup sid = some pc) (hne : pc ≠ .closed) (hne' : pc' ≠ .closed)
    (p : PendingState) (sid' : String) :
    Live { pending := p, tasks := w.tasks.insert sid pc' } sid' ↔ Live w sid' := by
  unfold Live
  simp only [Runs.HashMap.lookup_insert_ite]
  by_cases hs : sid' = sid
  · subst hs
    simp [hpc, hne, hne']
  · simp [hs]

/-- Opening a session registers it and makes its task live. -/
theorem Inv.connect {w : WorkerState} (hinv : Inv w) (sid : String) (sender : Sender) :
    Inv { pending := w.pending.registerSession sid sender
          tasks := w.tasks.insert sid .locking } := by
  refine ⟨hinv.rep.effect (.opened sid sender), ?_⟩
  intro sid'
  have hold := hinv.sessions sid'
  unfold Live at hold ⊢
  simp only [PendingState.registerSession, Finmap.mem_insert, Runs.HashMap.lookup_insert_ite]
  by_cases hs : sid' = sid
  · simp [hs]
  · simpa [hs] using hold

/-- `disconnect` removes the session and ends its task. -/
theorem Inv.disconnect {w : WorkerState} (hinv : Inv w) {p : PendingState} (hrep : Rep p)
    {sid : String} (hsessions : p.sessions = w.pending.sessions.erase sid) :
    Inv { pending := p, tasks := w.tasks.insert sid .closed } := by
  refine ⟨hrep, ?_⟩
  intro sid'
  have hold := hinv.sessions sid'
  unfold Live at hold ⊢
  simp only [hsessions, Finmap.mem_erase, Runs.HashMap.lookup_insert_ite]
  by_cases hs : sid' = sid
  · simp [hs]
  · simpa [hs] using hold

/-- One step from a state that satisfies the invariant: the invariant holds
again, no `expect` fails, and the effect on `PendingState` is the one the
observation names. -/
theorem step_effect {w w' : WorkerState} {a : Act} {ans : Answer} (hinv : Inv w)
    (h : worker.step w a = some (w', ans)) :
    Inv w' ∧ (∀ message, ans ≠ .panicked message) ∧
      Effect w.pending (observe (a, ans)) w'.pending := by
  cases step_works h with
  | enqueueRefused asg status => exact ⟨hinv, by simp, .quiet⟩
  | enqueued asg hnew =>
      exact ⟨⟨hinv.rep.enqueue hnew, hinv.sessions⟩, by simp, .enqueued asg hnew⟩
  | callRefused c now status => exact ⟨hinv, by simp, .quiet⟩
  | called c now r reply hacc =>
      exact ⟨⟨hinv.rep.call hacc now, hinv.sessions⟩, by simp, .accepted c now r hacc⟩
  | cancelled asg reason => exact ⟨hinv, by simp, .quiet⟩
  | connected sid sender hnew => exact ⟨hinv.connect sid sender, by simp, .opened sid sender⟩
  | waits sid hpc =>
      refine ⟨⟨hinv.rep, ?_⟩, by simp, .quiet⟩
      intro sid'
      rw [live_insert hpc (by simp) (by simp)]
      exact hinv.sessions sid'
  | handed sid id q r hpc hq hr =>
      have hsid : sid ∈ w.pending.sessions := (hinv.sessions sid).mpr ⟨_, hpc, by simp⟩
      have hkey : r.assignment.assignmentId = id := (hinv.rep.records id r hr).keyed
      refine ⟨⟨hinv.rep.hand hsid hq hr, ?_⟩, by simp, ?_⟩
      · intro sid'
        rw [live_insert hpc (by simp) (by simp)]
        exact hinv.sessions sid'
      · simp only [observe, hkey]
        exact .handed sid id q r hsid hq hr
  | unrecorded sid id q hq hnone =>
      -- a queued id has a record, so the `expect` holds
      rcases (hinv.rep.queued id).mp (hq ▸ List.mem_cons_self) with ⟨r, hr, -⟩
      exact absurd (Finmap.mem_of_lookup_eq_some hr) hnone
  | moved a sid pc pc' ha hpc hne hne' =>
      have hobs : observe (a, .silent) = none := by
        simp only [List.mem_cons, List.not_mem_nil, or_false] at ha
        rcases ha with rfl | rfl | rfl | rfl <;> rfl
      refine ⟨⟨hinv.rep, ?_⟩, by simp, hobs ▸ .quiet⟩
      intro sid'
      rw [live_insert hpc hne hne']
      exact hinv.sessions sid'
  | disconnected sid ids m hpc hnd hids hm =>
      have hrep := hinv.rep.disconnect hnd hids hm
      exact ⟨hinv.disconnect hrep rfl, by simp, .disconnected sid ids m hnd hids hm⟩

theorem inv_init : Inv worker.init where
  rep := rep_empty
  sessions := by simp [worker, PendingState.empty, Live, Finmap.notMem_empty]

/-- The invariant holds in every state of every run. -/
theorem worker_inv {tr : List (Act × Answer)} {w : WorkerState} (h : worker.Run tr w) : Inv w :=
  h.invariant inv_init fun _ _ _ _ hinv hs => (step_effect hinv hs).1

/-! ## The branches that are never taken -/

/-- What the source could only do in a state that breaks the representation:
a failing `expect`, "not started" for a terminal event, a cancel whose session
is not registered. -/
def Unexpected : Act × Answer → Prop
  | (_, .panicked _) => True
  | (.call (.terminal _ _ _ _) _, .called (.error status)) =>
      status = ⟨.failedPrecondition, "execution was not started"⟩
  | (.cancel _ _, .cancelled (.error status)) =>
      status = ⟨.unavailable, "runtime session disconnected"⟩
  | _ => False

theorem cancel_connected {p : PendingState} (h : Rep p) (a : String) (reason : Option String) :
    p.cancel a reason ≠ .error ⟨.unavailable, "runtime session disconnected"⟩ := by
  intro hc
  unfold PendingState.cancel at hc
  split at hc
  · simp at hc
  · rename_i r hr
    split at hc
    · simp at hc
    · rename_i sid hsid
      have hmem : sid ∈ p.sessions := (h.records a r hr).connected sid hsid
      rcases Finmap.mem_iff.mp hmem with ⟨sender, hsender⟩
      simp [hsender] at hc

theorem terminal_started {p : PendingState} (h : Rep p) (a x : String) (n : Nat) (ok : Bool)
    (now : Instant) : (p.onCall (.terminal a x n ok) now).2 ≠
      .error ⟨.failedPrecondition, "execution was not started"⟩ := by
  intro hc
  rcases PendingState.terminal_notStarted hc with ⟨r, hr, hst, hnone⟩
  have hsome : r.startedAt.isSome := (h.records a r hr).running hst
  simp [hnone] at hsome

theorem step_expected {w w' : WorkerState} {a : Act} {ans : Answer} (hinv : Inv w)
    (h : worker.step w a = some (w', ans)) : ¬ Unexpected (a, ans) := by
  intro hun
  have hpanic := (step_effect hinv h).2.1
  change w.step a = some (w', ans) at h
  unfold Unexpected at hun
  split at hun
  · rename_i hx
    cases hx
    exact hpanic _ rfl
  · rename_i a₀ x n ok now status hx
    cases hx
    simp only [WorkerState.step, Option.some.injEq, Prod.mk.injEq, Answer.called.injEq] at h
    exact terminal_started hinv.rep a₀ x n ok now (hun ▸ h.2)
  · rename_i a₀ reason status hx
    cases hx
    simp only [WorkerState.step, Option.some.injEq, Prod.mk.injEq, Answer.cancelled.injEq] at h
    exact cancel_connected hinv.rep a₀ reason (hun ▸ h.2)
  · exact hun

/-- **Representation invariant.** In every state of every run the queue, the
records and the sessions fit together, and none of the branches that rely on
it is ever taken. -/
theorem pending_representation {tr : List (Act × Answer)} {w : WorkerState}
    (h : worker.Run tr w) :
    Rep w.pending ∧ ∀ x ∈ tr, ¬ Unexpected x := by
  refine ⟨(worker_inv h).rep, ?_⟩
  exact h.forall_mem inv_init fun s a t b hinv hs =>
    ⟨(step_effect hinv hs).1, step_expected hinv hs⟩

/-- An assignment with empty content. -/
def plainAssignment (assignmentId executionId jobId : String) : AssignExecutionRequest where
  assignmentId := assignmentId
  executionId := executionId
  jobId := jobId
  task := none
  arguments := []
  serializationFormat := "json"
  reservedResources := none
  deadline := none
  metadata := none

/-- Two assignments: the first is started and loses its session, the second
is requeued when the session goes and handed to the next one. -/
def twoAssignments : List Act :=
  [.enqueue (plainAssignment "a" "x" "j"), .enqueue (plainAssignment "b" "y" "k"),
   .connect "s" ⟨0⟩, .nextFor "s", .resume "s", .nextFor "s",
   .call (.started ⟨"a", "x", 1, none⟩) 10, .leave "s", .disconnect "s" ["b", "a"],
   .connect "t" ⟨1⟩, .nextFor "t", .cancel "b" none, .call (.terminal "a" "x" 2 true) 30]

theorem pending_representation_twoAssignments : ∃ tr w,
    worker.Run tr w ∧ tr.map Prod.fst = twoAssignments ∧ Rep w.pending ∧
      ∀ x ∈ tr, ¬ Unexpected x := by
  rcases Machine.run_of_exec worker twoAssignments (P := fun _ _ => True)
    (by decide) with ⟨tr, w, hrun, hacts, -⟩
  exact ⟨tr, w, hrun, hacts, pending_representation hrun⟩

end ThreadWeave.Worker
