import ThreadWeave.Protocols

/-!
# `PendingExecutions`: the worker's broker between assignments and sessions

The state behind the worker's mutex (`worker/runtime.rs`) and its operations.
Every operation takes the lock once and holds it over its whole body, so each
is one atomic function on `PendingState`; a refusal returns the state it was
given. Both `expect`s of the source are explicit outcomes.

The four event handlers share one shape: find the record, compare the ids and
the sequence number, check the state, then write the record back. `transition`
is that shape, and `onCall_cases` says once what a call can do; every later
result about events is a case analysis on it.
-/

namespace ThreadWeave.Worker

open Runs (HashMap)

/-! ## State -/

inductive AssignmentState where
  | pending | assigned | running | succeeded | failed
deriving DecidableEq, Repr

structure AssignmentRecord where
  assignment : AssignExecutionRequest
  state : AssignmentState
  lastSequenceNumber : Option Nat
  sessionId : Option String
  startedAt : Option Instant
  workerDuration : Option Duration
  metrics : List ExecutionMetrics
deriving DecidableEq

/-- The sending half of a session's command channel. -/
structure Sender where
  channel : Nat
deriving DecidableEq, Repr

structure PendingState where
  queue : List String
  assignments : HashMap String AssignmentRecord
  sessions : HashMap String Sender
deriving DecidableEq

namespace PendingState

/-- `PendingState::default()`. -/
def empty : PendingState := { queue := [], assignments := ∅, sessions := ∅ }

/-! ## Assignments and sessions -/

/-- The record `enqueue` creates. -/
def newRecord (assignment : AssignExecutionRequest) : AssignmentRecord where
  assignment := assignment
  state := .pending
  lastSequenceNumber := none
  sessionId := none
  startedAt := none
  workerDuration := none
  metrics := []

def enqueue (s : PendingState) (assignment : AssignExecutionRequest) :
    PendingState × Except Status Unit :=
  if Rust.isBlank assignment.assignmentId || Rust.isBlank assignment.executionId then
    (s, .error ⟨.invalidArgument, "assignment_id and execution_id are required"⟩)
  else if assignment.assignmentId ∈ s.assignments then
    (s, .error ⟨.alreadyExists, "assignment already exists"⟩)
  else
    ({ s with
        queue := s.queue ++ [assignment.assignmentId]
        assignments := s.assignments.insert assignment.assignmentId (newRecord assignment) },
      .ok ())

def registerSession (s : PendingState) (id : String) (sender : Sender) : PendingState :=
  { s with sessions := s.sessions.insert id sender }

/-- What one pass of `next_for` through the locked section finds. -/
inductive Polled where
  | empty
  | handed (assignment : AssignExecutionRequest)
  | panicked (message : String)
deriving DecidableEq

/-- The locked section of `next_for`. -/
def nextFor (s : PendingState) (sessionId : String) : PendingState × Polled :=
  match s.queue with
  | [] => (s, .empty)
  | id :: queue =>
      match s.assignments.lookup id with
      | none => ({ s with queue := queue }, .panicked "queued assignment exists")
      | some record =>
          ({ s with
              queue := queue
              assignments := s.assignments.insert id
                { record with state := .assigned, sessionId := some sessionId } },
            .handed record.assignment)

/-- The ids whose record is held by `sessionId`: what `disconnect` collects. -/
def heldBy (s : PendingState) (sessionId : String) : Finset String :=
  s.assignments.keys.filter fun id =>
    (s.assignments.lookup id).any fun record => record.sessionId == some sessionId

/-- The body of `disconnect`'s loop, with the `requeued` flag; `none` where
`expect("selected record exists")` fails. -/
def release (acc : PendingState × Bool) (id : String) : Option (PendingState × Bool) :=
  match acc.1.assignments.lookup id with
  | none => none
  | some record =>
      if record.state = .assigned then
        some ({ acc.1 with
          queue := acc.1.queue ++ [id]
          assignments := acc.1.assignments.insert id
            { record with sessionId := none, state := .pending } }, true)
      else
        some ({ acc.1 with
          assignments := acc.1.assignments.insert id { record with sessionId := none } }, acc.2)

/-- `disconnect`, with the order `ids` in which the record map yields the
records of the session. The flag says whether an assignment was requeued. -/
def disconnect (s : PendingState) (sessionId : String) (ids : List String) :
    Option (PendingState × Bool) :=
  ids.foldlM release ({ s with sessions := s.sessions.erase sessionId }, false)

/-- The part of `cancel` under the lock: whom to send the command to. -/
def cancel (s : PendingState) (assignmentId : String) (reason : Option String) :
    Except Status (Sender × CancelExecution) :=
  match s.assignments.lookup assignmentId with
  | none => .error ⟨.notFound, "assignment not found"⟩
  | some record =>
      match record.sessionId with
      | none => .error ⟨.failedPrecondition, "assignment has no connected runtime"⟩
      | some sessionId =>
          match s.sessions.lookup sessionId with
          | none => .error ⟨.unavailable, "runtime session disconnected"⟩
          | some sender =>
              .ok (sender, ⟨assignmentId, record.assignment.executionId, reason⟩)

/-! ## Runtime events -/

def validate (s : PendingState) (assignmentId executionId : String) (sequence : Nat) :
    Except Status AssignmentRecord :=
  match s.assignments.lookup assignmentId with
  | none => .error ⟨.notFound, "assignment not found"⟩
  | some record =>
      if record.assignment.executionId ≠ executionId then
        .error ⟨.failedPrecondition, "execution_id does not match assignment"⟩
      else if record.lastSequenceNumber.any (sequence ≤ ·) then
        .error ⟨.failedPrecondition, "stale execution event"⟩
      else
        .ok record

/-- The common shape of the event handlers: `validate`, then the check of the
record's state, then `next` on the record, whose result is written back. -/
def transition {α : Type} (s : PendingState) (assignmentId executionId : String)
    (sequence : Nat) (required : AssignmentState) (refusal : String)
    (next : AssignmentRecord → Except Status (AssignmentRecord × α)) :
    PendingState × Except Status α :=
  match s.validate assignmentId executionId sequence with
  | .error status => (s, .error status)
  | .ok record =>
      if record.state ≠ required then
        (s, .error ⟨.failedPrecondition, refusal⟩)
      else
        match next record with
        | .error status => (s, .error status)
        | .ok (record', answer) =>
            ({ s with assignments := s.assignments.insert assignmentId record' }, .ok answer)

def started (s : PendingState) (event : ExecutionStarted) (now : Instant) :
    PendingState × Except Status AssignExecutionRequest :=
  s.transition event.assignmentId event.executionId event.sequenceNumber .assigned
    "invalid assignment lifecycle transition" fun record =>
      .ok ({ record with
        state := .running
        lastSequenceNumber := some event.sequenceNumber
        startedAt := some now }, record.assignment)

def progress (s : PendingState) (event : ExecutionProgress) : PendingState × Except Status Unit :=
  if !event.progress.inUnitRange then
    (s, .error ⟨.invalidArgument, "progress must be between zero and one"⟩)
  else
    s.transition event.assignmentId event.executionId event.sequenceNumber .running
      "progress requires a running execution" fun record =>
        .ok ({ record with lastSequenceNumber := some event.sequenceNumber }, ())

def metrics (s : PendingState) (event : ExecutionMetrics) : PendingState × Except Status Unit :=
  s.transition event.assignmentId event.executionId event.sequenceNumber .running
    "metrics require a running execution" fun record =>
      .ok ({ record with
        lastSequenceNumber := some event.sequenceNumber
        metrics := record.metrics ++ [event] }, ())

def terminal (s : PendingState) (assignmentId executionId : String) (sequence : Nat)
    (succeeded : Bool) (now : Instant) :
    PendingState × Except Status (AssignExecutionRequest × Duration) :=
  s.transition assignmentId executionId sequence .running
    "invalid assignment lifecycle transition" fun record =>
      match record.startedAt with
      | none => .error ⟨.failedPrecondition, "execution was not started"⟩
      | some startedAt =>
          .ok ({ record with
            state := if succeeded then .succeeded else .failed
            lastSequenceNumber := some sequence
            workerDuration := some (now - startedAt)
            sessionId := none }, record.assignment, now - startedAt)

/-! ## One call, whichever handler it goes to -/

/-- A call of one of the four event handlers. -/
inductive Call where
  | started (event : ExecutionStarted)
  | progress (event : ExecutionProgress)
  | metrics (event : ExecutionMetrics)
  | terminal (assignmentId executionId : String) (sequence : Nat) (succeeded : Bool)
deriving DecidableEq

namespace Call

def assignmentId : Call → String
  | started e => e.assignmentId
  | progress e => e.assignmentId
  | metrics e => e.assignmentId
  | terminal a _ _ _ => a

def executionId : Call → String
  | started e => e.executionId
  | progress e => e.executionId
  | metrics e => e.executionId
  | terminal _ x _ _ => x

def sequenceNumber : Call → Nat
  | started e => e.sequenceNumber
  | progress e => e.sequenceNumber
  | metrics e => e.sequenceNumber
  | terminal _ _ n _ => n

/-- The state a record must be in for the call to be accepted. -/
def requires : Call → AssignmentState
  | started _ => .assigned
  | _ => .running

/-- The record after an accepted call. -/
def advance (c : Call) (now : Instant) (r : AssignmentRecord) : AssignmentRecord :=
  match c with
  | started e =>
      { r with
        state := .running
        lastSequenceNumber := some e.sequenceNumber
        startedAt := some now }
  | progress e => { r with lastSequenceNumber := some e.sequenceNumber }
  | metrics e =>
      { r with lastSequenceNumber := some e.sequenceNumber, metrics := r.metrics ++ [e] }
  | terminal _ _ n succeeded =>
      { r with
        state := if succeeded then .succeeded else .failed
        lastSequenceNumber := some n
        workerDuration := r.startedAt.map (now - ·)
        sessionId := none }

end Call

/-- What an accepted call returns. -/
inductive Reply where
  | done
  | assignment (a : AssignExecutionRequest)
  | finished (a : AssignExecutionRequest) (d : Duration)
deriving DecidableEq

/-- Run the handler a call names. -/
def onCall (s : PendingState) (c : Call) (now : Instant) : PendingState × Except Status Reply :=
  match c with
  | .started e => let r := s.started e now; (r.1, r.2.map .assignment)
  | .progress e => let r := s.progress e; (r.1, r.2.map fun _ => .done)
  | .metrics e => let r := s.metrics e; (r.1, r.2.map fun _ => .done)
  | .terminal a x n ok =>
      let r := s.terminal a x n ok now; (r.1, r.2.map fun p => .finished p.1 p.2)

/-- An accepted call: the record it found and what the checks established. -/
structure Accepts (s : PendingState) (c : Call) (r : AssignmentRecord) : Prop where
  found : s.assignments.lookup c.assignmentId = some r
  execution : r.assignment.executionId = c.executionId
  fresh : ∀ last, r.lastSequenceNumber = some last → last < c.sequenceNumber
  state : r.state = c.requires

theorem validate_ok {s : PendingState} {a x : String} {n : Nat} {r : AssignmentRecord}
    (h : s.validate a x n = .ok r) :
    s.assignments.lookup a = some r ∧ r.assignment.executionId = x ∧
      ∀ last, r.lastSequenceNumber = some last → last < n := by
  unfold validate at h
  split at h
  · cases h
  · rename_i record hfound
    split_ifs at h with hx hseq
    cases h
    refine ⟨hfound, not_not.mp hx, ?_⟩
    intro last hlast
    simpa [hlast] using hseq

/-- What `transition` can do: refuse and leave the state as it was, or write
back what `next` made of a record that passed every check. -/
theorem transition_cases {α : Type} (s : PendingState) (a x : String) (n : Nat)
    (required : AssignmentState) (refusal : String)
    (next : AssignmentRecord → Except Status (AssignmentRecord × α)) :
    (∃ status, s.transition a x n required refusal next = (s, .error status)) ∨
    (∃ r r' v, s.validate a x n = .ok r ∧ r.state = required ∧ next r = .ok (r', v) ∧
      s.transition a x n required refusal next =
        ({ s with assignments := s.assignments.insert a r' }, .ok v)) := by
  unfold transition
  cases hval : s.validate a x n with
  | error status => exact Or.inl ⟨status, rfl⟩
  | ok r =>
      by_cases hst : r.state = required
      · cases hnext : next r with
        | error status => exact Or.inl ⟨status, by simp [hst, hnext]⟩
        | ok p => exact Or.inr ⟨r, p.1, p.2, rfl, hst, hnext, by simp [hst, hnext]⟩
      · exact Or.inl ⟨⟨.failedPrecondition, refusal⟩, by simp [hst]⟩

/-- A handler that is `transition` at the checks of `c` and writes back
`c.advance` does what `onCall_cases` says. -/
theorem transition_call {α : Type} (s : PendingState) (c : Call) (now : Instant)
    (refusal : String) (next : AssignmentRecord → Except Status (AssignmentRecord × α))
    (wrap : α → Reply)
    (hnext : ∀ r r' v, next r = .ok (r', v) → r' = c.advance now r)
    {p : PendingState × Except Status α}
    (hp : p = s.transition c.assignmentId c.executionId c.sequenceNumber c.requires refusal next) :
    (∃ status, (p.1, p.2.map wrap) = (s, .error status)) ∨
    (∃ r reply, s.Accepts c r ∧ (p.1, p.2.map wrap) =
      ({ s with assignments := s.assignments.insert c.assignmentId (c.advance now r) },
        .ok reply)) := by
  rcases transition_cases s c.assignmentId c.executionId c.sequenceNumber c.requires refusal next
    with ⟨status, h⟩ | ⟨r, r', v, hval, hst, hr, h⟩
  · left
    refine ⟨status, ?_⟩
    rw [hp, h]
    rfl
  · right
    obtain ⟨hfound, hx, hseq⟩ := validate_ok hval
    refine ⟨r, wrap v, ⟨hfound, hx, hseq, hst⟩, ?_⟩
    rw [hp, h, hnext r r' v hr]
    rfl

/-- What a call can do: it is refused and the state stays as it was, or it
passed every check and exactly its own record is advanced. -/
theorem onCall_cases (s : PendingState) (c : Call) (now : Instant) :
    (∃ status, s.onCall c now = (s, .error status)) ∨
    (∃ r reply, s.Accepts c r ∧ s.onCall c now =
      ({ s with assignments := s.assignments.insert c.assignmentId (c.advance now r) },
        .ok reply)) := by
  cases c with
  | started e =>
      refine transition_call s (.started e) now _ _ Reply.assignment ?_ rfl
      rintro r r' v ⟨⟩
      rfl
  | progress e =>
      by_cases hrange : e.progress.inUnitRange
      · refine transition_call s (.progress e) now "progress requires a running execution"
          (fun record => .ok ({ record with lastSequenceNumber := some e.sequenceNumber }, ()))
          (fun _ => Reply.done) ?_ ?_
        · rintro r r' v ⟨⟩
          rfl
        · rw [progress, if_neg (by simp [hrange])]
          rfl
      · left
        refine ⟨⟨.invalidArgument, "progress must be between zero and one"⟩, ?_⟩
        simp [onCall, progress, hrange, Except.map]
  | metrics e =>
      refine transition_call s (.metrics e) now _ _ (fun _ => Reply.done) ?_ rfl
      rintro r r' v ⟨⟩
      rfl
  | terminal a x n ok =>
      refine transition_call s (.terminal a x n ok) now _ _
        (fun p : AssignExecutionRequest × Duration => Reply.finished p.1 p.2) ?_ rfl
      intro r r' v hr
      -- the only handler whose `next` can refuse: it needs the start time
      cases hstart : r.startedAt with
      | none => simp [hstart] at hr
      | some t =>
          simp only [hstart, Except.ok.injEq, Prod.mk.injEq] at hr
          rw [← hr.1]
          simp [Call.advance, hstart]

/-- The terminal handler says "not started" only for a running record
without a start time. -/
theorem terminal_notStarted {s : PendingState} {a x : String} {n : Nat} {ok : Bool}
    {now : Instant} (h : (s.onCall (.terminal a x n ok) now).2 =
      .error ⟨.failedPrecondition, "execution was not started"⟩) :
    ∃ r, s.assignments.lookup a = some r ∧ r.state = .running ∧ r.startedAt = none := by
  simp only [onCall, terminal, transition] at h
  cases hval : s.validate a x n with
  | error status =>
      -- none of the three refusals of `validate` has that text
      simp only [hval, Except.map, Except.error.injEq] at h
      subst h
      unfold validate at hval
      split at hval
      · simp at hval
      · split_ifs at hval <;> simp at hval
  | ok r =>
      obtain ⟨hfound, -, -⟩ := validate_ok hval
      by_cases hst : r.state = .running
      · refine ⟨r, hfound, hst, ?_⟩
        cases hstart : r.startedAt with
        | none => rfl
        | some t => simp [hval, hst, hstart, Except.map] at h
      · simp [hval, hst, Except.map] at h

/-! ## What the other operations do -/

theorem enqueue_cases (s : PendingState) (a : AssignExecutionRequest) :
    (∃ status, s.enqueue a = (s, .error status)) ∨
    (a.assignmentId ∉ s.assignments ∧ s.enqueue a =
      ({ s with
          queue := s.queue ++ [a.assignmentId]
          assignments := s.assignments.insert a.assignmentId (newRecord a) }, .ok ())) := by
  unfold enqueue
  split_ifs with hblank hmem
  · exact Or.inl ⟨_, rfl⟩
  · exact Or.inl ⟨_, rfl⟩
  · exact Or.inr ⟨hmem, rfl⟩

theorem nextFor_cases (s : PendingState) (sid : String) :
    (s.queue = [] ∧ s.nextFor sid = (s, .empty)) ∨
    (∃ id q, s.queue = id :: q ∧ id ∉ s.assignments ∧
      s.nextFor sid = ({ s with queue := q }, .panicked "queued assignment exists")) ∨
    (∃ id q r, s.queue = id :: q ∧ s.assignments.lookup id = some r ∧
      s.nextFor sid = ({ s with
          queue := q
          assignments := s.assignments.insert id
            { r with state := .assigned, sessionId := some sid } }, .handed r.assignment)) := by
  unfold nextFor
  cases hq : s.queue with
  | nil => exact Or.inl ⟨rfl, rfl⟩
  | cons id q =>
      right
      cases hr : s.assignments.lookup id with
      | none => exact Or.inl ⟨id, q, rfl, Finmap.lookup_eq_none.mp hr, by simp only [hr]⟩
      | some r => exact Or.inr ⟨id, q, r, rfl, hr, by simp only [hr]⟩

theorem mem_heldBy {s : PendingState} {sid id : String} :
    id ∈ s.heldBy sid ↔ ∃ r, s.assignments.lookup id = some r ∧ r.sessionId = some sid := by
  simp only [heldBy, Finset.mem_filter, Finmap.mem_keys, Option.any_eq_true, beq_iff_eq,
    and_iff_right_iff_imp]
  rintro ⟨r, hr, -⟩
  exact Finmap.mem_of_lookup_eq_some hr

/-- A record after its session has gone. -/
def detach (r : AssignmentRecord) : AssignmentRecord :=
  { r with sessionId := none, state := if r.state = .assigned then .pending else r.state }

/-- Whether `id` has an assigned record. -/
def isAssigned (s : PendingState) (id : String) : Bool :=
  (s.assignments.lookup id).any fun r => decide (r.state = .assigned)

theorem release_eq {s : PendingState} {b : Bool} {id : String} {r : AssignmentRecord}
    (hr : s.assignments.lookup id = some r) :
    release (s, b) id = some
      ({ s with
          queue := s.queue ++ (if r.state = .assigned then [id] else [])
          assignments := s.assignments.insert id (detach r) },
        b || decide (r.state = .assigned)) := by
  by_cases hst : r.state = .assigned
  · simp [release, hr, hst, detach]
  · simp [release, hr, hst, detach]

/-- The loop of `disconnect` over distinct ids with a record: each of them is
detached, those that were assigned go to the back of the queue in the order
of the loop, nothing else changes. -/
theorem foldlM_release {ids : List String} (hnd : ids.Nodup) (s : PendingState) (b : Bool)
    (hmem : ∀ id ∈ ids, id ∈ s.assignments) :
    ∃ m : HashMap String AssignmentRecord,
      ids.foldlM release (s, b) = some
        ({ s with queue := s.queue ++ ids.filter s.isAssigned, assignments := m },
          b || ids.any s.isAssigned) ∧
      ∀ k, m.lookup k =
        if k ∈ ids then (s.assignments.lookup k).map detach else s.assignments.lookup k := by
  induction ids generalizing s b with
  | nil => exact ⟨s.assignments, by simp, by simp⟩
  | cons id ids ih =>
      obtain ⟨hnotin, hnd'⟩ := List.nodup_cons.mp hnd
      obtain ⟨r, hr⟩ := Finmap.mem_iff.mp (hmem id List.mem_cons_self)
      set s₁ : PendingState :=
        { s with
          queue := s.queue ++ (if r.state = .assigned then [id] else [])
          assignments := s.assignments.insert id (detach r) } with hs₁
      have hlook : ∀ k, k ≠ id → s₁.assignments.lookup k = s.assignments.lookup k := by
        intro k hk
        simp [hs₁, Finmap.lookup_insert_of_ne _ hk]
      -- the rest of the loop sees the other records as they were
      have hsame : ∀ k ∈ ids, s₁.isAssigned k = s.isAssigned k := by
        intro k hk
        have hne : k ≠ id := fun he => hnotin (he ▸ hk)
        simp [isAssigned, hlook k hne]
      have hmem₁ : ∀ k ∈ ids, k ∈ s₁.assignments := by
        intro k hk
        simp [hs₁, hmem k (List.mem_cons_of_mem _ hk)]
      obtain ⟨m, hfold, hm⟩ := ih hnd' s₁ (b || decide (r.state = .assigned)) hmem₁
      have hid : s.isAssigned id = decide (r.state = .assigned) := by
        simp [isAssigned, hr]
      have hany : ids.any s₁.isAssigned = ids.any s.isAssigned := by
        rw [Bool.eq_iff_iff, List.any_eq_true, List.any_eq_true]
        exact exists_congr fun k => and_congr_right fun hk => by rw [hsame k hk]
      refine ⟨m, ?_, ?_⟩
      · rw [List.foldlM_cons, release_eq hr]
        show ids.foldlM release (s₁, _) = _
        rw [hfold, List.filter_congr hsame, hany]
        by_cases hst : r.state = .assigned
        · simp [hs₁, hid, hst]
        · simp [hs₁, hid, hst]
      · intro k
        rw [hm k]
        by_cases hk : k = id
        · subst hk
          simp [hnotin, hs₁, hr]
        · simp [hk, hlook k hk]

/-- The effect of `disconnect` for any order of the session's records. -/
theorem disconnect_spec {s : PendingState} {sid : String} {ids : List String}
    (hnd : ids.Nodup) (hids : ids.toFinset = s.heldBy sid) :
    ∃ m : HashMap String AssignmentRecord,
      s.disconnect sid ids = some
        ({ queue := s.queue ++ ids.filter s.isAssigned
           assignments := m
           sessions := s.sessions.erase sid },
          ids.any s.isAssigned) ∧
      ∀ k, m.lookup k =
        if k ∈ s.heldBy sid then (s.assignments.lookup k).map detach
        else s.assignments.lookup k := by
  have hmem : ∀ id ∈ ids, id ∈ s.assignments := by
    intro id hid
    have hheld : id ∈ s.heldBy sid := hids ▸ List.mem_toFinset.mpr hid
    obtain ⟨r, hr, -⟩ := mem_heldBy.mp hheld
    exact Finmap.mem_of_lookup_eq_some hr
  obtain ⟨m, hfold, hm⟩ :=
    foldlM_release hnd { s with sessions := s.sessions.erase sid } false hmem
  refine ⟨m, ?_, ?_⟩
  · rw [disconnect, hfold, Bool.false_or]
    rfl
  · intro k
    rw [hm k]
    simp only [← hids, List.mem_toFinset]

end PendingState

end ThreadWeave.Worker
