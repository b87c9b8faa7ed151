import ThreadWeave.Worker.Sessions

/-!
# `WorkerRuntimeService`: forwarding outcomes to Core

`handle_event` first commits the transition to `PendingExecutions` and then
calls Core. The two halves are two steps here: `handle` runs up to the call of
`core_client.report_execution`, and `coreReplies` is the answer to that call,
with everything the network can do to it. Any number of handlers are in flight.

* `accounts` — every terminal record has exactly one terminal report, which is
  either in flight or was answered by Core.
* `terminal_reports_reach_core` — at rest, no outcome is lost exactly if Core
  took every terminal report the first time it was sent: a record that has
  reached a terminal state refuses the event that brought it there, so there is
  no second time.
-/

namespace ThreadWeave.Worker

open Runs (HashMap Machine)
open PendingState (Call Reply Accepts)

/-! ## Handling one event -/

/-- What the environment supplies to one call of `handle_event`: the two
clocks and the id `report_for` draws. -/
structure Moment where
  instant : Instant
  clock : Timestamp
  reportId : String
deriving DecidableEq

/-- Where `handle_event` stands when it returns or first waits for Core. -/
inductive Handled where
  | returned (r : Except Status Unit)
  | forwarding (report : ReportExecutionRequest)
deriving DecidableEq

section Handlers

variable (states : I32Enum ExecutionState)

def reportFor (m : Moment) (assignmentId executionId : String) (sequenceNumber : Nat)
    (state : ExecutionState) (outcome : Option JobResult) (observedAt : Option Timestamp) :
    ReportExecutionRequest where
  reportId := m.reportId
  assignmentId := assignmentId
  executionId := executionId
  sequenceNumber := sequenceNumber
  state := states.into state
  outcome := outcome
  observedAt := observedAt <|> some m.clock

def completed (p : PendingState) (event : ExecutionCompleted) (m : Moment) :
    PendingState × Handled :=
  match event.result with
  | none => (p, .returned (.error ⟨.invalidArgument, "completed event requires a result"⟩))
  | some result =>
      if result.failure.isSome then
        (p, .returned (.error ⟨.invalidArgument, "completed result cannot contain failure"⟩))
      else
        match p.terminal event.assignmentId event.executionId event.sequenceNumber true
          m.instant with
        | (p', .error status) => (p', .returned (.error status))
        | (p', .ok _) =>
            (p', .forwarding (reportFor states m event.assignmentId event.executionId
              event.sequenceNumber .succeeded (some result) event.observedAt))

def failed (p : PendingState) (event : ExecutionFailed) (m : Moment) :
    PendingState × Handled :=
  match event.failure with
  | none =>
      (p, .returned (.error ⟨.invalidArgument, "failed event requires failure information"⟩))
  | some failure =>
      match p.terminal event.assignmentId event.executionId event.sequenceNumber false
        m.instant with
      | (p', .error status) => (p', .returned (.error status))
      | (p', .ok _) =>
          (p', .forwarding (reportFor states m event.assignmentId event.executionId
            event.sequenceNumber .failed (some { JobResult.empty with failure := some failure })
            event.observedAt))

/-- `handle_event` up to its call of Core. -/
def handleEvent (p : PendingState) (event : RuntimeEvent) (m : Moment) :
    PendingState × Handled :=
  match event.payload with
  | none => (p, .returned (.error ⟨.invalidArgument, "runtime event payload is required"⟩))
  | some (.ready _) => (p, .returned (.ok ()))
  | some (.heartbeat _ _) => (p, .returned (.ok ()))
  | some (.executionStarted started) =>
      match p.started started m.instant with
      | (p', .error status) => (p', .returned (.error status))
      | (p', .ok _) =>
          (p', .forwarding (reportFor states m started.assignmentId started.executionId
            started.sequenceNumber .running none started.observedAt))
  | some (.executionProgress progress) =>
      let r := p.progress progress
      (r.1, .returned r.2)
  | some (.executionMetrics metrics) =>
      let r := p.metrics metrics
      (r.1, .returned r.2)
  | some (.executionCompleted event) => completed states p event m
  | some (.executionFailed event) => failed states p event m

/-- The worker's `report_execution` up to its call of Core: the assignment has
to be known, nothing of it is compared with the report. -/
def reportExecution (p : PendingState) (report : ReportExecutionRequest) : Handled :=
  match p.assignments.lookup report.assignmentId with
  | none => .returned (.error ⟨.notFound, "assignment not found"⟩)
  | some _ => .forwarding report

end Handlers

/-! ## The call of Core -/

/-- What becomes of one call of `core_client.report_execution`. -/
inductive CoreAnswer where
  /-- Core accepted the report and said so -/
  | accepted
  /-- Core accepted the report, the response did not arrive -/
  | lost (status : Status)
  /-- Core answered `accepted = false` -/
  | refused
  /-- the call failed without reaching an accepting Core -/
  | failed (status : Status)
deriving DecidableEq

namespace CoreAnswer

/-- Whether Core took the report. -/
def accepts : CoreAnswer → Bool
  | accepted | lost _ => true
  | refused | failed _ => false

/-- What the client sees. -/
def response : CoreAnswer → Except Status Bool
  | accepted => .ok true
  | lost status => .error status
  | refused => .ok false
  | failed status => .error status

end CoreAnswer

/-- The end of `forward`. -/
def forward (response : Except Status Bool) : Except Status Unit :=
  match response with
  | .error status => .error status
  | .ok accepted =>
      if !accepted then .error ⟨.internal, "Core did not accept execution report"⟩ else .ok ()

/-! ## The machine -/

structure ServiceState where
  worker : WorkerState
  /-- the handlers that wait for Core, with their report -/
  forwards : HashMap Nat ReportExecutionRequest
  /-- the reports Core accepted -/
  taken : List ReportExecutionRequest
deriving DecidableEq

inductive ServiceAct where
  /-- anything else the worker does -/
  | other (a : Act)
  | handle (h : Nat) (event : RuntimeEvent) (m : Moment)
  | coreReplies (h : Nat) (answer : CoreAnswer)
deriving DecidableEq

inductive ServiceAnswer where
  | other (answer : Answer)
  | returned (r : Except Status Unit)
  | forwarded (report : ReportExecutionRequest)
  | replied (report : ReportExecutionRequest) (r : Except Status Unit)
deriving DecidableEq

/-- The event handlers of `PendingExecutions` are called by `handle_event` only. -/
def Act.isCall : Act → Bool
  | .call _ _ => true
  | _ => false

def ServiceState.step (states : I32Enum ExecutionState) (s : ServiceState) :
    ServiceAct → Option (ServiceState × ServiceAnswer)
  | .other a =>
      if a.isCall then none
      else (s.worker.step a).map fun r => ({ s with worker := r.1 }, .other r.2)
  | .handle h event m =>
      if h ∈ s.forwards then none
      else
        match handleEvent states s.worker.pending event m with
        | (p, .returned r) =>
            some ({ s with worker := { s.worker with pending := p } }, .returned r)
        | (p, .forwarding report) =>
            some ({ s with
              worker := { s.worker with pending := p }
              forwards := s.forwards.insert h report }, .forwarded report)
  | .coreReplies h answer =>
      match s.forwards.lookup h with
      | none => none
      | some report =>
          some ({ s with
            forwards := s.forwards.erase h
            taken := if answer.accepts then s.taken ++ [report] else s.taken },
            .replied report (forward answer.response))

/-- A worker with its runtime service, from its start. -/
def service (states : I32Enum ExecutionState) : Machine ServiceState ServiceAct ServiceAnswer where
  init := { worker := worker.init, forwards := ∅, taken := [] }
  step := ServiceState.step states

/-! ## What one event does -/

/-- The call of `PendingExecutions` an event leads to. -/
def eventCall (event : RuntimeEvent) : Option Call :=
  match event.payload with
  | some (.executionStarted started) => some (.started started)
  | some (.executionProgress progress) => some (.progress progress)
  | some (.executionMetrics metrics) => some (.metrics metrics)
  | some (.executionCompleted e) =>
      some (.terminal e.assignmentId e.executionId e.sequenceNumber true)
  | some (.executionFailed e) =>
      some (.terminal e.assignmentId e.executionId e.sequenceNumber false)
  | _ => none

/-- The outcome a state stands for. -/
def AssignmentState.outcome : AssignmentState → Option ExecutionState
  | .succeeded => some .succeeded
  | .failed => some .failed
  | _ => none

/-- The outcome a call decides. -/
def PendingState.Call.outcome : Call → Option ExecutionState
  | .terminal _ _ _ true => some .succeeded
  | .terminal _ _ _ false => some .failed
  | _ => none

/-- The outcome recorded for assignment `id`. -/
def PendingState.outcome (p : PendingState) (id : String) : Option ExecutionState :=
  (p.assignments.lookup id).bind fun r => r.state.outcome

/-- The report an accepted call leads to: one for its assignment, with the
outcome the call decides, or `RUNNING` where it decides none. -/
def ReportOf (states : I32Enum ExecutionState) (c : Call) (report : ReportExecutionRequest) :
    Prop :=
  report.assignmentId = c.assignmentId ∧
    report.state = states.into (c.outcome.getD .running)

/-- The calls that are reported to Core. -/
def PendingState.Call.isReported : Call → Bool
  | .started _ => true
  | .terminal _ _ _ _ => true
  | _ => false

/-- `report` is what Core is told of the accepted call `c`: an outcome exactly
if the call decides one, with a failure exactly if that is FAILED. -/
structure Reports (states : I32Enum ExecutionState) (c : Call) (report : ReportExecutionRequest) :
    Prop where
  assignment : report.assignmentId = c.assignmentId
  execution : report.executionId = c.executionId
  sequence : report.sequenceNumber = c.sequenceNumber
  state : report.state = states.into (c.outcome.getD .running)
  outcome : match c.outcome with
    | none => report.outcome = none
    | some x => ∃ result, report.outcome = some result ∧ (result.failure.isSome ↔ x = .failed)

/-- A handler whose answer is translated by `onCall` refuses, or answers what
`onCall` does. -/
theorem handler_cases {α : Type} {s : PendingState} {c : Call} (now : Instant)
    {p : PendingState × Except Status α} {wrap : α → Reply}
    (hp : s.onCall c now = (p.1, p.2.map wrap)) :
    (∃ status, p = (s, .error status)) ∨
    (∃ p' v, p = (p', .ok v) ∧ s.onCall c now = (p', .ok (wrap v))) := by
  rcases p with ⟨s', res⟩
  dsimp only at hp
  cases res with
  | ok v => exact Or.inr ⟨s', v, rfl, hp⟩
  | error status =>
      -- a refusal leaves the state alone
      rcases PendingState.onCall_cases s c now with ⟨status', h⟩ | ⟨r, reply, hacc, h⟩
      · rw [hp, Prod.mk.injEq] at h
        exact Or.inl ⟨status, by rw [h.1]⟩
      · rw [hp, Prod.mk.injEq] at h
        simp [Except.map] at h

/-- What `handle_event` can do before it waits for Core: refuse the event or
have nothing to do, or go through with the event's call and report it if it is
one to report. -/
theorem handleEvent_calls (states : I32Enum ExecutionState) (p : PendingState)
    (event : RuntimeEvent) (m : Moment) :
    (∃ r, handleEvent states p event m = (p, .returned r)) ∨
    (∃ c reply p', eventCall event = some c ∧ p.onCall c m.instant = (p', .ok reply) ∧
      ((c.isReported = false ∧ handleEvent states p event m = (p', .returned (.ok ()))) ∨
       (c.isReported = true ∧ ∃ report,
         handleEvent states p event m = (p', .forwarding report) ∧ Reports states c report))) := by
  rcases event with ⟨payload⟩
  cases payload with
  | none => exact Or.inl ⟨_, rfl⟩
  | some payload =>
      cases payload with
      | ready id => exact Or.inl ⟨_, rfl⟩
      | heartbeat id n => exact Or.inl ⟨_, rfl⟩
      | executionStarted e =>
          rcases handler_cases m.instant (c := .started e) (p := p.started e m.instant) rfl with
            ⟨status, h⟩ | ⟨p', v, h, hcall⟩
          · exact Or.inl ⟨.error status, by simp [handleEvent, h]⟩
          · have he : handleEvent states p ⟨some (.executionStarted e)⟩ m =
                (p', .forwarding (reportFor states m e.assignmentId e.executionId
                  e.sequenceNumber .running none e.observedAt)) := by
              simp [handleEvent, h]
            exact Or.inr ⟨.started e, _, p', rfl, hcall,
              Or.inr ⟨rfl, _, he, ⟨rfl, rfl, rfl, rfl, rfl⟩⟩⟩
      | executionProgress e =>
          rcases handler_cases m.instant (c := .progress e) (p := p.progress e) rfl with
            ⟨status, h⟩ | ⟨p', v, h, hcall⟩
          · exact Or.inl ⟨.error status, by simp [handleEvent, h]⟩
          · exact Or.inr ⟨.progress e, _, p', rfl, hcall,
              Or.inl ⟨rfl, by simp [handleEvent, h]⟩⟩
      | executionMetrics e =>
          rcases handler_cases m.instant (c := .metrics e) (p := p.metrics e) rfl with
            ⟨status, h⟩ | ⟨p', v, h, hcall⟩
          · exact Or.inl ⟨.error status, by simp [handleEvent, h]⟩
          · exact Or.inr ⟨.metrics e, _, p', rfl, hcall,
              Or.inl ⟨rfl, by simp [handleEvent, h]⟩⟩
      | executionCompleted e =>
          cases hres : e.result with
          | none => exact Or.inl ⟨_, by simp only [handleEvent, completed, hres]; rfl⟩
          | some result =>
              by_cases hfail : result.failure.isSome
              · refine Or.inl ⟨?_, ?_⟩
                rotate_left
                · simp only [handleEvent, completed, hres, hfail, if_true]
                  rfl
              · rcases handler_cases m.instant
                  (c := .terminal e.assignmentId e.executionId e.sequenceNumber true)
                  (p := p.terminal e.assignmentId e.executionId e.sequenceNumber true m.instant)
                  rfl with ⟨status, h⟩ | ⟨p', v, h, hcall⟩
                · exact Or.inl ⟨.error status, by simp [handleEvent, completed, hres, hfail, h]⟩
                · have he : handleEvent states p ⟨some (.executionCompleted e)⟩ m =
                      (p', .forwarding (reportFor states m e.assignmentId e.executionId
                        e.sequenceNumber .succeeded (some result) e.observedAt)) := by
                    simp [handleEvent, completed, hres, hfail, h]
                  exact Or.inr ⟨_, _, p', rfl, hcall,
                    Or.inr ⟨rfl, _, he, ⟨rfl, rfl, rfl, rfl, result, rfl, by simp [hfail]⟩⟩⟩
      | executionFailed e =>
          cases hfail : e.failure with
          | none => exact Or.inl ⟨_, by simp only [handleEvent, failed, hfail]; rfl⟩
          | some failure =>
              rcases handler_cases m.instant
                (c := .terminal e.assignmentId e.executionId e.sequenceNumber false)
                (p := p.terminal e.assignmentId e.executionId e.sequenceNumber false m.instant)
                rfl with ⟨status, h⟩ | ⟨p', v, h, hcall⟩
              · exact Or.inl ⟨.error status, by simp [handleEvent, failed, hfail, h]⟩
              · have he : handleEvent states p ⟨some (.executionFailed e)⟩ m =
                    (p', .forwarding (reportFor states m e.assignmentId e.executionId
                      e.sequenceNumber .failed
                      (some { JobResult.empty with failure := some failure }) e.observedAt)) := by
                  simp [handleEvent, failed, hfail, h]
                exact Or.inr ⟨_, _, p', rfl, hcall,
                  Or.inr ⟨rfl, _, he, ⟨rfl, rfl, rfl, rfl, _, rfl, by simp⟩⟩⟩

/-- A call that decides an outcome is reported. -/
theorem isReported_of_outcome {c : Call} (h : c.outcome ≠ none) : c.isReported = true := by
  cases c with
  | terminal a x n succeeded => rfl
  | _ => exact absurd rfl h

/-- What `handle_event` can do before it waits for Core: refuse the event or
have nothing to do, or advance exactly the record of the event's call. -/
theorem handleEvent_cases (states : I32Enum ExecutionState) (p : PendingState)
    (event : RuntimeEvent) (m : Moment) :
    (∃ r, handleEvent states p event m = (p, .returned r)) ∨
    (∃ c r out, eventCall event = some c ∧ p.Accepts c r ∧
      handleEvent states p event m =
        ({ p with assignments := p.assignments.insert c.assignmentId (c.advance m.instant r) },
          out) ∧
      (c.outcome ≠ none → ∃ report, out = .forwarding report) ∧
      ∀ report, out = .forwarding report → ReportOf states c report) := by
  rcases handleEvent_calls states p event m with hret | ⟨c, reply, p', hc, hcall, hout⟩
  · exact Or.inl hret
  · right
    rcases PendingState.onCall_cases p c m.instant with ⟨status, h⟩ | ⟨r, reply', hacc, h⟩
    · rw [hcall] at h
      cases h
    · rw [hcall, Prod.mk.injEq] at h
      obtain ⟨rfl, -⟩ := h
      rcases hout with ⟨hquiet, he⟩ | ⟨-, report, he, hreports⟩
      · refine ⟨c, r, _, hc, hacc, he, ?_, nofun⟩
        intro houtcome
        rw [isReported_of_outcome houtcome] at hquiet
        cases hquiet
      · refine ⟨c, r, _, hc, hacc, he, fun _ => ⟨report, rfl⟩, ?_⟩
        rintro report' ⟨⟩
        exact ⟨hreports.assignment, hreports.state⟩

/-! ## Recorded outcomes -/

theorem PendingState.Accepts.outcome_none {p : PendingState} {c : Call} {r : AssignmentRecord}
    (h : p.Accepts c r) : p.outcome c.assignmentId = none := by
  have hst := h.state
  unfold PendingState.outcome
  rw [h.found, Option.bind_some, hst]
  cases c <;> rfl

/-- An accepted call records the outcome it decides, and no other. -/
theorem PendingState.Accepts.outcome_advance {p : PendingState} {c : Call} {r : AssignmentRecord}
    (h : p.Accepts c r) (now : Instant) (id : String) :
    PendingState.outcome
        { p with assignments := p.assignments.insert c.assignmentId (c.advance now r) } id =
      if id = c.assignmentId then c.outcome else p.outcome id := by
  unfold PendingState.outcome
  rw [Runs.HashMap.lookup_insert_ite]
  by_cases hid : id = c.assignmentId
  · rw [if_pos hid, if_pos hid, Option.bind_some]
    have hst := h.state
    cases c with
    | started e => rfl
    | progress e => simp [Call.advance, Call.outcome, hst, Call.requires, AssignmentState.outcome]
    | metrics e => simp [Call.advance, Call.outcome, hst, Call.requires, AssignmentState.outcome]
    | terminal a x n ok => cases ok <;> rfl
  · rw [if_neg hid, if_neg hid]

/-- Whatever else the worker does leaves the outcomes alone. -/
theorem Effect.outcome {p p' : PendingState} {o : Option Obs} (hrep : Rep p)
    (h : Effect p o p') (ho : ∀ c, o ≠ some (.accepted c)) (id : String) :
    p'.outcome id = p.outcome id := by
  cases h with
  | quiet => rfl
  | opened sid sender => rfl
  | enqueued a hnew =>
      unfold PendingState.outcome
      rw [Runs.HashMap.lookup_insert_ite]
      split_ifs with hid
      · rw [hid, Finmap.lookup_eq_none.mpr hnew]
        rfl
      · rfl
  | accepted c now r hacc => exact absurd rfl (ho c)
  | handed sid k q r hsid hq hr =>
      have hpend : r.state = .pending := hrep.head_pending hq hr
      unfold PendingState.outcome
      rw [Runs.HashMap.lookup_insert_ite]
      split_ifs with hid
      · rw [hid, hr, Option.bind_some, Option.bind_some, hpend]
        rfl
      · rfl
  | disconnected sid ids m hnd hids hm =>
      show (m.lookup id).bind _ = _
      unfold PendingState.outcome
      rw [hm id]
      split_ifs with hheld
      · cases hr : p.assignments.lookup id with
        | none => rfl
        | some r =>
            -- an assigned record goes back to pending, any other keeps its state
            by_cases hst : r.state = .assigned
            · simp [PendingState.detach, hst, AssignmentState.outcome]
            · simp [PendingState.detach, hst]
      · rfl

/-- Only the event handlers accept a call. -/
theorem observe_ne_accepted {a : Act} (ha : a.isCall = false) (ans : Answer) (c : Call) :
    observe (a, ans) ≠ some (.accepted c) := by
  intro hc
  unfold observe at hc
  split at hc
  · cases hc
  · rename_i hx
    cases hx
    cases ha
  · cases hc
  · cases hc
  · cases hc

theorem step_outcome {w w' : WorkerState} {a : Act} {ans : Answer} (hinv : Inv w)
    (h : w.step a = some (w', ans)) (ha : a.isCall = false) (id : String) :
    w'.pending.outcome id = w.pending.outcome id :=
  (step_effect hinv h).2.2.outcome hinv.rep (observe_ne_accepted ha ans) id

/-! ## Every outcome has one report -/

section Accounts

variable (states : I32Enum ExecutionState)

/-- A terminal report for assignment `id`. -/
def TerminalFor (id : String) (report : ReportExecutionRequest) : Prop :=
  report.assignmentId = id ∧
    (report.state = states.into .succeeded ∨ report.state = states.into .failed)

instance (id : String) (report : ReportExecutionRequest) :
    Decidable (TerminalFor states id report) :=
  inferInstanceAs (Decidable (_ ∧ _))

/-- The reports Core was called with, and what became of the call. -/
def reply : ServiceAct × ServiceAnswer → Option (ReportExecutionRequest × CoreAnswer)
  | (.coreReplies _ answer, .replied report _) => some (report, answer)
  | _ => none

def replies (tr : List (ServiceAct × ServiceAnswer)) :
    List (ReportExecutionRequest × CoreAnswer) :=
  tr.filterMap reply

/-- The answered terminal reports for `id`. -/
def terminalReplies (id : String) (tr : List (ServiceAct × ServiceAnswer)) :
    List (ReportExecutionRequest × CoreAnswer) :=
  (replies tr).filter fun x => decide (TerminalFor states id x.1)

/-- No handler waits with a terminal report for `id`. -/
def NoneInFlight (s : ServiceState) (id : String) : Prop :=
  ∀ h report, s.forwards.lookup h = some report → ¬ TerminalFor states id report

/-- Exactly handler `h` waits with a terminal report for `id`. -/
structure InFlight (s : ServiceState) (id : String) (x : ExecutionState) (h : Nat) : Prop where
  waits : ∃ report, s.forwards.lookup h = some report ∧ TerminalFor states id report ∧
    report.state = states.into x
  only : ∀ h' report, s.forwards.lookup h' = some report → TerminalFor states id report → h' = h

/-- The one terminal report of an assignment: there is none before its record
is terminal; from then on it is in flight until Core's answer to it is known. -/
structure Accounts (tr : List (ServiceAct × ServiceAnswer)) (s : ServiceState) (id : String) :
    Prop where
  before : s.worker.pending.outcome id = none →
    NoneInFlight states s id ∧ terminalReplies states id tr = []
  after : ∀ x, s.worker.pending.outcome id = some x →
    ((∃ h, InFlight states s id x h) ∧ terminalReplies states id tr = []) ∨
    (NoneInFlight states s id ∧
      ∃ report answer, terminalReplies states id tr = [(report, answer)] ∧
        report.state = states.into x)

/-! ## Steps of the service -/

/-- What one step of the service does. -/
inductive Serves (s : ServiceState) : ServiceAct × ServiceAnswer → ServiceState → Prop where
  | other (a : Act) (w : WorkerState) (ans : Answer) (hcall : a.isCall = false)
      (hstep : s.worker.step a = some (w, ans)) :
      Serves s (.other a, .other ans) { s with worker := w }
  | refused (h : Nat) (event : RuntimeEvent) (m : Moment) (r : Except Status Unit) :
      Serves s (.handle h event m, .returned r) s
  | advanced (h : Nat) (event : RuntimeEvent) (m : Moment) (r : Except Status Unit) (c : Call)
      (record : AssignmentRecord) (hacc : s.worker.pending.Accepts c record)
      (hnone : c.outcome = none) :
      Serves s (.handle h event m, .returned r)
        { s with worker := { s.worker with pending := { s.worker.pending with
          assignments := s.worker.pending.assignments.insert c.assignmentId
            (c.advance m.instant record) } } }
  | forwarded (h : Nat) (event : RuntimeEvent) (m : Moment) (report : ReportExecutionRequest)
      (c : Call) (record : AssignmentRecord) (hfree : h ∉ s.forwards)
      (hcall : eventCall event = some c) (hacc : s.worker.pending.Accepts c record)
      (hreport : ReportOf states c report) :
      Serves s (.handle h event m, .forwarded report)
        { s with
          worker := { s.worker with pending := { s.worker.pending with
            assignments := s.worker.pending.assignments.insert c.assignmentId
              (c.advance m.instant record) } }
          forwards := s.forwards.insert h report }
  | replied (h : Nat) (answer : CoreAnswer) (report : ReportExecutionRequest)
      (hreport : s.forwards.lookup h = some report) :
      Serves s (.coreReplies h answer, .replied report (forward answer.response))
        { s with
          forwards := s.forwards.erase h
          taken := if answer.accepts then s.taken ++ [report] else s.taken }

variable {states}

theorem step_serves {s s' : ServiceState} {a : ServiceAct} {ans : ServiceAnswer}
    (h : (service states).step s a = some (s', ans)) : Serves states s (a, ans) s' := by
  change s.step states a = some (s', ans) at h
  cases a with
  | other a =>
      simp only [ServiceState.step] at h
      split_ifs at h with hcall
      rcases Option.map_eq_some_iff.mp h with ⟨⟨w, wans⟩, hstep, heq⟩
      cases heq
      exact .other a w wans (by simpa using hcall) hstep
  | handle n event m =>
      simp only [ServiceState.step] at h
      split_ifs at h with hfree
      rcases handleEvent_cases states s.worker.pending event m with
        ⟨r, he⟩ | ⟨c, record, out, hcall, hacc, he, hout, hreport⟩
      · simp only [he, Option.some.injEq, Prod.mk.injEq] at h
        rcases h with ⟨rfl, rfl⟩
        exact .refused n event m r
      · cases out with
        | returned r =>
            simp only [he, Option.some.injEq, Prod.mk.injEq] at h
            rcases h with ⟨rfl, rfl⟩
            have hnone : c.outcome = none := by
              by_contra hsome
              rcases hout hsome with ⟨report, hreport⟩
              cases hreport
            exact .advanced n event m r c record hacc hnone
        | forwarding report =>
            simp only [he, Option.some.injEq, Prod.mk.injEq] at h
            rcases h with ⟨rfl, rfl⟩
            exact .forwarded n event m report c record hfree hcall hacc (hreport report rfl)
  | coreReplies n answer =>
      simp only [ServiceState.step] at h
      split at h
      · cases h
      · rename_i report hreport
        simp only [Option.some.injEq, Prod.mk.injEq] at h
        rcases h with ⟨rfl, rfl⟩
        exact .replied n answer report hreport

theorem inv_call {w : WorkerState} (hinv : Inv w) {c : Call} {r : AssignmentRecord}
    (hacc : w.pending.Accepts c r) (now : Instant) :
    Inv { w with pending := { w.pending with
      assignments := w.pending.assignments.insert c.assignmentId (c.advance now r) } } :=
  ⟨hinv.rep.call hacc now, hinv.sessions⟩

theorem serves_inv {s s' : ServiceState} {x : ServiceAct × ServiceAnswer}
    (h : Serves states s x s') (hinv : Inv s.worker) : Inv s'.worker := by
  cases h with
  | other a w ans hcall hstep => exact (step_effect hinv hstep).1
  | refused n event m r => exact hinv
  | advanced n event m r c record hacc hnone => exact inv_call hinv hacc m.instant
  | forwarded n event m report c record hfree hcall hacc hreport =>
      exact inv_call hinv hacc m.instant
  | replied n answer report hreport => exact hinv

theorem service_inv {tr : List (ServiceAct × ServiceAnswer)} {s : ServiceState}
    (h : (service states).Run tr s) : Inv s.worker :=
  h.invariant (I := fun s => Inv s.worker) inv_init
    fun _ _ _ _ hinv hs => serves_inv (step_serves hs) hinv

/-! ## The accounts over a run -/

theorem outcome_terminal {p : PendingState} {id : String} {x : ExecutionState}
    (h : p.outcome id = some x) : x = .succeeded ∨ x = .failed := by
  unfold PendingState.outcome at h
  rcases Option.bind_eq_some_iff.mp h with ⟨r, -, hr⟩
  cases hst : r.state <;> simp_all [AssignmentState.outcome]

theorem replies_snoc (tr : List (ServiceAct × ServiceAnswer)) (x : ServiceAct × ServiceAnswer) :
    replies (tr ++ [x]) = replies tr ++ (reply x).toList :=
  Runs.filterMap_snoc reply tr x

theorem terminalReplies_snoc (id : String) (tr : List (ServiceAct × ServiceAnswer))
    (x : ServiceAct × ServiceAnswer) :
    terminalReplies states id (tr ++ [x]) = terminalReplies states id tr ++
      (reply x).toList.filter fun y => decide (TerminalFor states id y.1) := by
  unfold terminalReplies
  rw [replies_snoc, List.filter_append]

/-- A step after which the same terminal reports for `id` wait, and Core has
answered none. -/
theorem Accounts.keep {tr : List (ServiceAct × ServiceAnswer)} {s s' : ServiceState}
    {id : String} {x : ServiceAct × ServiceAnswer} (h : Accounts states tr s id)
    (hout : s'.worker.pending.outcome id = s.worker.pending.outcome id)
    (hwait : ∀ k report, TerminalFor states id report →
      (s'.forwards.lookup k = some report ↔ s.forwards.lookup k = some report))
    (hx : reply x = none) : Accounts states (tr ++ [x]) s' id := by
  have htr : terminalReplies states id (tr ++ [x]) = terminalReplies states id tr := by
    rw [terminalReplies_snoc, hx]
    simp
  have hnone : NoneInFlight states s id → NoneInFlight states s' id := by
    intro hn k report hk hterm
    exact hn k report ((hwait k report hterm).mp hk) hterm
  constructor
  · intro ho
    rcases h.before (hout ▸ ho) with ⟨hfl, hrep⟩
    exact ⟨hnone hfl, htr.trans hrep⟩
  · intro y ho
    rcases h.after y (hout ▸ ho) with ⟨⟨k, hk⟩, hrep⟩ | ⟨hfl, report, answer, hrep, hst⟩
    · refine Or.inl ⟨⟨k, ?_, ?_⟩, htr.trans hrep⟩
      · rcases hk.waits with ⟨report, hreport, hterm, hst⟩
        exact ⟨report, (hwait k report hterm).mpr hreport, hterm, hst⟩
      · intro k' report hk' hterm
        exact hk.only k' report ((hwait k' report hterm).mp hk') hterm
    · exact Or.inr ⟨hnone hfl, report, answer, htr.trans hrep, hst⟩

/-- A step that neither decides an outcome nor talks to Core. -/
theorem Accounts.congr {tr : List (ServiceAct × ServiceAnswer)} {s s' : ServiceState}
    {id : String} {x : ServiceAct × ServiceAnswer} (h : Accounts states tr s id)
    (hout : s'.worker.pending.outcome id = s.worker.pending.outcome id)
    (hforwards : s'.forwards = s.forwards) (hx : reply x = none) :
    Accounts states (tr ++ [x]) s' id := by
  refine h.keep hout ?_ hx
  intro k report _
  rw [hforwards]

/-- A handler starts to wait with a report that is not terminal for `id`. -/
theorem Accounts.forward_other {tr : List (ServiceAct × ServiceAnswer)} {s s' : ServiceState}
    {id : String} {x : ServiceAct × ServiceAnswer} {n : Nat} {report : ReportExecutionRequest}
    (h : Accounts states tr s id) (hfree : n ∉ s.forwards)
    (hreport : ¬ TerminalFor states id report)
    (hout : s'.worker.pending.outcome id = s.worker.pending.outcome id)
    (hforwards : s'.forwards = s.forwards.insert n report) (hx : reply x = none) :
    Accounts states (tr ++ [x]) s' id := by
  refine h.keep hout ?_ hx
  intro k rp hterm
  rw [hforwards, Runs.HashMap.lookup_insert_ite]
  split_ifs with hkn
  · -- the new report is not terminal for `id`, and `n` was free
    subst hkn
    have hne : report ≠ rp := by
      rintro rfl
      exact hreport hterm
    simp [Finmap.lookup_eq_none.mpr hfree, hne]
  · rfl

/-- A handler has decided the outcome of `id` and starts to wait. -/
theorem Accounts.forward_own {tr : List (ServiceAct × ServiceAnswer)} {s s' : ServiceState}
    {id : String} {x : ServiceAct × ServiceAnswer} {n : Nat} {report : ReportExecutionRequest}
    {y : ExecutionState} (h : Accounts states tr s id)
    (hbefore : s.worker.pending.outcome id = none)
    (hout : s'.worker.pending.outcome id = some y)
    (hreport : TerminalFor states id report) (hst : report.state = states.into y)
    (hforwards : s'.forwards = s.forwards.insert n report) (hx : reply x = none) :
    Accounts states (tr ++ [x]) s' id := by
  rcases h.before hbefore with ⟨hfl, hrep⟩
  constructor
  · intro ho
    rw [hout] at ho
    cases ho
  · intro z hz
    rw [hout, Option.some.injEq] at hz
    subst hz
    refine Or.inl ⟨⟨n, ⟨report, ?_, hreport, hst⟩, ?_⟩, ?_⟩
    · rw [hforwards]
      exact Finmap.lookup_insert _
    · intro k rp hk hterm
      rw [hforwards, Runs.HashMap.lookup_insert_ite] at hk
      split_ifs at hk with hkn
      · exact hkn
      · exact absurd hterm (hfl k rp hk)
    · rw [terminalReplies_snoc, hx, hrep]
      rfl

/-- Core's answer to the report of handler `n`. -/
theorem Accounts.replied {tr : List (ServiceAct × ServiceAnswer)} {s s' : ServiceState}
    {id : String} {x : ServiceAct × ServiceAnswer} {n : Nat} {report : ReportExecutionRequest}
    {answer : CoreAnswer} (h : Accounts states tr s id)
    (hreport : s.forwards.lookup n = some report)
    (hout : s'.worker.pending.outcome id = s.worker.pending.outcome id)
    (hforwards : s'.forwards = s.forwards.erase n) (hx : reply x = some (report, answer)) :
    Accounts states (tr ++ [x]) s' id := by
  have hold : ∀ k rp, s'.forwards.lookup k = some rp → k ≠ n ∧ s.forwards.lookup k = some rp := by
    intro k rp hk
    rw [hforwards, Runs.HashMap.lookup_erase_ite] at hk
    split_ifs at hk with hkn
    exact ⟨hkn, hk⟩
  have hnone : NoneInFlight states s id → NoneInFlight states s' id := by
    intro hn k rp hk
    exact hn k rp (hold k rp hk).2
  have htr : terminalReplies states id (tr ++ [x]) = terminalReplies states id tr ++
      if TerminalFor states id report then [(report, answer)] else [] := by
    rw [terminalReplies_snoc, hx]
    by_cases hterm : TerminalFor states id report <;> simp [hterm]
  constructor
  · intro ho
    rcases h.before (hout ▸ ho) with ⟨hfl, hrep⟩
    refine ⟨hnone hfl, ?_⟩
    rw [htr, hrep, if_neg (hfl n report hreport)]
    rfl
  · intro y ho
    rcases h.after y (hout ▸ ho) with ⟨⟨k, hk⟩, hrep⟩ | ⟨hfl, rp, answer', hrep, hst⟩
    · rcases hk.waits with ⟨rp, hrp, hterm, hst⟩
      by_cases hkn : k = n
      · -- this is the answer to the one report of `id`: from now on none is in flight
        subst hkn
        rw [hreport, Option.some.injEq] at hrp
        subst hrp
        refine Or.inr ⟨?_, report, answer, ?_, hst⟩
        · intro k' rp hk' hterm'
          exact (hold k' rp hk').1 (hk.only k' rp (hold k' rp hk').2 hterm')
        · rw [htr, hrep, if_pos hterm]
          rfl
      · refine Or.inl ⟨⟨k, ⟨rp, ?_, hterm, hst⟩, ?_⟩, ?_⟩
        · rw [hforwards, Finmap.lookup_erase_ne hkn]
          exact hrp
        · intro k' rp' hk' hterm'
          exact hk.only k' rp' (hold k' rp' hk').2 hterm'
        · have hother : ¬ TerminalFor states id report := by
            intro hterm'
            exact hkn (hk.only n report hreport hterm').symm
          rw [htr, hrep, if_neg hother]
          rfl
    · refine Or.inr ⟨hnone hfl, rp, answer', ?_, hst⟩
      rw [htr, hrep, if_neg (hfl n report hreport), List.append_nil]

theorem accounts_step {tr : List (ServiceAct × ServiceAnswer)} {s s' : ServiceState}
    {x : ServiceAct × ServiceAnswer} (id : String) (hinv : Inv s.worker)
    (hs : Serves states s x s') (h : Accounts states tr s id) :
    Accounts states (tr ++ [x]) s' id := by
  cases hs with
  | other a w ans hcall hstep => exact h.congr (step_outcome hinv hstep hcall id) rfl rfl
  | refused n event m r => exact h.congr rfl rfl rfl
  | advanced n event m r c record hacc hnone =>
      refine h.congr ?_ rfl rfl
      rw [hacc.outcome_advance m.instant id]
      split_ifs with hid
      · rw [hnone, hid, hacc.outcome_none]
      · rfl
  | forwarded n event m report c record hfree hcall hacc hreport =>
      have hout := hacc.outcome_advance m.instant id
      cases hc : c.outcome with
      | none =>
          -- a RUNNING report
          have hst : report.state = states.into .running := by rw [hreport.2, hc]; rfl
          have hnot : ¬ TerminalFor states id report := by
            rintro ⟨-, hs | hs⟩
            · rw [hst, states.into_inj] at hs
              cases hs
            · rw [hst, states.into_inj] at hs
              cases hs
          refine h.forward_other hfree hnot ?_ rfl rfl
          rw [hout]
          split_ifs with hid
          · rw [hc, hid, hacc.outcome_none]
          · rfl
      | some y =>
          have hst : report.state = states.into y := by rw [hreport.2, hc]; rfl
          by_cases hid : id = c.assignmentId
          · -- the call that decides the outcome of `id`
            rw [if_pos hid, hc] at hout
            have hterm : TerminalFor states id report := by
              refine ⟨hreport.1.trans hid.symm, ?_⟩
              rcases outcome_terminal hout with rfl | rfl
              · exact Or.inl hst
              · exact Or.inr hst
            refine h.forward_own ?_ hout hterm hst rfl rfl
            rw [hid, hacc.outcome_none]
          · -- a terminal report for another assignment
            have hnot : ¬ TerminalFor states id report := fun ht => hid (ht.1 ▸ hreport.1)
            rw [if_neg hid] at hout
            exact h.forward_other hfree hnot hout rfl rfl
  | replied n answer report hreport => exact h.replied hreport rfl rfl rfl

/-- Every terminal record has exactly one terminal report. -/
theorem accounts {tr : List (ServiceAct × ServiceAnswer)} {s : ServiceState}
    (h : (service states).Run tr s) (id : String) : Accounts states tr s id := by
  refine h.history (P := fun tr s => Accounts states tr s id) ?_ ?_
  · have hinit : PendingState.outcome (service states).init.worker.pending id = none := by
      simp [service, worker, PendingState.empty, PendingState.outcome]
    refine ⟨fun _ => ⟨?_, rfl⟩, ?_⟩
    · intro n report hn
      simp [service] at hn
    · intro x hx
      rw [hinit] at hx
      cases hx
  · intro tr s a t b hrun ih hs
    exact accounts_step id (service_inv hrun) (step_serves hs) ih

/-! ## What Core has taken -/

theorem taken_eq {tr : List (ServiceAct × ServiceAnswer)} {s : ServiceState}
    (h : (service states).Run tr s) :
    s.taken = ((replies tr).filter fun x => x.2.accepts).map Prod.fst := by
  refine h.history (P := fun tr s => s.taken =
    ((replies tr).filter fun x => x.2.accepts).map Prod.fst) rfl ?_
  intro tr s a t b hrun ih hs
  rw [replies_snoc, List.filter_append, List.map_append, ← ih]
  cases step_serves hs with
  | other a w ans hcall hstep => simp [reply]
  | refused n event m r => simp [reply]
  | advanced n event m r c record hacc hnone => simp [reply]
  | forwarded n event m report c record hfree hcall hacc hreport => simp [reply]
  | replied n answer report hreport => cases hacc : answer.accepts <;> simp [reply, hacc]

/-- Core has accepted a report of outcome `x` for assignment `id`. -/
def ReachedCore (states : I32Enum ExecutionState) (s : ServiceState) (id : String)
    (x : ExecutionState) : Prop :=
  ∃ report ∈ s.taken, report.assignmentId = id ∧ report.state = states.into x

/-- Handling once more the event that decided outcome `x` of `id` is accepted
and forwards a report. -/
def Resendable (states : I32Enum ExecutionState) (tr : List (ServiceAct × ServiceAnswer))
    (s : ServiceState) (id : String) (x : ExecutionState) : Prop :=
  ∃ h event m report, (ServiceAct.handle h event m, ServiceAnswer.forwarded report) ∈ tr ∧
    report.assignmentId = id ∧ report.state = states.into x ∧
    ∀ m', ∃ report', (handleEvent states s.worker.pending event m').2 = .forwarding report'

/-- No outcome is lost: Core has it, or the event can be handled again. -/
def NoneLost (states : I32Enum ExecutionState) (tr : List (ServiceAct × ServiceAnswer))
    (s : ServiceState) : Prop :=
  ∀ id r x, s.worker.pending.assignments.lookup id = some r → r.state.outcome = some x →
    ReachedCore states s id x ∨ Resendable states tr s id x

/-- Core took every terminal report it was called with. -/
def TerminalReportsTaken (states : I32Enum ExecutionState)
    (tr : List (ServiceAct × ServiceAnswer)) : Prop :=
  ∀ report answer, (report, answer) ∈ replies tr →
    (report.state = states.into .succeeded ∨ report.state = states.into .failed) →
    answer.accepts = true

theorem forwarded_call {tr : List (ServiceAct × ServiceAnswer)} {s : ServiceState}
    (hrun : (service states).Run tr s) {h : Nat} {event : RuntimeEvent} {m : Moment}
    {report : ReportExecutionRequest}
    (hmem : (ServiceAct.handle h event m, ServiceAnswer.forwarded report) ∈ tr) :
    ∃ c, eventCall event = some c ∧ c.assignmentId = report.assignmentId := by
  have hall := hrun.forall_mem (I := fun _ => True)
    (Q := fun x => ∀ h event m report, x = (ServiceAct.handle h event m, .forwarded report) →
      ∃ c, eventCall event = some c ∧ c.assignmentId = report.assignmentId) trivial ?_
  · exact hall _ hmem h event m report rfl
  · intro s a t b _ hs
    refine ⟨trivial, ?_⟩
    rintro h event m report heq
    have hserves := step_serves hs
    rw [heq] at hserves
    cases hserves with
    | forwarded _ _ _ _ c record hfree hcall hacc hreport => exact ⟨c, hcall, hreport.1.symm⟩

/-- The event that decided an outcome is refused when it comes again. -/
theorem not_resendable {tr : List (ServiceAct × ServiceAnswer)} {s : ServiceState}
    (hrun : (service states).Run tr s) {id : String} {x y : ExecutionState}
    (hout : s.worker.pending.outcome id = some y) : ¬ Resendable states tr s id x := by
  rintro ⟨h, event, m, report, hmem, hid, -, hagain⟩
  rcases forwarded_call hrun hmem with ⟨c, hcall, hc⟩
  rcases hagain m with ⟨report', hreport'⟩
  rcases handleEvent_cases states s.worker.pending event m with
    ⟨r, he⟩ | ⟨c', record, out, hcall', hacc, -⟩
  · rw [he] at hreport'
    cases hreport'
  · -- an accepted call finds a record without an outcome
    rw [hcall, Option.some.injEq] at hcall'
    subst hcall'
    have hnone : s.worker.pending.outcome c.assignmentId = none := hacc.outcome_none
    rw [hc, hid, hout] at hnone
    cases hnone

theorem mem_terminalReplies {tr : List (ServiceAct × ServiceAnswer)} {id : String}
    {report : ReportExecutionRequest} {answer : CoreAnswer} :
    (report, answer) ∈ terminalReplies states id tr ↔
      (report, answer) ∈ replies tr ∧ TerminalFor states id report := by
  simp [terminalReplies]

theorem mem_taken {tr : List (ServiceAct × ServiceAnswer)} {s : ServiceState}
    (h : (service states).Run tr s) {report : ReportExecutionRequest} :
    report ∈ s.taken ↔ ∃ answer, (report, answer) ∈ replies tr ∧ answer.accepts = true := by
  rw [taken_eq h]
  simp

/-- **Terminal outcomes and Core.** At rest, no outcome is lost exactly if Core
took every terminal report that was sent to it. -/
theorem terminal_reports_reach_core {tr : List (ServiceAct × ServiceAnswer)}
    {s : ServiceState} (h : (service states).Run tr s) (hrest : s.forwards = ∅) :
    NoneLost states tr s ↔ TerminalReportsTaken states tr := by
  constructor
  · intro hlost report answer hmem hterm
    have hfor : TerminalFor states report.assignmentId report := ⟨rfl, hterm⟩
    have hin := mem_terminalReplies.mpr ⟨hmem, hfor⟩
    have hacc := accounts h report.assignmentId
    cases hout : s.worker.pending.outcome report.assignmentId with
    | none =>
        rw [(hacc.before hout).2] at hin
        simp at hin
    | some x =>
        -- the answer is the only one for this assignment, so Core's copy is this report
        rcases hacc.after x hout with ⟨-, hrep⟩ | ⟨-, rp, answer', hrep, hst⟩
        · rw [hrep] at hin
          simp at hin
        · have hrec := hout
          unfold PendingState.outcome at hrec
          rcases Option.bind_eq_some_iff.mp hrec with ⟨r, hr, hrx⟩
          rcases hlost report.assignmentId r x hr hrx with ⟨rp', htaken, hid', hst'⟩ | hagain
          · rcases (mem_taken h).mp htaken with ⟨answer'', hmem'', hans⟩
            have hfor' : TerminalFor states report.assignmentId rp' := by
              refine ⟨hid', ?_⟩
              rcases outcome_terminal hout with rfl | rfl
              · exact Or.inl hst'
              · exact Or.inr hst'
            have hin' := mem_terminalReplies.mpr ⟨hmem'', hfor'⟩
            rw [hrep, List.mem_singleton] at hin hin'
            cases hin.trans hin'.symm
            exact hans
          · exact absurd hagain (not_resendable h hout)
  · intro htaken id r x hr hrx
    have hout : s.worker.pending.outcome id = some x := by
      unfold PendingState.outcome
      rw [hr]
      exact hrx
    rcases (accounts h id).after x hout with ⟨⟨n, hn⟩, -⟩ | ⟨-, rp, answer, hrep, hst⟩
    · -- nothing is in flight
      rcases hn.waits with ⟨rp, hrp, -⟩
      rw [hrest] at hrp
      simp at hrp
    · have hin : (rp, answer) ∈ terminalReplies states id tr := by
        rw [hrep]
        exact List.mem_singleton_self _
      rcases mem_terminalReplies.mp hin with ⟨hmem, hfor⟩
      have hans : answer.accepts = true := htaken rp answer hmem hfor.2
      exact Or.inl ⟨rp, (mem_taken h).mpr ⟨answer, hmem, hans⟩, hfor.1, hst⟩

end Accounts

/-- One assignment, run to completion; `answer` is what becomes of the
terminal report. -/
def oneCompletion (answer : CoreAnswer) : List ServiceAct :=
  [.other (.enqueue (plainAssignment "a" "x" "j")), .other (.connect "s" ⟨0⟩),
   .other (.nextFor "s"), .other (.resume "s"),
   .handle 0 ⟨some (.executionStarted ⟨"a", "x", 1, none⟩)⟩ ⟨10, 1000, "r1"⟩,
   .coreReplies 0 .accepted,
   .handle 1 ⟨some (.executionCompleted ⟨"a", "x", 2, some .empty, none⟩)⟩ ⟨30, 2000, "r2"⟩,
   .coreReplies 1 answer]

theorem terminal_reports_reach_core_oneCompletion : ∃ tr s,
    (service numberedStates).Run tr s ∧ s.forwards = ∅ ∧
      s.worker.pending.outcome "a" = some .succeeded ∧
      (NoneLost numberedStates tr s ↔ TerminalReportsTaken numberedStates tr) := by
  rcases Machine.run_of_exec (service numberedStates) (oneCompletion .accepted)
    (P := fun _ s => s.forwards = ∅ ∧ s.worker.pending.outcome "a" = some .succeeded)
    (by decide) with ⟨tr, s, hrun, -, hrest, hout⟩
  exact ⟨tr, s, hrun, hrest, hout, terminal_reports_reach_core hrun hrest⟩

/-- The terminal report fails once: the outcome is lost. -/
theorem outcome_lost_when_core_is_unavailable : ¬ ∀ tr s,
    (service numberedStates).Run tr s → s.forwards = ∅ → NoneLost numberedStates tr s := by
  intro hall
  rcases Machine.run_of_exec (service numberedStates)
    (oneCompletion (.failed ⟨.unavailable, "core"⟩))
    (P := fun _ s => s.forwards = ∅ ∧ s.worker.pending.outcome "a" = some .succeeded ∧
      ∀ report ∈ s.taken, report.state = 2)
    (by decide) with ⟨tr, s, hrun, -, hrest, hout, htaken⟩
  have hrec := hout
  unfold PendingState.outcome at hrec
  rcases Option.bind_eq_some_iff.mp hrec with ⟨r, hr, hrx⟩
  rcases hall tr s hrun hrest "a" r .succeeded hr hrx with ⟨report, hmem, -, hst⟩ | hagain
  · rw [htaken report hmem] at hst
    cases hst
  · exact not_resendable hrun hout hagain

end ThreadWeave.Worker
