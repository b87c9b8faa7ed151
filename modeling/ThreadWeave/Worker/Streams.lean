import ThreadWeave.Rust.Mpsc
import ThreadWeave.Worker.HandOut
import ThreadWeave.Worker.Service

/-!
# The command streams of runtime sessions

`runtime_session` with everything it does to its stream: the task of a session
sends each assignment it is handed through a bounded channel and, when an event
is refused, the status that ends the session; `cancel` sends through a clone of
the same sender, whenever it likes. The runtime receives at its own pace or
drops the stream.

* `streams` — the machine. A task stands where it does in `Sessions`; while it
  handles an event, `handlers` says how far it got.
* `step_flows` — what one step can do, branch by branch.
* The lemmas on tasks say what a step of the worker does to what a task is
  about to send, and that a task which has left its loop does not come back.
-/

namespace ThreadWeave.Worker

open Runs (HashMap Machine)
open PendingState (Call Reply Accepts)
open Rust (Channel)

/-! ## The machine -/

inductive WorkerCommand where
  | assignExecution (assignment : AssignExecutionRequest)
  | cancelExecution (cancel : CancelExecution)
deriving DecidableEq

/-- What a session's channel carries. -/
abbrev Item := Except Status WorkerCommand

/-- How far a session's task is with the event it handles. -/
inductive Handling where
  /-- before the lock -/
  | begun (event : RuntimeEvent)
  /-- before Core answers -/
  | forwarding (report : ReportExecutionRequest)
  /-- the event was refused and the status is being sent -/
  | refused (status : Status)
deriving DecidableEq

/-- The channel of a session. -/
structure Stream where
  session : String
  channel : Channel Item
deriving DecidableEq

structure StreamState where
  worker : WorkerState
  streams : HashMap Sender Stream
  handlers : HashMap String Handling
  /-- the `cancel` calls that have left the lock -/
  cancels : HashMap Nat (Sender × CancelExecution)

inductive StreamAct where
  /-- `enqueue`, `next_for`, its wake-up and `disconnect` -/
  | plain (a : Act)
  /-- `register_session` under a fresh id, with a new channel -/
  | connect (sid : String) (sender : Sender)
  /-- `select!` takes the inbound branch with an event -/
  | inbound (sid : String) (event : RuntimeEvent)
  /-- the inbound stream ends or fails -/
  | hangUp (sid : String)
  /-- `handle_event` gets the lock -/
  | handle (sid : String) (m : Moment)
  | coreReplies (sid : String) (answer : CoreAnswer)
  /-- the send of an assignment comes through -/
  | deliver (sender : Sender)
  /-- the send of a status comes through -/
  | refuse (sender : Sender)
  | cancel (k : Nat) (assignmentId : String) (reason : Option String)
  /-- the send of a cancellation comes through -/
  | cancelSend (k : Nat)
  /-- the runtime polls its stream -/
  | receive (sender : Sender)
  /-- the runtime drops its stream -/
  | dropStream (sender : Sender)
deriving DecidableEq

inductive StreamOut where
  | silent
  | worker (answer : Answer)
  /-- `handle_event` came to an end -/
  | handled (r : Except Status Unit)
  | forwarded (report : ReportExecutionRequest)
  | sent (sender : Sender) (item : Item)
  /-- the receiver was gone -/
  | unsent
  | cancelled (r : Except Status Unit)
  | received (item : Item)
  /-- every sender is gone and the buffer is empty -/
  | ended
deriving DecidableEq

/-- The steps of the worker that do nothing to a stream. -/
def Act.isPassive : Act → Bool
  | .enqueue _ | .nextFor _ | .notified _ | .disconnect _ _ => true
  | _ => false

namespace StreamState

/-- The task of `sid` goes on with the worker's step `a`. -/
def go (s : StreamState) (a : Act) (o : StreamOut) : Option (StreamState × StreamOut) :=
  (s.worker.step a).map fun r => ({ s with worker := r.1 }, o)

def setChannel (s : StreamState) (sender : Sender) (st : Stream) (c : Channel Item) :
    StreamState :=
  { s with streams := s.streams.insert sender { st with channel := c } }

/-- `handle_event` returns `r`: the loop goes round, or the status has to be sent. -/
def conclude (s : StreamState) (sid : String) (r : Except Status Unit) :
    Option (StreamState × StreamOut) :=
  match r with
  | .ok _ =>
      ({ s with handlers := s.handlers.erase sid }).go (.resume sid) (.handled (.ok ()))
  | .error status =>
      some ({ s with handlers := s.handlers.insert sid (.refused status) },
        .handled (.error status))

/-- Somebody holds a sender of the stream. -/
def hasSender (s : StreamState) (sender : Sender) (st : Stream) : Prop :=
  s.worker.tasks.lookup st.session ≠ some .closed ∨
    sender ∈ HashMap.collect (fun p => some p.1) s.cancels

instance (s : StreamState) (sender : Sender) (st : Stream) : Decidable (s.hasSender sender st) :=
  inferInstanceAs (Decidable (_ ∨ _))

variable (states : I32Enum ExecutionState)

def step (s : StreamState) : StreamAct → Option (StreamState × StreamOut)
  | .plain a =>
      if a.isPassive then
        (s.worker.step a).map fun r => ({ s with worker := r.1 }, .worker r.2)
      else none
  | .connect sid sender =>
      if sender ∈ s.streams then none
      else
        ({ s with streams := s.streams.insert sender { session := sid, channel := .new 32 } }).go
          (.connect sid sender) .silent
  | .inbound sid event =>
      ({ s with handlers := s.handlers.insert sid (.begun event) }).go (.inbound sid) .silent
  | .hangUp sid =>
      if (s.worker.tasks.lookup sid).any WorkerState.selecting then s.go (.leave sid) .silent
      else none
  | .handle sid m =>
      match s.handlers.lookup sid with
      | some (.begun event) =>
          match handleEvent states s.worker.pending event m with
          | (p, .returned r) =>
              ({ s with worker := { s.worker with pending := p } }).conclude sid r
          | (p, .forwarding report) =>
              some ({ s with
                worker := { s.worker with pending := p }
                handlers := s.handlers.insert sid (.forwarding report) }, .forwarded report)
      | _ => none
  | .coreReplies sid answer =>
      match s.handlers.lookup sid with
      | some (.forwarding _) => s.conclude sid (forward answer.response)
      | _ => none
  | .deliver sender =>
      match s.streams.lookup sender with
      | none => none
      | some st =>
          match s.worker.tasks.lookup st.session with
          | some (.sending assignment) =>
              match st.channel.send (.ok (.assignExecution assignment)) with
              | none => none
              | some (c, true) =>
                  (s.setChannel sender st c).go (.resume st.session)
                    (.sent sender (.ok (.assignExecution assignment)))
              | some (_, false) => s.go (.leave st.session) .unsent
          | _ => none
  | .refuse sender =>
      match s.streams.lookup sender with
      | none => none
      | some st =>
          match s.handlers.lookup st.session with
          | some (.refused status) =>
              -- whether the status got through makes no difference
              match st.channel.send (.error status) with
              | none => none
              | some (c, true) =>
                  ({ s.setChannel sender st c with
                    handlers := s.handlers.erase st.session }).go (.leave st.session)
                    (.sent sender (.error status))
              | some (_, false) =>
                  ({ s with handlers := s.handlers.erase st.session }).go (.leave st.session)
                    .unsent
          | _ => none
  | .cancel k assignmentId reason =>
      if k ∈ s.cancels then none
      else
        match s.worker.pending.cancel assignmentId reason with
        | .error status => some (s, .cancelled (.error status))
        | .ok p => some ({ s with cancels := s.cancels.insert k p }, .silent)
  | .cancelSend k =>
      match s.cancels.lookup k with
      | none => none
      | some (sender, cancel) =>
          match s.streams.lookup sender with
          | none => none
          | some st =>
              match st.channel.send (.ok (.cancelExecution cancel)) with
              | none => none
              | some (c, true) =>
                  some ({ s.setChannel sender st c with cancels := s.cancels.erase k },
                    .sent sender (.ok (.cancelExecution cancel)))
              | some (_, false) =>
                  some ({ s with cancels := s.cancels.erase k },
                    .cancelled (.error ⟨.unavailable, "runtime session disconnected"⟩))
  | .receive sender =>
      match s.streams.lookup sender with
      | none => none
      | some st =>
          match st.channel.recv with
          | some (c, item) => some (s.setChannel sender st c, .received item)
          | none =>
              if st.channel.receiving ∧ ¬ s.hasSender sender st then some (s, .ended) else none
  | .dropStream sender =>
      match s.streams.lookup sender with
      | none => none
      | some st => some (s.setChannel sender st st.channel.close, .silent)

end StreamState

/-- A worker with its sessions' streams, from its start. -/
def streams (states : I32Enum ExecutionState) : Machine StreamState StreamAct StreamOut where
  init := { worker := worker.init, streams := ∅, handlers := ∅, cancels := ∅ }
  step := StreamState.step states

/-! ## What a step can do -/

/-- Handling an event leaves `PendingState` alone, or makes one of its calls. -/
def Affects (w : WorkerState) (p : PendingState) : Prop :=
  p = w.pending ∨ ∃ c now answer, w.step (.call c now) = some ({ w with pending := p }, answer)

section Flows

variable (states : I32Enum ExecutionState)

/-- One step, by the branch of the code that is run. -/
inductive Flows (s : StreamState) : StreamAct → StreamOut → StreamState → Prop where
  | passive (a : Act) (answer : Answer) (w : WorkerState) (ha : a.isPassive = true)
      (hw : s.worker.step a = some (w, answer)) :
      Flows s (.plain a) (.worker answer) { s with worker := w }
  | connected (sid : String) (sender : Sender) (answer : Answer) (w : WorkerState)
      (hnew : sender ∉ s.streams) (hw : s.worker.step (.connect sid sender) = some (w, answer)) :
      Flows s (.connect sid sender) .silent
        { s with
          worker := w
          streams := s.streams.insert sender { session := sid, channel := .new 32 } }
  | inbound (sid : String) (event : RuntimeEvent) (answer : Answer) (w : WorkerState)
      (hw : s.worker.step (.inbound sid) = some (w, answer)) :
      Flows s (.inbound sid event) .silent
        { s with worker := w, handlers := s.handlers.insert sid (.begun event) }
  | hungUp (sid : String) (answer : Answer) (w : WorkerState)
      (hsel : (s.worker.tasks.lookup sid).any WorkerState.selecting = true)
      (hw : s.worker.step (.leave sid) = some (w, answer)) :
      Flows s (.hangUp sid) .silent { s with worker := w }
  | resumed (a : StreamAct) (sid : String) (p : PendingState) (answer : Answer) (w : WorkerState)
      (ha : (∃ m, a = .handle sid m) ∨ ∃ reply, a = .coreReplies sid reply)
      (hsid : sid ∈ s.handlers) (hp : Affects s.worker p)
      (hw : ({ s.worker with pending := p }).step (.resume sid) = some (w, answer)) :
      Flows s a (.handled (.ok ())) { s with worker := w, handlers := s.handlers.erase sid }
  | refused (a : StreamAct) (sid : String) (p : PendingState) (status : Status)
      (ha : (∃ m, a = .handle sid m) ∨ ∃ reply, a = .coreReplies sid reply)
      (hsid : sid ∈ s.handlers) (hp : Affects s.worker p) :
      Flows s a (.handled (.error status))
        { s with
          worker := { s.worker with pending := p }
          handlers := s.handlers.insert sid (.refused status) }
  | forwarding (sid : String) (m : Moment) (p : PendingState) (report : ReportExecutionRequest)
      (hsid : sid ∈ s.handlers) (hp : Affects s.worker p) :
      Flows s (.handle sid m) (.forwarded report)
        { s with
          worker := { s.worker with pending := p }
          handlers := s.handlers.insert sid (.forwarding report) }
  | delivered (sender : Sender) (st : Stream) (assignment : AssignExecutionRequest)
      (c : Channel Item) (answer : Answer) (w : WorkerState)
      (hst : s.streams.lookup sender = some st)
      (htask : s.worker.tasks.lookup st.session = some (.sending assignment))
      (hsend : st.channel.send (.ok (.assignExecution assignment)) = some (c, true))
      (hw : s.worker.step (.resume st.session) = some (w, answer)) :
      Flows s (.deliver sender) (.sent sender (.ok (.assignExecution assignment)))
        { s.setChannel sender st c with worker := w }
  | undelivered (sender : Sender) (st : Stream) (assignment : AssignExecutionRequest)
      (c : Channel Item) (answer : Answer) (w : WorkerState)
      (hst : s.streams.lookup sender = some st)
      (htask : s.worker.tasks.lookup st.session = some (.sending assignment))
      (hsend : st.channel.send (.ok (.assignExecution assignment)) = some (c, false))
      (hw : s.worker.step (.leave st.session) = some (w, answer)) :
      Flows s (.deliver sender) .unsent { s with worker := w }
  | statusSent (sender : Sender) (st : Stream) (status : Status) (c : Channel Item)
      (answer : Answer) (w : WorkerState) (hst : s.streams.lookup sender = some st)
      (hstatus : s.handlers.lookup st.session = some (.refused status))
      (hsend : st.channel.send (.error status) = some (c, true))
      (hw : s.worker.step (.leave st.session) = some (w, answer)) :
      Flows s (.refuse sender) (.sent sender (.error status))
        { s.setChannel sender st c with
          worker := w
          handlers := s.handlers.erase st.session }
  | statusUnsent (sender : Sender) (st : Stream) (status : Status) (c : Channel Item)
      (answer : Answer) (w : WorkerState) (hst : s.streams.lookup sender = some st)
      (hstatus : s.handlers.lookup st.session = some (.refused status))
      (hsend : st.channel.send (.error status) = some (c, false))
      (hw : s.worker.step (.leave st.session) = some (w, answer)) :
      Flows s (.refuse sender) .unsent
        { s with worker := w, handlers := s.handlers.erase st.session }
  | cancelRefused (k : Nat) (assignmentId : String) (reason : Option String) (status : Status) :
      Flows s (.cancel k assignmentId reason) (.cancelled (.error status)) s
  | cancelling (k : Nat) (assignmentId : String) (reason : Option String)
      (p : Sender × CancelExecution)
      (hcancel : s.worker.pending.cancel assignmentId reason = .ok p) :
      Flows s (.cancel k assignmentId reason) .silent { s with cancels := s.cancels.insert k p }
  | cancelSent (k : Nat) (sender : Sender) (cancel : CancelExecution) (st : Stream)
      (c : Channel Item) (hk : s.cancels.lookup k = some (sender, cancel))
      (hst : s.streams.lookup sender = some st)
      (hsend : st.channel.send (.ok (.cancelExecution cancel)) = some (c, true)) :
      Flows s (.cancelSend k) (.sent sender (.ok (.cancelExecution cancel)))
        { s.setChannel sender st c with cancels := s.cancels.erase k }
  | cancelUnsent (k : Nat) (r : Except Status Unit) :
      Flows s (.cancelSend k) (.cancelled r) { s with cancels := s.cancels.erase k }
  | received (sender : Sender) (st : Stream) (c : Channel Item) (item : Item)
      (hst : s.streams.lookup sender = some st) (hrecv : st.channel.recv = some (c, item)) :
      Flows s (.receive sender) (.received item) (s.setChannel sender st c)
  | ended (sender : Sender) (st : Stream) (hst : s.streams.lookup sender = some st)
      (hrecv : st.channel.recv = none) (hopen : st.channel.receiving = true)
      (hnone : ¬ s.hasSender sender st) :
      Flows s (.receive sender) .ended s
  | dropped (sender : Sender) (st : Stream) (hst : s.streams.lookup sender = some st) :
      Flows s (.dropStream sender) .silent (s.setChannel sender st st.channel.close)

variable {states} {s s' : StreamState} {o : StreamOut}

theorem go_eq {t : StreamState} {a : Act} {out : StreamOut}
    (h : t.go a out = some (s', o)) :
    ∃ w answer, t.worker.step a = some (w, answer) ∧ s' = { t with worker := w } ∧ o = out := by
  unfold StreamState.go at h
  rcases Option.map_eq_some_iff.mp h with ⟨⟨w, answer⟩, hw, he⟩
  cases he
  exact ⟨w, answer, hw, rfl, rfl⟩

/-- What handling an event does to `PendingState`. -/
theorem affects_handleEvent (w : WorkerState) (event : RuntimeEvent) (m : Moment)
    {p : PendingState} {r : Handled}
    (h : handleEvent states w.pending event m = (p, r)) : Affects w p := by
  rcases handleEvent_calls states w.pending event m with
    ⟨r', he⟩ | ⟨c, reply, p', -, hcall, ⟨-, he⟩ | ⟨-, report, he, -⟩⟩
  · rw [h] at he
    cases he
    exact Or.inl rfl
  all_goals
    rw [h] at he
    cases he
    exact Or.inr ⟨c, m.instant, .called (.ok reply), by simp [WorkerState.step, hcall]⟩

theorem conclude_flows {p : PendingState} {sid : String} {a : StreamAct}
    {r : Except Status Unit} (hsid : sid ∈ s.handlers) (hp : Affects s.worker p)
    (ha : (∃ m, a = .handle sid m) ∨ ∃ reply, a = .coreReplies sid reply)
    (h : ({ s with worker := { s.worker with pending := p } }).conclude sid r = some (s', o)) :
    Flows s a o s' := by
  cases r with
  | ok u =>
      rcases go_eq h with ⟨w, answer, hw, rfl, rfl⟩
      exact .resumed a sid p answer w ha hsid hp hw
  | error status =>
      cases h
      exact .refused a sid p status ha hsid hp

/-- Every step runs one branch of the code. -/
theorem step_flows {a : StreamAct} (h : s.step states a = some (s', o)) : Flows s a o s' := by
  cases a with
  | plain a =>
      simp only [StreamState.step] at h
      split_ifs at h with ha
      rcases Option.map_eq_some_iff.mp h with ⟨⟨w, answer⟩, hw, he⟩
      cases he
      exact .passive a answer w ha hw
  | connect sid sender =>
      simp only [StreamState.step] at h
      split_ifs at h with hmem
      rcases go_eq h with ⟨w, answer, hw, rfl, rfl⟩
      exact .connected sid sender answer w hmem hw
  | inbound sid event =>
      rcases go_eq h with ⟨w, answer, hw, rfl, rfl⟩
      exact .inbound sid event answer w hw
  | hangUp sid =>
      simp only [StreamState.step] at h
      split_ifs at h with hsel
      rcases go_eq h with ⟨w, answer, hw, rfl, rfl⟩
      exact .hungUp sid answer w hsel hw
  | handle sid m =>
      simp only [StreamState.step] at h
      split at h
      · rename_i event hevent
        rcases hcase : handleEvent states s.worker.pending event m with ⟨p, r⟩
        have hsid : sid ∈ s.handlers := Finmap.mem_of_lookup_eq_some hevent
        have hp : Affects s.worker p := affects_handleEvent s.worker event m hcase
        rw [hcase] at h
        cases r with
        | returned r => exact conclude_flows hsid hp (Or.inl ⟨m, rfl⟩) h
        | forwarding report =>
            cases h
            exact .forwarding sid m p report hsid hp
      · cases h
  | coreReplies sid answer =>
      simp only [StreamState.step] at h
      split at h
      · rename_i report hreport
        have hsid : sid ∈ s.handlers := Finmap.mem_of_lookup_eq_some hreport
        exact conclude_flows (p := s.worker.pending) hsid (Or.inl rfl) (Or.inr ⟨answer, rfl⟩) h
      · cases h
  | deliver sender =>
      simp only [StreamState.step] at h
      split at h
      · cases h
      · rename_i st hst
        split at h
        · rename_i assignment htask
          split at h
          · cases h
          · rename_i c hsend
            rcases go_eq h with ⟨w, answer, hw, rfl, rfl⟩
            exact .delivered sender st assignment c answer w hst htask hsend hw
          · rename_i c hsend
            rcases go_eq h with ⟨w, answer, hw, rfl, rfl⟩
            exact .undelivered sender st assignment c answer w hst htask hsend hw
        · cases h
  | refuse sender =>
      simp only [StreamState.step] at h
      split at h
      · cases h
      · rename_i st hst
        split at h
        · rename_i status hstatus
          split at h
          · cases h
          · rename_i c hsend
            rcases go_eq h with ⟨w, answer, hw, rfl, rfl⟩
            exact .statusSent sender st status c answer w hst hstatus hsend hw
          · rename_i c hsend
            rcases go_eq h with ⟨w, answer, hw, rfl, rfl⟩
            exact .statusUnsent sender st status c answer w hst hstatus hsend hw
        · cases h
  | cancel k assignmentId reason =>
      simp only [StreamState.step] at h
      split_ifs at h with hmem
      split at h
      · rename_i status hcancel
        cases h
        exact .cancelRefused k assignmentId reason status
      · rename_i p hcancel
        cases h
        exact .cancelling k assignmentId reason p hcancel
  | cancelSend k =>
      simp only [StreamState.step] at h
      split at h
      · cases h
      · rename_i sender cancel hk
        split at h
        · cases h
        · rename_i st hst
          split at h
          · cases h
          · rename_i c hsend
            cases h
            exact .cancelSent k sender cancel st c hk hst hsend
          · cases h
            exact .cancelUnsent k _
  | receive sender =>
      simp only [StreamState.step] at h
      split at h
      · cases h
      · rename_i st hst
        split at h
        · rename_i c item hrecv
          cases h
          exact .received sender st c item hst hrecv
        · rename_i hrecv
          split_ifs at h with hend
          cases h
          exact .ended sender st hst hrecv hend.1 hend.2
  | dropStream sender =>
      simp only [StreamState.step] at h
      split at h
      · cases h
      · rename_i st hst
        cases h
        exact .dropped sender st hst

end Flows

/-! ## What the tasks do -/

/-- The assignment the task of `sid` is about to send. -/
def sending (w : WorkerState) (sid : String) : List AssignExecutionRequest :=
  match w.tasks.lookup sid with
  | some (.sending assignment) => [assignment]
  | _ => []

/-- The task of `sid` has left its loop. -/
def Leaving (w : WorkerState) (sid : String) : Prop :=
  w.tasks.lookup sid = some .closing ∨ w.tasks.lookup sid = some .closed

/-- An assignment the worker's step hands to session `sid`. -/
def handedBy (sid : String) : Act × Answer → List AssignExecutionRequest
  | (.nextFor sid', .handed assignment) => if sid' = sid then [assignment] else []
  | _ => []

section Tasks

variable {w w' : WorkerState} {a : Act} {answer : Answer} {sid : String}

theorem handedBy_eq_nil (ha : ∀ sid', a ≠ .nextFor sid') : handedBy sid (a, answer) = [] := by
  unfold handedBy
  split
  · rename_i sid' _ he
    exact absurd (congrArg Prod.fst he) (ha sid')
  · rfl

theorem move_cases {sid' : String} {ready : SessionPc → Bool} {pc : SessionPc}
    (h : w.move sid' ready pc = some (w', answer)) :
    ∃ pc₀, w.tasks.lookup sid' = some pc₀ ∧ ready pc₀ = true ∧
      w' = { w with tasks := w.tasks.insert sid' pc } := by
  unfold WorkerState.move at h
  split_ifs at h with hany
  rcases (Option.any_eq_true _ _).mp hany with ⟨pc₀, hpc₀, hready⟩
  cases h
  exact ⟨pc₀, hpc₀, hready, rfl⟩

theorem sending_insert (p : PendingState) (tasks : HashMap String SessionPc) (sid' : String)
    (pc : SessionPc) (sid : String) :
    sending { pending := p, tasks := tasks.insert sid' pc } sid =
      if sid = sid' then (match pc with | .sending assignment => [assignment] | _ => [])
      else sending { pending := p, tasks := tasks } sid := by
  unfold sending
  simp only [Runs.HashMap.lookup_insert_ite]
  by_cases hs : sid = sid'
  · rw [if_pos hs, if_pos hs]
    cases pc <;> rfl
  · rw [if_neg hs, if_neg hs]

/-- A task that stands anywhere else is not about to send. -/
theorem sending_of_lookup {pc : SessionPc} (h : w.tasks.lookup sid = some pc)
    (hpc : ∀ assignment, pc ≠ .sending assignment) : sending w sid = [] := by
  unfold sending
  rw [h]
  cases pc with
  | sending assignment => exact absurd rfl (hpc assignment)
  | _ => rfl

/-- A task that moves between two points where it is not about to send. -/
theorem sending_move {pc₀ pc : SessionPc} {sid' : String} (p : PendingState)
    (h₀ : w.tasks.lookup sid' = some pc₀) (hpc₀ : ∀ assignment, pc₀ ≠ .sending assignment)
    (hpc : ∀ assignment, pc ≠ .sending assignment) :
    sending { pending := p, tasks := w.tasks.insert sid' pc } sid = sending w sid := by
  rw [sending_insert]
  split_ifs with hs
  · subst hs
    rw [sending_of_lookup h₀ hpc₀]
    cases pc with
    | sending assignment => exact absurd rfl (hpc assignment)
    | _ => rfl
  · rfl

/-- A passive step makes a task about to send exactly what it hands it. -/
theorem sending_passive (ha : a.isPassive = true) (h : w.step a = some (w', answer))
    (sid : String) : sending w' sid = sending w sid ++ handedBy sid (a, answer) := by
  cases a with
  | enqueue assignment =>
      cases h
      simp [handedBy, sending]
  | nextFor sid' =>
      cases step_works h with
      | waits _ hpc =>
          rw [sending_move w.pending hpc (by simp) (by simp)]
          simp [handedBy]
      | handed _ id q r hpc hq hr =>
          rw [sending_insert]
          by_cases hs : sid = sid'
          · subst hs
            simp [handedBy, sending_of_lookup hpc]
          · simp [handedBy, hs, Ne.symm hs, sending]
      | unrecorded _ id q hq hnone => simp [handedBy, sending]
      | moved _ sid₀ pc pc' ha => simp at ha
  | notified sid' =>
      rcases move_cases h with ⟨pc₀, hpc₀, hready, rfl⟩
      have hwait : pc₀ = .waiting := beq_iff_eq.mp hready
      rw [sending_move w.pending hpc₀ (by simp [hwait]) (by simp)]
      simp [handedBy]
  | disconnect sid' ids =>
      cases step_works h with
      | disconnected _ _ m hpc hnd hids hm =>
          rw [sending_move _ hpc (by simp) (by simp)]
          simp [handedBy]
      | moved _ sid₀ pc pc' ha => simp at ha
  | _ => cases ha

theorem sending_inbound {sid' : String} (h : w.step (.inbound sid') = some (w', answer)) :
    sending w' sid = sending w sid := by
  rcases move_cases h with ⟨pc₀, hpc₀, hready, rfl⟩
  refine sending_move w.pending hpc₀ ?_ (by simp)
  rintro assignment rfl
  cases hready

theorem sending_connect {sid' : String} {sender : Sender}
    (h : w.step (.connect sid' sender) = some (w', answer)) : sending w' sid = sending w sid := by
  cases step_works h with
  | connected _ _ hnew =>
      rw [sending_insert]
      split_ifs with hs
      · subst hs
        simp [sending, Finmap.lookup_eq_none.mpr hnew]
      · rfl
  | moved _ sid₀ pc pc' ha => simp at ha

/-- After the loop went round, the task is not about to send. -/
theorem sending_resume {sid' : String} (h : w.step (.resume sid') = some (w', answer)) :
    sending w' sid = if sid = sid' then [] else sending w sid := by
  rcases move_cases h with ⟨pc₀, hpc₀, hready, rfl⟩
  rw [sending_insert]

theorem sending_leave {sid' : String} (h : w.step (.leave sid') = some (w', answer)) :
    sending w' sid = if sid = sid' then [] else sending w sid := by
  rcases move_cases h with ⟨pc₀, hpc₀, hready, rfl⟩
  exact sending_insert _ _ _ _ _

theorem leaving_leave {sid' : String} (h : w.step (.leave sid') = some (w', answer)) :
    Leaving w' sid' ∧ ¬ Leaving w sid' := by
  rcases move_cases h with ⟨pc₀, hpc₀, hready, rfl⟩
  refine ⟨Or.inl (Finmap.lookup_insert _), ?_⟩
  rintro (hc | hc)
  all_goals
    rw [hpc₀, Option.some.injEq] at hc
    subst hc
    cases hready

/-- A task that has left its loop does not come back. -/
theorem Leaving.step (hl : Leaving w sid) (h : w.step a = some (w', answer)) :
    Leaving w' sid := by
  rcases hl with hclosing | hclosed
  · -- a step of another task
    have hother : ∀ p sid' pc₀ pc, w.tasks.lookup sid' = some pc₀ → pc₀ ≠ .closing →
        Leaving { pending := p, tasks := w.tasks.insert sid' pc } sid := by
      intro p sid' pc₀ pc hpc₀ hne
      have hdiff : sid ≠ sid' := by
        rintro rfl
        rw [hclosing, Option.some.injEq] at hpc₀
        exact hne hpc₀.symm
      exact Or.inl ((Finmap.lookup_insert_of_ne _ hdiff).trans hclosing)
    have hmove : ∀ sid' ready pc, w.move sid' ready pc = some (w', answer) →
        ready .closing = false → Leaving w' sid := by
      intro sid' ready pc hm hready
      rcases move_cases hm with ⟨pc₀, hpc₀, hr, rfl⟩
      refine hother w.pending sid' pc₀ pc hpc₀ ?_
      rintro rfl
      rw [hready] at hr
      cases hr
    cases a with
    | notified sid' => exact hmove sid' _ _ h rfl
    | inbound sid' => exact hmove sid' _ _ h rfl
    | resume sid' => exact hmove sid' _ _ h rfl
    | leave sid' => exact hmove sid' _ _ h rfl
    | enqueue assignment =>
        cases h
        exact Or.inl hclosing
    | call c now =>
        cases h
        exact Or.inl hclosing
    | cancel assignmentId reason =>
        cases h
        exact Or.inl hclosing
    | connect sid' sender =>
        cases step_works h with
        | connected _ _ hnew =>
            have hdiff : sid ≠ sid' :=
              fun he => hnew (he ▸ Finmap.mem_of_lookup_eq_some hclosing)
            exact Or.inl ((Finmap.lookup_insert_of_ne _ hdiff).trans hclosing)
        | moved _ sid₀ pc pc' ha => simp at ha
    | nextFor sid' =>
        cases step_works h with
        | waits _ hpc => exact hother _ sid' _ _ hpc (by simp)
        | handed _ id q r hpc hq hr => exact hother _ sid' _ _ hpc (by simp)
        | unrecorded _ id q hq hnone => exact Or.inl hclosing
        | moved _ sid₀ pc pc' ha => simp at ha
    | disconnect sid' ids =>
        cases step_works h with
        | disconnected _ _ m hpc hnd hids hm =>
            by_cases hs : sid = sid'
            · subst hs
              exact Or.inr (Finmap.lookup_insert _)
            · exact Or.inl ((Finmap.lookup_insert_of_ne _ hs).trans hclosing)
        | moved _ sid₀ pc pc' ha => simp at ha
  · exact Or.inr (closed_stays h hclosed)

/-- No task disappears. -/
theorem tasks_stay (hsid : sid ∈ w.tasks) (h : w.step a = some (w', answer)) : sid ∈ w'.tasks := by
  have hinsert : ∀ sid' pc, sid ∈ w.tasks.insert sid' pc :=
    fun _ _ => Finmap.mem_insert.mpr (Or.inr hsid)
  cases step_works h with
  | connected sid' sender hnew => exact hinsert _ _
  | waits sid' hpc => exact hinsert _ _
  | handed sid' id q r hpc hq hr => exact hinsert _ _
  | moved _ sid' pc pc' ha hpc hne hne' => exact hinsert _ _
  | disconnected sid' ids m hpc hnd hids hm => exact hinsert _ _
  | _ => exact hsid

/-- A registered session was registered before, or has just been opened. -/
theorem sessions_step {sender : Sender} (h : w.step a = some (w', answer))
    (hs : w'.pending.sessions.lookup sid = some sender) :
    w.pending.sessions.lookup sid = some sender ∨ a = .connect sid sender := by
  cases step_works h with
  | connected sid' sender' hnew =>
      rcases HashMap.lookup_insert_some hs with ⟨rfl, rfl⟩ | ⟨-, hold⟩
      · exact Or.inr rfl
      · exact Or.inl hold
  | disconnected sid' ids m hpc hnd hids hm => exact Or.inl (HashMap.lookup_erase_some hs).2
  | _ => exact Or.inl hs

/-- A record held by a session was held by it before, or has just been handed
to it. -/
theorem held_step {id : String} {r : AssignmentRecord} (h : w.step a = some (w', answer))
    (hr : w'.pending.assignments.lookup id = some r) (hsess : r.sessionId = some sid) :
    (∃ r₀, w.pending.assignments.lookup id = some r₀ ∧ r₀.sessionId = some sid ∧
      r₀.assignment = r.assignment) ∨ r.assignment ∈ handedBy sid (a, answer) := by
  cases step_works h with
  | enqueued assignment hnew =>
      rcases HashMap.lookup_insert_some hr with ⟨-, rfl⟩ | ⟨-, hold⟩
      · cases hsess
      · exact Or.inl ⟨r, hold, hsess, rfl⟩
  | called c now r₀ reply hacc =>
      rcases HashMap.lookup_insert_some hr with ⟨rfl, rfl⟩ | ⟨-, hold⟩
      · refine Or.inl ⟨r₀, hacc.found, ?_, ?_⟩
        · cases c with
          | terminal => cases hsess
          | _ => exact hsess
        · cases c <;> rfl
      · exact Or.inl ⟨r, hold, hsess, rfl⟩
  | handed sid' id' q r₀ hpc hq hr₀ =>
      rcases HashMap.lookup_insert_some hr with ⟨rfl, rfl⟩ | ⟨-, hold⟩
      · cases hsess
        exact Or.inr (by simp [handedBy])
      · exact Or.inl ⟨r, hold, hsess, rfl⟩
  | disconnected sid' ids m hpc hnd hids hm =>
      have hr' : m.lookup id = some r := hr
      rw [hm id] at hr'
      split_ifs at hr' with hheld
      · rcases Option.map_eq_some_iff.mp hr' with ⟨r₀, hr₀, rfl⟩
        cases hsess
      · exact Or.inl ⟨r, hr', hsess, rfl⟩
  | _ => exact Or.inl ⟨r, hr, hsess, rfl⟩

end Tasks

end ThreadWeave.Worker
