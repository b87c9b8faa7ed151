import ThreadWeave.Worker.Sessions

/-!
# The lifecycle of an assignment, as a law of the trace

Over every run of the worker, the accepted events of one assignment form a
prefix of `Started`, any number of `Progress` or `Metrics`, one terminal
event, with increasing sequence numbers.

The invariant that carries it is `Follows`: the record of an assignment is a
function of the calls accepted for it. Handing out and requeueing do not
appear in it, because they only touch a record for which nothing has been
accepted yet.
-/

namespace ThreadWeave.Worker

open Runs (HashMap Machine)
open PendingState (Call Reply Accepts)

/-! ## Accepted calls of a trace -/

/-- The calls accepted for assignment `id`, in order. -/
def acceptedIn (id : String) : Obs → Option Call
  | .accepted c => if c.assignmentId = id then some c else none
  | _ => none

def accepted (tr : List (Act × Answer)) (id : String) : List Call :=
  (tr.filterMap observe).filterMap (acceptedIn id)

theorem accepted_snoc (tr : List (Act × Answer)) (x : Act × Answer) (id : String) :
    accepted (tr ++ [x]) id =
      accepted tr id ++ ((observe x).bind (acceptedIn id)).toList := by
  unfold accepted
  rw [Runs.filterMap_snoc, List.filterMap_append]
  cases hx : observe x with
  | none => rfl
  | some o => cases ho : acceptedIn id o <;> simp [ho]

/-- A progress or a metrics event. -/
def PendingState.Call.isReport : Call → Bool
  | .progress _ | .metrics _ => true
  | _ => false

/-- The metrics event of a call. -/
def PendingState.Call.metricsEvent : Call → Option ExecutionMetrics
  | .metrics e => some e
  | _ => none

@[simp] theorem advance_assignment (c : Call) (now : Instant) (r : AssignmentRecord) :
    (c.advance now r).assignment = r.assignment := by
  cases c <;> rfl

@[simp] theorem advance_last (c : Call) (now : Instant) (r : AssignmentRecord) :
    (c.advance now r).lastSequenceNumber = some c.sequenceNumber := by
  cases c <;> rfl

@[simp] theorem advance_metrics (c : Call) (now : Instant) (r : AssignmentRecord) :
    (c.advance now r).metrics = r.metrics ++ c.metricsEvent.toList := by
  cases c <;> simp [Call.advance, Call.metricsEvent]

/-- `Started`, then progress and metrics events. -/
def Opened (cs : List Call) : Prop :=
  ∃ e mids, (∀ c ∈ mids, c.isReport = true) ∧ cs = .started e :: mids

/-- A complete lifecycle with the given outcome. -/
def Finished (succeeded : Bool) (cs : List Call) : Prop :=
  ∃ opened a x n, Opened opened ∧ cs = opened ++ [.terminal a x n succeeded]

/-- A prefix of `Started`, reports, one terminal event. -/
def LifecyclePrefix (cs : List Call) : Prop :=
  cs = [] ∨ Opened cs ∨ ∃ succeeded, Finished succeeded cs

/-- How far the accepted calls have come, by the state of the record. -/
def Stage : AssignmentState → List Call → Prop
  | .pending, cs => cs = []
  | .assigned, cs => cs = []
  | .running, cs => Opened cs
  | .succeeded, cs => Finished true cs
  | .failed, cs => Finished false cs

/-- The record `r` is what the accepted calls `cs` make of its assignment. -/
structure Follows (r : AssignmentRecord) (cs : List Call) : Prop where
  stage : Stage r.state cs
  last : r.lastSequenceNumber = cs.getLast?.map Call.sequenceNumber
  increasing : (cs.map Call.sequenceNumber).Pairwise (· < ·)
  execution : ∀ c ∈ cs, c.executionId = r.assignment.executionId
  metrics : r.metrics = cs.filterMap Call.metricsEvent

theorem Follows.lifecycle {r : AssignmentRecord} {cs : List Call} (h : Follows r cs) :
    LifecyclePrefix cs := by
  have hstage := h.stage
  cases hst : r.state with
  | pending => exact Or.inl (by simpa [hst, Stage] using hstage)
  | assigned => exact Or.inl (by simpa [hst, Stage] using hstage)
  | running => exact Or.inr (Or.inl (by simpa [hst, Stage] using hstage))
  | succeeded => exact Or.inr (Or.inr ⟨true, by simpa [hst, Stage] using hstage⟩)
  | failed => exact Or.inr (Or.inr ⟨false, by simpa [hst, Stage] using hstage⟩)

/-! ## Steps -/

/-- A step that changes neither the stage nor what the events write. -/
theorem Follows.congr {r r' : AssignmentRecord} {cs : List Call} (h : Follows r cs)
    (hstage : Stage r'.state cs) (hlast : r'.lastSequenceNumber = r.lastSequenceNumber)
    (hasg : r'.assignment = r.assignment) (hmet : r'.metrics = r.metrics) : Follows r' cs :=
  ⟨hstage, hlast.trans h.last, h.increasing, hasg ▸ h.execution, hmet.trans h.metrics⟩

theorem follows_new (a : AssignExecutionRequest) : Follows (PendingState.newRecord a) [] :=
  ⟨rfl, rfl, by simp, by simp, rfl⟩

theorem Follows.detach {r : AssignmentRecord} {cs : List Call} (h : Follows r cs) :
    Follows (PendingState.detach r) cs := by
  refine h.congr ?_ rfl rfl rfl
  have hstage := h.stage
  by_cases hst : r.state = .assigned
  · simpa [PendingState.detach, hst, Stage] using hstage
  · simpa [PendingState.detach, hst] using hstage

/-- The new call has a larger sequence number than all accepted before. -/
theorem Follows.fresh {r : AssignmentRecord} {cs : List Call} {c : Call} (h : Follows r cs)
    (hfresh : ∀ last, r.lastSequenceNumber = some last → last < c.sequenceNumber) :
    ((cs ++ [c]).map Call.sequenceNumber).Pairwise (· < ·) := by
  rw [List.map_append, List.map_singleton, List.pairwise_append]
  refine ⟨h.increasing, List.pairwise_singleton _ _, ?_⟩
  intro n hn m hm
  rw [List.mem_singleton] at hm
  subst hm
  -- `validate` compares with the last accepted call; the others are below it
  rcases List.eq_nil_or_concat cs with rfl | ⟨cs₀, d, rfl⟩
  · simp at hn
  · have hd : d.sequenceNumber < c.sequenceNumber :=
      hfresh _ (by rw [h.last]; simp)
    have hinc := h.increasing
    rw [List.concat_eq_append, List.map_append, List.pairwise_append] at hinc
    rw [List.concat_eq_append, List.map_append, List.mem_append] at hn
    rcases hn with hold | hlast
    · exact lt_trans (hinc.2.2 n hold d.sequenceNumber (by simp)) hd
    · have hnd : n = d.sequenceNumber := by simpa using hlast
      exact hnd ▸ hd

/-- Progress and metrics events keep a lifecycle open. -/
theorem Opened.snoc {cs : List Call} {c : Call} (h : Opened cs) (hc : c.isReport = true) :
    Opened (cs ++ [c]) := by
  rcases h with ⟨e, mids, hmids, rfl⟩
  refine ⟨e, mids ++ [c], ?_, rfl⟩
  intro d hd
  rcases List.mem_append.mp hd with hold | hnew
  · exact hmids d hold
  · rw [List.mem_singleton] at hnew
    exact hnew ▸ hc

/-- An accepted call takes its assignment to the next stage. -/
theorem stage_advance {r : AssignmentRecord} {cs : List Call} {c : Call}
    (h : Stage r.state cs) (hst : r.state = c.requires) (now : Instant) :
    Stage (c.advance now r).state (cs ++ [c]) := by
  rw [hst] at h
  cases c with
  | started e =>
      have hnil : cs = [] := h
      exact ⟨e, [], by simp, by simp [hnil]⟩
  | progress e =>
      have hopen : Opened cs := h
      have hrun : (Call.advance (.progress e) now r).state = .running := hst
      rw [hrun]
      exact hopen.snoc rfl
  | metrics e =>
      have hopen : Opened cs := h
      have hrun : (Call.advance (.metrics e) now r).state = .running := hst
      rw [hrun]
      exact hopen.snoc rfl
  | terminal a x n ok =>
      -- the flag decides between the two terminal stages
      cases ok with
      | true => exact ⟨cs, a, x, n, h, rfl⟩
      | false => exact ⟨cs, a, x, n, h, rfl⟩

/-- An accepted call extends the lifecycle by itself. -/
theorem Follows.advance {r : AssignmentRecord} {cs : List Call} {c : Call} (h : Follows r cs)
    (hx : r.assignment.executionId = c.executionId)
    (hfresh : ∀ last, r.lastSequenceNumber = some last → last < c.sequenceNumber)
    (hst : r.state = c.requires) (now : Instant) : Follows (c.advance now r) (cs ++ [c]) := by
  refine ⟨stage_advance h.stage hst now, ?_, h.fresh hfresh, ?_, ?_⟩
  · rw [advance_last]
    simp
  · intro d hd
    rw [advance_assignment]
    rcases List.mem_append.mp hd with hold | hnew
    · exact h.execution d hold
    · rw [List.mem_singleton] at hnew
      rw [hnew, hx]
  · rw [advance_metrics, h.metrics, List.filterMap_append]
    cases hc : c.metricsEvent <;> simp [hc]

/-- The history invariant: every record follows the calls accepted for it,
and nothing was accepted for an id without a record. -/
def History (tr : List (Act × Answer)) (p : PendingState) : Prop :=
  ∀ id, match p.assignments.lookup id with
    | none => accepted tr id = []
    | some r => Follows r (accepted tr id)

theorem History.of_none {tr : List (Act × Answer)} {p : PendingState} (h : History tr p)
    {id : String} (hid : p.assignments.lookup id = none) : accepted tr id = [] := by
  have hh := h id
  rwa [hid] at hh

theorem History.of_some {tr : List (Act × Answer)} {p : PendingState} (h : History tr p)
    {id : String} {r : AssignmentRecord} (hid : p.assignments.lookup id = some r) :
    Follows r (accepted tr id) := by
  have hh := h id
  rwa [hid] at hh

theorem history_init : History [] worker.init.pending := by
  intro id
  simp [worker, PendingState.empty, accepted]

/-- Only an accepted call adds to the list of its own assignment. -/
theorem accepted_snoc_of_ne {tr : List (Act × Answer)} {x : Act × Answer} {id : String}
    (h : ∀ c, observe x = some (.accepted c) → c.assignmentId ≠ id) :
    accepted (tr ++ [x]) id = accepted tr id := by
  rw [accepted_snoc]
  cases hx : observe x with
  | none => simp
  | some o =>
      cases o with
      | accepted c => simp [acceptedIn, h c hx]
      | enqueued id' => simp [acceptedIn]
      | handed id' sid => simp [acceptedIn]
      | disconnected sid => simp [acceptedIn]

theorem history_step {tr : List (Act × Answer)} {p p' : PendingState} {x : Act × Answer}
    {o : Option Obs} (hrep : Rep p) (h : History tr p) (ho : observe x = o)
    (he : Effect p o p') :
    History (tr ++ [x]) p' := by
  intro id
  cases he with
  | quiet =>
      rw [accepted_snoc_of_ne (by simp [ho])]
      exact h id
  | opened sid sender =>
      rw [accepted_snoc_of_ne (by simp [ho])]
      exact h id
  | enqueued a hnew =>
      rw [accepted_snoc_of_ne (by simp [ho])]
      simp only [Runs.HashMap.lookup_insert_ite]
      by_cases hid : id = a.assignmentId
      · -- without a record nothing was accepted
        have hnil := h.of_none (Finmap.lookup_eq_none.mpr hnew)
        simp only [hid, if_true, hnil]
        exact follows_new a
      · simp only [hid, if_false]
        exact h id
  | accepted c now r hacc =>
      simp only [Runs.HashMap.lookup_insert_ite]
      by_cases hid : id = c.assignmentId
      · have hr := h.of_some hacc.found
        subst hid
        rw [accepted_snoc]
        simp only [if_true, ho, Option.bind_some, acceptedIn, Option.toList_some]
        exact hr.advance hacc.execution hacc.fresh hacc.state now
      · rw [accepted_snoc_of_ne]
        · simp only [hid, if_false]
          exact h id
        · intro c' hc'
          rw [ho] at hc'
          cases hc'
          exact fun he => hid he.symm
  | handed sid id' q r hsid hq hr =>
      rw [accepted_snoc_of_ne (by simp [ho])]
      simp only [Runs.HashMap.lookup_insert_ite]
      by_cases hid : id = id'
      · subst hid
        have hpend : r.state = .pending := hrep.head_pending hq hr
        have hfol := h.of_some hr
        simp only [if_true]
        refine hfol.congr ?_ rfl rfl rfl
        -- nothing has been accepted for a queued assignment
        have hnil : Stage .pending (accepted tr id) := hpend ▸ hfol.stage
        exact hnil
      · simp only [hid, if_false]
        exact h id
  | disconnected sid ids m hnd hids hm =>
      rw [accepted_snoc_of_ne (by simp [ho])]
      show match m.lookup id with
        | none => accepted tr id = []
        | some r => Follows r (accepted tr id)
      rw [hm id]
      split_ifs with hheld
      · cases hr : p.assignments.lookup id with
        | none => exact h.of_none hr
        | some r => exact (h.of_some hr).detach
      · exact h id

theorem worker_history {tr : List (Act × Answer)} {w : WorkerState} (h : worker.Run tr w) :
    History tr w.pending := by
  refine h.history (P := fun tr w => History tr w.pending) history_init ?_
  intro tr w a w' ans hrun hh hs
  have hinv : Inv w := worker_inv hrun
  exact history_step hinv.rep hh rfl (step_effect hinv hs).2.2

/-! ## The law -/

/-- A call that was refused. -/
def Refused : Answer → Prop
  | .enqueued (.error _) => True
  | .called (.error _) => True
  | .cancelled (.error _) => True
  | _ => False

/-- A refused call leaves all of `PendingState` as it was. -/
theorem refused_unchanged {w w' : WorkerState} {a : Act} {ans : Answer}
    (h : worker.step w a = some (w', ans)) (href : Refused ans) : w'.pending = w.pending := by
  cases step_works h with
  | enqueueRefused asg status => rfl
  | callRefused c now status => rfl
  | cancelled asg reason => rfl
  | moved a sid pc pc' ha hpc hne hne' => rfl
  -- the other branches answer with a success
  | _ => exact absurd href (by simp [Refused])

/-- **Lifecycle of runtime events.** For every run and every assignment: the
accepted events form a prefix of the lifecycle, their sequence numbers
increase, they name the execution of the assignment, the record's metrics are
the accepted metrics events, and a refused call changes nothing. -/
theorem lifecycle_of_events {tr : List (Act × Answer)} {w : WorkerState}
    (h : worker.Run tr w) (id : String) :
    LifecyclePrefix (accepted tr id) ∧
    ((accepted tr id).map Call.sequenceNumber).Pairwise (· < ·) ∧
    (accepted tr id ≠ [] → ∃ r, w.pending.assignments.lookup id = some r) ∧
    (∀ r, w.pending.assignments.lookup id = some r →
      (∀ c ∈ accepted tr id, c.executionId = r.assignment.executionId) ∧
      r.metrics = (accepted tr id).filterMap Call.metricsEvent) ∧
    (∀ p a ans q w₀ w₁, tr = p ++ (a, ans) :: q → worker.Run p w₀ →
      worker.step w₀ a = some (w₁, ans) → Refused ans → w₁.pending = w₀.pending) := by
  have hh := worker_history h
  have hrefused : ∀ p a ans q w₀ w₁, tr = p ++ (a, ans) :: q → worker.Run p w₀ →
      worker.step w₀ a = some (w₁, ans) → Refused ans → w₁.pending = w₀.pending :=
    fun p a ans q w₀ w₁ _ _ hs href => refused_unchanged hs href
  cases hid : w.pending.assignments.lookup id with
  | none =>
      have hnil : accepted tr id = [] := hh.of_none hid
      rw [hnil]
      exact ⟨Or.inl rfl, by simp, by simp, by simp, hrefused⟩
  | some r =>
      have hfol : Follows r (accepted tr id) := hh.of_some hid
      refine ⟨hfol.lifecycle, hfol.increasing, fun _ => ⟨r, rfl⟩, ?_, hrefused⟩
      intro r' hr'
      cases hr'
      exact ⟨hfol.execution, hfol.metrics⟩

/-- A full life: a stale event and one for another execution are refused, the
session goes away before the assignment is started, the second session runs it. -/
def fullLife : List Act :=
  [.enqueue (plainAssignment "a" "x" "j"), .connect "s" ⟨0⟩, .nextFor "s",
   .call (.progress ⟨"a", "x", 1, .finite 0⟩) 5, .leave "s", .disconnect "s" ["a"],
   .connect "t" ⟨1⟩, .nextFor "t", .call (.started ⟨"a", "x", 3, none⟩) 10,
   .call (.metrics ⟨"a", "x", 3, none⟩) 11, .call (.metrics ⟨"a", "y", 4, none⟩) 11,
   .call (.metrics ⟨"a", "x", 4, some 7⟩) 12, .call (.terminal "a" "x" 9 true) 20]

theorem lifecycle_of_fullLife : ∃ tr w,
    worker.Run tr w ∧ accepted tr "a" =
      [.started ⟨"a", "x", 3, none⟩, .metrics ⟨"a", "x", 4, some 7⟩, .terminal "a" "x" 9 true] ∧
    LifecyclePrefix (accepted tr "a") := by
  rcases Machine.run_of_exec worker fullLife (P := fun tr _ => accepted tr "a" =
      [.started ⟨"a", "x", 3, none⟩, .metrics ⟨"a", "x", 4, some 7⟩, .terminal "a" "x" 9 true])
    (by decide) with ⟨tr, w, hrun, -, hacc⟩
  exact ⟨tr, w, hrun, hacc, (lifecycle_of_events hrun "a").1⟩

end ThreadWeave.Worker
