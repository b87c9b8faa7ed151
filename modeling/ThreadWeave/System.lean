import ThreadWeave.Core.Agreement
import ThreadWeave.Core.Once
import ThreadWeave.Pipeline
import ThreadWeave.Worker.Service

/-!
# Reports on their way to Core

Three ways lead to Core's `report_execution`: the events of a session, which
`handle_event` validates before it makes a report of them; the worker's
`ReportExecution` RPC, which forwards the report it is given; a direct call. The
pipeline of `Pipeline` is put together here with the three of them. What becomes
of a report on the network is open: it may arrive at any time, also after its
sender has given up, or never.

`report_identity`: in every run in which the reports of the RPC and of direct
calls name assignment and execution as a pair, every report that Core accepts or
a worker forwards does.
-/

namespace ThreadWeave

open Runs (HashMap Machine)
open ThreadWeave.Core (Config CoreState Takes Integrity workerDestination)
open Worker (Handled Moment CoreAnswer)

/-! ## The machine -/

structure SystemState (Bytes : Type) where
  pipeline : PipelineState Bytes
  /-- the handlers that wait for Core, by worker and handler -/
  forwards : HashMap (String × Nat) ReportExecutionRequest
  /-- the reports sent to Core, each with the worker that sent it -/
  sent : List (String × ReportExecutionRequest)
  /-- the reports Core has accepted -/
  accepted : List ReportExecutionRequest
  /-- the ids that callers have named in reports of their own -/
  named : Finset String

inductive SystemAct where
  /-- anything but a report or an event -/
  | pipeline (a : PipelineAct)
  /-- an event on a session of worker `w` -/
  | event (w : String) (h : Nat) (event : RuntimeEvent) (m : Moment)
  /-- the `ReportExecution` RPC of worker `w` -/
  | rpc (w : String) (h : Nat) (report : ReportExecutionRequest)
  /-- a report that worker `w` has sent arrives at Core -/
  | arrive (k : Nat) (w : String) (report : ReportExecutionRequest)
  /-- a direct call of Core -/
  | direct (k : Nat) (report : ReportExecutionRequest)
  | coreReplies (w : String) (h : Nat) (answer : CoreAnswer)
deriving DecidableEq

inductive SystemOut (Bytes : Type) where
  | pipeline (o : PipelineOut Bytes)
  | returned (r : Except Status Unit)
  | forwarded (report : ReportExecutionRequest)
  | replied (report : ReportExecutionRequest) (r : Except Status Unit)
deriving DecidableEq

/-- The steps that `SystemAct` has its own actions for. -/
def PipelineAct.isReportEntry : PipelineAct → Bool
  | .core (.report _ _) => true
  | .worker _ a => a.isCall
  | _ => false

/-- The UUIDs that a step draws and that others may name. -/
def PipelineAct.draws : PipelineAct → List String
  | .core (.submit jobId messageId _ _) => [jobId, messageId]
  | .core (.consumed _ fallbackId assignmentId executionId _) =>
      [fallbackId, assignmentId, executionId]
  | .core (.dispatched _ messageId _ _) => [messageId]
  | _ => []

/-- The report that Core accepts with a step. -/
def Core.CoreState.acceptedBy {Bytes : Type} (c : CoreState Bytes) :
    PipelineAct → PipelineOut Bytes → Option ReportExecutionRequest
  | .core a, .core (.reported (.ok _)) => c.handling a
  | _, _ => none

def Worker.Handled.report : Handled → Option ReportExecutionRequest
  | .forwarding report => some report
  | .returned _ => none

/-- The record that worker `w` has of assignment `id`. -/
def PipelineState.record {Bytes : Type} (s : PipelineState Bytes) (w id : String) :
    Option Worker.AssignmentRecord :=
  (s.workers.lookup w).bind fun node => node.state.pending.assignments.lookup id

def PipelineState.setPending {Bytes : Type} (s : PipelineState Bytes) (w : String)
    (node : WorkerNode) (p : Worker.PendingState) : PipelineState Bytes :=
  s.setNode w { node with state := { node.state with pending := p } }

namespace SystemState

variable {Bytes : Type} (cfg : Config Bytes)

def advance (s : SystemState Bytes) (a : PipelineAct) :
    Option (SystemState Bytes × SystemOut Bytes) :=
  (s.pipeline.step cfg a).map fun r =>
    ({ s with
      pipeline := r.1
      accepted := s.accepted ++ (s.pipeline.core.acceptedBy a r.2).toList }, .pipeline r.2)

/-- A handler of worker `w` returns, or sends its report to Core and waits. -/
def handled (s : SystemState Bytes) (w : String) (h : Nat) (result : Handled) :
    SystemState Bytes × SystemOut Bytes :=
  match result with
  | .returned r => (s, .returned r)
  | .forwarding report =>
      ({ s with
        forwards := s.forwards.insert (w, h) report
        sent := s.sent ++ [(w, report)] }, .forwarded report)

def name (s : SystemState Bytes) (report : ReportExecutionRequest) : SystemState Bytes :=
  { s with named := s.named ∪ {report.assignmentId, report.executionId} }

def step (s : SystemState Bytes) : SystemAct → Option (SystemState Bytes × SystemOut Bytes)
  | .pipeline a =>
      -- a fresh UUID is one that nobody has named
      if a.isReportEntry = false ∧ ∀ id ∈ a.draws, id ∉ s.named then s.advance cfg a else none
  | .event w h event m =>
      match s.pipeline.workers.lookup w with
      | none => none
      | some node =>
          if (w, h) ∈ s.forwards then none
          else
            let r := Worker.handleEvent cfg.states node.state.pending event m
            some (({ s with pipeline := s.pipeline.setPending w node r.1 }).handled w h r.2)
  | .rpc w h report =>
      match s.pipeline.workers.lookup w with
      | none => none
      | some node =>
          if (w, h) ∈ s.forwards then none
          else some ((s.name report).handled w h
            (Worker.reportExecution node.state.pending report))
  | .arrive k w report =>
      if (w, report) ∈ s.sent then s.advance cfg (.core (.report k report)) else none
  | .direct k report => (s.name report).advance cfg (.core (.report k report))
  | .coreReplies w h answer =>
      match s.forwards.lookup (w, h) with
      | none => none
      | some report =>
          some ({ s with forwards := s.forwards.erase (w, h) },
            .replied report (Worker.forward answer.response))

end SystemState

/-- The control plane, its workers and their callers, from the start. -/
def system {Bytes : Type} (cfg : Config Bytes) (registry : MemoryWorkerRegistry) :
    Machine (SystemState Bytes) SystemAct (SystemOut Bytes) where
  init :=
    { pipeline := (pipeline cfg registry).init
      forwards := ∅
      sent := []
      accepted := []
      named := ∅ }
  step := SystemState.step cfg

/-! ## What a step can do -/

section Moves

variable {Bytes : Type} (cfg : Config Bytes)

/-- One step of the system, by the way it takes. -/
inductive Moves (s : SystemState Bytes) :
    SystemAct → SystemOut Bytes → SystemState Bytes → Prop where
  | pipeline (a : PipelineAct) (o : PipelineOut Bytes) (p : PipelineState Bytes)
      (hentry : a.isReportEntry = false) (hfresh : ∀ id ∈ a.draws, id ∉ s.named)
      (hstep : s.pipeline.step cfg a = some (p, o)) :
      Moves s (.pipeline a) (.pipeline o)
        { s with
          pipeline := p
          accepted := s.accepted ++ (s.pipeline.core.acceptedBy a o).toList }
  | event (w : String) (h : Nat) (event : RuntimeEvent) (m : Moment) (node : WorkerNode)
      (p : Worker.PendingState) (result : Handled) (o : SystemOut Bytes) (s' : SystemState Bytes)
      (hnode : s.pipeline.workers.lookup w = some node)
      (hevent : Worker.handleEvent cfg.states node.state.pending event m = (p, result))
      (hs' : ({ s with pipeline := s.pipeline.setPending w node p }).handled w h result = (s', o)) :
      Moves s (.event w h event m) o s'
  | rpc (w : String) (h : Nat) (report : ReportExecutionRequest) (node : WorkerNode)
      (o : SystemOut Bytes) (s' : SystemState Bytes)
      (hnode : s.pipeline.workers.lookup w = some node)
      (hs' : (s.name report).handled w h (Worker.reportExecution node.state.pending report) =
        (s', o)) :
      Moves s (.rpc w h report) o s'
  | arrive (k : Nat) (w : String) (report : ReportExecutionRequest) (o : Core.Out Bytes)
      (c : CoreState Bytes) (hsent : (w, report) ∈ s.sent)
      (h : Takes cfg s.pipeline.core (.report k report) o c) :
      Moves s (.arrive k w report) (.pipeline (.core o))
        { s with pipeline := { s.pipeline with core := c } }
  | direct (k : Nat) (report : ReportExecutionRequest) (o : Core.Out Bytes) (c : CoreState Bytes)
      (h : Takes cfg s.pipeline.core (.report k report) o c) :
      Moves s (.direct k report) (.pipeline (.core o))
        { s.name report with pipeline := { s.pipeline with core := c } }
  | replied (w : String) (h : Nat) (answer : CoreAnswer) (report : ReportExecutionRequest) :
      Moves s (.coreReplies w h answer) (.replied report (Worker.forward answer.response))
        { s with forwards := s.forwards.erase (w, h) }

variable {cfg}

theorem handled_eq {s s' : SystemState Bytes} {w : String} {h : Nat} {result : Handled}
    {o : SystemOut Bytes} (hs' : s.handled w h result = (s', o)) :
    s'.pipeline = s.pipeline ∧ s'.accepted = s.accepted ∧ s'.named = s.named ∧
      s'.sent = s.sent ++ result.report.toList.map (w, ·) := by
  cases result with
  | returned r =>
      cases hs'
      exact ⟨rfl, rfl, rfl, by simp [Worker.Handled.report]⟩
  | forwarding report =>
      cases hs'
      exact ⟨rfl, rfl, rfl, rfl⟩

/-- A call begins, or refuses its report at once: nothing is accepted yet. -/
theorem advance_report {s s' : SystemState Bytes} {k : Nat} {report : ReportExecutionRequest}
    {o : SystemOut Bytes} (h : s.advance cfg (.core (.report k report)) = some (s', o)) :
    ∃ co c, o = .pipeline (.core co) ∧ Takes cfg s.pipeline.core (.report k report) co c ∧
      s' = { s with pipeline := { s.pipeline with core := c } } := by
  unfold SystemState.advance at h
  rcases Option.map_eq_some_iff.mp h with ⟨⟨p, po⟩, hstep, he⟩
  rcases Option.map_eq_some_iff.mp hstep with ⟨⟨c, co⟩, hcore, hp⟩
  cases hp
  cases he
  have hnone : s.pipeline.core.acceptedBy (.core (.report k report)) (.core co) = none := by
    have hhandles : Core.Handles cfg s.pipeline.core k (.report k report) co c :=
      Core.step_handles rfl hcore
    cases hhandles with
    | unknown _ hfree hstate => rfl
    | opened _ state hfree hstate => rfl
  refine ⟨co, c, rfl, Core.step_takes hcore, ?_⟩
  simp [hnone]

theorem system_moves {s s' : SystemState Bytes} {a : SystemAct} {o : SystemOut Bytes}
    (h : s.step cfg a = some (s', o)) : Moves cfg s a o s' := by
  cases a with
  | pipeline a =>
      simp only [SystemState.step] at h
      split_ifs at h with hguard
      rcases Option.map_eq_some_iff.mp h with ⟨⟨p, po⟩, hstep, he⟩
      cases he
      exact .pipeline a po p hguard.1 hguard.2 hstep
  | event w n event m =>
      simp only [SystemState.step] at h
      split at h
      · cases h
      · rename_i node hnode
        split_ifs at h
        exact .event w n event m node _ _ o s' hnode rfl (Option.some.inj h)
  | rpc w n report =>
      simp only [SystemState.step] at h
      split at h
      · cases h
      · rename_i node hnode
        split_ifs at h
        exact .rpc w n report node o s' hnode (Option.some.inj h)
  | arrive k w report =>
      simp only [SystemState.step] at h
      split_ifs at h with hsent
      rcases advance_report h with ⟨co, c, rfl, htakes, rfl⟩
      exact .arrive k w report co c hsent htakes
  | direct k report =>
      rcases advance_report h with ⟨co, c, rfl, htakes, rfl⟩
      exact .direct k report co c htakes
  | coreReplies w n answer =>
      simp only [SystemState.step] at h
      split at h
      · cases h
      · cases h
        exact .replied w n answer _

end Moves

/-! ## The records of the workers -/

/-- A record stays, with its assignment. -/
theorem Worker.Effect.stays {p p' : Worker.PendingState} {o : Option Worker.Obs}
    (he : Worker.Effect p o p') {id : String} {r : Worker.AssignmentRecord}
    (hr : p.assignments.lookup id = some r) :
    ∃ r', p'.assignments.lookup id = some r' ∧ r'.assignment = r.assignment := by
  -- one record is written over
  have hwrite (id' : String) (r₀ v : Worker.AssignmentRecord)
      (h₀ : p.assignments.lookup id' = some r₀) (hv : v.assignment = r₀.assignment) :
      ∃ r', (p.assignments.insert id' v).lookup id = some r' ∧ r'.assignment = r.assignment := by
    rw [Runs.HashMap.lookup_insert_ite]
    split_ifs with hid
    · rw [hid, h₀, Option.some.injEq] at hr
      exact ⟨v, rfl, hr ▸ hv⟩
    · exact ⟨r, hr, rfl⟩
  cases he with
  | quiet => exact ⟨r, hr, rfl⟩
  | opened sid sender => exact ⟨r, hr, rfl⟩
  | enqueued a hnew =>
      have hne : id ≠ a.assignmentId := by
        rintro rfl
        exact hnew (Finmap.mem_of_lookup_eq_some hr)
      refine ⟨r, ?_, rfl⟩
      rw [Finmap.lookup_insert_of_ne _ hne]
      exact hr
  | accepted c now r₀ hacc => exact hwrite _ r₀ _ hacc.found (Worker.advance_assignment c now r₀)
  | handed sid id' q r₀ hsid hq hr₀ => exact hwrite id' r₀ _ hr₀ rfl
  | disconnected sid ids m hnd hids hm =>
      change ∃ r', m.lookup id = some r' ∧ r'.assignment = r.assignment
      rw [hm id, hr]
      split_ifs
      · exact ⟨_, rfl, rfl⟩
      · exact ⟨r, rfl, rfl⟩

section Records

variable {Bytes : Type} {cfg : Config Bytes} {s s' : PipelineState Bytes}

theorem record_eq_some {w id : String} {r : Worker.AssignmentRecord} :
    s.record w id = some r ↔
      ∃ node, s.workers.lookup w = some node ∧
        node.state.pending.assignments.lookup id = some r := by
  unfold PipelineState.record
  rw [Option.bind_eq_some_iff]

/-- The worker whose node is written keeps its records, so all do. -/
theorem record_setNode {w : String} {node node' : WorkerNode}
    (hnode : s.workers.lookup w = some node) (hworkers : s'.workers = s.workers.insert w node')
    (hkept : ∀ id r, node.state.pending.assignments.lookup id = some r →
      ∃ r', node'.state.pending.assignments.lookup id = some r' ∧
        r'.assignment = r.assignment)
    {v id : String} {r : Worker.AssignmentRecord} (hr : s.record v id = some r) :
    ∃ r', s'.record v id = some r' ∧ r'.assignment = r.assignment := by
  rcases record_eq_some.mp hr with ⟨n, hn, hlook⟩
  simp only [record_eq_some, hworkers, Runs.HashMap.lookup_insert_ite]
  split_ifs with hv
  · rw [hv, hnode, Option.some.injEq] at hn
    rcases hkept id r (hn ▸ hlook) with ⟨r', hr', hasg⟩
    exact ⟨r', ⟨node', rfl, hr'⟩, hasg⟩
  · exact ⟨r, ⟨n, hn, hlook⟩, rfl⟩

theorem record_stays (hinv : PipelineInv cfg s) {a : PipelineAct} {o : PipelineOut Bytes}
    (h : s.step cfg a = some (s', o)) {w id : String} {r : Worker.AssignmentRecord}
    (hr : s.record w id = some r) :
    ∃ r', s'.record w id = some r' ∧ r'.assignment = r.assignment := by
  cases hadv : pipeline_advances h with
  | core a o c htakes => exact ⟨r, hr, rfl⟩
  | start v =>
      -- a worker starts under an id of its own
      simp only [PipelineState.step] at h
      split_ifs at h with hnew
      have hne : w ≠ v := by
        rintro rfl
        rcases record_eq_some.mp hr with ⟨n, hn, -⟩
        exact hnew (Finmap.mem_of_lookup_eq_some hn)
      refine ⟨r, ?_, rfl⟩
      rcases record_eq_some.mp hr with ⟨n, hn, hlook⟩
      refine record_eq_some.mpr ⟨n, ?_, hlook⟩
      exact (Finmap.lookup_insert_of_ne _ hne).trans hn
  | undecodable v error node envelope rest hnode hqueue =>
      refine record_setNode hnode rfl ?_ hr
      exact fun id r hlook => ⟨r, hlook, rfl⟩
  | received v node envelope rest assignment hnode hqueue hdecode =>
      refine record_setNode hnode rfl ?_ hr
      exact fun id r hlook => ⟨r, hlook, rfl⟩
  | receiveFailed v error node hnode =>
      refine record_setNode hnode rfl ?_ hr
      exact fun id r hlook => ⟨r, hlook, rfl⟩
  | refused v node status hnode =>
      refine record_setNode hnode rfl ?_ hr
      exact fun id r hlook => ⟨r, hlook, rfl⟩
  | enqueued v node asg hnode hloop hnew =>
      refine record_setNode hnode rfl ?_ hr
      intro id r hlook
      exact (Worker.Effect.enqueued asg hnew).stays hlook
  | worker v act node state answer hnode hact hstep =>
      refine record_setNode hnode rfl ?_ hr
      intro id r hlook
      exact (Worker.step_effect (hinv.nodes v node hnode).inv hstep).2.2.stays hlook

end Records

/-! ## Executions and their assignments -/

section Pairing

variable {Bytes : Type} {cfg : Config Bytes} {c c' : CoreState Bytes} {named : Finset String}
  {report : ReportExecutionRequest}

/-- The store has the execution that the report names, under the assignment
that the report names. -/
def Settled (c : CoreState Bytes) (report : ReportExecutionRequest) : Prop :=
  ∃ e, c.executions.lookup report.executionId = some e ∧ e.assignmentId = report.assignmentId

/-- Neither the store nor a `schedule_one` in progress has the execution under
another assignment than the report names. -/
def Paired (c : CoreState Bytes) (report : ReportExecutionRequest) : Prop :=
  (∀ e ∈ c.executions.lookup report.executionId, e.assignmentId = report.assignmentId) ∧
  ∀ asg ∈ HashMap.collect Core.SchedulePc.assignment c.schedules,
    asg.executionId = report.executionId → asg.assignmentId = report.assignmentId

instance (c : CoreState Bytes) (report : ReportExecutionRequest) : Decidable (Paired c report) :=
  inferInstanceAs (Decidable (_ ∧ _))

/-- The execution is there, or nothing will come under its id with another
assignment: the id cannot be drawn any more. -/
def Pinned (c : CoreState Bytes) (named : Finset String) (report : ReportExecutionRequest) :
    Prop :=
  Settled c report ∨
    (Paired c report ∧ (report.executionId ∈ named ∨ report.executionId ∈ c.drawn))

theorem Settled.takes {a : Core.Act} {o : Core.Out Bytes} (h : Takes cfg c a o c')
    (hs : Settled c report) : Settled c' report := by
  rcases hs with ⟨e, he, hasg⟩
  rcases Core.executions_stay h he with ⟨e', he', hid⟩
  have hsame : e'.assignmentId = e.assignmentId := congrArg (fun x => x.2.2.1) hid
  exact ⟨e', he', hsame.trans hasg⟩

theorem Paired.takes {a : Core.Act} {o : Core.Out Bytes} (h : Takes cfg c a o c')
    (hfresh : ∀ id ∈ (PipelineAct.core a).draws, id ∉ named)
    (hold : report.executionId ∈ named ∨ report.executionId ∈ c.drawn)
    (hp : Paired c report) : Paired c' report := by
  constructor
  · intro e he
    rcases Core.executions_of_takes h he with
      ⟨e₀, he₀, hid⟩ | ⟨k, w, asg, submitted, now, hpc, hx, rfl⟩
    · have hsame : e₀.assignmentId = e.assignmentId := congrArg (fun x => x.2.2.1) hid
      exact hsame ▸ hp.1 e₀ he₀
    · -- the record is made from an assignment that goes with the report
      exact hp.2 asg (HashMap.mem_collect.mpr ⟨k, _, hpc, rfl⟩) hx.symm
  · intro asg hmem hx
    rcases HashMap.mem_collect.mp hmem with ⟨k, pc, hpc, hasg⟩
    rcases Core.schedules_of_takes h hpc with
      hpc₀ | rfl | ⟨w, rfl, -⟩ | ⟨w, sub, rest, request, f, a', x, now, -, -, -, rfl, rfl⟩ |
      ⟨w, asg', sub, now, hpc₀, rfl, -⟩
    · exact hp.2 asg (HashMap.mem_collect.mpr ⟨k, pc, hpc₀, hasg⟩) hx
    · cases hasg
    · cases hasg
    · -- the id would have to be fresh
      cases hasg
      have hxx : x = report.executionId := hx
      rcases hold with hnamed | hdrawn
      · exact absurd hnamed (hxx ▸ hfresh x (by simp [PipelineAct.draws]))
      · exact absurd hdrawn (hxx ▸ ((Core.fresh_of_consumed h).2 x (by simp)).1)
    · exact hp.2 asg (HashMap.mem_collect.mpr ⟨k, _, hpc₀, hasg⟩) hx

theorem Pinned.takes {a : Core.Act} {o : Core.Out Bytes} (h : Takes cfg c a o c')
    (hfresh : ∀ id ∈ (PipelineAct.core a).draws, id ∉ named) (hp : Pinned c named report) :
    Pinned c' named report := by
  rcases hp with hs | ⟨hpaired, hold⟩
  · exact Or.inl (hs.takes h)
  · refine Or.inr ⟨hpaired.takes h hfresh hold, ?_⟩
    exact hold.imp_right (Core.drawn_stays h)

/-- Whatever is found under the id has the right assignment. -/
theorem Pinned.settled {e : Core.ExecutionRecord} (hp : Pinned c named report)
    (he : c.executions.lookup report.executionId = some e) : Settled c report := by
  rcases hp with hs | ⟨hpaired, -⟩
  · exact hs
  · exact ⟨e, he, hpaired.1 e he⟩

theorem Pinned.mono {named' : Finset String} (hp : Pinned c named report)
    (hsub : named ⊆ named') : Pinned c named' report := by
  rcases hp with hs | ⟨hpaired, hold⟩
  · exact Or.inl hs
  · exact Or.inr ⟨hpaired, hold.imp_left fun h => hsub h⟩

/-- Where a call in progress comes from: it has just begun, or it was there
before, with the same report, and has found the execution if it has got further. -/
theorem call_of_takes {a : Core.Act} {o : Core.Out Bytes} (h : Takes cfg c a o c') {k : Nat}
    {pc : Core.ReportPc} (hpc : c'.reports.lookup k = some pc) :
    (a = .report k pc.request ∧ pc.jobId = none) ∨
    ∃ pc₀, c.reports.lookup k = some pc₀ ∧ pc₀.request = pc.request ∧
      (pc₀.jobId = pc.jobId ∨ pc.request.executionId ∈ c.executions) := by
  have hgone (n : Nat) (hn : (c.reports.erase n).lookup k = some pc) :
      ∃ pc₀, c.reports.lookup k = some pc₀ ∧ pc₀.request = pc.request ∧
        (pc₀.jobId = pc.jobId ∨ pc.request.executionId ∈ c.executions) :=
    ⟨pc, (HashMap.lookup_erase_some hn).2, rfl, Or.inl rfl⟩
  have hsame (hn : c.reports.lookup k = some pc) :
      ∃ pc₀, c.reports.lookup k = some pc₀ ∧ pc₀.request = pc.request ∧
        (pc₀.jobId = pc.jobId ∨ pc.request.executionId ∈ c.executions) :=
    ⟨pc, hn, rfl, Or.inl rfl⟩
  cases h with
  | report n report state hfree hstate =>
      rcases HashMap.lookup_insert_some hpc with ⟨rfl, rfl⟩ | ⟨-, hold⟩
      · exact Or.inl ⟨rfl, rfl⟩
      · exact Or.inr (hsame hold)
  | refused a n status ha => exact Or.inr (hgone n hpc)
  | resolvedRunning n report state execution hn hexec hout =>
      rcases HashMap.lookup_insert_some hpc with ⟨rfl, rfl⟩ | ⟨-, hold⟩
      · exact Or.inr ⟨_, hn, rfl, Or.inr (Finmap.mem_of_lookup_eq_some hexec)⟩
      · exact Or.inr (hsame hold)
  | resolvedTerminal n report state execution outcome hn hexec hout =>
      rcases HashMap.lookup_insert_some hpc with ⟨rfl, rfl⟩ | ⟨-, hold⟩
      · exact Or.inr ⟨_, hn, rfl, Or.inr (Finmap.mem_of_lookup_eq_some hexec)⟩
      · exact Or.inr (hsame hold)
  | outcomeStored n report state jobId outcome hn =>
      rcases HashMap.lookup_insert_some hpc with ⟨rfl, rfl⟩ | ⟨-, hold⟩
      · exact Or.inr ⟨_, hn, rfl, Or.inl rfl⟩
      · exact Or.inr (hsame hold)
  | stateUpdated n now report state jobId outcome execution hn hexec =>
      rcases HashMap.lookup_insert_some hpc with ⟨rfl, rfl⟩ | ⟨-, hold⟩
      · exact Or.inr ⟨_, hn, rfl, Or.inl rfl⟩
      · exact Or.inr (hsame hold)
  | outcomeLost n error report state jobId outcome hn => exact Or.inr (hgone n hpc)
  | stateLost n error now report state jobId outcome execution hn hexec =>
      exact Or.inr (hgone n hpc)
  | jobUpdated n now report jobId outcome record hn hjob => exact Or.inr (hgone n hpc)
  | _ => exact Or.inr (hsame hpc)

/-- The calls in progress at Core are about pairs of the store. -/
def CallsPinned (c : CoreState Bytes) (named : Finset String) : Prop :=
  ∀ k pc, c.reports.lookup k = some pc →
    Pinned c named pc.request ∧ (pc.jobId ≠ none → Settled c pc.request)

theorem CallsPinned.takes {a : Core.Act} {o : Core.Out Bytes} (h : Takes cfg c a o c')
    (hfresh : ∀ id ∈ (PipelineAct.core a).draws, id ∉ named)
    (hnew : ∀ k report, a = .report k report → Pinned c named report)
    (hc : CallsPinned c named) : CallsPinned c' named := by
  intro k pc hpc
  rcases call_of_takes h hpc with ⟨rfl, hjob⟩ | ⟨pc₀, hpc₀, hreq, hjob⟩
  · exact ⟨(hnew k _ rfl).takes h hfresh, fun hne => absurd hjob hne⟩
  · have hold := hc k pc₀ hpc₀
    rw [hreq] at hold
    refine ⟨hold.1.takes h hfresh, ?_⟩
    intro hne
    rcases hjob with hsame | hfound
    · exact (hold.2 (hsame ▸ hne)).takes h
    · rcases Finmap.mem_iff.mp hfound with ⟨e, he⟩
      exact (hold.1.settled he).takes h

/-- Core accepts the report of a call that has found its execution. -/
theorem accepted_settled {a : Core.Act} {o : Core.Out Bytes} (h : Takes cfg c a o c')
    (hc : CallsPinned c named) (ho : c.acceptedBy (.core a) (.core o) = some report) :
    Settled c report := by
  cases h with
  | jobUpdated k now report' jobId outcome record hpc hjob =>
      have hreq : report' = report := by
        simpa [CoreState.acceptedBy, CoreState.handling, Core.Act.reportCall, hpc,
          Core.ReportPc.request] using ho
      exact hreq ▸ (hc k _ hpc).2 (by simp [Core.ReportPc.jobId])
  | _ => cases ho

end Pairing

/-! ## The invariant -/

section Identity

variable {Bytes : Type} {cfg : Config Bytes}

/-- Worker `w` has the assignment that the report names, and it is for the
execution that the report names. -/
def NamesPair (p : PipelineState Bytes) (w : String) (report : ReportExecutionRequest) : Prop :=
  ∃ r, p.record w report.assignmentId = some r ∧
    r.assignment.assignmentId = report.assignmentId ∧
    r.assignment.executionId = report.executionId

/-- Reports name pairs wherever they are. -/
structure Tracked (cfg : Config Bytes) (p : PipelineState Bytes) (named : Finset String)
    (sent : List (String × ReportExecutionRequest)) (accepted : List ReportExecutionRequest) :
    Prop where
  inv : PipelineInv cfg p
  calls : CallsPinned p.core named
  sent : ∀ w report, (w, report) ∈ sent → NamesPair p w report
  accepted : ∀ report ∈ accepted, Settled p.core report

variable {p p' : PipelineState Bytes} {named : Finset String}
  {sent : List (String × ReportExecutionRequest)} {accepted : List ReportExecutionRequest}

/-- What the stores say of executions is changed by the control plane only. -/
theorem core_of_advances {a : PipelineAct} {o : PipelineOut Bytes} (h : Advances cfg p a o p') :
    (∃ ca co, a = .core ca ∧ o = .core co ∧ Takes cfg p.core ca co p'.core) ∨
    (p.core.acceptedBy a o = none ∧ p'.core.executions = p.core.executions ∧
      p'.core.schedules = p.core.schedules ∧ p'.core.reports = p.core.reports ∧
      p'.core.drawn = p.core.drawn) := by
  cases h with
  | core a o c h => exact Or.inl ⟨a, o, rfl, rfl, h⟩
  | _ => exact Or.inr ⟨rfl, rfl, rfl, rfl, rfl⟩

theorem Tracked.advances (hdest : ∀ w, cfg.taskDestination ≠ workerDestination w)
    {a : PipelineAct} {o : PipelineOut Bytes} (h : Advances cfg p a o p')
    (hrec : ∀ w id r, p.record w id = some r →
      ∃ r', p'.record w id = some r' ∧ r'.assignment = r.assignment)
    (hfresh : ∀ id ∈ a.draws, id ∉ named)
    (hnew : ∀ k report, a = .core (.report k report) → Pinned p.core named report)
    (ht : Tracked cfg p named sent accepted) :
    Tracked cfg p' named sent (accepted ++ (p.core.acceptedBy a o).toList) := by
  have hsent : ∀ w report, (w, report) ∈ sent → NamesPair p' w report := by
    intro w report hmem
    rcases ht.sent w report hmem with ⟨r, hr, hid, hx⟩
    rcases hrec w _ r hr with ⟨r', hr', hasg⟩
    exact ⟨r', hr', by rw [hasg]; exact hid, by rw [hasg]; exact hx⟩
  have hinv := pipelineInv_step hdest h ht.inv
  rcases core_of_advances h with ⟨ca, co, rfl, rfl, htakes⟩ | ⟨hnone, hex, hsch, hrep, hdrawn⟩
  · refine ⟨hinv, ht.calls.takes htakes hfresh ?_, hsent, ?_⟩
    · rintro k report rfl
      exact hnew k report rfl
    · intro report hmem
      rcases List.mem_append.mp hmem with hold | hlast
      · exact (ht.accepted report hold).takes htakes
      · exact (accepted_settled htakes ht.calls (Option.mem_toList.mp hlast)).takes htakes
  · refine ⟨hinv, ?_, hsent, ?_⟩
    · intro k pc hpc
      have hold := ht.calls k pc (hrep ▸ hpc)
      simpa only [Pinned, Settled, Paired, hex, hsch, hdrawn] using hold
    · rw [hnone, Option.toList_none, List.append_nil]
      simpa only [Settled, hex] using ht.accepted

/-- What a worker has a record of is in the store. -/
theorem NamesPair.settled {w : String} {report : ReportExecutionRequest}
    (hinv : PipelineInv cfg p) (hn : NamesPair p w report) : Settled p.core report := by
  rcases hn with ⟨r, hr, hid, hx⟩
  rcases record_eq_some.mp hr with ⟨node, hnode, hlook⟩
  rcases (hinv.nodes w node hnode).pending _ r hlook with ⟨e, he, hident⟩
  have hasg : e.assignmentId = r.assignment.assignmentId := congrArg (fun x => x.2.2.1) hident
  exact ⟨e, hx ▸ he, hasg.trans hid⟩

/-- An event leaves its worker alone, or goes through as one of its calls; a
report is about the assignment and the execution of that call. -/
theorem event_step {w : String} {node : WorkerNode} {event : RuntimeEvent} {m : Moment}
    {q : Worker.PendingState} {result : Handled}
    (hnode : p.workers.lookup w = some node)
    (hevent : Worker.handleEvent cfg.states node.state.pending event m = (q, result)) :
    (p.setPending w node q = p ∧ result.report = none) ∨
    ∃ c reply r, p.step cfg (.worker w (.call c m.instant)) =
        some (p.setPending w node q, .worker (.called (.ok reply))) ∧
      node.state.pending.Accepts c r ∧
      ∀ report, result.report = some report →
        report.assignmentId = c.assignmentId ∧ report.executionId = c.executionId := by
  rcases Worker.handleEvent_calls cfg.states node.state.pending event m with
    ⟨res, he⟩ | ⟨c, reply, q', -, hcall, hout⟩
  · rw [hevent, Prod.mk.injEq] at he
    rcases he with ⟨rfl, rfl⟩
    refine Or.inl ⟨?_, rfl⟩
    unfold PipelineState.setPending PipelineState.setNode
    rw [HashMap.insert_of_lookup hnode]
  · right
    have hacc : ∃ r, node.state.pending.Accepts c r := by
      rcases Worker.PendingState.onCall_cases node.state.pending c m.instant with
        ⟨status, h⟩ | ⟨r, reply', hacc, h⟩
      · rw [hcall] at h
        cases h
      · exact ⟨r, hacc⟩
    rcases hacc with ⟨r, hacc⟩
    have hq : q = q' ∧ ∀ report, result.report = some report →
        report.assignmentId = c.assignmentId ∧ report.executionId = c.executionId := by
      rcases hout with ⟨-, he⟩ | ⟨-, report, he, hreports⟩
      · rw [hevent, Prod.mk.injEq] at he
        rcases he with ⟨hq, rfl⟩
        exact ⟨hq, nofun⟩
      · rw [hevent, Prod.mk.injEq] at he
        rcases he with ⟨hq, rfl⟩
        refine ⟨hq, ?_⟩
        rintro report' ⟨⟩
        exact ⟨hreports.assignment, hreports.execution⟩
    rcases hq with ⟨rfl, hreport⟩
    refine ⟨c, reply, r, ?_, hacc, hreport⟩
    simp [PipelineState.step, hnode, Worker.Act.isEnqueue, Worker.WorkerState.step, hcall,
      PipelineState.setPending]

/-- The reports that callers make up name pairs: a report to the RPC the pair
of the worker's own record, a report to Core no pair that Core contradicts. -/
def ReportsPaired (s : SystemState Bytes) : SystemAct → Prop
  | .rpc w _ report => ∀ r ∈ s.pipeline.record w report.assignmentId,
      r.assignment.executionId = report.executionId
  | .direct _ report => Paired s.pipeline.core report
  | _ => True

instance (s : SystemState Bytes) (a : SystemAct) : Decidable (ReportsPaired s a) :=
  match a with
  | .rpc w _ report => inferInstanceAs (Decidable (∀ r ∈ s.pipeline.record w report.assignmentId,
      r.assignment.executionId = report.executionId))
  | .direct _ report => inferInstanceAs (Decidable (Paired s.pipeline.core report))
  | .pipeline _ => isTrue trivial
  | .event _ _ _ _ => isTrue trivial
  | .arrive _ _ _ => isTrue trivial
  | .coreReplies _ _ _ => isTrue trivial

theorem Tracked.mono {named' : Finset String} (ht : Tracked cfg p named sent accepted)
    (hsub : named ⊆ named') : Tracked cfg p named' sent accepted where
  inv := ht.inv
  calls := fun k pc hpc => ⟨(ht.calls k pc hpc).1.mono hsub, (ht.calls k pc hpc).2⟩
  sent := ht.sent
  accepted := ht.accepted

/-- A worker sends a report that names a pair, or none. -/
theorem Tracked.send {w : String} {report : Option ReportExecutionRequest}
    (ht : Tracked cfg p named sent accepted) (hpair : ∀ r, report = some r → NamesPair p w r) :
    Tracked cfg p named (sent ++ report.toList.map (w, ·)) accepted where
  inv := ht.inv
  calls := ht.calls
  sent := by
    intro v r hmem
    rcases List.mem_append.mp hmem with hold | hnew
    · exact ht.sent v r hold
    · rcases List.mem_map.mp hnew with ⟨r', hr', he⟩
      cases he
      exact hpair r (Option.mem_toList.mp hr')
  accepted := ht.accepted

/-- A call of Core begins with a report that is pinned. -/
theorem Tracked.call (hdest : ∀ w, cfg.taskDestination ≠ workerDestination w) {k : Nat}
    {report : ReportExecutionRequest} {o : Core.Out Bytes} {c : CoreState Bytes}
    (h : Takes cfg p.core (.report k report) o c) (hpin : Pinned p.core named report)
    (ht : Tracked cfg p named sent accepted) :
    Tracked cfg { p with core := c } named sent accepted := by
  have hadv : Advances cfg p (.core (.report k report)) (.core o) { p with core := c } :=
    .core _ o c h
  have hnext := ht.advances hdest hadv (fun w id r hr => ⟨r, hr, rfl⟩) (by simp [PipelineAct.draws])
    (by
      intro k' report' he
      cases he
      exact hpin)
  exact ⟨hnext.inv, hnext.calls, hnext.sent,
    fun r hr => hnext.accepted r (List.mem_append_left _ hr)⟩

theorem tracked_step (hdest : ∀ w, cfg.taskDestination ≠ workerDestination w)
    {s s' : SystemState Bytes} {a : SystemAct} {o : SystemOut Bytes} (h : Moves cfg s a o s')
    (hcond : ReportsPaired s a) (ht : Tracked cfg s.pipeline s.named s.sent s.accepted) :
    Tracked cfg s'.pipeline s'.named s'.sent s'.accepted := by
  cases h with
  | pipeline a o p hentry hfresh hstep =>
      refine ht.advances hdest (pipeline_advances hstep) ?_ hfresh ?_
      · intro w id r hr
        exact record_stays ht.inv hstep hr
      · rintro k report rfl
        cases hentry
  | event w n event m node q result o s' hnode hevent hs' =>
      rcases handled_eq hs' with ⟨hpipe, hacc, hnamed, hsent⟩
      rw [hpipe, hacc, hnamed, hsent]
      rcases event_step hnode hevent with ⟨hsame, hnone⟩ | ⟨c, reply, r, hstep, hcall, hreport⟩
      · -- nothing has happened
        simp only [hsame, hnone]
        simpa using ht
      · have hadv := ht.advances hdest (pipeline_advances hstep)
          (fun w id r hr => record_stays ht.inv hstep hr) (by simp [PipelineAct.draws]) nofun
        have hquiet : s.pipeline.core.acceptedBy (.worker w (.call c m.instant))
            (.worker (.called (.ok reply))) = none := rfl
        rw [hquiet, Option.toList_none, List.append_nil] at hadv
        refine hadv.send ?_
        intro report hrep
        rcases hreport report hrep with ⟨hid, hx⟩
        -- the record that `validate` has found
        have hrec : s.pipeline.record w report.assignmentId = some r :=
          record_eq_some.mpr ⟨node, hnode, hid ▸ hcall.found⟩
        have hkey : r.assignment.assignmentId = report.assignmentId :=
          ((ht.inv.nodes w node hnode).inv.rep.records _ r (hid ▸ hcall.found)).keyed
        rcases record_stays ht.inv hstep hrec with ⟨r', hr', hasg⟩
        refine ⟨r', hr', by rw [hasg]; exact hkey, ?_⟩
        rw [hasg, hcall.execution, hx]
  | rpc w n report node o s' hnode hs' =>
      rcases handled_eq hs' with ⟨hpipe, hacc, hnamed, hsent⟩
      rw [hpipe, hacc, hnamed, hsent]
      refine (ht.mono Finset.subset_union_left).send ?_
      intro report' hrep
      unfold Worker.reportExecution at hrep
      split at hrep
      · cases hrep
      · rename_i r hlook
        cases hrep
        have hrec : s.pipeline.record w report.assignmentId = some r :=
          record_eq_some.mpr ⟨node, hnode, hlook⟩
        exact ⟨r, hrec, ((ht.inv.nodes w node hnode).inv.rep.records _ r hlook).keyed,
          hcond r hrec⟩
  | arrive k w report o c hsent htakes =>
      exact ht.call hdest htakes (Or.inl ((ht.sent w report hsent).settled ht.inv))
  | direct k report o c htakes =>
      have hname : report.executionId ∈ s.named ∪ {report.assignmentId, report.executionId} := by
        simp
      exact (ht.mono Finset.subset_union_left).call hdest htakes (Or.inr ⟨hcond, Or.inl hname⟩)
  | replied w n answer report => exact ht

/-! ## The law -/

/-- Every report that Core accepted carries the assignment of its execution's
record, and every report that a worker forwarded names one of its assignments. -/
structure ReportIdentity (s : SystemState Bytes) : Prop where
  accepted : ∀ report ∈ s.accepted, ∃ e,
    s.pipeline.core.executions.lookup report.executionId = some e ∧
      e.assignmentId = report.assignmentId
  forwarded : ∀ w report, (w, report) ∈ s.sent → ∃ r,
    s.pipeline.record w report.assignmentId = some r ∧
      r.assignment.assignmentId = report.assignmentId ∧
      r.assignment.executionId = report.executionId

/-- **Report identity.** In every run in which the reports handed to the RPC and
to Core directly name pairs, reports name pairs in every state reached. -/
theorem report_identity (hdest : ∀ w, cfg.taskDestination ≠ workerDestination w)
    {registry : MemoryWorkerRegistry} {tr : List (SystemAct × SystemOut Bytes)}
    {s : SystemState Bytes} (h : (system cfg registry).Run tr s)
    (hcond : (system cfg registry).Conforms ReportsPaired tr) : ReportIdentity s := by
  have ht : Tracked cfg s.pipeline s.named s.sent s.accepted := by
    refine h.history_conforms
      (P := fun _ s => Tracked cfg s.pipeline s.named s.sent s.accepted) ?_ ?_ hcond
    · refine ⟨pipeline_inv hdest (.refl : (pipeline cfg registry).Run [] _), ?_, ?_, ?_⟩
      · intro k pc hpc
        simp [system, pipeline, CoreState.start] at hpc
      · simp [system]
      · simp [system]
    · intro tr s a t o _ ht hc hs
      exact tracked_step hdest (system_moves hs) hc ht
  exact ⟨ht.accepted, ht.sent⟩

/-! ## A report that mixes two assignments -/

/-- Two tasks go through to worker `w`: execution `x` of assignment `j-a` and
execution `y` of assignment `i-a`. -/
def twoDeliveries : List PipelineAct :=
  [.core (.register (Core.plainWorker "w") 0), .start "w",
   .core (.submit "j" "m" Core.plainRequest 1), .core (.published "j" (.ok ())),
   .core (.submit "i" "n" Core.plainRequest 1), .core (.published "i" (.ok ()))] ++
  (Core.scheduled "j" "x" 0).map .core ++ (Core.scheduled "i" "y" 1).map .core ++
  [.receive "w", .enqueue "w", .receive "w", .enqueue "w"]

/-- A RUNNING report on execution `x` in the name of assignment `asg`. -/
def runningReport (asg x : String) : ReportExecutionRequest :=
  { Core.plainReport x .running none with assignmentId := asg }

/-- Call `k` of Core, from the lookup to its end. -/
def handledByCore (k : Nat) : List SystemAct :=
  [.pipeline (.core (.resolved k (.ok ()))), .pipeline (.core (.stateUpdated k .done 5)),
   .pipeline (.core (.jobUpdated k 6))]

/-- The RPC of worker `w` forwards `report` to Core. -/
def rpcThrough (report : ReportExecutionRequest) : List SystemAct :=
  [.rpc "w" 0 report, .arrive 0 "w" report] ++ handledByCore 0 ++ [.coreReplies "w" 0 .accepted]

/-- A report on each of the three ways: an event of a session, the RPC, a direct call. -/
def threeWays : List SystemAct :=
  twoDeliveries.map .pipeline ++
  [.pipeline (.worker "w" (.connect "s" ⟨0⟩)), .pipeline (.worker "w" (.nextFor "s")),
   .event "w" 1 ⟨some (.executionStarted ⟨"j-a", "x", 1, none⟩)⟩ ⟨10, 1000, "r1"⟩] ++
  rpcThrough (runningReport "j-a" "x") ++
  [.direct 1 (runningReport "i-a" "y")] ++ handledByCore 1

theorem report_identity_threeWays : ∃ tr s,
    (system Core.symbolicConfig (.new 30 (by decide))).Run tr s ∧
      tr.map Prod.fst = threeWays ∧
      s.accepted = [runningReport "j-a" "x", runningReport "i-a" "y"] ∧ s.sent.length = 2 ∧
      ReportIdentity s := by
  rcases Machine.run_of_exec (system Core.symbolicConfig (.new 30 (by decide))) threeWays
    (P := fun _ s => s.accepted = [runningReport "j-a" "x", runningReport "i-a" "y"] ∧
      s.sent.length = 2)
    (by decide +kernel) with ⟨tr, s, hrun, hacts, haccepted, hsent⟩
  have hcond : (system Core.symbolicConfig (.new 30 (by decide))).Conforms ReportsPaired tr := by
    apply Machine.conforms_of_checks
    rw [hacts]
    decide +kernel
  exact ⟨tr, s, hrun, hacts, haccepted, hsent,
    report_identity Core.symbolicConfig_taskDestination hrun hcond⟩

/-- The RPC forwards a report on execution `y` in the name of the assignment of
`x`, and Core accepts it. -/
theorem mixed_report_accepted : ∃ tr s,
    (system Core.symbolicConfig (.new 30 (by decide))).Run tr s ∧
      tr.map Prod.fst = twoDeliveries.map .pipeline ++ rpcThrough (runningReport "j-a" "y") ∧
      (¬ ∀ report ∈ s.accepted, ∃ e,
        s.pipeline.core.executions.lookup report.executionId = some e ∧
          e.assignmentId = report.assignmentId) ∧
      ¬ ∀ w report, (w, report) ∈ s.sent → ∃ r,
        s.pipeline.record w report.assignmentId = some r ∧
          r.assignment.assignmentId = report.assignmentId ∧
          r.assignment.executionId = report.executionId := by
  rcases Machine.run_of_exec (system Core.symbolicConfig (.new 30 (by decide)))
    (twoDeliveries.map .pipeline ++ rpcThrough (runningReport "j-a" "y"))
    (P := fun _ s => runningReport "j-a" "y" ∈ s.accepted ∧
      ("w", runningReport "j-a" "y") ∈ s.sent ∧
      (s.pipeline.core.executions.lookup "y").map (fun e => e.assignmentId) = some "i-a" ∧
      (s.pipeline.record "w" "j-a").map (fun r => r.assignment.executionId) = some "x")
    (by decide +kernel) with ⟨tr, s, hrun, hacts, haccepted, hsent, hstore, hrecord⟩
  refine ⟨tr, s, hrun, hacts, ?_, ?_⟩
  · intro hall
    rcases hall _ haccepted with ⟨e, he, hasg⟩
    have hlook : s.pipeline.core.executions.lookup "y" = some e := he
    rw [hlook, Option.map_some, Option.some.injEq, hasg] at hstore
    revert hstore
    decide
  · intro hall
    rcases hall "w" _ hsent with ⟨r, hr, -, hx⟩
    have hlook : s.pipeline.record "w" "j-a" = some r := hr
    rw [hlook, Option.map_some, Option.some.injEq, hx] at hrecord
    revert hrecord
    decide

end Identity

end ThreadWeave
