import ThreadWeave.Registry.Service

/-!
# A worker and its membership

One worker process in `run_until_shutdown` (`worker.rs`) against the registry of
the control plane: it registers once, and from then on `heartbeat_loop` sends
one heartbeat after the other while the runtime service forwards reports.
Requests and answers travel as long as they like or get lost, time passes, and
everybody else may call the registry.

* `membership` — the worker, the network and the registry as one machine.
* `Inv` — a worker that has registered has no registration under way.
* `Lapsed` — its membership has ended; `Lapsed.step`: nothing the worker does
  ends that.
* `lapse_of_membership` — after each heartbeat that was answered.
-/

namespace ThreadWeave

/-- The registry after one call. -/
def MemoryWorkerRegistry.call (r : MemoryWorkerRegistry) (op : RegistryOp) (now : Instant)
    (wall : Timestamp) : MemoryWorkerRegistry :=
  match op with
  | .register registration => (r.register registration now wall).1
  | .heartbeat workerId generation => (r.heartbeat workerId generation now wall).1
  | .availableWorkers => (r.availableWorkers now).1

namespace Membership

open Runs (HashMap Machine)

/-! ## The worker -/

/-- A `Worker`: the ids are the texts of two UUIDs. -/
structure Worker where
  workerId : Rust.Str
  workerId_ne : workerId.1 ≠ ""
  generation : Rust.Str
  generation_ne : generation.1 ≠ ""
  runtimeAddress : String
  resources : ResourceRequirements

def Worker.registration (worker : Worker) : WorkerRegistration where
  workerId := worker.workerId
  generation := worker.generation
  implementationVersion := "0.1.10"
  endpoint := worker.runtimeAddress

/-- The heartbeat of `heartbeat_loop` with that number. -/
def Worker.heartbeat (worker : Worker) (sequenceNumber : Nat) (observedAt : Timestamp) :
    RuntimeHeartbeat where
  runtimeId := workerIncarnationId worker.workerId worker.generation
  sequenceNumber := sequenceNumber
  availableResources := some worker.resources
  observedAt := some observedAt

/-- Where `run_until_shutdown` stands. -/
inductive Phase where
  | ready
  | registering
  /-- the heartbeat loop, with the number of the last heartbeat and whether its
  answer is still awaited -/
  | running (sequenceNumber : Nat) (awaiting : Bool)
  /-- returned, because the registration was refused -/
  | failed
  /-- returned, after it had been running -/
  | stopped
deriving DecidableEq

/-- The registration was accepted. -/
def Phase.registered : Phase → Bool
  | .running _ _ | .stopped => true
  | _ => false

/-! ## The machine -/

/-- What a worker asks of the control plane. -/
inductive Request where
  | register (request : RegisterWorkerRequest)
  | heartbeat (request : ReportHeartbeatRequest)
  | report (request : ReportExecutionRequest)
deriving DecidableEq

def Request.isRegister : Request → Bool
  | .register _ => true
  | _ => false

/-- What it is answered; the answers to reports are left out. -/
inductive Response where
  | registered (response : Except Status RegisterWorkerResponse)
  | beat (response : Except Status ReportHeartbeatResponse)
deriving DecidableEq

inductive Act where
  /-- time passes -/
  | pass (duration : Duration)
  | start
  /-- the interval of the heartbeat loop ticks -/
  | tick (observedAt : Timestamp)
  | forward (report : ReportExecutionRequest)
  /-- the control plane takes up a request -/
  | serve (i : Nat) (wall : Timestamp)
  /-- an answer reaches the call that waits for it -/
  | receive (i : Nat)
  /-- the call that the worker waits for fails on the way -/
  | disconnect
  | shutdown
  /-- somebody else calls the registry -/
  | other (op : RegistryOp) (wall : Timestamp)
deriving DecidableEq

inductive Event where
  | silent
  | sent (request : Request)
  | answered (request : Request) (response : Response)
  | panicked (panic : Rust.Panic)
deriving DecidableEq

structure State where
  registry : MemoryWorkerRegistry
  clock : Instant
  phase : Phase
  /-- under way to the control plane -/
  requests : List Request
  /-- under way back -/
  responses : List (Request × Response)

namespace State

def send (s : State) (request : Request) (phase : Phase) : State × Event :=
  ({ s with requests := s.requests ++ [request], phase := phase }, .sent request)

/-- The control plane has handled the `i`th request and answers it. -/
def answer (s : State) (i : Nat) (registry : MemoryWorkerRegistry) (request : Request)
    (response : Response) : State × Event :=
  ({ s with
      registry := registry
      requests := s.requests.eraseIdx i
      responses := s.responses ++ [(request, response)] },
    .answered request response)

def serve (s : State) (i : Nat) (wall : Timestamp) : Option (State × Event) :=
  match s.requests[i]? with
  | none => none
  | some (.register request) =>
      let r := MemoryWorkerRegistry.service.registerWorker s.registry request s.clock wall
      some (s.answer i r.1 (.register request) (.registered r.2))
  | some (.heartbeat request) =>
      match MemoryWorkerRegistry.service.reportHeartbeat s.registry request s.clock wall with
      | .error panic => some ({ s with requests := s.requests.eraseIdx i }, .panicked panic)
      | .ok r => some (s.answer i r.1 (.heartbeat request) (.beat r.2))
  -- `report_execution` has no business with the registry
  | some (.report _) => some ({ s with requests := s.requests.eraseIdx i }, .silent)

def receive (s : State) (i : Nat) : Option (State × Event) :=
  match s.responses[i]?, s.phase with
  | some (.register _, .registered (.ok response)), .registering =>
      let phase := if response.accepted then .running 0 false else .failed
      some ({ s with responses := s.responses.eraseIdx i, phase := phase }, .silent)
  | some (.register _, .registered (.error _)), .registering =>
      some ({ s with responses := s.responses.eraseIdx i, phase := .failed }, .silent)
  -- whatever a heartbeat was answered, the loop goes on
  | some (.heartbeat ⟨some heartbeat⟩, .beat _), .running n true =>
      if heartbeat.sequenceNumber = n then
        some ({ s with responses := s.responses.eraseIdx i, phase := .running n false }, .silent)
      else none
  | _, _ => none

def step (worker : Worker) (s : State) : Act → Option (State × Event)
  | .pass duration => some ({ s with clock := s.clock + duration }, .silent)
  | .start =>
      match s.phase with
      | .ready => some (s.send (.register ⟨some worker.registration⟩) .registering)
      | _ => none
  | .tick observedAt =>
      match s.phase with
      | .running n false =>
          some (s.send (.heartbeat ⟨some (worker.heartbeat (n + 1) observedAt)⟩)
            (.running (n + 1) true))
      | _ => none
  | .forward report =>
      match s.phase with
      | .running _ _ => some (s.send (.report report) s.phase)
      | _ => none
  | .serve i wall => s.serve i wall
  | .receive i => s.receive i
  | .disconnect =>
      match s.phase with
      | .registering => some ({ s with phase := .failed }, .silent)
      | .running n true => some ({ s with phase := .running n false }, .silent)
      | _ => none
  | .shutdown =>
      match s.phase with
      | .running _ _ => some ({ s with phase := .stopped }, .silent)
      | _ => none
  | .other op wall => some ({ s with registry := s.registry.call op s.clock wall }, .silent)

end State

def membership (worker : Worker) (ttl : Duration) (hpos : 0 < ttl) :
    Machine State Act Event where
  init :=
    { registry := .new ttl hpos, clock := 0, phase := .ready, requests := [], responses := [] }
  step := State.step worker

/-! ## What a step can do -/

/-- A call of the worker returns, and where that leaves `run_until_shutdown`. -/
inductive Returns : Phase → Bool → Phase → Prop where
  | registered : Returns .registering true (.running 0 false)
  | refused (register : Bool) : Returns .registering register .failed
  | beat (n : Nat) (register : Bool) : Returns (.running n true) register (.running n false)

/-- One step of the machine. -/
inductive Moves (worker : Worker) (s : State) : Act → Event → State → Prop where
  | pass (duration : Duration) :
      Moves worker s (.pass duration) .silent { s with clock := s.clock + duration }
  | start (hphase : s.phase = .ready) :
      Moves worker s .start (.sent (.register ⟨some worker.registration⟩))
        { s with
          requests := s.requests ++ [.register ⟨some worker.registration⟩]
          phase := .registering }
  | tick (n : Nat) (observedAt : Timestamp) (hphase : s.phase = .running n false) :
      Moves worker s (.tick observedAt)
        (.sent (.heartbeat ⟨some (worker.heartbeat (n + 1) observedAt)⟩))
        { s with
          requests := s.requests ++ [.heartbeat ⟨some (worker.heartbeat (n + 1) observedAt)⟩]
          phase := .running (n + 1) true }
  | forward (report : ReportExecutionRequest) (n : Nat) (awaiting : Bool)
      (hphase : s.phase = .running n awaiting) :
      Moves worker s (.forward report) (.sent (.report report))
        { s with requests := s.requests ++ [.report report] }
  | registration (i : Nat) (wall : Timestamp) (request : RegisterWorkerRequest)
      (hrequest : s.requests[i]? = some (.register request))
      (r : MemoryWorkerRegistry × Except Status RegisterWorkerResponse)
      (hserved : MemoryWorkerRegistry.service.registerWorker s.registry request s.clock wall =
        r) :
      Moves worker s (.serve i wall) (.answered (.register request) (.registered r.2))
        { s with
          registry := r.1
          requests := s.requests.eraseIdx i
          responses := s.responses ++ [(.register request, .registered r.2)] }
  | heartbeat (i : Nat) (wall : Timestamp) (request : ReportHeartbeatRequest)
      (hrequest : s.requests[i]? = some (.heartbeat request))
      (r : MemoryWorkerRegistry × Except Status ReportHeartbeatResponse)
      (hserved : MemoryWorkerRegistry.service.reportHeartbeat s.registry request s.clock wall =
        .ok r) :
      Moves worker s (.serve i wall) (.answered (.heartbeat request) (.beat r.2))
        { s with
          registry := r.1
          requests := s.requests.eraseIdx i
          responses := s.responses ++ [(.heartbeat request, .beat r.2)] }
  | panicked (i : Nat) (wall : Timestamp) (panic : Rust.Panic) :
      Moves worker s (.serve i wall) (.panicked panic)
        { s with requests := s.requests.eraseIdx i }
  | report (i : Nat) (wall : Timestamp) :
      Moves worker s (.serve i wall) .silent { s with requests := s.requests.eraseIdx i }
  | receive (i : Nat) (x : Request × Response) (phase : Phase)
      (hresponse : s.responses[i]? = some x) (hphase : Returns s.phase x.1.isRegister phase) :
      Moves worker s (.receive i) .silent
        { s with responses := s.responses.eraseIdx i, phase := phase }
  | disconnect (phase : Phase) (hphase : Returns s.phase false phase) :
      Moves worker s .disconnect .silent { s with phase := phase }
  | shutdown (n : Nat) (awaiting : Bool) (hphase : s.phase = .running n awaiting) :
      Moves worker s .shutdown .silent { s with phase := .stopped }
  | other (op : RegistryOp) (wall : Timestamp) :
      Moves worker s (.other op wall) .silent
        { s with registry := s.registry.call op s.clock wall }

section Step

variable {worker : Worker} {s s' : State} {a : Act} {e : Event}

theorem serve_moves {i : Nat} {wall : Timestamp} (h : s.serve i wall = some (s', e)) :
    Moves worker s (.serve i wall) e s' := by
  unfold State.serve at h
  split at h
  · cases h
  · rename_i request hrequest
    cases h
    exact .registration i wall request hrequest _ rfl
  · rename_i request hrequest
    split at h
    · cases h
      exact .panicked i wall _
    · rename_i r hserved
      cases h
      exact .heartbeat i wall request hrequest r hserved
  · cases h
    exact .report i wall

theorem receive_moves {i : Nat} (h : s.receive i = some (s', e)) :
    Moves worker s (.receive i) e s' := by
  unfold State.receive at h
  split at h
  · rename_i request response hresponse hphase
    cases h
    refine .receive i _ _ hresponse ?_
    rw [hphase]
    split_ifs
    · exact .registered
    · exact .refused _
  · rename_i hresponse hphase
    cases h
    refine .receive i _ _ hresponse ?_
    rw [hphase]
    exact .refused _
  · rename_i hresponse hphase
    split_ifs at h
    cases h
    refine .receive i _ _ hresponse ?_
    rw [hphase]
    exact .beat _ _
  · cases h

theorem step_moves (h : s.step worker a = some (s', e)) : Moves worker s a e s' := by
  cases a with
  | pass duration =>
      cases h
      exact .pass duration
  | start =>
      simp only [State.step] at h
      split at h
      · rename_i hphase
        cases h
        exact .start hphase
      · cases h
  | tick observedAt =>
      simp only [State.step] at h
      split at h
      · rename_i n hphase
        cases h
        exact .tick n observedAt hphase
      · cases h
  | forward report =>
      simp only [State.step] at h
      split at h
      · rename_i n awaiting hphase
        cases h
        exact .forward report n awaiting hphase
      · cases h
  | serve i wall => exact serve_moves h
  | receive i => exact receive_moves h
  | disconnect =>
      simp only [State.step] at h
      split at h
      · rename_i hphase
        cases h
        exact .disconnect _ (hphase ▸ .refused false)
      · rename_i n hphase
        cases h
        exact .disconnect _ (hphase ▸ .beat n false)
      · cases h
  | shutdown =>
      simp only [State.step] at h
      split at h
      · rename_i n awaiting hphase
        cases h
        exact .shutdown n awaiting hphase
      · cases h
  | other op wall =>
      cases h
      exact .other op wall

/-! ## Registrations and heartbeats under way -/

/-- What is under way fits where the worker stands. -/
structure Inv (worker : Worker) (s : State) : Prop where
  ready : s.phase = .ready → s.requests = [] ∧ s.responses = []
  /-- the worker registers once -/
  once : s.requests.countP Request.isRegister +
    s.responses.countP (fun x => x.1.isRegister) ≤ 1
  gone : s.phase.registered = true → ∀ r ∈ s.requests, r.isRegister = false
  own : ∀ r, .heartbeat r ∈ s.requests →
    s.phase.registered = true ∧ ∃ n observedAt, r = ⟨some (worker.heartbeat n observedAt)⟩

theorem Returns.registered_of {phase phase' : Phase} {register : Bool}
    (h : Returns phase register phase') :
    phase ≠ .ready ∧ phase' ≠ .ready ∧ (phase.registered = true → phase'.registered = true) ∧
    (phase'.registered = true → phase.registered = true ∨ register = true) := by
  cases h with
  | registered => simp [Phase.registered]
  | refused register => simp [Phase.registered]
  | beat n register => simp [Phase.registered]

/-- How many registrations a list has left when one entry is taken out. -/
theorem countP_eraseIdx {α : Type*} {p : α → Bool} {l : List α} {i : Nat} {x : α}
    (h : l[i]? = some x) : l.countP p = (l.eraseIdx i).countP p + if p x then 1 else 0 := by
  rcases List.getElem?_eq_some_iff.mp h with ⟨hi, rfl⟩
  have hperm := List.getElem_cons_eraseIdx_perm hi
  rw [← hperm.countP_eq p, List.countP_cons]

theorem inv_init (worker : Worker) (ttl : Duration) (hpos : 0 < ttl) :
    Inv worker (membership worker ttl hpos).init where
  ready := fun _ => ⟨rfl, rfl⟩
  once := Nat.zero_le 1
  gone := by
    intro h
    cases h
  own := by
    intro r hr
    cases hr

/-- A request is taken out, and perhaps answered; it was no registration. -/
theorem Inv.erase {i : Nat} {registry : MemoryWorkerRegistry}
    {responses : List (Request × Response)} (h : Inv worker s)
    (hresponses : responses.countP (fun x => x.1.isRegister) ≤
      s.responses.countP fun x => x.1.isRegister)
    (hready : s.phase = .ready → responses = []) :
    Inv worker { s with
      registry := registry, requests := s.requests.eraseIdx i, responses := responses } where
  ready := by
    intro hphase
    refine ⟨?_, hready hphase⟩
    show s.requests.eraseIdx i = []
    rw [(h.ready hphase).1, List.eraseIdx_nil]
  once := by
    have hless := (List.eraseIdx_sublist s.requests i).countP_le (p := Request.isRegister)
    have honce := h.once
    show (s.requests.eraseIdx i).countP _ + responses.countP _ ≤ 1
    omega
  gone := fun hphase r hr => h.gone hphase r ((List.eraseIdx_sublist _ _).subset hr)
  own := fun r hr => h.own r ((List.eraseIdx_sublist _ _).subset hr)

/-- A worker that has registered sends something other than a registration. -/
theorem Inv.send {request : Request} {phase : Phase} (h : Inv worker s)
    (hregistered : s.phase.registered = true) (hphase : phase.registered = true)
    (hrequest : request.isRegister = false)
    (hown : ∀ r, request = .heartbeat r →
      ∃ n observedAt, r = ⟨some (worker.heartbeat n observedAt)⟩) :
    Inv worker { s with requests := s.requests ++ [request], phase := phase } where
  ready := by
    rintro rfl
    cases hphase
  once := by
    have honce := h.once
    show (s.requests ++ [request]).countP _ + s.responses.countP _ ≤ 1
    rw [List.countP_append, List.countP_singleton, hrequest]
    exact honce
  gone := by
    intro _ r hr
    rcases List.mem_append.mp hr with hr | hr
    · exact h.gone hregistered r hr
    · rw [List.mem_singleton.mp hr]
      exact hrequest
  own := by
    intro r hr
    refine ⟨hphase, ?_⟩
    rcases List.mem_append.mp hr with hr | hr
    · exact (h.own r hr).2
    · exact hown r (List.mem_singleton.mp hr).symm

/-- The worker goes on, and perhaps takes an answer. -/
theorem Inv.move {phase : Phase} {responses : List (Request × Response)} (h : Inv worker s)
    (hresponses : responses.Sublist s.responses) (hready : phase ≠ .ready)
    (hkept : s.phase.registered = true → phase.registered = true)
    (hnew : phase.registered = true → s.phase.registered = true ∨
      0 < s.responses.countP fun x => x.1.isRegister) :
    Inv worker { s with responses := responses, phase := phase } where
  ready := fun hphase => absurd hphase hready
  once := by
    have hless := hresponses.countP_le (p := fun x => x.1.isRegister)
    have honce := h.once
    show s.requests.countP _ + responses.countP _ ≤ 1
    omega
  gone := by
    intro hphase
    rcases hnew hphase with hold | hanswered
    · exact h.gone hold
    · -- the one registration has been answered
      have honce := h.once
      have hnone : s.requests.countP Request.isRegister = 0 := by omega
      rw [List.countP_eq_zero] at hnone
      intro r hr
      exact Bool.eq_false_iff.mpr (hnone r hr)
  own := fun r hr => ⟨hkept (h.own r hr).1, (h.own r hr).2⟩

theorem Inv.step (h : Inv worker s) (hstep : s.step worker a = some (s', e)) :
    Inv worker s' := by
  have hmem {i : Nat} {request : Request} (hi : s.requests[i]? = some request) :
      s.phase ≠ .ready := by
    intro hready
    rw [(h.ready hready).1] at hi
    cases hi
  cases step_moves hstep with
  | pass duration => exact ⟨h.ready, h.once, h.gone, h.own⟩
  | start hphase =>
      rcases h.ready hphase with ⟨hrequests, hresponses⟩
      refine ⟨by simp, ?_, by simp [Phase.registered], ?_⟩
      · simp [hrequests, hresponses, Request.isRegister]
      · intro r hr
        simp [hrequests] at hr
  | tick n observedAt hphase =>
      have hregistered : s.phase.registered = true := by rw [hphase, Phase.registered]
      refine h.send hregistered rfl rfl ?_
      intro r hr
      rw [Request.heartbeat.injEq] at hr
      exact ⟨n + 1, observedAt, hr.symm⟩
  | forward report n awaiting hphase =>
      have hregistered : s.phase.registered = true := by rw [hphase, Phase.registered]
      exact h.send hregistered hregistered rfl fun r hr => nomatch hr
  | registration i wall request hrequest r hserved =>
      have hcount : s.requests.countP Request.isRegister =
          (s.requests.eraseIdx i).countP Request.isRegister + 1 := countP_eraseIdx hrequest
      have hone : [(Request.register request, Response.registered r.2)].countP
          (fun x => x.1.isRegister) = 1 := rfl
      refine ⟨fun hphase => absurd hphase (hmem hrequest), ?_, ?_, ?_⟩
      · have honce := h.once
        show (s.requests.eraseIdx i).countP _ + (s.responses ++ _).countP _ ≤ 1
        rw [List.countP_append, hone]
        omega
      · exact fun hphase r hr => h.gone hphase r ((List.eraseIdx_sublist _ _).subset hr)
      · exact fun r hr => h.own r ((List.eraseIdx_sublist _ _).subset hr)
  | heartbeat i wall request hrequest r hserved =>
      refine h.erase ?_ fun hphase => absurd hphase (hmem hrequest)
      rw [List.countP_append, List.countP_singleton, Request.isRegister]
      · exact le_rfl
      · exact fun request' hrequest' => nomatch hrequest'
  | panicked i wall panic => exact h.erase le_rfl fun hphase => (h.ready hphase).2
  | report i wall => exact h.erase le_rfl fun hphase => (h.ready hphase).2
  | receive i x phase hresponse hphase =>
      rcases hphase.registered_of with ⟨-, hready, hkept, hnew⟩
      refine h.move (List.eraseIdx_sublist _ _) hready hkept ?_
      intro hregistered
      refine (hnew hregistered).imp_right fun hregister => ?_
      exact List.countP_pos_iff.mpr ⟨x, List.mem_of_getElem? hresponse, hregister⟩
  | disconnect phase hphase =>
      rcases hphase.registered_of with ⟨-, hready, hkept, hnew⟩
      refine h.move (List.Sublist.refl _) hready hkept ?_
      intro hregistered
      exact Or.inl ((hnew hregistered).resolve_right Bool.false_ne_true)
  | shutdown n awaiting hphase =>
      have hregistered : s.phase.registered = true := by rw [hphase, Phase.registered]
      exact h.move (List.Sublist.refl _) (by simp) (fun _ => rfl) fun _ => Or.inl hregistered
  | other op wall => exact ⟨h.ready, h.once, h.gone, h.own⟩

theorem inv_of_run {ttl : Duration} {hpos : 0 < ttl} {tr : List (Act × Event)}
    (h : (membership worker ttl hpos).Run tr s) : Inv worker s := by
  refine h.invariant (inv_init worker ttl hpos) ?_
  intro s a t e hs hstep
  exact hs.step hstep

/-! ## A membership that has ended -/

theorem isMember_of_lookup {r r' : MemoryWorkerRegistry} {w : String} {now : Instant}
    (hlookup : r'.workers.lookup w = r.workers.lookup w) :
    r'.IsMember w now ↔ r.IsMember w now := by
  unfold MemoryWorkerRegistry.IsMember
  rw [hlookup]

/-- A heartbeat leaves the worker a member, unless it did not find it. -/
theorem isMember_heartbeat (r : MemoryWorkerRegistry) (w g : String) (now : Instant)
    (wall : Timestamp) :
    (r.heartbeat w g now wall).1.IsMember w now ↔
      (r.heartbeat w g now wall).2 ≠ .error .unknownWorker := by
  unfold MemoryWorkerRegistry.heartbeat
  split
  · rename_i hnone
    simp only [ne_eq, not_true_eq_false, iff_false]
    rintro ⟨entry, hmember⟩
    rw [MemoryWorkerRegistry.unexpired_eq_some.mpr hmember] at hnone
    cases hnone
  · rename_i entry hsome
    split_ifs with hgeneration
    · exact iff_of_true ⟨entry, MemoryWorkerRegistry.unexpired_eq_some.mp hsome⟩ (by simp)
    · exact iff_of_true
        ⟨_, Finmap.lookup_insert _, Nat.lt_add_of_pos_right r.membershipTtl_pos⟩ (by simp)

/-- A heartbeat makes nobody a member. -/
theorem isMember_of_heartbeat {r : MemoryWorkerRegistry} {w w' g : String} {now : Instant}
    {wall : Timestamp} (h : (r.heartbeat w' g now wall).1.IsMember w now) : r.IsMember w now := by
  by_cases hw : w = w'
  · subst hw
    rcases h with ⟨entry, hentry⟩
    have hfound := (isMember_heartbeat r w g now wall).mp ⟨entry, hentry⟩
    unfold MemoryWorkerRegistry.heartbeat at hfound
    split at hfound
    · simp at hfound
    · rename_i entry' hsome
      exact ⟨entry', MemoryWorkerRegistry.unexpired_eq_some.mp hsome⟩
  · rcases r.heartbeat_eq w' g now wall with hsame | ⟨entry, -, hnew⟩
    · rwa [hsame] at h
    · rw [hnew] at h
      exact (isMember_of_lookup (Finmap.lookup_insert_of_ne _ hw)).mp h

/-- Only a registration makes somebody a member. -/
theorem isMember_of_call {r : MemoryWorkerRegistry} {op : RegistryOp} {w : String}
    {now : Instant} {wall : Timestamp} (h : (r.call op now wall).IsMember w now)
    (hop : ∀ registration, op = .register registration → registration.workerId ≠ w) :
    r.IsMember w now := by
  cases op with
  | register registration =>
      rcases r.register_eq registration now wall with ⟨entry, -, hnew⟩
      have hw : w ≠ registration.workerId := (hop registration rfl).symm
      have h' : (r.register registration now wall).1.IsMember w now := h
      rw [hnew] at h'
      exact (isMember_of_lookup (Finmap.lookup_insert_of_ne _ hw)).mp h'
  | heartbeat w' g => exact isMember_of_heartbeat h
  | availableWorkers =>
      rcases h with ⟨entry, hentry, hlive⟩
      exact ⟨entry, (MemoryWorkerRegistry.availableWorkers_lookup.mp hentry).1, hlive⟩

/-- The worker has registered, is no member any more and has no registration
under way. -/
structure Lapsed (worker : Worker) (s : State) : Prop where
  registered : s.phase.registered = true
  gone : ∀ r ∈ s.requests, r.isRegister = false
  absent : ¬ s.registry.IsMember worker.workerId s.clock

/-- Somebody else registers under the id of the worker. -/
def Act.registers (w : String) : Act → Bool
  | .other (.register registration) _ => registration.workerId = w
  | _ => false

/-- A worker that has registered stays so, and sends no registration again. -/
theorem registered_step (h : s.phase.registered = true)
    (hstep : s.step worker a = some (s', e)) :
    s'.phase.registered = true ∧ ∀ request, e = .sent request → request.isRegister = false := by
  cases step_moves hstep with
  | start hphase =>
      rw [hphase] at h
      cases h
  | tick n observedAt hphase =>
      refine ⟨rfl, ?_⟩
      intro request hrequest
      rw [Event.sent.injEq] at hrequest
      rw [← hrequest]
      rfl
  | forward report n awaiting hphase =>
      refine ⟨h, ?_⟩
      intro request hrequest
      rw [Event.sent.injEq] at hrequest
      rw [← hrequest]
      rfl
  | receive i x phase hresponse hphase =>
      exact ⟨hphase.registered_of.2.2.1 h, fun request hrequest => nomatch hrequest⟩
  | disconnect phase hphase =>
      exact ⟨hphase.registered_of.2.2.1 h, fun request hrequest => nomatch hrequest⟩
  | shutdown n awaiting hphase => exact ⟨rfl, fun request hrequest => nomatch hrequest⟩
  | _ => exact ⟨h, fun request hrequest => nomatch hrequest⟩

/-- The heartbeats of the worker are routed to its own entry. -/
theorem served_heartbeat {r : MemoryWorkerRegistry} {n : Nat} {observedAt : Timestamp}
    {now : Instant} {wall : Timestamp} :
    MemoryWorkerRegistry.service.reportHeartbeat r ⟨some (worker.heartbeat n observedAt)⟩ now
        wall =
      .ok ((r.heartbeat worker.workerId worker.generation now wall).1,
        WorkerRegistry.heartbeatAnswer
          (r.heartbeat worker.workerId worker.generation now wall).2) :=
  MemoryWorkerRegistry.service.reportHeartbeat_routed r worker.workerId_ne worker.generation_ne
    rfl now wall

theorem Lapsed.step (hinv : Inv worker s) (h : Lapsed worker s)
    (ha : a.registers worker.workerId = false) (hstep : s.step worker a = some (s', e)) :
    Lapsed worker s' := by
  have hregistered := (registered_step h.registered hstep).1
  have hinv' := hinv.step hstep
  refine ⟨hregistered, hinv'.gone hregistered, ?_⟩
  cases step_moves hstep with
  | pass duration =>
      rintro ⟨entry, hentry, hlive⟩
      exact h.absent ⟨entry, hentry, lt_of_le_of_lt (Nat.le_add_right _ _) hlive⟩
  | registration i wall request hrequest r hserved =>
      have hgone := h.gone _ (List.mem_of_getElem? hrequest)
      cases hgone
  | heartbeat i wall request hrequest r hserved =>
      rcases (hinv.own request (List.mem_of_getElem? hrequest)).2 with ⟨n, observedAt, rfl⟩
      rw [served_heartbeat] at hserved
      cases hserved
      exact fun hmember => h.absent (isMember_of_heartbeat hmember)
  | other op wall =>
      intro hmember
      refine h.absent (isMember_of_call hmember ?_)
      rintro registration rfl hw
      simp [Act.registers, hw] at ha
  | _ => exact h.absent

/-- Of a worker's heartbeat that was answered: the worker is a member now, or the
answer was that it is not registered. -/
theorem answered_member {request : ReportHeartbeatRequest} {response : Response}
    (hinv : Inv worker s)
    (hstep : s.step worker a = some (s', .answered (.heartbeat request) response)) :
    s'.phase.registered = true ∧
    (s'.registry.IsMember worker.workerId s'.clock ↔
      response ≠ .beat (.error ⟨.notFound, "worker is not registered"⟩)) := by
  generalize he : Event.answered (.heartbeat request) response = e at hstep
  cases step_moves hstep with
  | heartbeat i wall request' hrequest r hserved =>
      cases he
      rcases hinv.own request (List.mem_of_getElem? hrequest) with ⟨hregistered, n, t, rfl⟩
      refine ⟨hregistered, ?_⟩
      rw [served_heartbeat] at hserved
      cases hserved
      dsimp only
      rw [isMember_heartbeat]
      -- the status tells the errors apart
      cases (s.registry.heartbeat worker.workerId worker.generation s.clock wall).2 with
      | ok u => simp [WorkerRegistry.heartbeatAnswer]
      | error error =>
          cases error <;>
            simp [WorkerRegistry.heartbeatAnswer, WorkerRegistry.heartbeatStatus]
  | _ => cases he

end Step

/-! ## The whole run -/

section Run

variable {worker : Worker} {ttl : Duration} {hpos : 0 < ttl} {s t : State}
  {q : List (Act × Event)}

theorem registered_steps (h : t.phase.registered = true)
    (hsteps : (membership worker ttl hpos).Steps t q s) :
    s.phase.registered = true ∧
    ∀ x ∈ q, ∀ request, x.2 = .sent request → request.isRegister = false := by
  induction hsteps with
  | refl => exact ⟨h, by simp⟩
  | @snoc q u v a e _ hstep ih =>
      have hnext := registered_step ih.1 hstep
      refine ⟨hnext.1, ?_⟩
      intro x hx
      rcases List.mem_append.mp hx with hx | hx
      · exact ih.2 x hx
      · rw [List.mem_singleton.mp hx]
        exact hnext.2

theorem lapsed_steps (hinv : Inv worker t) (h : Lapsed worker t)
    (hsteps : (membership worker ttl hpos).Steps t q s)
    (hothers : ∀ x ∈ q, x.1.registers worker.workerId = false) :
    Inv worker s ∧ Lapsed worker s := by
  induction hsteps with
  | refl => exact ⟨hinv, h⟩
  | @snoc q u v a e _ hstep ih =>
      have hu := ih fun x hx => hothers x (List.mem_append_left _ hx)
      exact ⟨hu.1.step hstep, hu.2.step hu.1 (hothers (a, e) (by simp)) hstep⟩

/-- After a heartbeat of a worker was answered, the worker is a member unless the
answer was that it is not registered. In either case it never registers again,
and in the second case it is no member for the rest of the run, unless somebody
else registers under its id. -/
theorem lapse_of_membership {p : List (Act × Event)} {a : Act}
    {request : ReportHeartbeatRequest} {response : Response}
    (h : (membership worker ttl hpos).Run
      (p ++ (a, .answered (.heartbeat request) response) :: q) s) :
    ∃ t, (membership worker ttl hpos).Run (p ++ [(a, .answered (.heartbeat request) response)]) t ∧
      (membership worker ttl hpos).Steps t q s ∧
      (worker.workerId.1 ∈ (t.registry.availableWorkers t.clock).2 ↔
        response ≠ .beat (.error ⟨.notFound, "worker is not registered"⟩)) ∧
      (∀ x ∈ q, ∀ later, x.2 = .sent later → later.isRegister = false) ∧
      (response = .beat (.error ⟨.notFound, "worker is not registered"⟩) →
        (∀ x ∈ q, x.1.registers worker.workerId = false) →
        worker.workerId.1 ∉ (s.registry.availableWorkers s.clock).2) := by
  rcases Machine.Steps.mid h with ⟨u, t, hp, hstep, hq⟩
  have hinv : Inv worker u := inv_of_run hp
  have hinv' : Inv worker t := hinv.step hstep
  have hanswered := answered_member hinv hstep
  refine ⟨t, hp.snoc hstep, hq, ?_, (registered_steps hanswered.1 hq).2, ?_⟩
  · rw [MemoryWorkerRegistry.mem_availableWorkers]
    exact hanswered.2
  · intro hlost hothers
    have hlapsed : Lapsed worker t :=
      ⟨hanswered.1, hinv'.gone hanswered.1, fun hmember => hanswered.2.mp hmember hlost⟩
    rw [MemoryWorkerRegistry.mem_availableWorkers]
    exact (lapsed_steps hinv' hlapsed hq hothers).2.absent

/-- The next request the worker sends. -/
def nextRequest (tr : List (Act × Event)) : Option Request :=
  tr.findSome? fun x =>
    match x.2 with
    | .sent request => some request
    | _ => none

/-- A worker with the ids `w` and `g`. -/
def plainWorker : Worker where
  workerId := ⟨"w", by decide⟩
  workerId_ne := by decide
  generation := ⟨"g", by decide⟩
  generation_ne := by decide
  runtimeAddress := ""
  resources := { cpuMillicores := 1000, memoryBytes := 1024, requiredCapabilities := [] }

/-- The worker registers, and its first heartbeat. -/
def registered : List (Act × Event) :=
  [(.start, .sent (.register ⟨some plainWorker.registration⟩)),
   (.serve 0 0, .answered (.register ⟨some plainWorker.registration⟩)
      (.registered (.ok { accepted := true, leaseId := none }))),
   (.receive 0, .silent),
   (.tick 1, .sent (.heartbeat ⟨some (plainWorker.heartbeat 1 1)⟩)),
   (.pass 30, .silent)]

/-- It arrives when the membership has run out. -/
def notRegistered : Act × Event :=
  (.serve 0 2, .answered (.heartbeat ⟨some (plainWorker.heartbeat 1 1)⟩)
    (.beat (.error ⟨.notFound, "worker is not registered"⟩)))

/-- The loop goes on. -/
def goesOn : List (Act × Event) :=
  [(.receive 0, .silent), (.tick 3, .sent (.heartbeat ⟨some (plainWorker.heartbeat 2 3)⟩))]

theorem lapse_of_membership_outage :
    ∃ s, (membership plainWorker 30 (by decide)).Run (registered ++ notRegistered :: goesOn) s ∧
      "w" ∉ (s.registry.availableWorkers s.clock).2 := by
  rcases Machine.run_of_exec (membership plainWorker 30 (by decide))
    ((registered ++ notRegistered :: goesOn).map Prod.fst)
    (P := fun tr _ => tr = registered ++ notRegistered :: goesOn) (by decide +kernel)
    with ⟨tr, s, hrun, -, rfl⟩
  rcases lapse_of_membership hrun with ⟨t, -, -, -, -, hlapsed⟩
  exact ⟨s, hrun, hlapsed rfl (by decide)⟩

theorem lapse_without_registration :
    ¬ ∀ (worker : Worker) (ttl : Duration) (hpos : 0 < ttl) (p q : List (Act × Event)) (a : Act)
      (request : ReportHeartbeatRequest) (response : Response) (t s : State),
      (membership worker ttl hpos).Run (p ++ [(a, .answered (.heartbeat request) response)]) t →
      (membership worker ttl hpos).Steps t q s →
      worker.workerId.1 ∈ (t.registry.availableWorkers t.clock).2 ∨
        ∀ later, nextRequest q = some later → later.isRegister = true := by
  intro hall
  rcases Machine.run_of_exec (membership plainWorker 30 (by decide))
    ((registered ++ notRegistered :: goesOn).map Prod.fst)
    (P := fun tr _ => tr = registered ++ notRegistered :: goesOn) (by decide +kernel)
    with ⟨tr, s, hrun, -, rfl⟩
  rcases Machine.Steps.mid hrun with ⟨u, t, hp, hstep, hq⟩
  have hrun' := hp.snoc hstep
  have hstep' : u.step plainWorker (.serve 0 2) =
      some (t, .answered (.heartbeat ⟨some (plainWorker.heartbeat 1 1)⟩)
        (.beat (.error ⟨.notFound, "worker is not registered"⟩))) := hstep
  have hmember := (answered_member (inv_of_run hp) hstep').2
  rcases hall plainWorker 30 (by decide) registered goesOn _ _ _ t s hrun' hq with hin | hnext
  · rw [MemoryWorkerRegistry.mem_availableWorkers, hmember] at hin
    exact hin rfl
  · have hregister := hnext _ rfl
    cases hregister

end Run

end Membership

end ThreadWeave
