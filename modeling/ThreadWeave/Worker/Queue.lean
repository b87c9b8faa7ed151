import ThreadWeave.Worker.Lifecycle

/-!
# `PendingExecutions` under any calls

`PendingState` with the calls of `PendingExecutions` made in any order and by
any session, registered or not: what the type itself promises, whoever uses it.
The runs of the worker are among these runs (`worker_calls`).

* `Performs` — what one call can do.
* `disconnect_effect` — what `disconnect` does in a reachable state.
* `first_handOuts_fifo` — assignments are handed out for the first time in the
  order in which they were enqueued. What was handed out before and came back
  (`disconnect` requeues it) may stand anywhere in the queue; the invariant is
  about the rest of it.
-/

namespace ThreadWeave.Worker

open Runs (HashMap Machine)
open PendingState (Call Reply Accepts)

/-! ## The machine -/

/-- One call; the moves of a session task between two calls are none. -/
def PendingState.step (p : PendingState) : Act → Option (PendingState × Answer)
  | .enqueue a =>
      let r := p.enqueue a
      some (r.1, .enqueued r.2)
  | .call c now =>
      let r := p.onCall c now
      some (r.1, .called r.2)
  | .cancel a reason => some (p, .cancelled (p.cancel a reason))
  | .connect sid sender => some (p.registerSession sid sender, .silent)
  | .nextFor sid =>
      match p.nextFor sid with
      | (p', .empty) => some (p', .silent)
      | (p', .handed a) => some (p', .handed a)
      | (p', .panicked message) => some (p', .panicked message)
  | .disconnect sid ids =>
      if ids.Nodup ∧ ids.toFinset = p.heldBy sid then
        match p.disconnect sid ids with
        | none => some (p, .panicked "selected record exists")
        | some (p', _) => some (p', .silent)
      else none
  | _ => none

/-- `PendingExecutions::default()`, called in any way. -/
def pendingExecutions : Machine PendingState Act Answer where
  init := .empty
  step := PendingState.step

/-- One call, by the branch of the code that is run. -/
inductive Performs (p : PendingState) : Act → Answer → PendingState → Prop where
  | enqueueRefused (a : AssignExecutionRequest) (status : Status) :
      Performs p (.enqueue a) (.enqueued (.error status)) p
  | enqueued (a : AssignExecutionRequest) (hnew : a.assignmentId ∉ p.assignments) :
      Performs p (.enqueue a) (.enqueued (.ok ()))
        { p with
          queue := p.queue ++ [a.assignmentId]
          assignments := p.assignments.insert a.assignmentId (PendingState.newRecord a) }
  | callRefused (c : Call) (now : Instant) (status : Status) :
      Performs p (.call c now) (.called (.error status)) p
  | called (c : Call) (now : Instant) (r : AssignmentRecord) (reply : Reply)
      (hacc : p.Accepts c r) :
      Performs p (.call c now) (.called (.ok reply))
        { p with assignments := p.assignments.insert c.assignmentId (c.advance now r) }
  | cancelled (a : String) (reason : Option String) :
      Performs p (.cancel a reason) (.cancelled (p.cancel a reason)) p
  | opened (sid : String) (sender : Sender) :
      Performs p (.connect sid sender) .silent (p.registerSession sid sender)
  | nothing (sid : String) (hq : p.queue = []) : Performs p (.nextFor sid) .silent p
  | handed (sid id : String) (q : List String) (r : AssignmentRecord) (hq : p.queue = id :: q)
      (hr : p.assignments.lookup id = some r) :
      Performs p (.nextFor sid) (.handed r.assignment)
        { p with
          queue := q
          assignments := p.assignments.insert id
            { r with state := .assigned, sessionId := some sid } }
  | unrecorded (sid id : String) (q : List String) (hq : p.queue = id :: q)
      (hnone : id ∉ p.assignments) :
      Performs p (.nextFor sid) (.panicked "queued assignment exists") { p with queue := q }
  | disconnected (sid : String) (ids : List String) (m : HashMap String AssignmentRecord)
      (hids : ids.toFinset = p.heldBy sid)
      (hm : ∀ k, m.lookup k = if k ∈ p.heldBy sid then
        (p.assignments.lookup k).map PendingState.detach else p.assignments.lookup k) :
      Performs p (.disconnect sid ids) .silent
        { queue := p.queue ++ ids.filter p.isAssigned
          assignments := m
          sessions := p.sessions.erase sid }

theorem step_performs {p p' : PendingState} {a : Act} {ans : Answer}
    (h : pendingExecutions.step p a = some (p', ans)) : Performs p a ans p' := by
  change p.step a = some (p', ans) at h
  cases a with
  | enqueue asg =>
      rcases PendingState.enqueue_cases p asg with ⟨status, he⟩ | ⟨hnew, he⟩
      · simp only [PendingState.step, he, Option.some.injEq, Prod.mk.injEq] at h
        rcases h with ⟨rfl, rfl⟩
        exact .enqueueRefused asg status
      · simp only [PendingState.step, he, Option.some.injEq, Prod.mk.injEq] at h
        rcases h with ⟨rfl, rfl⟩
        exact .enqueued asg hnew
  | call c now =>
      rcases PendingState.onCall_cases p c now with ⟨status, he⟩ | ⟨r, reply, hacc, he⟩
      · simp only [PendingState.step, he, Option.some.injEq, Prod.mk.injEq] at h
        rcases h with ⟨rfl, rfl⟩
        exact .callRefused c now status
      · simp only [PendingState.step, he, Option.some.injEq, Prod.mk.injEq] at h
        rcases h with ⟨rfl, rfl⟩
        exact .called c now r reply hacc
  | cancel asg reason =>
      cases h
      exact .cancelled asg reason
  | connect sid sender =>
      cases h
      exact .opened sid sender
  | nextFor sid =>
      rcases PendingState.nextFor_cases p sid with
        ⟨hq, he⟩ | ⟨id, q, hq, hnone, he⟩ | ⟨id, q, r, hq, hr, he⟩
      · simp only [PendingState.step, he, Option.some.injEq, Prod.mk.injEq] at h
        rcases h with ⟨rfl, rfl⟩
        exact .nothing sid hq
      · simp only [PendingState.step, he, Option.some.injEq, Prod.mk.injEq] at h
        rcases h with ⟨rfl, rfl⟩
        exact .unrecorded sid id q hq hnone
      · simp only [PendingState.step, he, Option.some.injEq, Prod.mk.injEq] at h
        rcases h with ⟨rfl, rfl⟩
        exact .handed sid id q r hq hr
  | disconnect sid ids =>
      simp only [PendingState.step] at h
      split_ifs at h with hguard
      rcases PendingState.disconnect_spec hguard.1 hguard.2 with ⟨m, hdis, hm⟩
      simp only [hdis, Option.some.injEq, Prod.mk.injEq] at h
      rcases h with ⟨rfl, rfl⟩
      exact .disconnected sid ids m hguard.2 hm
  | _ => cases h

/-- The calls among the steps of the worker. -/
def Act.onQueue : Act → Bool
  | .notified _ | .inbound _ | .resume _ | .leave _ => false
  | _ => true

/-- The worker's steps are calls, or leave `PendingState` alone. -/
theorem worker_calls {tr : List (Act × Answer)} {w : WorkerState} (h : worker.Run tr w) :
    pendingExecutions.Run (tr.filter fun x => x.1.onQueue) w.pending := by
  refine h.history (P := fun tr (w : WorkerState) =>
    pendingExecutions.Run (tr.filter fun x => x.1.onQueue) w.pending) ?_ ?_
  · exact Machine.Steps.refl
  intro tr w a w' ans _ ih hs
  change w.step a = some (w', ans) at hs
  rw [List.filter_append]
  -- a step that is a call of `PendingExecutions`
  have hcall (honQueue : a.onQueue = true) (hstep : w.pending.step a = some (w'.pending, ans)) :
      pendingExecutions.Run (tr.filter (fun x => x.1.onQueue) ++
        [(a, ans)].filter fun x => x.1.onQueue) w'.pending := by
    rw [List.filter_cons_of_pos (by simpa using honQueue), List.filter_nil]
    exact ih.snoc hstep
  -- a step of a session task
  have hmove (honQueue : a.onQueue = false) {sid : String} {ready : SessionPc → Bool}
      {pc : SessionPc} (hmoved : w.move sid ready pc = some (w', ans)) :
      pendingExecutions.Run (tr.filter (fun x => x.1.onQueue) ++
        [(a, ans)].filter fun x => x.1.onQueue) w'.pending := by
    unfold WorkerState.move at hmoved
    split_ifs at hmoved
    rw [Option.some.injEq, Prod.mk.injEq] at hmoved
    rw [List.filter_cons_of_neg (by simp [honQueue]), List.filter_nil, List.append_nil,
      ← hmoved.1]
    exact ih
  cases a with
  | enqueue asg =>
      cases hs
      exact hcall rfl rfl
  | call c now =>
      cases hs
      exact hcall rfl rfl
  | cancel asg reason =>
      cases hs
      exact hcall rfl rfl
  | connect sid sender =>
      simp only [WorkerState.step] at hs
      split_ifs at hs
      cases hs
      exact hcall rfl rfl
  | nextFor sid =>
      refine hcall rfl ?_
      simp only [WorkerState.step] at hs
      split_ifs at hs
      unfold PendingState.step
      split at hs
      all_goals rename_i heq; cases hs; simp only [heq]
  | disconnect sid ids =>
      refine hcall rfl ?_
      simp only [WorkerState.step] at hs
      split_ifs at hs with hguard
      simp only [PendingState.step, if_pos hguard.2]
      rcases hdisconnect : w.pending.disconnect sid ids with _ | ⟨p', woken⟩
      · rw [hdisconnect] at hs
        cases hs
        rfl
      · rw [hdisconnect] at hs
        cases hs
        rfl
  | notified sid => exact hmove rfl hs
  | inbound sid => exact hmove rfl hs
  | resume sid => exact hmove rfl hs
  | leave sid => exact hmove rfl hs

/-! ## What holds of the records -/

/-- What is queued has a record, which is kept under its own id; only an
assigned or a running one has a session. -/
structure Kept (p : PendingState) : Prop where
  queued : ∀ id ∈ p.queue, id ∈ p.assignments
  keyed : ∀ id r, p.assignments.lookup id = some r → r.assignment.assignmentId = id
  owned : ∀ id r sid, p.assignments.lookup id = some r → r.sessionId = some sid →
    r.state = .assigned ∨ r.state = .running

/-- A record after the end of a session: as it was, or detached. -/
theorem detached_cases {p : PendingState} {sid id : String} {r : AssignmentRecord}
    {m : HashMap String AssignmentRecord}
    (hm : ∀ k, m.lookup k = if k ∈ p.heldBy sid then
      (p.assignments.lookup k).map PendingState.detach else p.assignments.lookup k)
    (hr : m.lookup id = some r) :
    p.assignments.lookup id = some r ∨
      ∃ r₀, p.assignments.lookup id = some r₀ ∧ r = PendingState.detach r₀ := by
  rw [hm id] at hr
  split_ifs at hr
  · rcases Option.map_eq_some_iff.mp hr with ⟨r₀, hr₀, rfl⟩
    exact Or.inr ⟨r₀, hr₀, rfl⟩
  · exact Or.inl hr

theorem detached_mem {p : PendingState} {sid id : String}
    {m : HashMap String AssignmentRecord}
    (hm : ∀ k, m.lookup k = if k ∈ p.heldBy sid then
      (p.assignments.lookup k).map PendingState.detach else p.assignments.lookup k) :
    id ∈ m ↔ id ∈ p.assignments := by
  rw [← Finmap.lookup_isSome, ← Finmap.lookup_isSome, hm id]
  split_ifs
  · rw [Option.isSome_map]
  · rfl

/-- Assignment `id` is in the state Assigned, to session `sid`. -/
def PendingState.AssignedTo (p : PendingState) (sid id : String) : Prop :=
  ∃ r, p.assignments.lookup id = some r ∧ r.sessionId = some sid ∧ r.state = .assigned

theorem mem_filter_isAssigned {p : PendingState} {sid : String} {ids : List String}
    (hids : ids.toFinset = p.heldBy sid) (id : String) :
    id ∈ ids.filter p.isAssigned ↔ p.AssignedTo sid id := by
  rw [List.mem_filter, ← List.mem_toFinset, hids, PendingState.mem_heldBy]
  unfold PendingState.AssignedTo PendingState.isAssigned
  constructor
  · rintro ⟨⟨r, hr, hsid⟩, hst⟩
    rw [hr, Option.any_some, decide_eq_true_eq] at hst
    exact ⟨r, hr, hsid, hst⟩
  · rintro ⟨r, hr, hsid, hst⟩
    refine ⟨⟨r, hr, hsid⟩, ?_⟩
    rw [hr, Option.any_some, decide_eq_true_eq]
    exact hst

theorem kept_empty : Kept .empty := by
  refine ⟨?_, ?_, ?_⟩
  · simp [PendingState.empty]
  · simp [PendingState.empty]
  · simp [PendingState.empty]

theorem PendingState.Call.advance_owned (c : Call) (now : Instant) (r : AssignmentRecord)
    (hst : r.state = c.requires) {sid : String} (hsid : (c.advance now r).sessionId = some sid) :
    (c.advance now r).state = .assigned ∨ (c.advance now r).state = .running := by
  cases c with
  | started e => exact Or.inr rfl
  | progress e => exact Or.inr hst
  | metrics e => exact Or.inr hst
  | terminal a x n ok => cases hsid

/-- Writing one record. -/
theorem Kept.insert {p p' : PendingState} (h : Kept p) {id : String} {r : AssignmentRecord}
    (hqueue : ∀ id' ∈ p'.queue, id' ∈ p.queue ∨ id' = id)
    (hp' : p'.assignments = p.assignments.insert id r) (hkey : r.assignment.assignmentId = id)
    (hown : ∀ sid, r.sessionId = some sid → r.state = .assigned ∨ r.state = .running) :
    Kept p' := by
  refine ⟨?_, ?_, ?_⟩
  · intro id' hid'
    rw [hp', Finmap.mem_insert]
    rcases hqueue id' hid' with hold | hnew
    · exact Or.inr (h.queued id' hold)
    · exact Or.inl hnew
  · intro id' r' hr'
    rw [hp'] at hr'
    rcases HashMap.lookup_insert_some hr' with ⟨rfl, rfl⟩ | ⟨-, hold⟩
    · exact hkey
    · exact h.keyed id' r' hold
  · intro id' r' sid hr' hsid
    rw [hp'] at hr'
    rcases HashMap.lookup_insert_some hr' with ⟨rfl, rfl⟩ | ⟨-, hold⟩
    · exact hown sid hsid
    · exact h.owned id' r' sid hold hsid

theorem kept_performs {p p' : PendingState} {a : Act} {ans : Answer} (h : Kept p)
    (hs : Performs p a ans p') : Kept p' := by
  cases hs with
  | enqueueRefused asg status => exact h
  | enqueued asg hnew =>
      refine h.insert (by simp) rfl rfl ?_
      intro sid hsid
      cases hsid
  | callRefused c now status => exact h
  | called c now r reply hacc =>
      refine h.insert (fun _ hid => Or.inl hid) rfl ?_ ?_
      · rw [advance_assignment]
        exact h.keyed _ r hacc.found
      · intro sid hsid
        exact c.advance_owned now r hacc.state hsid
  | cancelled asg reason => exact h
  | opened sid sender => exact ⟨h.queued, h.keyed, h.owned⟩
  | nothing sid hq => exact h
  | handed sid id q r hq hr =>
      refine h.insert ?_ rfl (h.keyed id r hr) ?_
      · intro id' hid'
        exact Or.inl (hq ▸ List.mem_cons_of_mem id hid')
      · intro sid' hsid'
        exact Or.inl rfl
  | unrecorded sid id q hq hnone =>
      -- a queued id has a record, so the `expect` holds
      exact absurd (h.queued id (hq ▸ List.mem_cons_self)) hnone
  | disconnected sid ids m hids hm =>
      refine ⟨?_, ?_, ?_⟩
      · intro id hid
        rw [detached_mem hm]
        rcases List.mem_append.mp hid with hold | hback
        · exact h.queued id hold
        · rcases (mem_filter_isAssigned hids id).mp hback with ⟨r, hr, -⟩
          exact Finmap.mem_of_lookup_eq_some hr
      · intro id r hr
        rcases detached_cases hm hr with hold | ⟨r₀, hr₀, rfl⟩
        · exact h.keyed id r hold
        · exact h.keyed id r₀ hr₀
      · intro id r sid' hr hsid'
        rcases detached_cases hm hr with hold | ⟨r₀, hr₀, rfl⟩
        · exact h.owned id r sid' hold hsid'
        · cases hsid'

theorem pending_kept {tr : List (Act × Answer)} {p : PendingState}
    (h : pendingExecutions.Run tr p) : Kept p :=
  h.invariant kept_empty fun _ _ _ _ hk hs => kept_performs hk (step_performs hs)

/-! ## `disconnect` -/

/-- What `disconnect` of `sid` makes of `p`. -/
structure Disconnects (p : PendingState) (sid : String) (p' : PendingState) : Prop where
  sessions : ∀ sid', p'.sessions.lookup sid' =
    if sid' = sid then none else p.sessions.lookup sid'
  queue : ∃ requeued, p'.queue = p.queue ++ requeued ∧ requeued.Nodup ∧
    ∀ id, id ∈ requeued ↔ p.AssignedTo sid id
  assigned : ∀ id r, p.assignments.lookup id = some r → r.sessionId = some sid →
    r.state = .assigned →
    p'.assignments.lookup id = some { r with state := .pending, sessionId := none }
  running : ∀ id r, p.assignments.lookup id = some r → r.sessionId = some sid →
    r.state = .running → p'.assignments.lookup id = some { r with sessionId := none }
  others : ∀ id, (∀ r, p.assignments.lookup id = some r → r.sessionId = some sid →
    r.state ≠ .assigned ∧ r.state ≠ .running) →
    p'.assignments.lookup id = p.assignments.lookup id

/-- Nothing is held by a session that nothing is assigned to. -/
theorem heldBy_eq_empty {p : PendingState} {sid : String}
    (h : ∀ id r, p.assignments.lookup id = some r → r.sessionId ≠ some sid) :
    p.heldBy sid = ∅ := by
  rw [Finset.eq_empty_iff_forall_notMem]
  intro id hid
  rcases PendingState.mem_heldBy.mp hid with ⟨r, hr, hsid⟩
  exact h id r hr hsid

/-- `disconnect` in a reachable state, for every order in which the record map
may yield the records of the session; a second one finds nothing to do. -/
theorem disconnect_effect {tr : List (Act × Answer)} {p : PendingState}
    (h : pendingExecutions.Run tr p) (sid : String) (ids : List String) (hnd : ids.Nodup)
    (hids : ids.toFinset = p.heldBy sid) :
    ∃ p' requeued, p.disconnect sid ids = some (p', requeued) ∧ Disconnects p sid p' ∧
      ∀ ids', ids'.Nodup → ids'.toFinset = p'.heldBy sid →
        p'.disconnect sid ids' = some (p', false) := by
  have hkept : Kept p := pending_kept h
  rcases PendingState.disconnect_spec hnd hids with ⟨m, hdis, hm⟩
  have hheld : ∀ id r, p.assignments.lookup id = some r → r.sessionId = some sid →
      m.lookup id = some (PendingState.detach r) := by
    intro id r hr hsid
    rw [hm id, if_pos (PendingState.mem_heldBy.mpr ⟨r, hr, hsid⟩), hr, Option.map_some]
  refine ⟨_, _, hdis, ⟨?_, ?_, ?_, ?_, ?_⟩, ?_⟩
  · intro sid'
    exact HashMap.lookup_erase_ite _ _ _
  · exact ⟨ids.filter p.isAssigned, rfl, hnd.filter _, mem_filter_isAssigned hids⟩
  · intro id r hr hsid hst
    show m.lookup id = _
    rw [hheld id r hr hsid]
    simp [PendingState.detach, hst]
  · intro id r hr hsid hst
    show m.lookup id = _
    rw [hheld id r hr hsid]
    simp [PendingState.detach, hst]
  · intro id hother
    show m.lookup id = _
    rw [hm id, if_neg]
    intro hmem
    rcases PendingState.mem_heldBy.mp hmem with ⟨r, hr, hsid⟩
    have hne := hother r hr hsid
    rcases hkept.owned id r sid hr hsid with hst | hst
    · exact hne.1 hst
    · exact hne.2 hst
  · intro ids' _ hids'
    -- no record names the session any more
    have hempty : PendingState.heldBy
        { queue := p.queue ++ ids.filter p.isAssigned, assignments := m,
          sessions := p.sessions.erase sid } sid = ∅ := by
      apply heldBy_eq_empty
      intro id r hr hsid
      change m.lookup id = some r at hr
      rw [hm id] at hr
      split_ifs at hr with hmem
      · rcases Option.map_eq_some_iff.mp hr with ⟨r₀, -, rfl⟩
        cases hsid
      · exact hmem (PendingState.mem_heldBy.mpr ⟨r, hr, hsid⟩)
    rw [hempty, List.toFinset_eq_empty_iff] at hids'
    subst hids'
    have herase : (p.sessions.erase sid).erase sid = p.sessions.erase sid :=
      HashMap.erase_of_notMem (by simp [Finmap.mem_erase])
    unfold PendingState.disconnect
    rw [herase]
    rfl

/-- Two sessions; one of them holds a running and an assigned record. -/
def mixedRecords : List Act :=
  [.enqueue (plainAssignment "a" "x" "j"), .enqueue (plainAssignment "b" "y" "k"),
   .enqueue (plainAssignment "c" "z" "l"), .enqueue (plainAssignment "d" "u" "m"),
   .connect "s" ⟨0⟩, .connect "t" ⟨1⟩, .nextFor "s", .nextFor "t", .nextFor "s",
   .call (.started ⟨"a", "x", 1, none⟩) 10]

theorem disconnect_effect_mixedRecords : ∃ tr p,
    pendingExecutions.Run tr p ∧ tr.map Prod.fst = mixedRecords ∧ p.queue = ["d"] ∧
    p.heldBy "s" = {"a", "c"} ∧
    ∃ p' requeued, p.disconnect "s" ["c", "a"] = some (p', requeued) ∧ Disconnects p "s" p' ∧
      ∀ ids', ids'.Nodup → ids'.toFinset = p'.heldBy "s" →
        p'.disconnect "s" ids' = some (p', false) := by
  rcases Machine.run_of_exec pendingExecutions mixedRecords
    (P := fun _ p => p.queue = ["d"] ∧ p.heldBy "s" = {"a", "c"})
    (by decide) with ⟨tr, p, hrun, hacts, hq, hheld⟩
  refine ⟨tr, p, hrun, hacts, hq, hheld, disconnect_effect hrun "s" ["c", "a"] (by decide) ?_⟩
  rw [hheld]
  decide

/-! ## First hand-outs -/

/-- The assignments that have been enqueued, in order. -/
def enqueuedIds (tr : List (Act × Answer)) : List String :=
  tr.filterMap fun x => match observe x with
    | some (.enqueued id) => some id
    | _ => none

/-- The assignments that have been handed out, once for each time, in order. -/
def handedIds (tr : List (Act × Answer)) : List String :=
  tr.filterMap fun x => match observe x with
    | some (.handed id _) => some id
    | _ => none

/-- `a` stands before `b` in `l`. -/
def Precedes (l : List String) (a b : String) : Prop := ∃ u v w, l = u ++ a :: (v ++ b :: w)

/-- Before a new last element stands what stood before, and everything before it. -/
theorem precedes_snoc {l : List String} {x a b : String} (h : Precedes (l ++ [x]) a b) :
    Precedes l a b ∨ (a ∈ l ∧ b = x) := by
  rcases h with ⟨u, v, w, he⟩
  rw [← List.cons_append, ← List.append_assoc] at he
  rcases Runs.snoc_eq_append_cons he with ⟨hl, hx, -⟩ | ⟨w', -, hl⟩
  · exact Or.inr ⟨by simp [hl], hx.symm⟩
  · exact Or.inl ⟨u, v, w', by simp [hl]⟩

/-- In a list without repetitions, what stands before the first element that is
left of it has gone. -/
theorem not_of_precedes_filter {l q : List String} {P : String → Bool} {a b : String}
    (hnd : l.Nodup) (hfilter : l.filter P = b :: q) (hab : Precedes l a b) : P a = false := by
  rcases hab with ⟨u, v, w, rfl⟩
  by_contra hP
  rw [Bool.not_eq_false] at hP
  rw [List.filter_append, List.filter_cons_of_pos hP] at hfilter
  -- the first element that is left comes from `u`, or is `a`
  have hmem : b ∈ u ∨ b = a := by
    rcases hu : u.filter P with _ | ⟨c, u'⟩
    · rw [hu, List.nil_append, List.cons.injEq] at hfilter
      exact Or.inr hfilter.1.symm
    · rw [hu, List.cons_append, List.cons.injEq] at hfilter
      have hc : c ∈ u.filter P := hu ▸ List.mem_cons_self
      exact Or.inl (hfilter.1 ▸ (List.mem_filter.mp hc).1)
  have hb : b ∈ v ++ b :: w := by simp
  rw [List.nodup_append] at hnd
  rcases hmem with hmem | hmem
  · exact hnd.2.2 b hmem b (List.mem_cons_of_mem _ hb) rfl
  · exact (List.nodup_cons.mp hnd.2.1).1 (hmem ▸ hb)

/-- Hand-outs so far follow the order of enqueueing, and so does the part of
the queue that was never handed out. -/
structure Fifo (enqueued handed : List String) (p : PendingState) : Prop where
  distinct : enqueued.Nodup
  recorded : ∀ id ∈ enqueued, id ∈ p.assignments
  known : ∀ id ∈ handed, id ∈ p.assignments
  assigned : ∀ id r, p.assignments.lookup id = some r → r.state = .assigned → id ∈ handed
  fresh : p.queue.filter (fun id => decide (id ∉ handed)) =
    enqueued.filter fun id => decide (id ∉ handed)
  order : ∀ a b, Precedes enqueued a b → b ∈ handed →
    a ∈ handed ∧ handed.idxOf a < handed.idxOf b

theorem fifo_empty : Fifo [] [] .empty := by
  refine ⟨List.nodup_nil, by simp, by simp, ?_, rfl, by simp⟩
  intro id r hr
  simp [PendingState.empty] at hr

section Fifo

variable {enqueued handed : List String} {p p' : PendingState}

/-- A call that neither enqueues nor hands out and assigns nothing. -/
theorem Fifo.keep (h : Fifo enqueued handed p) (hqueue : p'.queue = p.queue)
    (hkeys : ∀ id, id ∈ p.assignments → id ∈ p'.assignments)
    (hassigned : ∀ id r, p'.assignments.lookup id = some r → r.state = .assigned →
      ∃ r₀, p.assignments.lookup id = some r₀ ∧ r₀.state = .assigned) :
    Fifo enqueued handed p' where
  distinct := h.distinct
  recorded := fun id hid => hkeys id (h.recorded id hid)
  known := fun id hid => hkeys id (h.known id hid)
  assigned := by
    intro id r hr hst
    rcases hassigned id r hr hst with ⟨r₀, hr₀, hst₀⟩
    exact h.assigned id r₀ hr₀ hst₀
  fresh := by
    rw [hqueue]
    exact h.fresh
  order := h.order

theorem Fifo.enqueue (h : Fifo enqueued handed p) {a : AssignExecutionRequest}
    (hnew : a.assignmentId ∉ p.assignments) :
    Fifo (enqueued ++ [a.assignmentId]) handed
      { p with
        queue := p.queue ++ [a.assignmentId]
        assignments := p.assignments.insert a.assignmentId (PendingState.newRecord a) } := by
  have hnotin : a.assignmentId ∉ enqueued := fun hid => hnew (h.recorded _ hid)
  have hnothanded : a.assignmentId ∉ handed := fun hid => hnew (h.known _ hid)
  refine ⟨?_, ?_, ?_, ?_, ?_, ?_⟩
  · exact List.nodup_append.mpr ⟨h.distinct, List.nodup_singleton _, by
      rintro x hx y hy rfl
      exact hnotin (List.mem_singleton.mp hy ▸ hx)⟩
  · intro id hid
    rw [List.mem_append, List.mem_singleton] at hid
    rw [Finmap.mem_insert]
    rcases hid with hold | hnewest
    · exact Or.inr (h.recorded id hold)
    · exact Or.inl hnewest
  · intro id hid
    exact Finmap.mem_insert.mpr (Or.inr (h.known id hid))
  · intro id r hr hst
    rcases HashMap.lookup_insert_some hr with ⟨-, rfl⟩ | ⟨-, hold⟩
    · cases hst
    · exact h.assigned id r hold hst
  · show (p.queue ++ [a.assignmentId]).filter _ = _
    rw [List.filter_append, List.filter_append, h.fresh]
  · intro x y hxy hy
    rcases precedes_snoc hxy with hold | ⟨-, rfl⟩
    · exact h.order x y hold hy
    · exact absurd hy hnothanded

/-- What is yet to be handed out after the head of the queue. -/
theorem Fifo.fresh_tail (h : Fifo enqueued handed p) {id : String} {q : List String}
    (hq : p.queue = id :: q) :
    q.filter (fun x => decide (x ∉ handed ++ [id])) =
      enqueued.filter fun x => decide (x ∉ handed ++ [id]) := by
  have hfresh := h.fresh
  rw [hq] at hfresh
  by_cases hid : id ∈ handed
  · -- it was handed out before: nothing new
    have hsame : ∀ x, decide (x ∉ handed ++ [id]) = decide (x ∉ handed) := by
      intro x
      rw [decide_eq_decide, List.mem_append, List.mem_singleton]
      grind
    simp only [hsame]
    rw [List.filter_cons_of_neg (by simpa using hid)] at hfresh
    exact hfresh
  · rw [List.filter_cons_of_pos (by simpa using hid)] at hfresh
    have hrest : ∀ l : List String, l.filter (fun x => decide (x ∉ handed ++ [id])) =
        (l.filter fun x => decide (x ∉ handed)).filter fun x => decide (x ≠ id) := by
      intro l
      rw [List.filter_filter]
      refine List.filter_congr ?_
      intro x _
      rw [← Bool.decide_and, decide_eq_decide, List.mem_append, List.mem_singleton]
      grind
    rw [hrest, hrest, ← hfresh, List.filter_cons_of_neg (by simp)]

/-- The head of the queue comes after everything that was enqueued before it. -/
theorem Fifo.order_head (h : Fifo enqueued handed p) {id a b : String} {q : List String}
    (hq : p.queue = id :: q) (hab : Precedes enqueued a b) (hb : b ∈ handed ++ [id]) :
    a ∈ handed ++ [id] ∧ (handed ++ [id]).idxOf a < (handed ++ [id]).idxOf b := by
  have hidx : ∀ x ∈ handed, (handed ++ [id]).idxOf x = handed.idxOf x := by
    intro x hx
    rw [List.idxOf_append, if_pos hx]
  by_cases hbold : b ∈ handed
  · rcases h.order a b hab hbold with ⟨ha, hlt⟩
    rw [hidx a ha, hidx b hbold]
    exact ⟨List.mem_append_left _ ha, hlt⟩
  · -- handed out for the first time: what was enqueued before it has gone
    have hbid : b = id := by
      rw [List.mem_append, List.mem_singleton] at hb
      exact hb.resolve_left hbold
    subst hbid
    have hfresh := h.fresh
    rw [hq, List.filter_cons_of_pos (by simpa using hbold)] at hfresh
    have ha : a ∈ handed := by
      have hgone := not_of_precedes_filter h.distinct hfresh.symm hab
      simpa using hgone
    refine ⟨List.mem_append_left _ ha, ?_⟩
    rw [hidx a ha, List.idxOf_append, if_neg hbold]
    have hlt : handed.idxOf a < handed.length := List.idxOf_lt_length_iff.mpr ha
    omega

/-- The head of the queue is handed out, possibly not for the first time. -/
theorem Fifo.hand (h : Fifo enqueued handed p) {sid id : String} {q : List String}
    (r : AssignmentRecord) (hq : p.queue = id :: q) :
    Fifo enqueued (handed ++ [id])
      { p with
        queue := q
        assignments := p.assignments.insert id
          { r with state := .assigned, sessionId := some sid } } := by
  refine ⟨h.distinct, ?_, ?_, ?_, h.fresh_tail hq, fun a b => h.order_head hq⟩
  · intro id' hid'
    exact Finmap.mem_insert.mpr (Or.inr (h.recorded id' hid'))
  · intro id' hid'
    rw [List.mem_append, List.mem_singleton] at hid'
    rcases hid' with hold | rfl
    · exact Finmap.mem_insert.mpr (Or.inr (h.known id' hold))
    · exact Finmap.mem_insert.mpr (Or.inl rfl)
  · intro id' r' hr' hst
    rw [List.mem_append, List.mem_singleton]
    rcases HashMap.lookup_insert_some hr' with ⟨rfl, -⟩ | ⟨-, hold⟩
    · exact Or.inr rfl
    · exact Or.inl (h.assigned id' r' hold hst)

/-- What `disconnect` puts back was handed out before. -/
theorem Fifo.disconnect (h : Fifo enqueued handed p) {sid : String} {ids : List String}
    {m : HashMap String AssignmentRecord}
    (hm : ∀ k, m.lookup k = if k ∈ p.heldBy sid then
      (p.assignments.lookup k).map PendingState.detach else p.assignments.lookup k) :
    Fifo enqueued handed
      { queue := p.queue ++ ids.filter p.isAssigned
        assignments := m
        sessions := p.sessions.erase sid } := by
  have hback : (ids.filter p.isAssigned).filter (fun id => decide (id ∉ handed)) = [] := by
    rw [List.filter_eq_nil_iff]
    intro id hid
    have hst := (List.mem_filter.mp hid).2
    rcases (Option.any_eq_true _ _).mp hst with ⟨r, hr, hassigned⟩
    have hhanded := h.assigned id r hr (by simpa using hassigned)
    simpa using hhanded
  refine ⟨h.distinct, fun id hid => (detached_mem hm).mpr (h.recorded id hid),
    fun id hid => (detached_mem hm).mpr (h.known id hid), ?_, ?_, h.order⟩
  · intro id r hr hst
    rcases detached_cases hm hr with hold | ⟨r₀, hr₀, rfl⟩
    · exact h.assigned id r hold hst
    · refine h.assigned id r₀ hr₀ ?_
      by_contra hne
      simp [PendingState.detach, hne] at hst
  · show (p.queue ++ ids.filter p.isAssigned).filter _ = _
    rw [List.filter_append, hback, List.append_nil, h.fresh]

end Fifo

theorem fifo_performs {tr : List (Act × Answer)} {p p' : PendingState} {a : Act} {ans : Answer}
    (hk : Kept p) (h : Fifo (enqueuedIds tr) (handedIds tr) p) (hs : Performs p a ans p') :
    Fifo (enqueuedIds (tr ++ [(a, ans)])) (handedIds (tr ++ [(a, ans)])) p' := by
  unfold enqueuedIds handedIds at h ⊢
  rw [Runs.filterMap_snoc, Runs.filterMap_snoc]
  cases hs with
  | enqueueRefused asg status => simpa [observe] using h
  | enqueued asg hnew =>
      simp only [observe, Option.toList_some, Option.toList_none, List.append_nil]
      exact h.enqueue hnew
  | callRefused c now status => simpa [observe] using h
  | called c now r reply hacc =>
      simp only [observe, Option.toList_none, List.append_nil]
      refine h.keep rfl (fun id hid => Finmap.mem_insert.mpr (Or.inr hid)) ?_
      intro id r' hr' hst
      rcases HashMap.lookup_insert_some hr' with ⟨-, rfl⟩ | ⟨-, hold⟩
      · exact absurd hst (c.advance_not_assigned now r hacc.state)
      · exact ⟨r', hold, hst⟩
  | cancelled asg reason => simpa [observe] using h
  | opened sid sender =>
      simp only [observe, Option.toList_none, List.append_nil]
      exact h.keep rfl (fun id hid => hid) fun id r hr hst => ⟨r, hr, hst⟩
  | nothing sid hq => simpa [observe] using h
  | handed sid id q r hq hr =>
      simp only [observe, hk.keyed id r hr, Option.toList_some, Option.toList_none,
        List.append_nil]
      exact h.hand r hq
  | unrecorded sid id q hq hnone =>
      exact absurd (hk.queued id (hq ▸ List.mem_cons_self)) hnone
  | disconnected sid ids m hids hm =>
      simp only [observe, Option.toList_none, List.append_nil]
      exact h.disconnect hm

theorem pending_fifo {tr : List (Act × Answer)} {p : PendingState}
    (h : pendingExecutions.Run tr p) : Fifo (enqueuedIds tr) (handedIds tr) p := by
  refine h.history (P := fun tr p => Fifo (enqueuedIds tr) (handedIds tr) p) ?_ ?_
  · exact fifo_empty
  · intro tr p a p' ans hrun ih hs
    exact fifo_performs (pending_kept hrun) ih (step_performs hs)

/-- First hand-outs are first-in first-out: what was enqueued before an
assignment that has been handed out has been handed out, and was so first. -/
theorem first_handOuts_fifo {tr : List (Act × Answer)} {p : PendingState}
    (h : pendingExecutions.Run tr p) {a b : String} (hab : Precedes (enqueuedIds tr) a b)
    (hb : b ∈ handedIds tr) :
    a ∈ handedIds tr ∧ (handedIds tr).idxOf a < (handedIds tr).idxOf b :=
  (pending_fifo h).order a b hab hb

/-- The second assignment overtakes the first on its way back into the queue,
after both have been handed out. -/
def overtaking : List Act :=
  [.enqueue (plainAssignment "a" "x" "j"), .connect "s" ⟨0⟩, .nextFor "s",
   .enqueue (plainAssignment "b" "y" "k"), .nextFor "s", .enqueue (plainAssignment "c" "z" "l"),
   .disconnect "s" ["b", "a"], .connect "t" ⟨1⟩, .nextFor "t", .nextFor "t", .nextFor "t"]

theorem first_handOuts_fifo_overtaking : ∃ tr p,
    pendingExecutions.Run tr p ∧ tr.map Prod.fst = overtaking ∧
    handedIds tr = ["a", "b", "c", "b", "a"] ∧
    "a" ∈ handedIds tr ∧ (handedIds tr).idxOf "a" < (handedIds tr).idxOf "b" := by
  rcases Machine.run_of_exec pendingExecutions overtaking
    (P := fun tr _ => enqueuedIds tr = ["a", "b", "c"] ∧
      handedIds tr = ["a", "b", "c", "b", "a"])
    (by decide) with ⟨tr, p, hrun, hacts, henqueued, hhanded⟩
  have hab : Precedes (enqueuedIds tr) "a" "b" := ⟨[], [], ["c"], henqueued⟩
  have hb : "b" ∈ handedIds tr := by
    rw [hhanded]
    decide
  exact ⟨tr, p, hrun, hacts, hhanded, first_handOuts_fifo hrun hab hb⟩

end ThreadWeave.Worker
