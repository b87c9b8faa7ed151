import ThreadWeave.Worker.Lifecycle

/-!
# Exclusive hand-out

An assignment that `next_for` has given to a session goes to another one only
after the first session has been disconnected, and only while it has not been
started. The invariant follows each hand-out through the rest of the trace:
it is either `Released` by a disconnect of its session, or it is still in
force (`InForce`), no later hand-out has happened and the record says so.
-/

namespace ThreadWeave.Worker

open Runs (HashMap Machine)
open PendingState (Call Reply Accepts)

/-- The observations of a trace. -/
def observations (tr : List (Act × Answer)) : List Obs := tr.filterMap observe

/-- No `Started` event was accepted for `id`. -/
def NotStarted (id : String) (os : List Obs) : Prop :=
  ∀ e, .accepted (.started e) ∈ os → e.assignmentId ≠ id

/-- The hand-out of `id` to `sid` after `u` was ended by a disconnect of `sid`
in `v`, before the assignment was started. -/
def Released (id sid : String) (u v : List Obs) : Prop :=
  ∃ v₁ v₂, v = v₁ ++ .disconnected sid :: v₂ ∧ NotStarted id (u ++ .handed id sid :: v₁)

/-- The hand-out of `id` to `sid` is the last one and the record shows it. -/
def InForce (p : PendingState) (id sid : String) (v : List Obs) : Prop :=
  (∀ sid', .handed id sid' ∉ v) ∧
  ∃ r, p.assignments.lookup id = some r ∧ r.state ≠ .pending ∧
    (r.state = .assigned → r.sessionId = some sid)

/-- Every hand-out of the trace is released or in force. -/
def HandOuts (os : List Obs) (p : PendingState) : Prop :=
  ∀ id sid u v, os = u ++ .handed id sid :: v → Released id sid u v ∨ InForce p id sid v

/-! ## Started assignments -/

theorem notStarted_of_accepted {tr : List (Act × Answer)} {id : String}
    (h : accepted tr id = []) : NotStarted id (observations tr) := by
  intro e he hid
  have hmem : Call.started e ∈ accepted tr id := by
    rw [accepted, List.mem_filterMap]
    exact ⟨_, he, by simp [acceptedIn, Call.assignmentId, hid]⟩
  rw [h] at hmem
  cases hmem

/-- A record that is pending or assigned belongs to an assignment that has not
been started. -/
theorem History.notStarted {tr : List (Act × Answer)} {p : PendingState} (h : History tr p)
    {id : String} {r : AssignmentRecord} (hr : p.assignments.lookup id = some r)
    (hst : r.state = .pending ∨ r.state = .assigned) : NotStarted id (observations tr) := by
  have hstage := (h.of_some hr).stage
  apply notStarted_of_accepted
  rcases hst with hst | hst
  · rw [hst] at hstage
    exact hstage
  · rw [hst] at hstage
    exact hstage

/-! ## Steps -/

theorem Released.snoc {id sid : String} {u v : List Obs} (h : Released id sid u v) (o : Obs) :
    Released id sid u (v ++ [o]) := by
  rcases h with ⟨v₁, v₂, hv, hns⟩
  exact ⟨v₁, v₂ ++ [o], by simp [hv], hns⟩

/-- A hand-out stays in force under a step that is not a hand-out and after
which the record is still out of the queue. -/
theorem InForce.snoc {p p' : PendingState} {id sid : String} {v : List Obs} {o : Obs}
    {r' : AssignmentRecord} (h : InForce p id sid v) (ho : ∀ sid', o ≠ .handed id sid')
    (hr' : p'.assignments.lookup id = some r') (hst : r'.state ≠ .pending)
    (hsess : r'.state = .assigned → r'.sessionId = some sid) :
    InForce p' id sid (v ++ [o]) := by
  refine ⟨?_, r', hr', hst, hsess⟩
  intro sid' hmem
  rcases List.mem_append.mp hmem with hold | hnew
  · exact h.1 sid' hold
  · rw [List.mem_singleton] at hnew
    exact ho sid' hnew.symm

/-- A session goes: its own hand-out is released if it had not been started, any
other one stays in force. -/
theorem InForce.disconnect {tr : List (Act × Answer)} {p p' : PendingState}
    {id sid sid₀ : String} {u v : List Obs} (h : InForce p id sid v) (hh : History tr p)
    (hos : observations tr = u ++ .handed id sid :: v)
    (hm : ∀ k, p'.assignments.lookup k = if k ∈ p.heldBy sid₀ then
      (p.assignments.lookup k).map PendingState.detach else p.assignments.lookup k) :
    Released id sid u (v ++ [.disconnected sid₀]) ∨
    InForce p' id sid (v ++ [.disconnected sid₀]) := by
  have hforce := h
  rcases h with ⟨-, r, hr, hst, hsess⟩
  have hm' := hm id
  rw [hr] at hm'
  by_cases hheld : id ∈ p.heldBy sid₀
  · rw [if_pos hheld] at hm'
    by_cases hasg : r.state = .assigned
    · -- its own session goes away before the start: released here
      rcases PendingState.mem_heldBy.mp hheld with ⟨r₀, hr₀, hsid₀⟩
      rw [hr] at hr₀
      cases hr₀
      have hsid : sid₀ = sid := by
        have hs := hsess hasg
        rw [hsid₀] at hs
        exact Option.some.inj hs
      subst hsid
      left
      have hns := hh.notStarted hr (Or.inr hasg)
      rw [hos] at hns
      exact ⟨v, [], rfl, hns⟩
    · -- started already: the record is detached but not queued again
      right
      refine hforce.snoc (by simp) hm' ?_ ?_
      · simpa [PendingState.detach, hasg] using hst
      · simp [PendingState.detach, hasg]
  · rw [if_neg hheld] at hm'
    exact Or.inr (hforce.snoc (by simp) hm' hst hsess)

theorem handOuts_step {tr : List (Act × Answer)} {p p' : PendingState} {o : Obs}
    (hrep : Rep p) (hh : History tr p) (h : HandOuts (observations tr) p)
    (he : Effect p (some o) p') : HandOuts (observations tr ++ [o]) p' := by
  intro id sid u v hos
  rcases Runs.snoc_eq_append_cons hos with ⟨hu, hx, hv⟩ | ⟨v', rfl, hold⟩
  · -- the new observation is itself the hand-out in question
    subst hv hx
    right
    generalize ho : some (Obs.handed id sid) = o at he
    cases he with
    | handed sid₀ id₀ q r hsid hq hr =>
        cases ho
        exact ⟨by simp, _, Finmap.lookup_insert _, by simp, by simp⟩
    | quiet => cases ho
    | opened => cases ho
    | enqueued => cases ho
    | accepted => cases ho
    | disconnected => cases ho
  · rcases h id sid u v' hold with hrel | hforce
    · exact Or.inl (hrel.snoc o)
    · -- a hand-out in force: follow its record through the step
      have hforce' := hforce
      rcases hforce with ⟨hlast, r, hr, hst, hsess⟩
      cases he with
      | enqueued a hnew =>
          right
          refine hforce'.snoc (by simp) ?_ hst hsess
          have hne : id ≠ a.assignmentId := fun he => hnew (he ▸ Finmap.mem_of_lookup_eq_some hr)
          simp [hne, hr]
      | accepted c now rc hacc =>
          right
          by_cases hid : id = c.assignmentId
          · subst hid
            -- an accepted call leaves the record neither pending nor assigned
            have hrc : rc.state = c.requires := hacc.state
            refine hforce'.snoc (by simp) (Finmap.lookup_insert _)
              (c.advance_not_pending now rc hrc) ?_
            intro hasg
            exact absurd hasg (c.advance_not_assigned now rc hrc)
          · refine hforce'.snoc (by simp) ?_ hst hsess
            simp [hid, hr]
      | handed sid₀ id₀ q r₀ hsid hq hr₀ =>
          right
          -- the head of the queue is pending, so it is another assignment
          have hne : id ≠ id₀ := by
            intro he
            subst he
            rw [hr] at hr₀
            cases hr₀
            exact hst (hrep.head_pending hq hr)
          refine hforce'.snoc ?_ ?_ hst hsess
          · intro sid' heq
            cases heq
            exact hne rfl
          · simp [hne, hr]
      | disconnected sid₀ ids m hnd hids hm => exact hforce'.disconnect hh hold hm

theorem observations_snoc (tr : List (Act × Answer)) (x : Act × Answer) :
    observations (tr ++ [x]) = observations tr ++ (observe x).toList :=
  Runs.filterMap_snoc observe tr x

theorem worker_handOuts {tr : List (Act × Answer)} {w : WorkerState} (h : worker.Run tr w) :
    HandOuts (observations tr) w.pending := by
  refine h.history (P := fun tr w => HandOuts (observations tr) w.pending) ?_ ?_
  · intro id sid u v hos
    simp [observations] at hos
  · intro tr w a w' ans hrun hh hs
    have hinv : Inv w := worker_inv hrun
    have heff := (step_effect hinv hs).2.2
    rw [observations_snoc]
    cases ho : observe (a, ans) with
    | some o =>
        rw [ho] at heff
        exact handOuts_step hinv.rep (worker_history hrun) hh heff
    | none =>
        rw [ho] at heff
        rw [Option.toList_none, List.append_nil]
        generalize w'.pending = p' at heff ⊢
        cases heff with
        | quiet => exact hh
        | opened sid sender => exact hh

/-! ## Disconnected sessions stay disconnected -/

/-- A task that has run `disconnect` is over. -/
theorem closed_stays {w w' : WorkerState} {a : Act} {ans : Answer} {sid : String}
    (h : worker.step w a = some (w', ans)) (hc : w.tasks.lookup sid = some .closed) :
    w'.tasks.lookup sid = some .closed := by
  -- a task that moves was not closed, so it is another one
  have hother : ∀ sid' pc pc', w.tasks.lookup sid' = some pc → pc ≠ .closed →
      (w.tasks.insert sid' pc').lookup sid = some .closed := by
    intro sid' pc pc' hpc hne
    have hdiff : sid ≠ sid' := by
      intro he
      rw [he, hpc] at hc
      exact hne (Option.some.inj hc)
    rw [Finmap.lookup_insert_of_ne _ hdiff, hc]
  cases step_works h with
  | connected sid' sender hnew =>
      have hdiff : sid ≠ sid' := fun he => hnew (he ▸ Finmap.mem_of_lookup_eq_some hc)
      exact (Finmap.lookup_insert_of_ne _ hdiff).trans hc
  | waits sid' hpc => exact hother sid' _ _ hpc (by simp)
  | handed sid' id q r hpc hq hr => exact hother sid' _ _ hpc (by simp)
  | moved a sid' pc pc' ha hpc hne hne' => exact hother sid' pc pc' hpc hne
  | disconnected sid' ids m hpc hnd hids hm => exact hother sid' _ _ hpc (by simp)
  | _ => exact hc

theorem closed_of_disconnected {w w' : WorkerState} {a : Act} {ans : Answer} {sid : String}
    (h : worker.step w a = some (w', ans)) (ho : observe (a, ans) = some (.disconnected sid)) :
    w'.tasks.lookup sid = some .closed := by
  cases step_works h with
  | disconnected sid' ids m hpc hnd hids hm =>
      cases ho
      exact Finmap.lookup_insert _
  | moved a sid' pc pc' ha hpc hne hne' =>
      simp only [List.mem_cons, List.not_mem_nil, or_false] at ha
      rcases ha with rfl | rfl | rfl | rfl <;> cases ho
  | _ => cases ho

/-- A session that was disconnected is not registered any more. -/
theorem not_connected_of_disconnected {tr : List (Act × Answer)} {w : WorkerState}
    (h : worker.Run tr w) {sid : String} (hd : .disconnected sid ∈ observations tr) :
    sid ∉ w.pending.sessions := by
  have hclosed : .disconnected sid ∈ observations tr → w.tasks.lookup sid = some .closed := by
    refine h.history (P := fun tr w => .disconnected sid ∈ observations tr →
      w.tasks.lookup sid = some .closed) ?_ ?_
    · simp [observations]
    · intro tr w a w' ans hrun ih hs hmem
      rw [observations_snoc, List.mem_append] at hmem
      rcases hmem with hold | hnew
      · exact closed_stays hs (ih hold)
      · refine closed_of_disconnected hs ?_
        simpa using hnew
  intro hsid
  rcases ((worker_inv h).sessions sid).mp hsid with ⟨pc, hpc, hne⟩
  rw [hclosed hd] at hpc
  exact hne (Option.some.inj hpc).symm

/-! ## The law -/

/-- The run up to one of its observations, and the step that made it. -/
theorem run_to_observation {tr : List (Act × Answer)} {w : WorkerState} (h : worker.Run tr w)
    {u v : List Obs} {o : Obs} (ho : observations tr = u ++ o :: v) :
    ∃ tr₁ w₁ p₂, worker.Run tr₁ w₁ ∧ observations tr₁ = u ∧ Inv w₁ ∧
      Effect w₁.pending (some o) p₂ := by
  rcases List.filterMap_eq_append_iff.mp ho with ⟨tr₁, tr', rfl, htr₁, htr'⟩
  rcases List.filterMap_eq_cons_iff.mp htr' with ⟨silent, x, tr₂, rfl, hsilent, hx, -⟩
  rw [← List.append_assoc] at h
  rcases Machine.Steps.mid h with ⟨w₁, w₂, hrun, hstep, -⟩
  have hinv : Inv w₁ := worker_inv hrun
  refine ⟨tr₁ ++ silent, w₁, w₂.pending, hrun, ?_, hinv, hx ▸ (step_effect hinv hstep).2.2⟩
  have hnil : silent.filterMap observe = [] := List.filterMap_eq_nil_iff.mpr hsilent
  simp [observations, htr₁, hnil]

/-- `next_for` hands out a pending assignment. -/
theorem handed_pending {p p' : PendingState} {id sid : String} (hrep : Rep p)
    (h : Effect p (some (.handed id sid)) p') :
    ∃ r, p.assignments.lookup id = some r ∧ r.state = .pending := by
  cases h with
  | handed sid id q r hsid hq hr => exact ⟨r, hr, hrep.head_pending hq hr⟩

theorem released_between {tr : List (Act × Answer)} {w : WorkerState} (h : worker.Run tr w)
    {id s₁ s₂ : String} {u q v : List Obs}
    (ho : observations tr = u ++ .handed id s₁ :: (q ++ .handed id s₂ :: v)) :
    Released id s₁ u q := by
  rw [← List.cons_append, ← List.append_assoc] at ho
  rcases run_to_observation h ho with ⟨tr₁, w₁, p₂, hrun, hobs, hinv, heff⟩
  rcases worker_handOuts hrun id s₁ u q hobs with hrel | ⟨-, r, hr, hst, -⟩
  · exact hrel
  · -- the second hand-out takes a pending record, so the first is not in force
    rcases handed_pending hinv.rep heff with ⟨r', hr', hst'⟩
    rw [hr] at hr'
    cases hr'
    exact absurd hst' hst

theorem not_handed_after_start {tr : List (Act × Answer)} {w : WorkerState}
    (h : worker.Run tr w) {id : String} {u v : List Obs} {e : ExecutionStarted}
    (ho : observations tr = u ++ .accepted (.started e) :: v) (he : e.assignmentId = id)
    (sid : String) : .handed id sid ∉ v := by
  intro hmem
  rcases List.append_of_mem hmem with ⟨v₁, v₂, rfl⟩
  rw [← List.cons_append, ← List.append_assoc] at ho
  rcases run_to_observation h ho with ⟨tr₁, w₁, p₂, hrun, hobs, hinv, heff⟩
  rcases handed_pending hinv.rep heff with ⟨r, hr, hst⟩
  have hns := (worker_history hrun).notStarted hr (Or.inl hst)
  exact hns e (by simp [hobs]) he

/-- **Exclusive hand-out.** Between two hand-outs of an assignment the first
session was disconnected before any start; so at most one connected session
holds an assignment that has not been started, and a started assignment is
never handed out again. -/
theorem exclusive_handOut {tr : List (Act × Answer)} {w : WorkerState} (h : worker.Run tr w)
    (id : String) :
    (∀ s₁ s₂ u q v, observations tr = u ++ .handed id s₁ :: (q ++ .handed id s₂ :: v) →
      ∃ q₁ q₂, q = q₁ ++ .disconnected s₁ :: q₂ ∧
        NotStarted id (u ++ .handed id s₁ :: q₁)) ∧
    (∀ s₁ s₂, NotStarted id (observations tr) → .handed id s₁ ∈ observations tr →
      .handed id s₂ ∈ observations tr → s₁ ∈ w.pending.sessions →
      s₂ ∈ w.pending.sessions → s₁ = s₂) ∧
    (∀ u e v, observations tr = u ++ .accepted (.started e) :: v → e.assignmentId = id →
      ∀ sid, .handed id sid ∉ v) := by
  refine ⟨fun s₁ s₂ u q v ho => released_between h ho, ?_,
    fun u e v ho he => not_handed_after_start h ho he⟩
  intro s₁ s₂ _ h₁ h₂ hc₁ hc₂
  -- of two sessions that were handed `id`, the earlier one is disconnected
  have hgone : ∀ a b u q v, observations tr = u ++ .handed id a :: (q ++ .handed id b :: v) →
      a ∉ w.pending.sessions := by
    intro a b u q v ho
    rcases released_between h ho with ⟨q₁, q₂, rfl, -⟩
    exact not_connected_of_disconnected h (by simp [ho])
  by_contra hne
  rcases List.append_of_mem h₁ with ⟨u, v, ho⟩
  rw [ho, List.mem_append, List.mem_cons] at h₂
  -- the other hand-out comes before, is this one, or comes after
  rcases h₂ with hbefore | hsame | hafter
  · rcases List.append_of_mem hbefore with ⟨u₁, u₂, rfl⟩
    exact hgone s₂ s₁ u₁ u₂ v (by simp [ho]) hc₂
  · cases hsame
    exact hne rfl
  · rcases List.append_of_mem hafter with ⟨v₁, v₂, rfl⟩
    exact hgone s₁ s₂ u v₁ v₂ ho hc₁

theorem exclusive_handOut_twoAssignments : ∃ tr w,
    worker.Run tr w ∧
    (∃ u q v, observations tr = u ++ .handed "b" "s" :: (q ++ .handed "b" "t" :: v) ∧
      .disconnected "s" ∈ q) ∧ NotStarted "b" (observations tr) := by
  rcases Machine.run_of_exec worker twoAssignments
    (P := fun tr _ => observations tr =
      [.enqueued "a", .enqueued "b", .handed "a" "s"] ++ .handed "b" "s" ::
        ([.accepted (.started ⟨"a", "x", 1, none⟩), .disconnected "s"] ++ .handed "b" "t" ::
          [.accepted (.terminal "a" "x" 2 true)]))
    (by decide) with ⟨tr, w, hrun, -, hobs⟩
  refine ⟨tr, w, hrun, ⟨_, _, _, hobs, ?_⟩, ?_⟩
  · rcases (exclusive_handOut hrun "b").1 "s" "t" _ _ _ hobs with ⟨q₁, q₂, hq, -⟩
    rw [hq]
    simp
  · intro e he
    rw [hobs] at he
    simp at he
    simp [he]

end ThreadWeave.Worker
