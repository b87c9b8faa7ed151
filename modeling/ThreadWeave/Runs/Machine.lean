import Mathlib.Data.List.Basic

/-!
# Machines, runs and the rules for them

A machine has one initial state and a step function that either refuses an
action (`none`: the action is not enabled) or yields the next state and what
the action answered. All nondeterminism (scheduling, failures of the
environment, fresh names, clock readings) sits in the action, so that a run
is a list of actions with their answers and is executable.

* `Steps` / `Run` — runs from any state / from the initial state, built at
  the end, so that the last step is the one an induction peels off.
* `Run.invariant` — the invariant rule.
* `Run.history` — the same for a property of the state *and* the trace that
  led to it.
* `Run.forall_mem` — a fact about each step, for every entry of a trace.
* `Conforms` — every step of a run was taken from a state that meets a
  side condition, and `Run.history_conforms`, the history rule relative to it.
* `Run.simulation`, `Run.simulation_where` — the runs of one machine read as runs of
  another.
* `exec` — run a list of actions; `run_of_exec` and `conforms_of_checks` turn
  what evaluation says into a `Run` and into `Conforms`.
-/

namespace Runs

/-- Where a marked entry stands after one more entry was appended: it is the
new one, or it stood there before. -/
theorem snoc_eq_append_cons {γ : Type*} {l u v : List γ} {x y : γ}
    (h : l ++ [x] = u ++ y :: v) :
    (l = u ∧ x = y ∧ v = []) ∨ ∃ v', v = v' ++ [x] ∧ l = u ++ y :: v' := by
  rcases List.eq_nil_or_concat v with rfl | ⟨v', z, rfl⟩
  · obtain ⟨hl, hx⟩ := List.append_inj' h rfl
    exact Or.inl ⟨hl, List.singleton_inj.mp hx, rfl⟩
  · rw [List.concat_eq_append, ← List.cons_append, ← List.append_assoc] at h
    obtain ⟨hl, hx⟩ := List.append_inj' h rfl
    rw [List.singleton_inj] at hx
    exact Or.inr ⟨v', by rw [List.concat_eq_append, hx], hl⟩

/-- What a trace shows, after one more entry. -/
theorem filterMap_snoc {γ δ : Type*} (f : γ → Option δ) (l : List γ) (x : γ) :
    (l ++ [x]).filterMap f = l.filterMap f ++ (f x).toList := by
  rw [List.filterMap_append]
  cases hx : f x <;> simp [hx]

/-- What a trace has shown it still shows after more entries. -/
theorem mem_filterMap_append {γ δ : Type*} {f : γ → Option δ} {l : List γ} {d : δ}
    (h : d ∈ l.filterMap f) (l' : List γ) : d ∈ (l ++ l').filterMap f := by
  rw [List.filterMap_append]
  exact List.mem_append_left _ h

/-- A deterministic labelled machine: `step s a` is the successor of `s` and
the answer to `a`, or `none` where `a` is not enabled. -/
structure Machine (σ α β : Type*) where
  init : σ
  step : σ → α → Option (σ × β)

namespace Machine

variable {σ α β : Type*} {M : Machine σ α β}

/-- `Steps s tr t`: the actions and answers of `tr` lead from `s` to `t`. -/
inductive Steps (M : Machine σ α β) (s : σ) : List (α × β) → σ → Prop where
  | refl : Steps M s [] s
  | snoc {tr : List (α × β)} {t u : σ} {a : α} {b : β} :
      Steps M s tr t → M.step t a = some (u, b) → Steps M s (tr ++ [(a, b)]) u

/-- A run from the initial state. -/
def Run (M : Machine σ α β) (tr : List (α × β)) (s : σ) : Prop := M.Steps M.init tr s

theorem Run.snoc {tr : List (α × β)} {s t : σ} {a : α} {b : β}
    (h : M.Run tr s) (hs : M.step s a = some (t, b)) : M.Run (tr ++ [(a, b)]) t :=
  Steps.snoc h hs

/-! ## Cutting and joining -/

theorem Steps.trans {s t u : σ} {p q : List (α × β)}
    (h : M.Steps s p t) (h' : M.Steps t q u) : M.Steps s (p ++ q) u := by
  induction h' with
  | refl => simpa using h
  | snoc _ hstep ih =>
      rw [← List.append_assoc]
      exact ih.snoc hstep

/-- A run whose trace is `p ++ q` passes through a state between the two. -/
theorem Steps.split {s u : σ} {p q : List (α × β)} (h : M.Steps s (p ++ q) u) :
    ∃ t, M.Steps s p t ∧ M.Steps t q u := by
  generalize htr : p ++ q = tr at h
  induction h generalizing q with
  | refl =>
      obtain ⟨rfl, rfl⟩ := List.append_eq_nil_iff.mp htr
      exact ⟨s, .refl, .refl⟩
  | @snoc tr₀ t₀ u₀ a b h₀ hstep ih =>
      rcases List.eq_nil_or_concat q with rfl | ⟨q₀, x, rfl⟩
      · rw [List.append_nil] at htr
        exact ⟨u₀, htr ▸ h₀.snoc hstep, .refl⟩
      · rw [List.concat_eq_append, ← List.append_assoc] at htr
        obtain ⟨htr₀, hx⟩ := List.append_inj' htr rfl
        obtain ⟨t, hp, hq⟩ := ih htr₀
        rw [List.singleton_inj] at hx
        rw [List.concat_eq_append, hx]
        exact ⟨t, hp, hq.snoc hstep⟩

/-- The step in the middle of a run. -/
theorem Steps.mid {s u : σ} {p q : List (α × β)} {x : α × β}
    (h : M.Steps s (p ++ x :: q) u) :
    ∃ t t', M.Steps s p t ∧ M.step t x.1 = some (t', x.2) ∧ M.Steps t' q u := by
  rw [← List.singleton_append, ← List.append_assoc] at h
  obtain ⟨t', hp, hq⟩ := h.split
  generalize htr : p ++ [x] = tr at hp
  cases hp with
  | refl => simp at htr
  | @snoc tr₀ t _ a b h₀ hstep =>
      obtain ⟨rfl, hx⟩ := List.append_inj' htr rfl
      rw [List.singleton_inj] at hx
      exact ⟨t, t', h₀, hx ▸ hstep, hq⟩

/-- The machine is deterministic: its actions determine a run. -/
theorem Steps.eq_of_acts {s t t' : σ} {tr tr' : List (α × β)} (h : M.Steps s tr t)
    (h' : M.Steps s tr' t') (hacts : tr.map Prod.fst = tr'.map Prod.fst) :
    tr = tr' ∧ t = t' := by
  induction h generalizing tr' t' with
  | refl =>
      cases h' with
      | refl => exact ⟨rfl, rfl⟩
      | snoc => simp at hacts
  | @snoc tr₀ t₀ t₁ a b h₀ hstep ih =>
      cases h' with
      | refl => simp at hacts
      | @snoc tr₁ u₀ _ a' b' h₁ hstep' =>
          rw [List.map_append, List.map_append] at hacts
          obtain ⟨hinit, hlast⟩ := List.append_inj' hacts rfl
          obtain ⟨rfl, rfl⟩ := ih h₁ hinit
          have ha : a = a' := List.singleton_inj.mp hlast
          subst ha
          rw [hstep, Option.some.injEq, Prod.mk.injEq] at hstep'
          obtain ⟨rfl, rfl⟩ := hstep'
          exact ⟨rfl, rfl⟩

/-- A trace determines its last state. -/
theorem Steps.det {s t u : σ} {tr : List (α × β)}
    (h : M.Steps s tr t) (h' : M.Steps s tr u) : t = u :=
  (h.eq_of_acts h' rfl).2

/-- The first step of a run. -/
theorem Steps.first {s u : σ} {x : α × β} {q : List (α × β)} (h : M.Steps s (x :: q) u) :
    ∃ t, M.step s x.1 = some (t, x.2) ∧ M.Steps t q u := by
  obtain ⟨s', t, hs', hstep, hq⟩ := Steps.mid (p := []) h
  obtain rfl : s = s' := Steps.det .refl hs'
  exact ⟨t, hstep, hq⟩

/-- The last step of a run. -/
theorem Steps.last {s u : σ} {p : List (α × β)} {x : α × β} (h : M.Steps s (p ++ [x]) u) :
    ∃ t, M.Steps s p t ∧ M.step t x.1 = some (u, x.2) := by
  obtain ⟨t, u', hp, hstep, hu⟩ := h.mid
  obtain rfl : u' = u := Steps.det .refl hu
  exact ⟨t, hp, hstep⟩

/-! ## Rules -/

/-- The invariant rule. -/
theorem Run.invariant {I : σ → Prop} (hinit : I M.init)
    (hstep : ∀ s a t b, I s → M.step s a = some (t, b) → I t)
    {tr : List (α × β)} {s : σ} (h : M.Run tr s) : I s := by
  induction h with
  | refl => exact hinit
  | snoc _ hs ih => exact hstep _ _ _ _ ih hs

/-- The history rule: a property of the state and the trace that led to it. -/
theorem Run.history {P : List (α × β) → σ → Prop} (hinit : P [] M.init)
    (hstep : ∀ tr s a t b, M.Run tr s → P tr s → M.step s a = some (t, b) →
      P (tr ++ [(a, b)]) t)
    {tr : List (α × β)} {s : σ} (h : M.Run tr s) : P tr s := by
  induction h with
  | refl => exact hinit
  | snoc h₀ hs ih => exact hstep _ _ _ _ _ h₀ ih hs

/-- A fact about each single step, taken from a state that satisfies the
invariant, holds of every entry of the trace. -/
theorem Run.forall_mem {I : σ → Prop} {Q : α × β → Prop} (hinit : I M.init)
    (hstep : ∀ s a t b, I s → M.step s a = some (t, b) → I t ∧ Q (a, b))
    {tr : List (α × β)} {s : σ} (h : M.Run tr s) : ∀ x ∈ tr, Q x := by
  have hall : I s ∧ ∀ x ∈ tr, Q x := by
    induction h with
    | refl => exact ⟨hinit, by simp⟩
    | snoc _ hs ih =>
        have hnext := hstep _ _ _ _ ih.1 hs
        refine ⟨hnext.1, ?_⟩
        intro x hx
        rcases List.mem_append.mp hx with hold | hnew
        · exact ih.2 x hold
        · rw [List.mem_singleton] at hnew
          exact hnew ▸ hnext.2
  exact hall.2

/-! ## Runs whose steps meet a condition -/

/-- Every step of the run with trace `tr` was taken from a state where `C`
allows it. -/
def Conforms (M : Machine σ α β) (C : σ → α → Prop) (tr : List (α × β)) : Prop :=
  ∀ p x q s, tr = p ++ x :: q → M.Run p s → C s x.1

theorem Conforms.of_append {C : σ → α → Prop} {p q : List (α × β)}
    (h : M.Conforms C (p ++ q)) : M.Conforms C p := by
  intro p' x q' s hp hs
  exact h p' x (q' ++ q) s (by simp [hp]) hs

theorem Conforms.last {C : σ → α → Prop} {tr : List (α × β)} {x : α × β} {s : σ}
    (h : M.Conforms C (tr ++ [x])) (hs : M.Run tr s) : C s x.1 :=
  h tr x [] s rfl hs

/-- The history rule for runs that conform to `C`. -/
theorem Run.history_conforms {C : σ → α → Prop} {P : List (α × β) → σ → Prop}
    (hinit : P [] M.init)
    (hstep : ∀ tr s a t b, M.Run tr s → P tr s → C s a → M.step s a = some (t, b) →
      P (tr ++ [(a, b)]) t)
    {tr : List (α × β)} {s : σ} (h : M.Run tr s) (hC : M.Conforms C tr) : P tr s := by
  induction h with
  | refl => exact hinit
  | snoc h₀ hs ih => exact hstep _ _ _ _ _ h₀ (ih hC.of_append) (hC.last h₀) hs

/-! ## Simulation -/

/-- The simulation rule. Related states start related, and each step of `M` is
matched from a related state by the steps of `N` that `f` reads off its label:
then a run of `M`, read through `f`, is a run of `N`. -/
theorem Run.simulation {τ γ δ : Type*} {N : Machine τ γ δ} {R : σ → τ → Prop}
    {f : α × β → List (γ × δ)} (hinit : R M.init N.init)
    (hstep : ∀ s a t b s', R s s' → M.step s a = some (t, b) →
      ∃ t', N.Steps s' (f (a, b)) t' ∧ R t t')
    {tr : List (α × β)} {s : σ} (h : M.Run tr s) :
    ∃ s', N.Run (tr.flatMap f) s' ∧ R s s' := by
  induction h with
  | refl => exact ⟨N.init, .refl, hinit⟩
  | snoc _ hs ih =>
      obtain ⟨s', hrun, hrel⟩ := ih
      obtain ⟨t', hsteps, hrel'⟩ := hstep _ _ _ _ s' hrel hs
      refine ⟨t', ?_, hrel'⟩
      rw [List.flatMap_append, List.flatMap_singleton]
      exact Steps.trans hrun hsteps

/-- The simulation rule where one step is matched by one step, for runs of whose
steps each is one that `C` allows after what came before it. -/
theorem Run.simulation_where {τ γ δ : Type*} {N : Machine τ γ δ} {R : σ → τ → Prop}
    {f : α × β → γ × δ} {C : List (α × β) → α → Prop} (hinit : R M.init N.init)
    (hstep : ∀ p s s' a t b, M.Run p s → N.Run (p.map f) s' → R s s' → C p a →
      M.step s a = some (t, b) →
      ∃ t', N.step s' (f (a, b)).1 = some (t', (f (a, b)).2) ∧ R t t')
    {tr : List (α × β)} {s : σ} (h : M.Run tr s)
    (hC : ∀ p a b q, tr = p ++ (a, b) :: q → C p a) :
    ∃ s', N.Run (tr.map f) s' ∧ R s s' := by
  induction h with
  | refl => exact ⟨N.init, .refl, hinit⟩
  | @snoc p s t a b h₀ hs ih =>
      have hp : ∀ u a' b' v, p = u ++ (a', b') :: v → C u a' := by
        rintro u a' b' v rfl
        exact hC u a' b' (v ++ [(a, b)]) (by simp)
      obtain ⟨s', hrun, hrel⟩ := ih hp
      obtain ⟨t', hs', hrel'⟩ := hstep p s s' a t b h₀ hrun hrel (hC p a b [] rfl) hs
      refine ⟨t', ?_, hrel'⟩
      rw [List.map_append]
      exact hrun.snoc hs'

/-! ## Execution -/

/-- Run a list of actions from `s`, collecting the answers. -/
def exec (M : Machine σ α β) (s : σ) : List α → Option (σ × List (α × β))
  | [] => some (s, [])
  | a :: as =>
      (M.step s a).bind fun r => (M.exec r.1 as).map fun q => (q.1, (a, r.2) :: q.2)

theorem steps_of_exec {s t : σ} {as : List α} {tr : List (α × β)}
    (h : M.exec s as = some (t, tr)) : M.Steps s tr t := by
  induction as generalizing s tr with
  | nil =>
      simp only [exec, Option.some.injEq, Prod.mk.injEq] at h
      obtain ⟨rfl, rfl⟩ := h
      exact .refl
  | cons a as ih =>
      simp only [exec, Option.bind_eq_some_iff, Option.map_eq_some_iff, Prod.mk.injEq] at h
      obtain ⟨⟨u, b⟩, hstep, ⟨t', tr'⟩, hexec, rfl, rfl⟩ := h
      have hone : M.Steps s [(a, b)] u := Steps.snoc .refl hstep
      exact hone.trans (ih hexec)

theorem map_fst_of_exec {s t : σ} {as : List α} {tr : List (α × β)}
    (h : M.exec s as = some (t, tr)) : tr.map Prod.fst = as := by
  induction as generalizing s tr with
  | nil =>
      simp only [exec, Option.some.injEq, Prod.mk.injEq] at h
      rw [← h.2, List.map_nil]
  | cons a as ih =>
      simp only [exec, Option.bind_eq_some_iff, Option.map_eq_some_iff, Prod.mk.injEq] at h
      obtain ⟨⟨u, b⟩, hstep, ⟨t', tr'⟩, hexec, rfl, rfl⟩ := h
      rw [List.map_cons, ih hexec]

/-- Steps with given actions, and what evaluation says about them. -/
theorem exists_steps_of_exec (M : Machine σ α β) (s : σ) (as : List α)
    {P : List (α × β) → σ → Prop} [∀ tr s, Decidable (P tr s)]
    (h : (M.exec s as).any fun r => decide (P r.2 r.1)) :
    ∃ tr t, M.Steps s tr t ∧ tr.map Prod.fst = as ∧ P tr t := by
  obtain ⟨⟨t, tr⟩, hexec, hP⟩ := (Option.any_eq_true _ _).mp h
  exact ⟨tr, t, steps_of_exec hexec, map_fst_of_exec hexec, of_decide_eq_true hP⟩

/-- A run with given actions, and what evaluation says about it. -/
theorem run_of_exec (M : Machine σ α β) (as : List α) {P : List (α × β) → σ → Prop}
    [∀ tr s, Decidable (P tr s)]
    (h : (M.exec M.init as).any fun r => decide (P r.2 r.1)) :
    ∃ tr s, M.Run tr s ∧ tr.map Prod.fst = as ∧ P tr s :=
  exists_steps_of_exec M M.init as h

/-- A run with given actions and steps that go on from it, and what evaluation
says about the two. -/
theorem runs_of_exec (M : Machine σ α β) (as bs : List α) {P Q : List (α × β) → σ → Prop}
    [∀ tr s, Decidable (P tr s)] [∀ tr s, Decidable (Q tr s)]
    (h : (M.exec M.init as).any fun r =>
      decide (P r.2 r.1) && (M.exec r.1 bs).any fun r' => decide (Q r'.2 r'.1)) :
    ∃ tr s q t, M.Run tr s ∧ M.Steps s q t ∧ tr.map Prod.fst = as ∧ q.map Prod.fst = bs ∧
      P tr s ∧ Q q t := by
  obtain ⟨⟨s, tr⟩, hexec, hPQ⟩ := (Option.any_eq_true _ _).mp h
  rw [Bool.and_eq_true] at hPQ
  obtain ⟨q, t, hsteps, hacts, hQ⟩ := exists_steps_of_exec M s bs hPQ.2
  exact ⟨tr, s, q, t, steps_of_exec hexec, hsteps, map_fst_of_exec hexec, hacts,
    of_decide_eq_true hPQ.1, hQ⟩

/-- Whether each of the actions is allowed by `C` where it is taken. -/
def checks (M : Machine σ α β) (C : σ → α → Prop) [∀ s a, Decidable (C s a)] (s : σ) :
    List α → Bool
  | [] => true
  | a :: as => decide (C s a) && (M.step s a).all fun r => M.checks C r.1 as

theorem conforms_of_checks {C : σ → α → Prop} [∀ s a, Decidable (C s a)]
    {tr : List (α × β)} (h : M.checks C M.init (tr.map Prod.fst)) : M.Conforms C tr := by
  suffices hall : ∀ (s : σ) (p : List (α × β)) x q t,
      M.checks C s ((p ++ x :: q).map Prod.fst) → M.Steps s p t → C t x.1 by
    intro p x q t htr hrun
    exact hall M.init p x q t (htr ▸ h) hrun
  intro s p x q t
  induction p generalizing s with
  | nil =>
      intro hchk hsteps
      have hst : s = t := Steps.det .refl hsteps
      simp only [List.nil_append, List.map_cons, checks, Bool.and_eq_true,
        decide_eq_true_eq] at hchk
      exact hst ▸ hchk.1
  | cons y p ih =>
      intro hchk hsteps
      obtain ⟨s₁, hstep, hrest⟩ := hsteps.first
      simp only [List.cons_append, List.map_cons, checks, hstep, Option.all_some,
        Bool.and_eq_true] at hchk
      exact ih s₁ hchk.2 hrest

end Machine

end Runs
