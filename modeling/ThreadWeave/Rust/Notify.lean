import ThreadWeave.Runs.Table

/-!
# `Notify`

The notification primitive of the asynchronous runtime, as documented: a
`Notify` holds at most one permit, and hands out futures (`Notified`) that
complete when they are notified.

* `notifyOne` completes one future that waits, or stores the permit.
* `notifyWaiters` completes every future created so far and stores nothing.
* `poll` takes the permit or registers the future, the first time.
* `drop` passes on a notification that its future has not observed.

Which of several waiting futures `notifyOne` completes is up to the caller of the
model (`target`). The lemmas say where the notification goes: to a future that
is now complete, or to the permit, and then nobody waits.
-/

namespace Rust

open Runs (HashMap)

/-- A `Notified` future whose completion has not been observed yet. -/
inductive Notified where
  /-- not polled yet; `called`: `notify_waiters` has been called meanwhile -/
  | fresh (called : Bool)
  | registered
  /-- completed by `notify_one` -/
  | one
  /-- completed by `notify_waiters` -/
  | all
deriving DecidableEq

/-- What `notify_waiters` makes of a future. -/
def Notified.call : Notified → Notified
  | .fresh _ => .fresh true
  | .registered => .all
  | completed => completed

/-- A future that is not complete: it is notified, or it finds a permit at its
first poll, or it waits. -/
def Notified.Incomplete (f : Notified) : Prop := f = .fresh false ∨ f = .registered

instance (f : Notified) : Decidable f.Incomplete := inferInstanceAs (Decidable (_ ∨ _))

theorem Notified.not_incomplete_call (f : Notified) : ¬ f.call.Incomplete := by
  cases f <;> simp [Notified.call, Notified.Incomplete]

structure Notify (ι : Type*) where
  permit : Bool
  futures : HashMap ι Notified

namespace Notify

variable {ι : Type*} [DecidableEq ι]

def new : Notify ι := { permit := false, futures := ∅ }

/-- `notified()`: a future under the name `i`. -/
def notified (n : Notify ι) (i : ι) : Notify ι :=
  { n with futures := n.futures.insert i (.fresh false) }

def notifyOne (n : Notify ι) (target : Option ι) : Option (Notify ι) :=
  match target with
  | some i =>
      if n.futures.lookup i = some .registered then
        some { n with futures := n.futures.insert i .one }
      else none
  | none =>
      if Notified.registered ∈ HashMap.collect some n.futures then none
      else some { n with permit := true }

def notifyWaiters (n : Notify ι) : Notify ι :=
  { n with futures := HashMap.mapValues Notified.call n.futures }

/-- A poll of the future `i`; whether it is ready. -/
def poll (n : Notify ι) (i : ι) : Option (Notify ι × Bool) :=
  let observed : HashMap ι Notified := n.futures.erase i
  match n.futures.lookup i with
  | none => none
  | some (.fresh called) =>
      if n.permit then some ({ permit := false, futures := observed }, true)
      else if called then some ({ n with futures := observed }, true)
      else some ({ n with futures := n.futures.insert i .registered }, false)
  | some .registered => some (n, false)
  | some .one => some ({ n with futures := observed }, true)
  | some .all => some ({ n with futures := observed }, true)

/-- The future `i` is dropped, if there is one. -/
def drop (n : Notify ι) (i : ι) (target : Option ι) : Option (Notify ι) :=
  let dropped : Notify ι := { n with futures := n.futures.erase i }
  if n.futures.lookup i = some .one then dropped.notifyOne target else some dropped

variable {n n' : Notify ι} {i : ι} {target : Option ι}

/-- Where a notification goes. -/
theorem notifyOne_cases (h : n.notifyOne target = some n') :
    (∃ j, target = some j ∧ n.futures.lookup j = some .registered ∧
      n' = { n with futures := n.futures.insert j .one }) ∨
    ((∀ j, n.futures.lookup j ≠ some .registered) ∧ n' = { n with permit := true }) := by
  cases target with
  | some j =>
      simp only [notifyOne] at h
      split_ifs at h with hj
      exact Or.inl ⟨j, rfl, hj, (Option.some.inj h).symm⟩
  | none =>
      simp only [notifyOne] at h
      split_ifs at h with hnone
      refine Or.inr ⟨?_, (Option.some.inj h).symm⟩
      intro j hj
      exact hnone (HashMap.mem_collect.mpr ⟨j, _, hj, rfl⟩)

theorem mem_of_notifyOne (h : n.notifyOne target = some n') {j : ι} (hj : j ∈ n'.futures) :
    j ∈ n.futures := by
  rcases notifyOne_cases h with ⟨k, -, hk, rfl⟩ | ⟨-, rfl⟩
  · rcases Finmap.mem_insert.mp hj with rfl | hold
    · exact Finmap.mem_of_lookup_eq_some hk
    · exact hold
  · exact hj

theorem mem_notifyWaiters {j : ι} : j ∈ n.notifyWaiters.futures ↔ j ∈ n.futures := by
  simp only [Finmap.mem_iff, notifyWaiters, HashMap.lookup_mapValues, Option.map_eq_some_iff]
  constructor
  · rintro ⟨_, f, hf, -⟩
    exact ⟨f, hf⟩
  · rintro ⟨f, hf⟩
    exact ⟨_, f, hf, rfl⟩

/-- After `notify_waiters` every future there is has been notified. -/
theorem complete_of_notifyWaiters {j : ι} {f : Notified}
    (hf : n.notifyWaiters.futures.lookup j = some f) : ¬ f.Incomplete := by
  rw [notifyWaiters, HashMap.lookup_mapValues] at hf
  obtain ⟨f₀, -, rfl⟩ := Option.map_eq_some_iff.mp hf
  exact Notified.not_incomplete_call f₀

/-- What a poll finds: a notification or the permit, and the future is gone; or
neither, and it waits. -/
theorem poll_cases {ready : Bool} (h : n.poll i = some (n', ready)) :
    (ready = true ∧ n'.futures = n.futures.erase i) ∨
    (ready = false ∧ n' = n) ∨
    (ready = false ∧ n.permit = false ∧ n.futures.lookup i = some (.fresh false) ∧
      n' = { n with futures := n.futures.insert i .registered }) := by
  unfold poll at h
  dsimp only at h
  split at h
  · cases h
  · rename_i called hf
    split_ifs at h with hpermit hcalled
    · cases h
      exact Or.inl ⟨rfl, rfl⟩
    · cases h
      exact Or.inl ⟨rfl, rfl⟩
    · cases h
      rw [Bool.not_eq_true] at hpermit hcalled
      exact Or.inr (Or.inr ⟨rfl, hpermit, hcalled ▸ hf, rfl⟩)
  · cases h
    exact Or.inr (Or.inl ⟨rfl, rfl⟩)
  · cases h
    exact Or.inl ⟨rfl, rfl⟩
  · cases h
    exact Or.inl ⟨rfl, rfl⟩

theorem mem_of_drop (h : n.drop i target = some n') {j : ι} (hj : j ∈ n'.futures) :
    j ≠ i ∧ j ∈ n.futures := by
  unfold drop at h
  dsimp only at h
  split_ifs at h with hone
  · exact Finmap.mem_erase.mp (mem_of_notifyOne h hj)
  · cases h
    exact Finmap.mem_erase.mp hj

end Notify

end Rust
