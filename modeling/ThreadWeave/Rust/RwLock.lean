import Mathlib.Data.Option.Basic
import Mathlib.Tactic.SplitIfs

/-!
# A value behind a lock

`std::sync::RwLock`, as documented, where every access takes the write guard for
as long as it runs. Code that panics while it holds the guard leaves the value
as it is at that moment and poisons the lock; from then on no access gets to the
value.
-/

namespace Rust

/-- How code that holds the guard ends, and the value it leaves behind. -/
inductive Guarded (α β : Type*) where
  | returned (value : α) (answer : β)
  | panicked (value : α)

structure RwLock (α : Type*) where
  value : α
  poisoned : Bool
deriving DecidableEq

namespace RwLock

variable {α β : Type*}

/-- `RwLock::new`. -/
def new (value : α) : RwLock α := { value, poisoned := false }

/-- `write`, and what is done under the guard; `refused` is the answer where the
lock is poisoned, and no answer is a panic. -/
def write (lock : RwLock α) (refused : β) (body : α → Guarded α β) : RwLock α × Option β :=
  if lock.poisoned then (lock, some refused)
  else
    match body lock.value with
    | .returned value answer => ({ lock with value := value }, some answer)
    | .panicked value => ({ value := value, poisoned := true }, none)

theorem write_poisoned {lock : RwLock α} (h : lock.poisoned = true) (refused : β)
    (body : α → Guarded α β) : lock.write refused body = (lock, some refused) := by
  rw [write, if_pos h]

theorem write_returned {lock : RwLock α} (h : lock.poisoned = false) (refused : β)
    (body : α → Guarded α β) {value : α} {answer : β}
    (hbody : body lock.value = .returned value answer) :
    lock.write refused body = ({ value, poisoned := false }, some answer) := by
  rw [write, h, if_neg Bool.false_ne_true, hbody]

theorem write_panicked {lock : RwLock α} (h : lock.poisoned = false) (refused : β)
    (body : α → Guarded α β) {value : α} (hbody : body lock.value = .panicked value) :
    lock.write refused body = ({ value, poisoned := true }, none) := by
  rw [write, h, if_neg Bool.false_ne_true, hbody]

/-- An answer is the refusal of a poisoned lock, or what the code returned. -/
theorem write_answered {lock lock' : RwLock α} {refused answer : β} {body : α → Guarded α β}
    (h : lock.write refused body = (lock', some answer)) :
    lock' = lock ∧ answer = refused ∨
    lock'.poisoned = lock.poisoned ∧ body lock.value = .returned lock'.value answer := by
  unfold write at h
  split_ifs at h with hpoisoned
  · cases h
    exact Or.inl ⟨rfl, rfl⟩
  · split at h
    · rename_i value answer' hbody
      cases h
      exact Or.inr ⟨rfl, hbody⟩
    · cases h

end RwLock

end Rust
