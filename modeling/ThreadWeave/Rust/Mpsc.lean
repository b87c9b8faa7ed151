import Mathlib.Data.List.Basic

/-!
# Bounded channels

The channel of the asynchronous runtime with many senders and one receiver, as
documented: `send` waits while the buffer is full and fails once the receiver
is gone; the receiver takes values in the order in which they were sent, and
what it has not taken is dropped with it.

Which of several waiting senders goes next is up to the caller of the model.
`Carries` keeps the books: what was sent is what was received and what is still
in the buffer.
-/

namespace Rust

structure Channel (α : Type*) where
  capacity : Nat
  buffer : List α
  /-- the receiver has not been dropped -/
  receiving : Bool
deriving DecidableEq

namespace Channel

variable {α : Type*}

/-- `mpsc::channel(capacity)`. -/
def new (capacity : Nat) : Channel α := { capacity, buffer := [], receiving := true }

/-- `send`: whether the value was taken; `none` while it waits for room. -/
def send (c : Channel α) (x : α) : Option (Channel α × Bool) :=
  if c.receiving then
    if c.buffer.length < c.capacity then some ({ c with buffer := c.buffer ++ [x] }, true)
    else none
  else some (c, false)

/-- `recv` of a value. -/
def recv (c : Channel α) : Option (Channel α × α) :=
  if c.receiving then
    match c.buffer with
    | [] => none
    | x :: rest => some ({ c with buffer := rest }, x)
  else none

/-- The receiver is dropped. -/
def close (c : Channel α) : Channel α := { c with buffer := [], receiving := false }

/-- The books of a channel: values are received in the order of sending, and
while there is a receiver none is missing. -/
structure Carries (c : Channel α) (sent received : List α) : Prop where
  order : received <+: sent
  complete : c.receiving → sent = received ++ c.buffer
  bounded : c.buffer.length ≤ c.capacity

theorem carries_new (capacity : Nat) : (new capacity : Channel α).Carries [] [] :=
  ⟨List.prefix_refl _, fun _ => rfl, Nat.zero_le _⟩

theorem send_cases {c c' : Channel α} {x : α} {taken : Bool} (h : c.send x = some (c', taken)) :
    (taken = true ∧ c.receiving = true ∧ c.buffer.length < c.capacity ∧
      c' = { c with buffer := c.buffer ++ [x] }) ∨
    (taken = false ∧ c.receiving = false ∧ c' = c) := by
  unfold send at h
  split_ifs at h with hrecv hroom
  · cases h
    exact Or.inl ⟨rfl, hrecv, hroom, rfl⟩
  · cases h
    exact Or.inr ⟨rfl, by simpa using hrecv, rfl⟩

theorem recv_cases {c c' : Channel α} {x : α} (h : c.recv = some (c', x)) :
    c.receiving = true ∧ ∃ rest, c.buffer = x :: rest ∧ c' = { c with buffer := rest } := by
  unfold recv at h
  split_ifs at h with hrecv
  split at h
  · cases h
  · rename_i y rest hbuf
    cases h
    exact ⟨hrecv, rest, hbuf, rfl⟩

variable {c c' : Channel α} {sent received : List α} {x : α}

theorem Carries.send (h : c.Carries sent received) {taken : Bool}
    (hs : c.send x = some (c', taken)) :
    c'.Carries (sent ++ if taken then [x] else []) received := by
  rcases send_cases hs with ⟨rfl, hrecv, hroom, rfl⟩ | ⟨rfl, hrecv, rfl⟩
  · refine ⟨h.order.trans (List.prefix_append _ _), ?_, ?_⟩
    · intro _
      simp [h.complete hrecv]
    · rw [List.length_append, List.length_singleton]
      exact hroom
  · simpa using h

theorem Carries.recv (h : c.Carries sent received) (hr : c.recv = some (c', x)) :
    c'.Carries sent (received ++ [x]) := by
  rcases recv_cases hr with ⟨hrecv, rest, hbuf, rfl⟩
  have hsent : sent = received ++ [x] ++ rest := by
    rw [h.complete hrecv, hbuf, List.append_assoc, List.singleton_append]
  refine ⟨hsent ▸ List.prefix_append _ _, fun _ => hsent, ?_⟩
  have hbound := h.bounded
  rw [hbuf, List.length_cons] at hbound
  exact Nat.le_of_succ_le hbound

theorem Carries.close (h : c.Carries sent received) : c.close.Carries sent received :=
  ⟨h.order, by simp [Channel.close], Nat.zero_le _⟩

/-- A channel keeps its capacity. -/
theorem send_capacity {taken : Bool} (h : c.send x = some (c', taken)) :
    c'.capacity = c.capacity := by
  rcases send_cases h with ⟨-, -, -, rfl⟩ | ⟨-, -, rfl⟩ <;> rfl

theorem recv_capacity (h : c.recv = some (c', x)) : c'.capacity = c.capacity := by
  rcases recv_cases h with ⟨-, rest, -, rfl⟩
  rfl

end Channel

end Rust
