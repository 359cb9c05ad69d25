import Mathlib.Data.List.Basic

/-!
# One receiver of a bounded broadcast channel

The sender never waits: when the buffer is full it overwrites the oldest value,
and the receiver learns at its next receive that it lags behind. A receive
outcome of `none` means that the receiver waits.
-/

structure Broadcast (α : Type) where
  queue : List α
  lagged : Bool
  deriving Repr, DecidableEq

namespace Broadcast

variable {α : Type}

inductive RecvError where
  | lagged
  | closed
  deriving Repr, DecidableEq

def subscribe : Broadcast α := ⟨[], false⟩

def send (capacity : Nat) (b : Broadcast α) (a : α) : Broadcast α :=
  if b.queue.length < capacity then { b with queue := b.queue ++ [a] }
  else ⟨b.queue.tail ++ [a], true⟩

/-- `closed`: every sender is gone. -/
def recv (closed : Bool) (b : Broadcast α) : Option (Except RecvError α × Broadcast α) :=
  if b.lagged then some (.error .lagged, { b with lagged := false })
  else match b.queue with
    | a :: rest => some (.ok a, { b with queue := rest })
    | [] => if closed then some (.error .closed, b) else none

theorem recv_ok {closed : Bool} {b b' : Broadcast α} {a : α}
    (h : recv closed b = some (.ok a, b')) :
    b.lagged = false ∧ b'.lagged = false ∧ b.queue = a :: b'.queue := by
  unfold recv at h
  split at h
  · cases h
  · rename_i hl
    have hlag : b.lagged = false := by simpa using hl
    split at h
    · rename_i x rest hq
      cases h
      exact ⟨hlag, hlag, hq⟩
    · split at h <;> cases h

theorem recv_error {closed : Bool} {b b' : Broadcast α} {err : RecvError}
    (h : recv closed b = some (.error err, b')) : b.lagged = true ∨ b.queue = [] := by
  unfold recv at h
  split at h
  · exact Or.inl ‹_›
  · split at h
    · cases h
    · exact Or.inr ‹_›

/- A receive that fails takes nothing from the queue. -/
theorem recv_error_queue {closed : Bool} {b b' : Broadcast α} {err : RecvError}
    (h : recv closed b = some (.error err, b')) : b'.queue = b.queue := by
  unfold recv at h
  split at h
  · cases h
    rfl
  · split at h
    · cases h
    · split at h <;> cases h
      rfl

theorem mem_send {capacity : Nat} {b : Broadcast α} {a x : α}
    (h : x ∈ (send capacity b a).queue) : x ∈ b.queue ∨ x = a := by
  unfold send at h
  split at h
  · rcases List.mem_append.mp h with hold | hnew
    · exact Or.inl hold
    · exact Or.inr (List.mem_singleton.mp hnew)
  · rcases List.mem_append.mp h with hold | hnew
    · exact Or.inl (List.mem_of_mem_tail hold)
    · exact Or.inr (List.mem_singleton.mp hnew)

end Broadcast
