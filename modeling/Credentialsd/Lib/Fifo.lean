import Mathlib.Data.List.Basic

/-!
# Channels without a bound

What was sent is kept, and the receiver is a position in it: what it has received is the part
before the position, and what is waiting for it the part after.
-/

structure Fifo (α : Type) where
  sent : List α
  received : Nat
  received_le : received ≤ sent.length
  deriving DecidableEq

namespace Fifo

variable {α : Type}

def empty : Fifo α := ⟨[], 0, Nat.le_refl 0⟩

def taken (c : Fifo α) : List α := c.sent.take c.received

def waiting (c : Fifo α) : List α := c.sent.drop c.received

def send (c : Fifo α) (a : α) : Fifo α where
  sent := c.sent ++ [a]
  received := c.received
  received_le := by
    have h := c.received_le
    rw [List.length_append]
    omega

def recv (c : Fifo α) : Option (α × Fifo α) :=
  if h : c.received < c.sent.length then
    some (c.sent[c.received], { c with received := c.received + 1, received_le := h })
  else none

@[simp] theorem empty_sent : (empty : Fifo α).sent = [] := rfl

@[simp] theorem empty_taken : (empty : Fifo α).taken = [] := rfl

@[simp] theorem empty_waiting : (empty : Fifo α).waiting = [] := rfl

@[simp] theorem send_sent (c : Fifo α) (a : α) : (c.send a).sent = c.sent ++ [a] := rfl

/-- Nothing is lost, and nothing comes twice or out of order. -/
theorem taken_append_waiting (c : Fifo α) : c.taken ++ c.waiting = c.sent :=
  List.take_append_drop c.received c.sent

@[simp] theorem send_taken (c : Fifo α) (a : α) : (c.send a).taken = c.taken :=
  List.take_append_of_le_length c.received_le

@[simp] theorem send_waiting (c : Fifo α) (a : α) : (c.send a).waiting = c.waiting ++ [a] :=
  List.drop_append_of_le_length c.received_le

theorem recv_some {c c' : Fifo α} {a : α} (h : c.recv = some (a, c')) :
    c'.sent = c.sent ∧ c'.taken = c.taken ++ [a] ∧ c.waiting = a :: c'.waiting := by
  unfold recv at h
  split at h
  · rename_i hlt
    cases h
    refine ⟨rfl, ?_, ?_⟩
    · show c.sent.take (c.received + 1) = _
      rw [List.take_add_one, List.getElem?_eq_getElem hlt]
      rfl
    · show c.sent.drop c.received = _
      rw [List.drop_eq_getElem_cons hlt]
      rfl
  · cases h

theorem recv_none_iff {c : Fifo α} : c.recv = none ↔ c.waiting = [] := by
  have hle := c.received_le
  unfold recv waiting
  rw [List.drop_eq_nil_iff]
  split
  · rename_i hlt
    exact iff_of_false (Option.some_ne_none _) (by omega)
  · rename_i hlt
    exact iff_of_true rfl (by omega)

theorem mem_of_recv {c c' : Fifo α} {a : α} (h : c.recv = some (a, c')) : a ∈ c.sent := by
  obtain ⟨-, -, hwaiting⟩ := recv_some h
  rw [← taken_append_waiting, hwaiting]
  exact List.mem_append_right _ (List.mem_cons_self ..)

end Fifo
